/-
  A round of the reward formula: what a failed one leaves behind, and what a day of them costs.

  1. **A failed round.**  `BeginBlock` calls a failed round skipped.  A round writes in two places:
     it moves its total from the reserve to the distribution module, and then it credits one validator
     after the other.  If the first write fails, nothing has happened; if one of the others does, the
     total has left the reserve and some validators are credited, others not, and nothing puts it
     back.  So the round is skipped exactly when it fails before a credit (`failed_round_atomic_iff`).

  2. **A day.**  `MaxTotalPerDay` is divided among the blocks of a day, rounded down, and a
     per-block budget of 0 means "no budget".  A positive daily budget of fewer units than the day has
     blocks therefore disappears.  It holds exactly when it is at least one unit a block, or when no
     validator can earn a unit a block anyway (`daily_budget_iff`): otherwise one validator that earns
     one unit a block takes out more than the budget in a day.
-/
import Gemba.Rewards.RewardStreamer

namespace Gemba.Rewards.RewardStreamer

open Gemba.Lib Gemba.Sdk

/-! ## A failed round -/

section
variable {D : Type} {K : Keepers D} {store : Option Stream.Params} {formula : Option FormulaParams}
  {height : Nat} {bank bank' : Bank} {distr distr' : D} {bonded : Outcome (List Validator)}
  {fault : Option Fault} {r : Outcome Int}

/-- The round's total leaves the reserve: there is something to pay and the send goes through. -/
def TotalMoves (formula : Option FormulaParams) (height : Nat) (bank : Bank)
    (bonded : Outcome (List Validator)) (fault : Option Fault) : Prop :=
  ∃ allocs total, round (getFormulaParams formula) height
      (bank.balance reserveAccount (getFormulaParams formula).rewardDenom) bonded
        = .ok (some (allocs, total)) ∧
    succeeds (bank.send fault reserveAccount distributionAccount
      [⟨(getFormulaParams formula).rewardDenom, total⟩])

/-- **What a round does to the bank**: nothing, or the one move of a positive total. -/
theorem streamFormulaRewards_bank
    (h : streamFormulaRewards K formula height bank distr bonded fault = (r, bank', distr')) :
    (¬ (TotalMoves formula height bank bonded fault ∧ formulaActive K formula = true) ∧
        bank' = bank ∧ distr' = distr) ∨
      (formulaActive K formula = true ∧ ∃ allocs total,
        round (getFormulaParams formula) height
            (bank.balance reserveAccount (getFormulaParams formula).rewardDenom) bonded
          = .ok (some (allocs, total)) ∧
        bank.send fault reserveAccount distributionAccount
            [⟨(getFormulaParams formula).rewardDenom, total⟩] = .ok bank' ∧
        credit K (getFormulaParams formula).rewardDenom allocs distr
          = ((credit K (getFormulaParams formula).rewardDenom allocs distr).1, distr')) := by
  unfold streamFormulaRewards at h
  dsimp only at h
  split at h
  · rename_i hoff
    injection h with _ h
    injection h with hb hd
    refine Or.inl ⟨?_, hb.symm, hd.symm⟩
    rintro ⟨-, hactive⟩
    unfold formulaActive at hactive
    rw [Bool.and_eq_true] at hactive
    rcases hoff with hoff | hoff
    · rw [hactive.2] at hoff
      nomatch hoff
    · rw [hactive.1] at hoff
      nomatch hoff
  rename_i hon
  rw [not_or, Bool.not_eq_false, Bool.not_eq_false] at hon
  have hactive : formulaActive K formula = true := by
    unfold formulaActive
    rw [hon.1, hon.2]
    rfl
  have hidle : ∀ {x : Outcome (Option (List Alloc × Int))},
      round (getFormulaParams formula) height
        (bank.balance reserveAccount (getFormulaParams formula).rewardDenom) bonded = x →
      (∀ allocs total, x ≠ .ok (some (allocs, total))) →
      ¬ (TotalMoves formula height bank bonded fault ∧ formulaActive K formula = true) := by
    rintro x hx hne ⟨⟨allocs, total, hround, -⟩, -⟩
    exact hne allocs total (hx.symm.trans hround)
  split at h
  · rename_i hround
    injection h with _ h
    injection h with hb hd
    exact Or.inl ⟨hidle hround (fun _ _ he => nomatch he), hb.symm, hd.symm⟩
  · rename_i hround
    injection h with _ h
    injection h with hb hd
    exact Or.inl ⟨hidle hround (fun _ _ he => nomatch he), hb.symm, hd.symm⟩
  · rename_i allocs total hround
    split at h
    · rename_i e hsend
      injection h with _ h
      injection h with hb hd
      refine Or.inl ⟨?_, hb.symm, hd.symm⟩
      -- the send fails, so the total does not leave
      rintro ⟨⟨allocs', total', hround', b, hb⟩, -⟩
      rw [hround] at hround'
      injection hround' with hround'
      injection hround' with hround'
      injection hround' with _ ht
      subst ht
      obtain ⟨-, hvalid, -⟩ := Bank.send_spec hb
      have hcoin : newCoin (getFormulaParams formula).rewardDenom total
          = .ok ⟨(getFormulaParams formula).rewardDenom, total⟩ := by
        have hdenom := hvalid.denoms _ List.mem_cons_self
        have hpos := hvalid.positive _ List.mem_cons_self
        unfold newCoin
        rw [failIf_neg (by rw [hdenom]; exact Bool.noConfusion), ok_bind,
          failIf_neg (by exact not_lt.mpr hpos.le), ok_bind]
      rw [hcoin, ok_bind, hb] at hsend
      nomatch hsend
    · rename_i moved hsend
      injection h with _ h
      injection h with hb hd
      obtain ⟨coin, hcoin, hsend⟩ := bind_eq_ok.mp hsend
      obtain ⟨-, -, hc⟩ := newCoin_eq_ok hcoin
      subst hc
      refine Or.inr ⟨hactive, allocs, total, hround, ?_, ?_⟩
      · rw [← hb]
        exact wrapError_eq_ok.mp hsend
      · rw [← hd]

/-- A move out of the reserve shows in its balance. -/
theorem reserve_after_move {total : Int} {d : String}
    (h : bank.send fault reserveAccount distributionAccount [⟨d, total⟩] = .ok bank') :
    bank'.balance reserveAccount d = bank.balance reserveAccount d - total := by
  obtain ⟨-, -, -, rfl⟩ := Bank.send_spec h
  show bank.balance reserveAccount d - (if reserveAccount = reserveAccount then _ else 0)
    + (if reserveAccount = distributionAccount then _ else 0) = _
  rw [if_pos rfl, if_neg (by decide)]
  simp

/-- The reserve, the distribution account and all that is credited are as they were. -/
def Skipped (bank : Bank) (distr : D) (after : Bank × D) : Prop :=
  after.1.balance reserveAccount = bank.balance reserveAccount ∧
    after.1.balance distributionAccount = bank.balance distributionAccount ∧ after.2 = distr

/-- **A failed round is skipped exactly when it fails before a credit.**  When the round returns an
    error or panics, the reserve, the distribution account and everything the distribution module
    knows are as before the block if and only if its total never left the reserve. -/
theorem failed_round_atomic_iff {e : Fault}
    (hfail : (streamFormulaRewards K formula height bank distr bonded fault).1 = .error e) :
    Skipped bank distr (beginBlock K store formula height bank distr bonded fault) ↔
      ¬ TotalMoves formula height bank bonded fault := by
  obtain ⟨⟨r, bank', distr'⟩, hrun⟩ : ∃ x,
      streamFormulaRewards K formula height bank distr bonded fault = x := ⟨_, rfl⟩
  -- an inactive formula does not fail
  have hactive : formulaActive K formula = true := by
    by_contra hoff
    have hcond : (getFormulaParams formula).enabled = false ∨ K.wired = false := by
      unfold formulaActive at hoff
      rw [Bool.and_eq_true, not_and_or, Bool.not_eq_true, Bool.not_eq_true] at hoff
      exact hoff.symm
    unfold streamFormulaRewards at hfail
    dsimp only at hfail
    rw [if_pos hcond] at hfail
    nomatch hfail
  have hafter : beginBlock K store formula height bank distr bonded fault = (bank', distr') := by
    unfold beginBlock
    rw [if_pos hactive, hrun]
  rw [hafter]
  unfold Skipped
  rcases streamFormulaRewards_bank hrun with ⟨hstill, rfl, rfl⟩ | ⟨-, allocs, total, hround, hsend, -⟩
  · refine ⟨fun _ hmoves => hstill ⟨hmoves, hactive⟩, fun _ => ⟨rfl, rfl, rfl⟩⟩
  · have hmoves : TotalMoves formula height bank bonded fault := ⟨allocs, total, hround, _, hsend⟩
    obtain ⟨-, hpos, -⟩ := round_spec hround
    constructor
    · rintro ⟨hreserve, -⟩
      have hleft := reserve_after_move hsend
      rw [congrFun hreserve] at hleft
      omega
    · intro hnot
      exact absurd hmoves hnot

end

/-! ### Two validators, and a distribution module that knows only one -/

/-- What each of the validators has. -/
theorem tenThousandGmb_fits : ((10000 : Int) * 10 ^ 18).natAbs < 2 ^ 256 := by decide

namespace Sample

/-- A distribution module that credits everyone but `valoper-b`. -/
def keepers : Keepers (List (String × Int)) where
  wired := true
  allocateTokensToValidator := fun credited v coin =>
    if v.operator = "valoper-b" then (.error (.error "no outstanding rewards"), credited)
    else (.ok ⟨⟩, (v.operator, coin.amount) :: credited)

/-- A bank with a million GMB in the reserve. -/
def bank : Bank where
  denoms := ["agmb"]
  sorted := List.pairwise_singleton _ _
  valid := by decide
  balance := fun a d => if a = reserveAccount ∧ d = "agmb" then 1000000 * 10 ^ 18 else 0
  supply := fun d => if d = "agmb" then 1000000 * 10 ^ 18 else 0
  received := fun _ _ => 0

/-- Two validators of 10,000 GMB. -/
def bonded : Outcome (List Validator) :=
  .ok [⟨"valoper-a", .int (10000 * 10 ^ 18) tenThousandGmb_fits⟩,
    ⟨"valoper-b", .int (10000 * 10 ^ 18) tenThousandGmb_fits⟩]

end Sample

open Sample in
/-- When the bank refuses the send, the failed round is skipped. -/
theorem failed_round_atomic_iff_send :
    Skipped bank [] (beginBlock keepers none none 2 bank [] bonded (some (.error "refused"))) :=
  (failed_round_atomic_iff rfl).mpr (by
    rintro ⟨allocs, total, -, b, hb⟩
    nomatch hb)

open Sample in
/-- **A round that fails at the second validator is not skipped**: the total of both is gone from the
    reserve, and only the first validator has been credited. -/
theorem failed_credit_keeps_the_move :
    (∃ e, (streamFormulaRewards keepers none 2 bank [] bonded none).1 = .error e) ∧
      ¬ Skipped bank [] (beginBlock keepers none none 2 bank [] bonded none) := by
  refine ⟨⟨_, rfl⟩, ?_⟩
  rintro ⟨hreserve, -⟩
  have hagmb := congrFun hreserve "agmb"
  revert hagmb
  decide +kernel

/-! ## A day of rounds -/

/-- The values validated parameters hold. -/
structure FormulaParams.Values (p : FormulaParams) (rate floor cap total : Int) : Prop where
  denom : validateDenom p.rewardDenom = true
  rate_eq : p.ratePerDay.raw? = some rate
  floor_eq : p.floorPerDay.val? = some floor
  cap_eq : p.capPerDay.val? = some cap
  total_eq : p.maxTotalPerDay.val? = some total
  rate_nonneg : 0 ≤ rate
  floor_nonneg : 0 ≤ floor
  cap_nonneg : 0 ≤ cap
  total_nonneg : 0 ≤ total
  floor_le_cap : cap ≠ 0 → floor ≤ cap
  blocks : p.blocksPerDay ≠ 0

/-- A field that is neither nil nor negative. -/
theorem nonneg_of_check {x : MathInt} {bad : Bool}
    (h : orElse x.isNil x.isNegative = .ok bad) (hbad : ¬ bad = true) :
    ∃ v, x.val? = some v ∧ 0 ≤ v := by
  cases x with
  | nil =>
    injection h with h
    exact absurd h.symm hbad
  | int v hv =>
    rw [MathInt.isNil_int, MathInt.isNegative_int, orElse_false] at h
    injection h with h
    subst h
    refine ⟨v, rfl, ?_⟩
    rw [decide_eq_true_eq] at hbad
    omega

theorem FormulaParams.validate_values {p : FormulaParams} {x : PUnit} (h : p.validate = .ok x) :
    ∃ rate floor cap total, p.Values rate floor cap total := by
  obtain ⟨⟨⟩, hdenom, h⟩ := bind_eq_ok.mp h
  obtain ⟨-, h⟩ := failIf_bind_eq_ok.mp h
  obtain ⟨rate, hrate, h⟩ := bind_eq_ok.mp h
  obtain ⟨⟨⟩, hneg, h⟩ := bind_eq_ok.mp h
  obtain ⟨badFloor, hbadFloor, h⟩ := bind_eq_ok.mp h
  obtain ⟨⟨⟩, hfloor, h⟩ := bind_eq_ok.mp h
  obtain ⟨badCap, hbadCap, h⟩ := bind_eq_ok.mp h
  obtain ⟨⟨⟩, hcap, h⟩ := bind_eq_ok.mp h
  obtain ⟨floor, hf, h⟩ := bind_eq_ok.mp h
  obtain ⟨cap, hc, h⟩ := bind_eq_ok.mp h
  obtain ⟨⟨⟩, horder, h⟩ := bind_eq_ok.mp h
  obtain ⟨⟨⟩, hblocks, h⟩ := bind_eq_ok.mp h
  obtain ⟨badTotal, hbadTotal, h⟩ := bind_eq_ok.mp h
  rw [MathInt.deref_eq_ok] at hf hc
  rw [LegacyDec.deref_eq_ok] at hrate
  rw [failIf_eq_ok] at hdenom hneg hfloor hcap horder hblocks h
  obtain ⟨f, hf', hf0⟩ := nonneg_of_check hbadFloor hfloor
  obtain ⟨c, hc', hc0⟩ := nonneg_of_check hbadCap hcap
  obtain ⟨t, ht', ht0⟩ := nonneg_of_check hbadTotal h
  have hff : floor = f := Option.some.inj (hf.symm.trans hf')
  have hcc : cap = c := Option.some.inj (hc.symm.trans hc')
  subst hff hcc
  rw [Bool.not_eq_false] at hdenom
  refine ⟨rate, floor, cap, t, hdenom, hrate, hf, hc, ht', by omega, hf0, hc0, ht0, ?_, hblocks⟩
  intro hne
  by_contra hlt
  exact horder ⟨hne, by omega⟩

/-- The daily reward of a positive stake, as arithmetic. -/
def dailyOf (rate floor cap stake : Int) : Int :=
  let r := stake * rate / precisionReuse
  let r := if r < floor then floor else r
  if cap < r then cap else r

section
variable {p : FormulaParams} {rate floor cap total stake blocks : Int}

/-- The floor raises what the stake earns, and the cap bounds it. -/
theorem dailyOf_eq :
    dailyOf rate floor cap stake = min cap (max (stake * rate / precisionReuse) floor) := by
  unfold dailyOf
  dsimp only
  split
  · split
    · omega
    · omega
  · split
    · omega
    · omega

theorem dailyOf_le : dailyOf rate floor cap stake ≤ cap := by
  rw [dailyOf_eq]
  exact min_le_left _ _

/-- The day pays what the cap allows and either the stake earns or the floor gives. -/
theorem le_dailyOf (hcap : blocks ≤ cap)
    (hreach : blocks ≤ stake * rate / precisionReuse ∨ blocks ≤ floor) :
    blocks ≤ dailyOf rate floor cap stake := by
  rw [dailyOf_eq]
  exact le_min hcap (le_max_iff.mpr hreach)

/-- It pays less if the cap forbids it, or neither the stake earns it nor the floor gives it. -/
theorem dailyOf_lt
    (hshort : cap < blocks ∨ stake * rate / precisionReuse < blocks ∧ floor < blocks) :
    dailyOf rate floor cap stake < blocks := by
  rw [dailyOf_eq, min_lt_iff, max_lt_iff]
  exact hshort

/-- At a positive rate some stake earns a unit a block, without an overflow. -/
theorem exists_reaching (hblocks : 0 < blocks) (hblocks64 : blocks < 2 ^ 64) (hrate : 0 < rate)
    (hratebits : rate.natAbs < maxDec) :
    ∃ s : Int, 0 < s ∧ s.natAbs < 2 ^ 256 ∧ (s * rate).natAbs < maxDec ∧
      blocks ≤ s * rate / precisionReuse := by
  by_cases hbig : blocks * precisionReuse ≤ rate
  · refine ⟨1, by decide, by decide, by rw [Int.one_mul]; exact hratebits, ?_⟩
    rw [Int.one_mul]
    exact (Int.le_ediv_iff_mul_le (by decide)).mpr hbig
  · -- the smallest stake that earns a unit a block
    have hB0 : 0 ≤ blocks * precisionReuse := Int.mul_nonneg hblocks.le (by decide)
    have hBmax : blocks * precisionReuse < 2 ^ 64 * precisionReuse :=
      Int.mul_lt_mul_of_pos_right hblocks64 (by decide)
    have hdiv := Int.ediv_mul_le (blocks * precisionReuse) (b := rate) (by omega)
    have hmod := Int.lt_ediv_add_one_mul_self (blocks * precisionReuse) hrate
    have hquo0 : 0 ≤ blocks * precisionReuse / rate := Int.ediv_nonneg hB0 hrate.le
    have hquo : blocks * precisionReuse / rate ≤ blocks * precisionReuse := Int.ediv_le_self _ hB0
    generalize hq : blocks * precisionReuse / rate = q at hdiv hmod hquo0 hquo
    have hprod : (q + 1) * rate = q * rate + rate := by ring
    have hqrate : 0 ≤ q * rate := Int.mul_nonneg hquo0 hrate.le
    refine ⟨q + 1, by omega, ?_, ?_, ?_⟩
    · have hbound : (2 : Int) ^ 64 * precisionReuse < 2 ^ 128 := by decide
      omega
    · rw [hprod]
      have hbound : (2 : Int) ^ 64 * precisionReuse * 2 < 2 ^ 128 := by decide
      have hmax : 2 ^ 128 < maxDec := by decide
      omega
    · exact (Int.le_ediv_iff_mul_le (by decide)).mpr hmod.le

/-- **The daily reward** of a positive stake, and when computing it does not overflow. -/
theorem FormulaParams.Values.dailyReward (hp : p.Values rate floor cap total) {stake d : Int}
    {hbits : stake.natAbs < 2 ^ 256} (hstake : 0 < stake) :
    p.dailyReward (.int stake hbits) = .ok d ↔
      (stake * rate).natAbs < maxDec ∧ d = dailyOf rate floor cap stake := by
  show (if stake ≤ 0 then _ else _) = _ ↔ _
  rw [if_neg (by omega), LegacyDec.deref_eq_ok.mpr hp.rate_eq, ok_bind]
  have hprod : 0 ≤ stake * rate := Int.mul_nonneg hstake.le hp.rate_nonneg
  constructor
  · intro h
    obtain ⟨earned, hearned, h⟩ := bind_eq_ok.mp h
    obtain ⟨hrange, rfl⟩ := (LegacyDec.mul_ofInt hstake.le hp.rate_nonneg).mp hearned
    rw [LegacyDec.truncateInt_of_inRange hprod hrange, ok_bind, MathInt.deref_eq_ok.mpr hp.floor_eq,
      ok_bind, MathInt.deref_eq_ok.mpr hp.cap_eq, ok_bind] at h
    injection h with h
    exact ⟨hrange, h.symm⟩
  · rintro ⟨hrange, rfl⟩
    rw [(LegacyDec.mul_ofInt hstake.le hp.rate_nonneg).mpr ⟨hrange, rfl⟩, ok_bind,
      LegacyDec.truncateInt_of_inRange hprod hrange, ok_bind, MathInt.deref_eq_ok.mpr hp.floor_eq,
      ok_bind, MathInt.deref_eq_ok.mpr hp.cap_eq, ok_bind]
    rfl

theorem FormulaParams.Values.blocks_pos (hp : p.Values rate floor cap total) :
    0 < (p.blocksPerDay.toNat : Int) := by
  have hne : p.blocksPerDay.toNat ≠ 0 := by
    intro h
    exact hp.blocks (UInt64.toNat_inj.mp h)
  omega

/-- The block's budget: the day's, divided among its blocks and rounded down. -/
theorem FormulaParams.Values.maxTotalPerBlock (hp : p.Values rate floor cap total) :
    p.maxTotalPerBlock = total / p.blocksPerDay.toNat := by
  obtain ⟨hbits, hmax⟩ := MathInt.val?_eq_some.mp hp.total_eq
  unfold FormulaParams.maxTotalPerBlock
  rw [hmax]
  show (if total ≤ 0 ∨ p.blocksPerDay = 0 then _ else _) = _
  by_cases hpos : total ≤ 0
  · rw [if_pos (Or.inl hpos)]
    have hzero : total = 0 := le_antisymm hpos hp.total_nonneg
    rw [hzero, Int.zero_ediv]
  · rw [if_neg (not_or.mpr ⟨hpos, hp.blocks⟩), Int.tdiv_eq_ediv_of_nonneg hp.total_nonneg]

/-- **Whether anyone can earn a unit a block**: the cap allows it, and either the floor or some stake
    reaches it. -/
def Payable (p : FormulaParams) : Prop :=
  (p.blocksPerDay.toNat : Int) ≤ p.capPerDay.val ∧
    (p.ratePerDay.raw? = some 0 → (p.blocksPerDay.toNat : Int) ≤ p.floorPerDay.val)

/-- Below that, nobody is paid. -/
theorem FormulaParams.Values.perBlockReward_nonpos (hp : p.Values rate floor cap total)
    (hpay : ¬ Payable p) {stake : MathInt} {pb : Int} (h : p.perBlockReward stake = .ok pb) :
    pb ≤ 0 := by
  have hblocks := hp.blocks_pos
  unfold FormulaParams.perBlockReward at h
  rw [if_neg hp.blocks] at h
  obtain ⟨daily, hdaily, h⟩ := bind_eq_ok.mp h
  injection h with h
  subst h
  cases stake with
  | nil =>
    injection hdaily with hdaily
    rw [← hdaily, Int.zero_tdiv]
  | int s hbits =>
    by_cases hs : s ≤ 0
    · have hzero : p.dailyReward (.int s hbits) = .ok 0 := if_pos hs
      rw [hzero] at hdaily
      injection hdaily with hdaily
      rw [← hdaily, Int.zero_tdiv]
    · obtain ⟨-, rfl⟩ := (hp.dailyReward (by omega)).mp hdaily
      have hcapval : p.capPerDay.val = cap := by rw [MathInt.val, hp.cap_eq, Option.getD_some]
      have hfloorval : p.floorPerDay.val = floor := by rw [MathInt.val, hp.floor_eq, Option.getD_some]
      have hcap0 := hp.cap_nonneg
      have hr0 : 0 ≤ s * rate / precisionReuse :=
        Int.ediv_nonneg (Int.mul_nonneg (by omega) hp.rate_nonneg) (by decide)
      have hnonneg : 0 ≤ dailyOf rate floor cap s := le_dailyOf hcap0 (.inl hr0)
      have hsmall : dailyOf rate floor cap s < p.blocksPerDay.toNat := by
        unfold Payable at hpay
        rw [hcapval, hfloorval, hp.rate_eq, Option.some.injEq, not_and_or] at hpay
        refine dailyOf_lt ?_
        rcases hpay with hcap | hrate
        · exact .inl (by omega)
        · rw [Classical.not_imp] at hrate
          obtain ⟨hrate, hfloor⟩ := hrate
          rw [hrate, Int.mul_zero, Int.zero_ediv]
          exact .inr ⟨hblocks, by omega⟩
      rw [Int.tdiv_eq_ediv_of_nonneg hnonneg, Int.ediv_eq_zero_of_lt hnonneg hsmall]

/-- Above it, someone is paid: a stake exists that earns a unit a block. -/
theorem FormulaParams.Values.exists_stake (hp : p.Values rate floor cap total)
    (hpay : Payable p) :
    ∃ stake pb, p.perBlockReward stake = .ok pb ∧ 0 < pb ∧ pb.natAbs < maxInt := by
  have hblocks := hp.blocks_pos
  have hblocks64 : (p.blocksPerDay.toNat : Int) < 2 ^ 64 := by
    exact_mod_cast p.blocksPerDay.toNat_lt
  obtain ⟨hcapbits, hcapeq⟩ := MathInt.val?_eq_some.mp hp.cap_eq
  have hcapval : p.capPerDay.val = cap := by rw [MathInt.val, hp.cap_eq, Option.getD_some]
  have hfloorval : p.floorPerDay.val = floor := by rw [MathInt.val, hp.floor_eq, Option.getD_some]
  obtain ⟨hcap, hfloor⟩ := hpay
  rw [hcapval] at hcap
  rw [hp.rate_eq, hfloorval, Option.some.injEq] at hfloor
  have hrate0 := hp.rate_nonneg
  have hratebits : rate.natAbs < maxDec := by
    cases hd : p.ratePerDay with
    | nil =>
      have hrate := hp.rate_eq
      rw [hd] at hrate
      nomatch hrate
    | dec raw hraw =>
      have hrate := hp.rate_eq
      rw [hd] at hrate
      injection hrate with hrate
      exact hrate ▸ hraw
  -- a stake whose reward reaches the number of blocks, and does not overflow
  have hstake : ∃ s : Int, 0 < s ∧ s.natAbs < 2 ^ 256 ∧ (s * rate).natAbs < maxDec ∧
      (p.blocksPerDay.toNat : Int) ≤ dailyOf rate floor cap s := by
    by_cases hzero : rate = 0
    · -- the floor pays everyone
      refine ⟨1, by decide, by decide, by rw [hzero]; decide, ?_⟩
      exact le_dailyOf hcap (.inr (hfloor hzero))
    · obtain ⟨s, hs, hbits, hrange, hreach⟩ :=
        exists_reaching hblocks hblocks64 (by omega) hratebits
      exact ⟨s, hs, hbits, hrange, le_dailyOf hcap (.inl hreach)⟩
  obtain ⟨s, hs, hbits, hrange, hge⟩ := hstake
  have hdaily : p.dailyReward (.int s hbits) = .ok (dailyOf rate floor cap s) :=
    (hp.dailyReward hs).mpr ⟨hrange, rfl⟩
  have hle : dailyOf rate floor cap s ≤ cap := dailyOf_le
  generalize dailyOf rate floor cap s = d at hdaily hge hle
  refine ⟨.int s hbits, d / p.blocksPerDay.toNat, ?_, ?_, ?_⟩
  · unfold FormulaParams.perBlockReward
    rw [if_neg hp.blocks, hdaily, ok_bind, Int.tdiv_eq_ediv_of_nonneg (by omega)]
  · have hone := (Int.le_ediv_iff_mul_le (a := 1) hblocks).mpr (by omega : 1 * _ ≤ d)
    omega
  · have hself := Int.ediv_le_self (p.blocksPerDay.toNat : Int) (show 0 ≤ d by omega)
    have hnonneg : 0 ≤ d / (p.blocksPerDay.toNat : Int) := Int.ediv_nonneg (by omega) hblocks.le
    have hcap256 : cap.natAbs < maxInt := hcapbits
    omega

end

/-- What a block brings: the bonded validators, and whether the bank fails. -/
structure BlockInput where
  bonded : Outcome (List Validator)
  fault : Option Fault

section
variable {D : Type} (K : Keepers D) (p : FormulaParams)

/-- What `StreamFormulaRewards` moves out of the reserve over consecutive blocks from `height` on. -/
def moved : Nat → Bank → D → List BlockInput → Int
  | _, _, _, [] => 0
  | height, bank, distr, b :: blocks =>
    let (_, bank', distr') := streamFormulaRewards K (some p) height bank distr b.bonded b.fault
    bank.balance reserveAccount p.rewardDenom - bank'.balance reserveAccount p.rewardDenom
      + moved (height + 1) bank' distr' blocks

variable {K p}

/-- The first block's part and the rest's. -/
theorem moved_cons {height : Nat} {bank bank' : Bank} {distr distr' : D} {b : BlockInput}
    {blocks : List BlockInput} {r : Outcome Int}
    (h : streamFormulaRewards K (some p) height bank distr b.bonded b.fault = (r, bank', distr')) :
    moved K p height bank distr (b :: blocks)
      = bank.balance reserveAccount p.rewardDenom - bank'.balance reserveAccount p.rewardDenom
        + moved K p (height + 1) bank' distr' blocks := by
  rw [moved, h]

/-- Blocks that each move at most `budget`. -/
theorem moved_le {budget : Int}
    (hround : ∀ height (bank : Bank) (bonded : Outcome (List Validator)) allocs total,
      p.enabled = true → round p height (bank.balance reserveAccount p.rewardDenom) bonded
        = .ok (some (allocs, total)) → total ≤ budget) (hbudget : 0 ≤ budget) :
    ∀ (blocks : List BlockInput) (height : Nat) (bank : Bank) (distr : D),
      moved K p height bank distr blocks ≤ blocks.length * budget
  | [], _, _, _ => by simp [moved]
  | b :: blocks, height, bank, distr => by
    obtain ⟨⟨r, bank', distr'⟩, hrun⟩ : ∃ x,
        streamFormulaRewards K (some p) height bank distr b.bonded b.fault = x := ⟨_, rfl⟩
    have hrest := moved_le hround hbudget blocks (height + 1) bank' distr'
    have hblock : bank.balance reserveAccount p.rewardDenom
        - bank'.balance reserveAccount p.rewardDenom ≤ budget := by
      rcases streamFormulaRewards_bank hrun with ⟨-, rfl, -⟩ | ⟨hactive, allocs, total, ht, hsend, -⟩
      · omega
      · have hmoved := reserve_after_move hsend
        have henabled : p.enabled = true := (Bool.and_eq_true _ _ ▸ hactive).2
        have hle := hround height bank b.bonded allocs total henabled ht
        have hleft : bank'.balance reserveAccount p.rewardDenom
            = bank.balance reserveAccount p.rewardDenom - total := hmoved
        omega
    have hlen : ((b :: blocks).length : Int) * budget = budget + blocks.length * budget := by
      rw [List.length_cons]
      push_cast
      ring
    rw [hlen, moved_cons hrun]
    omega

/-- When nobody is paid, a round has nothing to move. -/
theorem round_none_of_nonpos {height : Nat} {reserve : Int} {bonded : Outcome (List Validator)}
    (hpay : ∀ stake pb, p.perBlockReward stake = .ok pb → pb ≤ 0) {allocs : List Alloc}
    {total : Int} : round p height reserve bonded ≠ .ok (some (allocs, total)) := by
  -- the callback never adds to the total
  have hcollect : ∀ {vs : List Validator} {acc res : List Alloc} {t sum : Int},
      collect p vs acc t = .ok (res, sum) → sum = t := by
    intro vs
    induction vs with
    | nil =>
      intro acc res t sum h
      injection h with h
      injection h with _ h
      exact h.symm
    | cons v vs ih =>
      intro acc res t sum h
      obtain ⟨pb, hpb, h⟩ := bind_eq_ok.mp h
      have hle := hpay _ _ hpb
      rw [if_neg (by omega)] at h
      exact ih h
  intro h
  unfold round at h
  rcases ite_eq_ok.mp h with ⟨-, h⟩ | ⟨-, h⟩
  · nomatch h
  rcases ite_eq_ok.mp h with ⟨-, h⟩ | ⟨-, h⟩
  · nomatch h
  obtain ⟨vals, -, h⟩ := bind_eq_ok.mp h
  obtain ⟨⟨collected, sum⟩, hsum, h⟩ := bind_eq_ok.mp h
  have hzero := hcollect hsum
  rw [hzero] at h
  nomatch h

/-- A bank whose reserve holds `n` of `denom`, and nothing else. -/
def reserveOf (denom : String) (hdenom : validateDenom denom = true) (n : Int) : Bank where
  denoms := [denom]
  sorted := List.pairwise_singleton _ _
  valid := fun d hd => by
    rw [List.mem_singleton.mp hd]
    exact hdenom
  balance := fun a d => if a = reserveAccount ∧ d = denom then n else 0
  supply := fun d => if d = denom then n else 0
  received := fun _ _ => 0

/-- One validator that earns `pb` a block takes it out in every block, if there is no budget. -/
theorem moved_eq_of_unlimited {rate floor cap total : Int} (hp : p.Values rate floor cap total)
    (henabled : p.enabled = true) (hwired : K.wired = true) (hbudget : p.maxTotalPerBlock = 0)
    {v : Validator} {pb : Int} (hpb : p.perBlockReward v.tokens = .ok pb) (hpos : 0 < pb)
    (hbits : pb.natAbs < maxInt) :
    ∀ (n height : Nat) (bank : Bank) (distr : D), 1 < height →
      n * pb ≤ bank.balance reserveAccount p.rewardDenom →
      moved K p height bank distr (List.replicate n ⟨.ok [v], none⟩) = n * pb
  | 0, _, _, _, _, _ => by simp [moved]
  | n + 1, height, bank, distr, hheight, hreserve => by
    have hsucc : ((n + 1 : Nat) : Int) * pb = pb + n * pb := by
      push_cast
      ring
    have hrest0 : 0 ≤ (n : Int) * pb := Int.mul_nonneg (by omega) hpos.le
    rw [hsucc] at hreserve ⊢
    have hround : round p height (bank.balance reserveAccount p.rewardDenom) (.ok [v])
        = .ok (some ([⟨v, pb⟩], pb)) := by
      have hcollect : collect p [v] [] 0 = .ok ([⟨v, pb⟩], pb) := by
        have hfit : fit (0 + pb) = .ok pb := by
          rw [fit_eq_ok, Int.zero_add]
          exact ⟨hbits, rfl⟩
        show (p.perBlockReward v.tokens >>= fun pb => _) = _
        rw [hpb, ok_bind, if_pos hpos, hfit]
        rfl
      unfold round
      rw [if_neg (by omega), if_neg (by omega), ok_bind, hcollect, ok_bind]
      dsimp only
      rw [if_neg (by omega), hbudget, if_neg (by omega : ¬ (0 < (0 : Int) ∧ _)), if_neg (by omega)]
    obtain ⟨⟨r, bank', distr'⟩, hrun⟩ : ∃ x,
        streamFormulaRewards K (some p) height bank distr (.ok [v]) none = x := ⟨_, rfl⟩
    have hmoves : TotalMoves (some p) height bank (.ok [v]) none := by
      refine ⟨[⟨v, pb⟩], pb, hround, bank.move reserveAccount distributionAccount
        [⟨p.rewardDenom, pb⟩], ?_⟩
      unfold Bank.send
      rw [Bank.check_of (Coins.isValid_singleton hp.denom hpos) ?_]
      · rfl
      · intro c hc
        rw [List.mem_singleton.mp hc]
        show pb ≤ bank.balance reserveAccount p.rewardDenom
        omega
    have hactive : formulaActive K (some p) = true := by
      show (K.wired && p.enabled) = true
      rw [hwired, henabled]
      rfl
    rcases streamFormulaRewards_bank hrun with ⟨hstill, -⟩ | ⟨-, allocs, t, ht, hsend, -⟩
    · exact absurd ⟨hmoves, hactive⟩ hstill
    · have htotal : t = pb := by
        have heq := hround.symm.trans ht
        injection heq with heq
        injection heq with heq
        injection heq with _ heq
        exact heq.symm
      subst htotal
      have hmoved : bank'.balance reserveAccount p.rewardDenom
          = bank.balance reserveAccount p.rewardDenom - t := reserve_after_move hsend
      have hrest := moved_eq_of_unlimited hp henabled hwired hbudget hpb hpos hbits n (height + 1)
        bank' distr' (by omega) (by omega)
      rw [List.replicate_succ, moved_cons hrun]
      omega

end

/-- **The daily budget holds exactly when it is a unit a block, or nobody can earn a unit a block.**
    For validated parameters with a positive daily budget, no sequence of `BlocksPerDay` blocks moves
    more than the budget out of the reserve — whatever the reserve, the validators of each block, the
    bank's failures and the distribution module — if and only if the formula is off, the budget is at
    least one unit a block, or no stake earns one. -/
theorem daily_budget_iff {p : FormulaParams} (hp : p.validate = .ok ⟨⟩)
    (hbudget : 0 < p.maxTotalPerDay.val) :
    (∀ (D : Type) (K : Keepers D) (height : Nat) (bank : Bank) (distr : D)
        (blocks : List BlockInput), blocks.length = p.blocksPerDay.toNat →
      moved K p height bank distr blocks ≤ p.maxTotalPerDay.val) ↔
    (p.enabled = false ∨ (p.blocksPerDay.toNat : Int) ≤ p.maxTotalPerDay.val ∨ ¬ Payable p) := by
  obtain ⟨rate, floor, cap, total, hv⟩ := FormulaParams.validate_values hp
  have hval : p.maxTotalPerDay.val = total := by rw [MathInt.val, hv.total_eq, Option.getD_some]
  have hblocks := hv.blocks_pos
  have hperBlock := hv.maxTotalPerBlock
  rw [hval] at hbudget ⊢
  constructor
  · intro hall
    by_contra hnot
    rw [not_or, not_or, not_not, Bool.not_eq_false, not_le] at hnot
    obtain ⟨henabled, hsmall, hpay⟩ := hnot
    -- the budget disappears, and one validator takes out a unit or more in every block
    obtain ⟨stake, pb, hpb, hpos, hbits⟩ := hv.exists_stake hpay
    have hzero : p.maxTotalPerBlock = 0 := by
      rw [hperBlock]
      exact Int.ediv_eq_zero_of_lt hbudget.le hsmall
    let K : Keepers Unit := ⟨true, fun u _ _ => (.ok ⟨⟩, u)⟩
    let n := p.blocksPerDay.toNat
    have hday := moved_eq_of_unlimited (K := K) hv henabled rfl hzero (v := ⟨"", stake⟩) hpb hpos
      hbits n 2 (reserveOf p.rewardDenom hv.denom (n * pb)) () (by decide) (by simp [reserveOf])
    have hle := hall Unit K 2 (reserveOf p.rewardDenom hv.denom (n * pb)) ()
      (List.replicate n ⟨.ok [⟨"", stake⟩], none⟩) (List.length_replicate ..)
    rw [hday] at hle
    have hone : (n : Int) * 1 ≤ n * pb := Int.mul_le_mul_of_nonneg_left (by omega) hblocks.le
    omega
  · intro hcond D K height bank distr blocks hlen
    have hday : ∀ budget : Int, 0 ≤ budget → (p.blocksPerDay.toNat : Int) * budget ≤ total →
        (∀ height (bank : Bank) bonded allocs t, p.enabled = true →
          round p height (bank.balance reserveAccount p.rewardDenom) bonded
            = .ok (some (allocs, t)) → t ≤ budget) →
        moved K p height bank distr blocks ≤ total := by
      intro budget hnonneg hfits hround
      have hle := moved_le hround hnonneg blocks height bank distr (K := K)
      rw [hlen] at hle
      exact le_trans hle hfits
    rcases hcond with hoff | hunit | hpay
    · refine hday 0 le_rfl (by rw [Int.mul_zero]; exact hbudget.le) ?_
      intro _ _ _ _ _ henabled
      rw [hoff] at henabled
      nomatch henabled
    · refine hday p.maxTotalPerBlock ?_ ?_ ?_
      · rw [hperBlock]
        exact Int.ediv_nonneg hbudget.le hblocks.le
      · rw [hperBlock, Int.mul_comm]
        exact Int.ediv_mul_le total (by omega)
      · intro _ _ _ _ _ _ hround
        obtain ⟨-, -, -, -, hle⟩ := round_spec hround
        refine hle ?_
        rw [hperBlock]
        have hone := (Int.le_ediv_iff_mul_le (a := 1) hblocks).mpr (by omega : 1 * _ ≤ total)
        omega
    · refine hday 0 le_rfl (by rw [Int.mul_zero]; exact hbudget.le) ?_
      intro _ _ _ _ _ _ hround
      exact absurd hround (round_none_of_nonpos fun _ _ h => hv.perBlockReward_nonpos hpay h)

/-- The default budget, 5,479 GMB a day, holds. -/
theorem daily_budget_iff_default :
    moved Sample.keepers defaultFormulaParams 2 Sample.bank []
      (List.replicate 28800 ⟨Sample.bonded, none⟩) ≤ 5479 * 10 ^ 18 :=
  (daily_budget_iff (p := defaultFormulaParams) (by decide) (by decide)).mpr
    (Or.inr (Or.inl (by decide))) _ Sample.keepers 2 Sample.bank []
    (List.replicate 28800 ⟨Sample.bonded, none⟩) List.length_replicate

/-- The default parameters, with a budget of one unit for a day of two blocks. -/
def oneUnitADay : FormulaParams :=
  { defaultFormulaParams with blocksPerDay := 2, maxTotalPerDay := .int 1 (by decide) }

/-- **A budget of one unit for two blocks is no budget**: the two blocks pay a validator the floor of
    ten GMB. -/
theorem one_unit_budget_passed :
    oneUnitADay.validate = .ok ⟨⟩ ∧ 0 < oneUnitADay.maxTotalPerDay.val ∧
      ¬ moved (D := Unit) ⟨true, fun u _ _ => (.ok ⟨⟩, u)⟩ oneUnitADay 2 Sample.bank ()
          (List.replicate 2 ⟨.ok [⟨"valoper-a", .int 1 (by decide)⟩], none⟩)
        ≤ oneUnitADay.maxTotalPerDay.val := by
  refine ⟨by decide, by decide, ?_⟩
  decide +kernel

end Gemba.Rewards.RewardStreamer
