/-
  The credits of a round of the reward formula.

  The calls a round makes to the distribution module are written down by `Keepers.logged`: the same
  keepers, with a list of the credits they accepted.  The round itself does not notice
  (`credit_logged`).

  When no keeper fails and nothing overflows, what leaves the reserve is the sum of the credits made,
  the credits are the validators' shares of the limit, and a larger stake is credited no less
  (`RoundCorrect`).  In the blocks of a day nobody is credited more than the day's cap, whatever fails:
  a validator has one share in a block, of at most the cap divided by the blocks.
-/
import Gemba.Rewards.Formula

namespace Gemba.Rewards.RewardStreamer

open Gemba.Lib Gemba.Sdk

section
variable {D : Type}

/-- The keepers with a list of the credits they accepted. -/
def Keepers.logged (K : Keepers D) : Keepers (D × List (Validator × Coin)) where
  wired := K.wired
  allocateTokensToValidator := fun s v coin =>
    match K.allocateTokensToValidator s.1 v coin with
    | (.ok x, distr) => (.ok x, distr, s.2 ++ [(v, coin)])
    | (.error e, distr) => (.error e, distr, s.2)

/-- No credit fails. -/
def Keepers.NeverFails (K : Keepers D) : Prop :=
  ∀ distr v coin, succeeds (K.allocateTokensToValidator distr v coin).1

/-- The credits `StreamFormulaRewards` makes. -/
def creditsMade (K : Keepers D) (p : FormulaParams) (height : Nat) (bank : Bank) (distr : D)
    (bonded : Outcome (List Validator)) (fault : Option Fault) : List (Validator × Coin) :=
  (streamFormulaRewards K.logged (some p) height bank (distr, []) bonded fault).2.2.2

/-- The credits of some allocations, those that are not positive left out. -/
def coinsOf (denom : String) (allocs : List Alloc) : List (Validator × Coin) :=
  (allocs.filter fun a => decide (0 < a.amt)).map fun a => (a.val, ⟨denom, a.amt⟩)

/-- What some credits add up to. -/
def amountOf (credits : List (Validator × Coin)) : Int := (credits.map fun c => c.2.amount).sum

/-- What some credits give to one validator. -/
def creditedTo (operator : String) (credits : List (Validator × Coin)) : Int :=
  amountOf (credits.filter fun c => decide (c.1.operator = operator))

variable {K : Keepers D} {denom op : String} {a : Alloc} {allocs : List Alloc}

theorem coinsOf_cons_of_pos (h : 0 < a.amt) :
    coinsOf denom (a :: allocs) = (a.val, ⟨denom, a.amt⟩) :: coinsOf denom allocs := by
  have hfilter : (a :: allocs).filter (fun a => decide (0 < a.amt))
      = a :: allocs.filter fun a => decide (0 < a.amt) :=
    List.filter_cons_of_pos (decide_eq_true h)
  rw [coinsOf, hfilter]
  rfl

theorem coinsOf_cons_of_not_pos (h : ¬ 0 < a.amt) :
    coinsOf denom (a :: allocs) = coinsOf denom allocs := by
  have hfilter : (a :: allocs).filter (fun a => decide (0 < a.amt))
      = allocs.filter fun a => decide (0 < a.amt) :=
    List.filter_cons_of_neg (by rw [decide_eq_true_eq]; exact h)
  rw [coinsOf, hfilter]
  rfl

section
variable {distr distr' : D} {log : List (Validator × Coin)} {v : Validator} {coin : Coin} {e : Fault}

theorem Keepers.logged_of_ok {x : PUnit}
    (h : K.allocateTokensToValidator distr v coin = (.ok x, distr')) :
    K.logged.allocateTokensToValidator (distr, log) v coin
      = (.ok x, distr', log ++ [(v, coin)]) := by
  unfold Keepers.logged
  dsimp only
  rw [h]

theorem Keepers.logged_of_error (h : K.allocateTokensToValidator distr v coin = (.error e, distr')) :
    K.logged.allocateTokensToValidator (distr, log) v coin = (.error e, distr', log) := by
  unfold Keepers.logged
  dsimp only
  rw [h]

theorem credit_cons_of_ok {x : PUnit} (hpos : 0 < a.amt)
    (h : K.allocateTokensToValidator distr a.val ⟨denom, a.amt⟩ = (.ok x, distr')) :
    credit K denom (a :: allocs) distr = credit K denom allocs distr' := by
  rw [credit, if_neg (not_le.mpr hpos), h]

theorem credit_cons_of_error (hpos : 0 < a.amt)
    (h : K.allocateTokensToValidator distr a.val ⟨denom, a.amt⟩ = (.error e, distr')) :
    credit K denom (a :: allocs) distr
      = (wrapError "rewardstreamer: allocate to validator failed" (.error e), distr') := by
  rw [credit, if_neg (not_le.mpr hpos), h]

theorem credit_cons_of_not_pos (hpos : ¬ 0 < a.amt) :
    credit K denom (a :: allocs) distr = credit K denom allocs distr := by
  rw [credit, if_pos (not_lt.mp hpos)]

/-- **Writing the credits down changes nothing**, and what is written down is as far as the loop got;
    that is all of it if no credit fails. -/
theorem credit_logged (K : Keepers D) (denom : String) (allocs : List Alloc) (distr : D)
    (log : List (Validator × Coin)) :
    ∃ made, made.Sublist (coinsOf denom allocs) ∧
      credit K.logged denom allocs (distr, log)
        = ((credit K denom allocs distr).1, (credit K denom allocs distr).2, log ++ made) ∧
      (K.NeverFails → made = coinsOf denom allocs ∧ (credit K denom allocs distr).1 = .ok ⟨⟩) := by
  -- on the allocations: each call writes its own credit at the end of the list
  induction allocs generalizing distr log with
  | nil =>
    refine ⟨[], List.Sublist.refl _, ?_, fun _ => ⟨rfl, rfl⟩⟩
    rw [List.append_nil]
    rfl
  | cons a allocs ih =>
    by_cases hpos : 0 < a.amt
    · rw [coinsOf_cons_of_pos hpos]
      obtain ⟨⟨r, distr'⟩, hcall⟩ :
          ∃ x, K.allocateTokensToValidator distr a.val ⟨denom, a.amt⟩ = x := ⟨_, rfl⟩
      cases r with
      | ok x =>
        rw [credit_cons_of_ok hpos hcall, credit_cons_of_ok hpos (Keepers.logged_of_ok hcall)]
        obtain ⟨made, hsub, heq, hall⟩ := ih distr' (log ++ [(a.val, ⟨denom, a.amt⟩)])
        refine ⟨(a.val, ⟨denom, a.amt⟩) :: made, hsub.cons_cons _, ?_, ?_⟩
        · rw [heq, List.append_assoc]
          rfl
        · intro hK
          obtain ⟨hmade, hok⟩ := hall hK
          exact ⟨by rw [hmade], hok⟩
      | error e =>
        rw [credit_cons_of_error hpos hcall, credit_cons_of_error hpos (Keepers.logged_of_error hcall)]
        -- the loop stops at a call that fails, so nothing more is written down
        refine ⟨[], List.nil_sublist _, ?_, ?_⟩
        · rw [List.append_nil]
        · intro hK
          obtain ⟨x, hx⟩ := hK distr a.val ⟨denom, a.amt⟩
          rw [hcall] at hx
          nomatch hx
    · rw [coinsOf_cons_of_not_pos hpos, credit_cons_of_not_pos hpos, credit_cons_of_not_pos hpos]
      exact ih distr log

end

/-! ## The credits of some allocations -/

/-- Allocations that are not negative are credited their sum. -/
theorem amountOf_coinsOf (h : ∀ a ∈ allocs, 0 ≤ a.amt) :
    amountOf (coinsOf denom allocs) = sumOf allocs := by
  induction allocs with
  | nil => rfl
  | cons a allocs ih =>
    have htail := ih fun b hb => h b (List.mem_cons_of_mem a hb)
    rw [sumOf_cons, ← htail]
    by_cases hpos : 0 < a.amt
    · rw [coinsOf_cons_of_pos hpos]
      rfl
    · have hzero : a.amt = 0 := le_antisymm (not_lt.mp hpos) (h a List.mem_cons_self)
      rw [coinsOf_cons_of_not_pos hpos, hzero, Int.zero_add]

theorem amt_le_sumOf (h : ∀ a ∈ allocs, 0 ≤ a.amt) (ha : a ∈ allocs) : a.amt ≤ sumOf allocs := by
  refine List.single_le_sum (fun x hx => ?_) _ (List.mem_map_of_mem ha)
  obtain ⟨b, hb, rfl⟩ := List.mem_map.mp hx
  exact h b hb

/-- If the sum is nothing, nobody is credited. -/
theorem coinsOf_eq_nil (h : ∀ a ∈ allocs, 0 ≤ a.amt) (hsum : sumOf allocs ≤ 0) :
    coinsOf denom allocs = [] := by
  have hfilter : (allocs.filter fun a => decide (0 < a.amt)) = [] := by
    refine List.filter_eq_nil_iff.mpr fun a ha => ?_
    rw [decide_eq_true_eq, not_lt]
    exact le_trans (amt_le_sumOf h ha) hsum
  rw [coinsOf, hfilter, List.map_nil]

/-! ## A round -/

section
variable {p : FormulaParams} {rate floor cap total reserve : Int} {vals : List Validator}
  {height : Nat} {bank bank' : Bank} {distr distr' : D} {v w : Validator}
  {bonded : Outcome (List Validator)} {fault : Option Fault}

/-- Every validator with its credit. -/
def credited (p : FormulaParams) (reserve : Int) (vals : List Validator) : List Alloc :=
  vals.map fun v => ⟨v, creditOf p reserve vals v⟩

theorem creditOf_nonneg (hp : p.Values rate floor cap total) (hreserve : 0 ≤ reserve) :
    0 ≤ creditOf p reserve vals v :=
  share_nonneg (limitOf_nonneg hreserve) (rewardOf_nonneg hp)

theorem credited_nonneg (hp : p.Values rate floor cap total) (hreserve : 0 ≤ reserve) :
    ∀ a ∈ credited p reserve vals, 0 ≤ a.amt := by
  intro a ha
  obtain ⟨v, -, rfl⟩ := List.mem_map.mp ha
  exact creditOf_nonneg hp hreserve

theorem sumOf_credited_le (hreserve : 0 ≤ reserve) :
    sumOf (credited p reserve vals) ≤ limitOf p reserve := by
  have hsum := sum_share_le (vals.map (rewardOf p)) (limitOf_nonneg (p := p) hreserve)
  rw [List.map_map] at hsum
  rw [sumOf, credited, List.map_map]
  exact hsum

/-- The validators that earn nothing are not credited, so leaving them out of the plan leaves out no
    credit. -/
theorem coinsOf_planned (hp : p.Values rate floor cap total) :
    coinsOf denom (planned p reserve vals) = coinsOf denom (credited p reserve vals) := by
  unfold planned credited creditOf
  -- the limit and the sum are those of the whole list, so they stay fixed in the induction
  generalize limitOf p reserve = limit
  generalize unscaled p vals = sum
  induction vals with
  | nil => rfl
  | cons v vals ih =>
    rw [List.map_cons]
    by_cases hpos : 0 < rewardOf p v
    · rw [paid_cons_of_pos hpos, List.map_cons]
      dsimp only
      by_cases hshare : 0 < share limit sum (rewardOf p v)
      · rw [coinsOf_cons_of_pos (by exact hshare), coinsOf_cons_of_pos (by exact hshare), ih]
      · rw [coinsOf_cons_of_not_pos (by exact hshare), coinsOf_cons_of_not_pos (by exact hshare), ih]
    · have hzero : rewardOf p v = 0 := le_antisymm (not_lt.mp hpos) (rewardOf_nonneg hp)
      rw [paid_cons_of_not_pos hpos, ih, coinsOf_cons_of_not_pos]
      dsimp only
      rw [hzero, share_zero]
      exact lt_irrefl 0

theorem planned_nonneg (hreserve : 0 ≤ reserve) :
    ∀ a ∈ planned p reserve vals, 0 ≤ a.amt := by
  intro a ha
  obtain ⟨b, hb, rfl⟩ := List.mem_map.mp ha
  exact share_nonneg (limitOf_nonneg hreserve) (mem_paid hb).1.le

theorem sumOf_planned (hp : p.Values rate floor cap total) (hreserve : 0 ≤ reserve) :
    sumOf (planned p reserve vals) = sumOf (credited p reserve vals) := by
  have hcoins : amountOf (coinsOf p.rewardDenom (planned p reserve vals))
      = amountOf (coinsOf p.rewardDenom (credited p reserve vals)) := by rw [coinsOf_planned hp]
  rw [amountOf_coinsOf (planned_nonneg hreserve), amountOf_coinsOf (credited_nonneg hp hreserve)]
    at hcoins
  exact hcoins

/-- **A round that credits someone**: the move of the sum, and the credits. -/
theorem stream_of_fits (K : Keepers D) (distr : D) (hp : p.Values rate floor cap total)
    (henabled : p.enabled = true) (hwired : K.wired = true) (hheight : 1 < height)
    (hbalance : bank.balance reserveAccount p.rewardDenom = reserve) (hreserve : 0 < reserve)
    (hfits : Fits p reserve vals) (hsomething : 0 < sumOf (credited p reserve vals)) :
    streamFormulaRewards K (some p) height bank distr (.ok vals) none =
      ((credit K p.rewardDenom (planned p reserve vals) distr).1.map
          fun _ => sumOf (credited p reserve vals),
        bank.move reserveAccount distributionAccount
          [⟨p.rewardDenom, sumOf (credited p reserve vals)⟩],
        (credit K p.rewardDenom (planned p reserve vals) distr).2) := by
  have hbound : sumOf (credited p reserve vals) ≤ reserve :=
    le_trans (sumOf_credited_le hreserve.le) (limitOf_le p reserve).1
  have hsend : bank.send none reserveAccount distributionAccount
      [⟨p.rewardDenom, sumOf (credited p reserve vals)⟩]
        = .ok (bank.move reserveAccount distributionAccount
          [⟨p.rewardDenom, sumOf (credited p reserve vals)⟩]) := by
    -- the reserve covers the sum, since it is within the limit
    unfold Bank.send
    rw [Bank.check_of (Coins.isValid_singleton hp.denom hsomething) ?_]
    · rfl
    · intro c hc
      rw [List.mem_singleton.mp hc]
      show sumOf (credited p reserve vals) ≤ bank.balance reserveAccount p.rewardDenom
      rw [hbalance]
      exact hbound
  unfold streamFormulaRewards getFormulaParams
  rw [Option.getD_some]
  dsimp only
  rw [if_neg (by rw [henabled, hwired]; decide), hbalance, round_eq hp hheight hreserve hfits,
    sumOf_planned hp hreserve.le, if_neg (not_le.mpr hsomething)]
  dsimp only
  rw [newCoin_of hp.denom hsomething.le, ok_bind, hsend]
  rfl

/-- **A round that credits nobody** does nothing. -/
theorem stream_of_nothing (K : Keepers D) (distr : D) (hp : p.Values rate floor cap total)
    (hheight : 1 < height) (hbalance : bank.balance reserveAccount p.rewardDenom = reserve)
    (hreserve : 0 ≤ reserve) (hfits : 0 < reserve → Fits p reserve vals)
    (hnothing : sumOf (credited p reserve vals) ≤ 0) :
    streamFormulaRewards K (some p) height bank distr (.ok vals) none = (.ok 0, bank, distr) := by
  have hround : round p height reserve (.ok vals) = .ok none := by
    -- nothing is planned, or an empty reserve ends the round before
    by_cases hpos : 0 < reserve
    · rw [round_eq hp hheight hpos (hfits hpos), sumOf_planned hp hreserve, if_pos hnothing]
    · unfold round
      rw [if_neg (not_le.mpr hheight), if_pos (not_lt.mp hpos)]
  unfold streamFormulaRewards getFormulaParams
  rw [Option.getD_some]
  dsimp only
  rw [hbalance, hround]
  split
  · rfl
  · rfl

/-- What the round does to the reserve and to the distribution account. -/
structure Moves (bank bank' : Bank) (denom : String) (moved : Int) : Prop where
  reserve : bank.balance reserveAccount denom - bank'.balance reserveAccount denom = moved
  distribution :
    bank'.balance distributionAccount denom - bank.balance distributionAccount denom = moved

theorem Moves.none (bank : Bank) (denom : String) : Moves bank bank denom 0 :=
  ⟨Int.sub_self _, Int.sub_self _⟩

theorem Moves.move (bank : Bank) (denom : String) (moved : Int) :
    Moves bank (bank.move reserveAccount distributionAccount [⟨denom, moved⟩]) denom moved := by
  have hamount : Coins.amountOf [⟨denom, moved⟩] denom = moved := by
    rw [Coins.amountOf_cons, if_pos rfl, Coins.amountOf_nil, Int.add_zero]
  constructor
  · show bank.balance reserveAccount denom - (bank.balance reserveAccount denom
      - (if reserveAccount = reserveAccount then _ else 0)
      + if reserveAccount = distributionAccount then _ else 0) = _
    rw [if_pos rfl, if_neg (by decide), hamount]
    omega
  · show bank.balance distributionAccount denom
      - (if distributionAccount = reserveAccount then _ else 0)
      + (if distributionAccount = distributionAccount then _ else 0)
      - bank.balance distributionAccount denom = _
    rw [if_neg (by decide), if_pos rfl, hamount]
    omega

/-- **A correct round** over `vals` out of `reserve`: what it moved and the credits it made. -/
structure RoundCorrect (p : FormulaParams) (reserve : Int) (vals : List Validator) (moved : Int)
    (credits : List (Validator × Coin)) : Prop where
  /-- What is moved is what is credited. -/
  moved_eq : moved = amountOf credits
  within_reserve : moved ≤ reserve
  within_budget : 0 < p.maxTotalPerBlock → moved ≤ p.maxTotalPerBlock
  /-- Every validator is credited its `creditOf`, and nobody else anything. -/
  credits_eq : credits = coinsOf p.rewardDenom (credited p reserve vals)
  credit_le : ∀ v ∈ vals, creditOf p reserve vals v ≤ rewardOf p v
  full : unscaled p vals ≤ limitOf p reserve → ∀ v ∈ vals, creditOf p reserve vals v = rewardOf p v
  scaled : limitOf p reserve < unscaled p vals → ∀ v ∈ vals,
    creditOf p reserve vals v = rewardOf p v * limitOf p reserve / unscaled p vals
  /-- More stake is credited no less, so equal stakes are credited alike. -/
  mono : ∀ v ∈ vals, ∀ w ∈ vals, v.tokens.val ≤ w.tokens.val →
    creditOf p reserve vals v ≤ creditOf p reserve vals w

theorem roundCorrect_of_reserve (hp : p.Values rate floor cap total) (hreserve : 0 ≤ reserve)
    (hfits : 0 < reserve → Fits p reserve vals) :
    RoundCorrect p reserve vals (sumOf (credited p reserve vals))
      (coinsOf p.rewardDenom (credited p reserve vals)) := by
  have hlimit : sumOf (credited p reserve vals) ≤ limitOf p reserve := sumOf_credited_le hreserve
  refine ⟨(amountOf_coinsOf (credited_nonneg hp hreserve)).symm,
    le_trans hlimit (limitOf_le p reserve).1,
    fun hbudget => le_trans hlimit ((limitOf_le p reserve).2 hbudget), rfl,
    fun v _ => share_le (limitOf_nonneg hreserve) (rewardOf_nonneg hp),
    fun h v _ => share_of_fits h, fun h v _ => share_of_exceeds h, ?_⟩
  intro v hv w hw hle
  by_cases hpos : 0 < reserve
  · have hin := (hfits hpos).earned
    exact share_mono (limitOf_nonneg hreserve) (rewardOf_mono hp (hin v hv) (hin w hw) hle)
  · -- an empty reserve credits nobody
    have hsum : sumOf (credited p reserve vals) ≤ 0 := by
      have := (limitOf_le p reserve).1
      omega
    have hzero := amt_le_sumOf (credited_nonneg hp hreserve)
      (List.mem_map_of_mem (f := fun v => (⟨v, creditOf p reserve vals v⟩ : Alloc)) hv)
    exact le_trans (le_trans hzero hsum) (creditOf_nonneg hp hreserve)

/-- **A round in which no keeper fails and nothing overflows** is correct. -/
theorem round_correct (distr : D) (hp : p.Values rate floor cap total) (henabled : p.enabled = true)
    (hwired : K.wired = true) (hK : K.NeverFails) (hheight : 1 < height)
    (hbalance : bank.balance reserveAccount p.rewardDenom = reserve) (hreserve : 0 ≤ reserve)
    (hfits : 0 < reserve → Fits p reserve vals) :
    ∃ moved, (streamFormulaRewards K (some p) height bank distr (.ok vals) none).1 = .ok moved ∧
      Moves bank (streamFormulaRewards K (some p) height bank distr (.ok vals) none).2.1
        p.rewardDenom moved ∧
      RoundCorrect p reserve vals moved (creditsMade K p height bank distr (.ok vals) none) := by
  have hcorrect := roundCorrect_of_reserve hp hreserve hfits
  have hsum := List.sum_nonneg (l := (credited p reserve vals).map Alloc.amt) fun x hx => by
    obtain ⟨a, ha, rfl⟩ := List.mem_map.mp hx
    exact credited_nonneg hp hreserve a ha
  change 0 ≤ sumOf (credited p reserve vals) at hsum
  unfold creditsMade
  -- a round that credits nobody returns early, with nothing moved
  by_cases hnothing : sumOf (credited p reserve vals) ≤ 0
  · have hzero : sumOf (credited p reserve vals) = 0 := le_antisymm hnothing hsum
    rw [hzero, coinsOf_eq_nil (credited_nonneg hp hreserve) hnothing] at hcorrect
    rw [stream_of_nothing K distr hp hheight hbalance hreserve hfits hnothing,
      stream_of_nothing K.logged (distr, []) hp hheight hbalance hreserve hfits hnothing]
    exact ⟨0, rfl, Moves.none bank p.rewardDenom, hcorrect⟩
  · have hsomething : 0 < sumOf (credited p reserve vals) := not_le.mp hnothing
    have hpos : 0 < reserve := by
      have hlimit : sumOf (credited p reserve vals) ≤ limitOf p reserve := sumOf_credited_le hreserve
      have := (limitOf_le p reserve).1
      omega
    obtain ⟨made, -, heq, hall⟩ := credit_logged K p.rewardDenom (planned p reserve vals) distr []
    obtain ⟨hmade, hok⟩ := hall hK
    rw [hmade, coinsOf_planned hp, List.nil_append] at heq
    rw [stream_of_fits K distr hp henabled hwired hheight hbalance hpos (hfits hpos) hsomething,
      stream_of_fits K.logged (distr, []) hp henabled hwired hheight hbalance hpos (hfits hpos)
        hsomething, heq, hok]
    exact ⟨_, rfl, Moves.move bank p.rewardDenom _, hcorrect⟩

/-- The credits of a round are what its loop got through. -/
theorem creditsMade_sublist (K : Keepers D) (p : FormulaParams) (height : Nat) (bank : Bank)
    (distr : D) (bonded : Outcome (List Validator)) (fault : Option Fault) :
    creditsMade K p height bank distr bonded fault = [] ∨ ∃ allocs total,
      round p height (bank.balance reserveAccount p.rewardDenom) bonded = .ok (some (allocs, total)) ∧
        (creditsMade K p height bank distr bonded fault).Sublist (coinsOf p.rewardDenom allocs) := by
  unfold creditsMade
  obtain ⟨⟨r, bank', distr', log⟩, hrun⟩ : ∃ x,
      streamFormulaRewards K.logged (some p) height bank (distr, []) bonded fault = x := ⟨_, rfl⟩
  rw [hrun]
  rcases streamFormulaRewards_bank hrun with ⟨-, -, hlog⟩ | ⟨-, allocs, total, hround, -, hcredit⟩
  · injection hlog with _ hlog
    exact .inl hlog
  · refine .inr ⟨allocs, total, hround, ?_⟩
    obtain ⟨made, hsub, heq, -⟩ := credit_logged K p.rewardDenom allocs distr []
    change credit K.logged p.rewardDenom allocs (distr, []) = _ at hcredit
    rw [heq] at hcredit
    injection hcredit with _ hcredit
    injection hcredit with _ hcredit
    rw [← hcredit]
    exact hsub

/-! ## A day -/

/-- The validators of a block have different operators. -/
def Distinct (vals : List Validator) : Prop := (vals.map Validator.operator).Nodup

theorem amountOf_nonneg {credits : List (Validator × Coin)} (h : ∀ c ∈ credits, 0 ≤ c.2.amount) :
    0 ≤ amountOf credits := by
  refine List.sum_nonneg fun x hx => ?_
  obtain ⟨c, hc, rfl⟩ := List.mem_map.mp hx
  exact h c hc

/-- Credits that are only part of some others give a validator no more. -/
theorem creditedTo_le {made credits : List (Validator × Coin)} (hsub : made.Sublist credits)
    (h : ∀ c ∈ credits, 0 ≤ c.2.amount) : creditedTo op made ≤ creditedTo op credits := by
  refine List.Sublist.sum_le_sum ((hsub.filter _).map _) fun x hx => ?_
  obtain ⟨c, hc, rfl⟩ := List.mem_map.mp hx
  exact h c (List.mem_of_mem_filter hc)

theorem coinsOf_nonneg : ∀ c ∈ coinsOf denom allocs, 0 ≤ c.2.amount := by
  intro c hc
  obtain ⟨a, ha, rfl⟩ := List.mem_map.mp hc
  exact (of_decide_eq_true (List.mem_filter.mp ha).2).le

theorem creditedTo_cons {c : Validator × Coin} {credits : List (Validator × Coin)} :
    creditedTo op (c :: credits) =
      (if c.1.operator = op then c.2.amount else 0) + creditedTo op credits := by
  unfold creditedTo
  by_cases hop : c.1.operator = op
  · rw [if_pos hop, List.filter_cons_of_pos (by exact decide_eq_true hop)]
    rfl
  · rw [if_neg hop, List.filter_cons_of_neg (by rw [decide_eq_true_eq]; exact hop), Int.zero_add]

/-- A validator that is in no allocation is credited nothing. -/
theorem creditedTo_coinsOf_of_notMem (h : ∀ a ∈ allocs, a.val.operator ≠ op) :
    creditedTo op (coinsOf denom allocs) = 0 := by
  have hfilter : (coinsOf denom allocs).filter (fun c => decide (c.1.operator = op)) = [] := by
    refine List.filter_eq_nil_iff.mpr fun c hc => ?_
    obtain ⟨a, ha, rfl⟩ := List.mem_map.mp hc
    rw [decide_eq_true_eq]
    exact h a (List.mem_of_mem_filter ha)
  rw [creditedTo, hfilter]
  rfl

/-- One allocation for each operator: a validator is credited at most the largest. -/
theorem creditedTo_coinsOf_le {bound n : Int} (hbound : 0 ≤ bound)
    (hdistinct : (allocs.map fun a => a.val.operator).Nodup)
    (hle : ∀ a ∈ allocs, n * a.amt ≤ bound) :
    n * creditedTo op (coinsOf denom allocs) ≤ bound := by
  induction allocs with
  | nil =>
    show n * 0 ≤ bound
    omega
  | cons a allocs ih =>
    obtain ⟨hother, hdistinct⟩ := List.nodup_cons.mp hdistinct
    have htail := ih hdistinct fun b hb => hle b (List.mem_cons_of_mem a hb)
    by_cases hpos : 0 < a.amt
    · rw [coinsOf_cons_of_pos hpos, creditedTo_cons]
      dsimp only
      -- the operators differ, so at most one of the allocations is for `op`
      by_cases hop : a.val.operator = op
      · have hnone : creditedTo op (coinsOf denom allocs) = 0 :=
          creditedTo_coinsOf_of_notMem fun b hb heq =>
            hother (List.mem_map.mpr ⟨b, hb, heq.trans hop.symm⟩)
        rw [if_pos hop, hnone, Int.add_zero]
        exact hle a List.mem_cons_self
      · rw [if_neg hop, Int.zero_add]
        exact htail
    · rw [coinsOf_cons_of_not_pos hpos]
      exact htail

/-- A round that pays has collected from the bonded validators, and pays what was planned. -/
theorem round_eq_some (hp : p.Values rate floor cap total) {sum : Int}
    (h : round p height reserve bonded = .ok (some (allocs, sum))) :
    ∃ vals, bonded = .ok vals ∧ 0 < reserve ∧ allocs = planned p reserve vals := by
  obtain ⟨hheight, hsum, hle, -⟩ := round_spec h
  have hreserve : 0 < reserve := by omega
  cases bonded with
  | error e =>
    unfold round at h
    rw [if_neg (not_le.mpr hheight), if_neg (not_le.mpr hreserve)] at h
    nomatch h
  | ok vals =>
    refine ⟨vals, rfl, hreserve, ?_⟩
    have hfits := (round_succeeds_iff hp hheight hreserve).mp ⟨_, h⟩
    rw [round_eq hp hheight hreserve hfits] at h
    injection h with h
    split at h
    · nomatch h
    · injection h with h
      injection h with h
      exact h.symm

theorem planned_distinct (h : Distinct vals) :
    ((planned p reserve vals).map fun a => a.val.operator).Nodup := by
  have hvals : ((paid p vals).map fun a => a.val.operator).Sublist
      ((vals.map fun v => (⟨v, rewardOf p v⟩ : Alloc)).map fun a => a.val.operator) :=
    List.filter_sublist.map _
  rw [List.map_map] at hvals
  rw [planned, List.map_map]
  exact hvals.nodup h

theorem planned_mul_blocks_le (hp : p.Values rate floor cap total) (hreserve : 0 ≤ reserve)
    (ha : a ∈ planned p reserve vals) : p.blocksPerDay.toNat * a.amt ≤ cap := by
  obtain ⟨b, hb, rfl⟩ := List.mem_map.mp ha
  obtain ⟨hpos, -, hamt⟩ := mem_paid hb
  have hshare : share (limitOf p reserve) (unscaled p vals) b.amt ≤ b.amt :=
    share_le (limitOf_nonneg hreserve) hpos.le
  have hday : p.blocksPerDay.toNat * b.amt ≤ cap := by
    rw [hamt]
    exact rewardOf_mul_blocks_le hp
  exact le_trans (Int.mul_le_mul_of_nonneg_left hshare hp.blocks_pos.le) hday

/-- The state a block begins in, and what it brings. -/
structure BlockState (D : Type) extends BlockInput where
  height : Nat
  bank : Bank
  distr : D

/-- The credits of a block. -/
def BlockState.credits (K : Keepers D) (p : FormulaParams) (b : BlockState D) :
    List (Validator × Coin) :=
  creditsMade K p b.height b.bank b.distr b.bonded b.fault

/-- **A block credits nobody more than its part of the cap**, whatever fails in it. -/
theorem block_credit_le (hp : p.Values rate floor cap total) (b : BlockState D)
    (hdistinct : ∀ vals, b.bonded = .ok vals → Distinct vals) :
    p.blocksPerDay.toNat * creditedTo op (b.credits K p) ≤ cap := by
  rcases creditsMade_sublist K p b.height b.bank b.distr b.bonded b.fault with
    hnil | ⟨allocs, total, hround, hsub⟩
  · rw [BlockState.credits, hnil]
    show (p.blocksPerDay.toNat : Int) * 0 ≤ cap
    rw [Int.mul_zero]
    exact hp.cap_nonneg
  · obtain ⟨vals, hbonded, hreserve, hplan⟩ := round_eq_some hp hround
    subst hplan
    have hle : p.blocksPerDay.toNat * creditedTo op (coinsOf p.rewardDenom
        (planned p (b.bank.balance reserveAccount p.rewardDenom) vals)) ≤ cap :=
      creditedTo_coinsOf_le hp.cap_nonneg (planned_distinct (hdistinct vals hbonded)) fun a ha =>
        planned_mul_blocks_le hp hreserve.le ha
    exact le_trans (Int.mul_le_mul_of_nonneg_left (creditedTo_le hsub coinsOf_nonneg)
      hp.blocks_pos.le) hle

/-- Parts of a day that each fit into it. -/
theorem sum_le_of_mul_le {n : Int} (hn : 0 < n) : ∀ {xs : List Int},
    (xs.length : Int) = n → (∀ x ∈ xs, n * x ≤ cap) → xs.sum ≤ cap := by
  have hsum : ∀ xs : List Int, (∀ x ∈ xs, n * x ≤ cap) → n * xs.sum ≤ xs.length * cap := by
    intro xs
    induction xs with
    | nil => simp
    | cons x xs ih =>
      intro h
      have hhead := h x List.mem_cons_self
      have htail := ih fun y hy => h y (List.mem_cons_of_mem x hy)
      rw [List.sum_cons, List.length_cons, Int.mul_add]
      push_cast
      rw [Int.add_mul, Int.one_mul]
      omega
  intro xs hlen h
  -- `n` parts of at most a cap's `n`th each
  have hle := hsum xs h
  rw [hlen] at hle
  exact le_of_mul_le_mul_left hle hn

end

/-- **The formula pays what it says.**  For validated, enabled parameters: a round at a height above 1
    in which no keeper fails and nothing overflows moves from the reserve to the distribution account
    exactly the credits it makes, and these are correct; and over the blocks of a day, whatever happens
    in and between them, nobody is credited more than the day's cap. -/
theorem formula_round_correct {p : FormulaParams} (hp : p.validate = .ok ⟨⟩)
    (henabled : p.enabled = true) :
    (∀ (D : Type) (K : Keepers D) (height : Nat) (bank : Bank) (distr : D) (vals : List Validator),
      K.wired = true → K.NeverFails → 1 < height →
      0 ≤ bank.balance reserveAccount p.rewardDenom →
      (0 < bank.balance reserveAccount p.rewardDenom →
        Fits p (bank.balance reserveAccount p.rewardDenom) vals) →
      ∃ moved,
        (streamFormulaRewards K (some p) height bank distr (.ok vals) none).1 = .ok moved ∧
        Moves bank (streamFormulaRewards K (some p) height bank distr (.ok vals) none).2.1
          p.rewardDenom moved ∧
        RoundCorrect p (bank.balance reserveAccount p.rewardDenom) vals moved
          (creditsMade K p height bank distr (.ok vals) none)) ∧
    (∀ (D : Type) (K : Keepers D) (blocks : List (BlockState D)),
      blocks.length = p.blocksPerDay.toNat →
      (∀ b ∈ blocks, ∀ vals, b.bonded = .ok vals → Distinct vals) →
      ∀ operator, (blocks.map fun b => creditedTo operator (b.credits K p)).sum
        ≤ p.capPerDay.val) := by
  obtain ⟨rate, floor, cap, total, hv⟩ := FormulaParams.validate_values hp
  constructor
  · intro D K height bank distr vals hwired hK hheight hreserve hfits
    exact round_correct distr hv henabled hwired hK hheight rfl hreserve hfits
  · intro D K blocks hlen hdistinct operator
    rw [hv.cap_val]
    refine sum_le_of_mul_le hv.blocks_pos ?_ fun x hx => ?_
    · rw [List.length_map, hlen]
    · obtain ⟨b, hb, rfl⟩ := List.mem_map.mp hx
      exact block_credit_le hv b (hdistinct b hb)

/-- Two validators of 10,000 GMB and a reserve of a million: each is credited 100 GMB divided by the
    28,800 blocks of a day. -/
theorem formula_round_correct_default :
    ∃ moved,
      (streamFormulaRewards (⟨true, fun u _ _ => (.ok ⟨⟩, u)⟩ : Keepers Unit)
        (some defaultFormulaParams) 2 Sample.bank () Sample.bonded none).1 = .ok moved ∧
      Moves Sample.bank (streamFormulaRewards (⟨true, fun u _ _ => (.ok ⟨⟩, u)⟩ : Keepers Unit)
        (some defaultFormulaParams) 2 Sample.bank () Sample.bonded none).2.1 "agmb" moved ∧
      RoundCorrect defaultFormulaParams (Sample.bank.balance reserveAccount "agmb")
        [⟨"valoper-a", .int (10000 * 10 ^ 18) tenThousandGmb_fits⟩,
          ⟨"valoper-b", .int (10000 * 10 ^ 18) tenThousandGmb_fits⟩] moved
        (creditsMade (⟨true, fun u _ _ => (.ok ⟨⟩, u)⟩ : Keepers Unit) defaultFormulaParams 2
          Sample.bank () Sample.bonded none) :=
  (formula_round_correct (p := defaultFormulaParams) (by decide) rfl).1 Unit _ 2 Sample.bank () _ rfl
    (fun _ _ _ => succeeds_ok _) (by decide) (by decide)
    fun _ => ⟨by decide, by decide, by decide⟩

end

end Gemba.Rewards.RewardStreamer
