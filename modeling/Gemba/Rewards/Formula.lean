/-
  What the reward formula pays a validator: in a day, and in a block.

  1. **A day.**  `DailyReward` is documented as `max(floor, min(cap, stake × rate))`.  The code raises to
     the floor first and bounds by the cap last, which is the same while the floor is at most the cap.
     `Validate` asks for that unless the cap is 0; with a cap of 0 the code pays nothing, whatever the
     floor (`zero_cap_pays_nothing`), and that is the only difference (`daily_reward_documented_iff`).

  2. **A block.**  `rewardOf` is a validator's part of a block before any scaling.  If they add up to at
     most the limit (the reserve, or the block's budget when there is one and it is smaller), they are
     paid; otherwise each is scaled down pro rata.  `creditOf` is that, as a `share` of the limit, and
     `round_eq` says that a round whose intermediate values fit (`Fits`) plans exactly these credits.

     It is also the only way a round can go through (`round_succeeds_iff`).
-/
import Gemba.Lib.Apportion
import Gemba.Rewards.FormulaRound

namespace Gemba.Rewards.RewardStreamer

open Gemba.Lib Gemba.Sdk

section
variable {p : FormulaParams} {rate floor cap total : Int}

theorem FormulaParams.Values.rate_raw (hp : p.Values rate floor cap total) :
    p.ratePerDay.raw = rate := by rw [LegacyDec.raw, hp.rate_eq, Option.getD_some]

theorem FormulaParams.Values.floor_val (hp : p.Values rate floor cap total) :
    p.floorPerDay.val = floor := by rw [MathInt.val, hp.floor_eq, Option.getD_some]

theorem FormulaParams.Values.cap_val (hp : p.Values rate floor cap total) :
    p.capPerDay.val = cap := by rw [MathInt.val, hp.cap_eq, Option.getD_some]

/-! ## A day -/

/-- `max(floor_per_day, min(cap_per_day, stake × rate_per_day))`, truncated to whole units. -/
def documentedReward (p : FormulaParams) (stake : Int) : Int :=
  max p.floorPerDay.val (min p.capPerDay.val (stake * p.ratePerDay.raw / precisionReuse))

/-- The daily reward of `stake` is the documented one; so it is at least the floor, and no smaller
    stake has a larger one. -/
def DailyRewardDocumented (p : FormulaParams) (stake : Int) (hbits : stake.natAbs < 2 ^ 256) : Prop :=
  ∃ d, p.dailyReward (.int stake hbits) = .ok d ∧ d = documentedReward p stake ∧
    p.floorPerDay.val ≤ d ∧
    ∀ s hs, 0 < s → s ≤ stake → ∃ d', p.dailyReward (.int s hs) = .ok d' ∧ d' ≤ d

/-- A larger stake earns no less. -/
theorem dailyOf_mono {s t : Int} (hrate : 0 ≤ rate) (hst : s ≤ t) :
    dailyOf rate floor cap s ≤ dailyOf rate floor cap t := by
  rw [dailyOf_eq, dailyOf_eq]
  have hearned : s * rate / precisionReuse ≤ t * rate / precisionReuse :=
    Int.ediv_le_ediv (by decide) (Int.mul_le_mul_of_nonneg_right hst hrate)
  exact min_le_min_left cap (max_le_max_right floor hearned)

/-- The order of the two clamps matters only for a floor above the cap. -/
theorem dailyOf_eq_documented_iff {stake : Int} (hearned : 0 ≤ stake * rate / precisionReuse)
    (hfloor : 0 ≤ floor) (horder : cap ≠ 0 → floor ≤ cap) :
    dailyOf rate floor cap stake = max floor (min cap (stake * rate / precisionReuse)) ↔
      (cap = 0 → floor = 0) := by
  rw [dailyOf_eq]
  generalize stake * rate / precisionReuse = earned at hearned
  constructor
  · intro heq hzero
    omega
  · intro hzero
    omega

/-- **The daily reward is the documented one exactly when** the product fits into a decimal and a cap
    of 0 comes with a floor of 0. -/
theorem daily_reward_documented_iff {stake : Int} {hbits : stake.natAbs < 2 ^ 256}
    (hp : p.validate = .ok ⟨⟩) (hstake : 0 < stake) :
    DailyRewardDocumented p stake hbits ↔
      (stake * p.ratePerDay.raw).natAbs < maxDec ∧
        (p.capPerDay.val = 0 → p.floorPerDay.val = 0) := by
  obtain ⟨rate, floor, cap, total, hv⟩ := FormulaParams.validate_values hp
  unfold DailyRewardDocumented documentedReward
  rw [hv.rate_raw, hv.floor_val, hv.cap_val]
  have hearned : 0 ≤ stake * rate / precisionReuse :=
    Int.ediv_nonneg (Int.mul_nonneg hstake.le hv.rate_nonneg) (by decide)
  have hclamps := dailyOf_eq_documented_iff hearned hv.floor_nonneg hv.floor_le_cap
  constructor
  · rintro ⟨d, hd, hdoc, -, -⟩
    obtain ⟨hrange, rfl⟩ := (hv.dailyReward hstake).mp hd
    exact ⟨hrange, hclamps.mp hdoc⟩
  · rintro ⟨hrange, hzero⟩
    refine ⟨_, (hv.dailyReward hstake).mpr ⟨hrange, rfl⟩, hclamps.mpr hzero, ?_, ?_⟩
    · rw [hclamps.mpr hzero]
      exact le_max_left _ _
    · intro s hs hpos hle
      have hless : s * rate ≤ stake * rate := Int.mul_le_mul_of_nonneg_right hle hv.rate_nonneg
      have hnonneg : 0 ≤ s * rate := Int.mul_nonneg hpos.le hv.rate_nonneg
      exact ⟨_, (hv.dailyReward hpos).mpr ⟨by omega, rfl⟩, dailyOf_mono hv.rate_nonneg hle⟩

end

/-- A validator of 10,000 GMB earns the 100 GMB of the default cap. -/
theorem daily_reward_documented_iff_default :
    DailyRewardDocumented defaultFormulaParams (10000 * 10 ^ 18) tenThousandGmb_fits :=
  (daily_reward_documented_iff (by decide) (by decide)).mpr ⟨by decide, fun h => absurd h (by decide)⟩

/-- The default parameters with a cap of 0, which `Validate` accepts. -/
def zeroCap : FormulaParams := { defaultFormulaParams with capPerDay := .zeroInt }

/-- **A cap of 0 pays nothing**: the documented reward is the floor of 10 GMB. -/
theorem zero_cap_pays_nothing :
    zeroCap.validate = .ok ⟨⟩ ∧ ¬ DailyRewardDocumented zeroCap 1 (by decide) := by
  refine ⟨by decide, ?_⟩
  rintro ⟨d, hd, hdoc, -, -⟩
  have hzero : zeroCap.dailyReward (.int 1 (by decide)) = .ok 0 := by decide
  rw [hzero] at hd
  injection hd with hd
  rw [← hd] at hdoc
  revert hdoc
  decide

/-! ## A block -/

/-- `PerBlockReward(v.GetTokens())`, before any scaling; 0 if computing it overflows. -/
def rewardOf (p : FormulaParams) (v : Validator) : Int :=
  (p.perBlockReward v.tokens).toOption.getD 0

/-- What the validators earn together. -/
def unscaled (p : FormulaParams) (vals : List Validator) : Int := (vals.map (rewardOf p)).sum

/-- `capLimit`: the reserve, or the block's budget when there is one and it is smaller. -/
def limitOf (p : FormulaParams) (reserve : Int) : Int :=
  if 0 < p.maxTotalPerBlock ∧ p.maxTotalPerBlock < reserve then p.maxTotalPerBlock else reserve

/-- What `v` is credited when the bonded validators are `vals`: its reward in full if all of them fit
    into the limit, else its part of the limit. -/
def creditOf (p : FormulaParams) (reserve : Int) (vals : List Validator) (v : Validator) : Int :=
  share (limitOf p reserve) (unscaled p vals) (rewardOf p v)

/-- The product of the tokens and the rate fits into a decimal. -/
def InRange (p : FormulaParams) (v : Validator) : Prop :=
  0 < v.tokens.val → (v.tokens.val * p.ratePerDay.raw).natAbs < maxDec

instance (p : FormulaParams) (v : Validator) : Decidable (InRange p v) :=
  inferInstanceAs (Decidable (_ → _))

/-- **No intermediate value of a round overflows.** -/
structure Fits (p : FormulaParams) (reserve : Int) (vals : List Validator) : Prop where
  earned : ∀ v ∈ vals, InRange p v
  total : unscaled p vals < maxInt
  product : limitOf p reserve < unscaled p vals →
    ∀ v ∈ vals, rewardOf p v * limitOf p reserve < maxInt

section
variable {p : FormulaParams} {rate floor cap total reserve : Int} {vals : List Validator}
  {v w : Validator}

theorem unscaled_cons : unscaled p (v :: vals) = rewardOf p v + unscaled p vals := by
  rw [unscaled, List.map_cons, List.sum_cons]
  rfl

theorem dailyOf_nonneg (hp : p.Values rate floor cap total) {stake : Int} (hstake : 0 < stake) :
    0 ≤ dailyOf rate floor cap stake :=
  le_dailyOf hp.cap_nonneg
    (.inl (Int.ediv_nonneg (Int.mul_nonneg hstake.le hp.rate_nonneg) (by decide)))

/-- **The reward of a block**, and when computing it does not overflow. -/
theorem FormulaParams.Values.perBlockReward_eq_ok (hp : p.Values rate floor cap total) {pb : Int} :
    p.perBlockReward v.tokens = .ok pb ↔ InRange p v ∧
      pb = if 0 < v.tokens.val then dailyOf rate floor cap v.tokens.val / p.blocksPerDay.toNat
        else 0 := by
  unfold FormulaParams.perBlockReward InRange
  rw [if_neg hp.blocks, hp.rate_raw]
  by_cases hpos : 0 < v.tokens.val
  -- a positive amount is not nil
  · obtain ⟨stake, hbits, htokens⟩ : ∃ stake hbits, v.tokens = .int stake hbits := by
      cases htokens : v.tokens with
      | nil =>
        rw [htokens] at hpos
        exact absurd hpos (lt_irrefl 0)
      | int stake hbits => exact ⟨stake, hbits, rfl⟩
    rw [htokens, MathInt.val_int] at hpos ⊢
    rw [if_pos hpos]
    constructor
    · intro h
      obtain ⟨daily, hdaily, h⟩ := bind_eq_ok.mp h
      obtain ⟨hrange, rfl⟩ := (hp.dailyReward hpos).mp hdaily
      injection h with h
      rw [Int.tdiv_eq_ediv_of_nonneg (dailyOf_nonneg hp hpos)] at h
      exact ⟨fun _ => hrange, h.symm⟩
    · rintro ⟨hrange, rfl⟩
      rw [(hp.dailyReward hpos).mpr ⟨hrange hpos, rfl⟩, ok_bind,
        Int.tdiv_eq_ediv_of_nonneg (dailyOf_nonneg hp hpos)]
  · have hdaily : p.dailyReward v.tokens = .ok 0 := by
      cases htokens : v.tokens with
      | nil => rfl
      | int stake hbits =>
        rw [htokens] at hpos
        exact if_pos (not_lt.mp hpos)
    rw [hdaily, ok_bind, if_neg hpos, Int.zero_tdiv]
    constructor
    · intro h
      injection h with h
      exact ⟨fun h0 => absurd h0 hpos, h.symm⟩
    · rintro ⟨-, rfl⟩
      rfl

theorem FormulaParams.Values.perBlockReward_of_inRange (hp : p.Values rate floor cap total)
    (hin : InRange p v) : p.perBlockReward v.tokens = .ok (rewardOf p v) := by
  have h := hp.perBlockReward_eq_ok.mpr ⟨hin, rfl⟩
  rw [rewardOf, h]
  rfl

theorem FormulaParams.Values.rewardOf_eq (hp : p.Values rate floor cap total) (hin : InRange p v) :
    rewardOf p v =
      if 0 < v.tokens.val then dailyOf rate floor cap v.tokens.val / p.blocksPerDay.toNat else 0 :=
  (hp.perBlockReward_eq_ok.mp (hp.perBlockReward_of_inRange hin)).2

theorem rewardOf_of_overflow (hp : p.Values rate floor cap total) (hin : ¬ InRange p v) :
    rewardOf p v = 0 := by
  unfold rewardOf
  cases h : p.perBlockReward v.tokens with
  | error e => rfl
  | ok pb => exact absurd (hp.perBlockReward_eq_ok.mp h).1 hin

theorem rewardOf_nonneg (hp : p.Values rate floor cap total) : 0 ≤ rewardOf p v := by
  by_cases hin : InRange p v
  · rw [hp.rewardOf_eq hin]
    split
    · rename_i hpos
      exact Int.ediv_nonneg (dailyOf_nonneg hp hpos) hp.blocks_pos.le
    · exact le_rfl
  · rw [rewardOf_of_overflow hp hin]

theorem unscaled_nonneg (hp : p.Values rate floor cap total) : 0 ≤ unscaled p vals := by
  refine List.sum_nonneg fun a ha => ?_
  obtain ⟨v, -, rfl⟩ := List.mem_map.mp ha
  exact rewardOf_nonneg hp

/-- A larger stake earns no less in a block. -/
theorem rewardOf_mono (hp : p.Values rate floor cap total) (hv : InRange p v) (hw : InRange p w)
    (hle : v.tokens.val ≤ w.tokens.val) : rewardOf p v ≤ rewardOf p w := by
  by_cases hpos : 0 < v.tokens.val
  · rw [hp.rewardOf_eq hv, hp.rewardOf_eq hw, if_pos hpos, if_pos (lt_of_lt_of_le hpos hle)]
    exact Int.ediv_le_ediv hp.blocks_pos (dailyOf_mono hp.rate_nonneg hle)
  · rw [hp.rewardOf_eq hv, if_neg hpos]
    exact rewardOf_nonneg hp

/-- A day of blocks pays at most the cap. -/
theorem rewardOf_mul_blocks_le (hp : p.Values rate floor cap total) :
    p.blocksPerDay.toNat * rewardOf p v ≤ cap := by
  by_cases hin : InRange p v
  · rw [hp.rewardOf_eq hin]
    split
    · rw [Int.mul_comm]
      exact le_trans (Int.ediv_mul_le _ hp.blocks_pos.ne') dailyOf_le
    · rw [Int.mul_zero]
      exact hp.cap_nonneg
  · rw [rewardOf_of_overflow hp hin, Int.mul_zero]
    exact hp.cap_nonneg

/-- The limit is the smaller of the reserve and a positive budget. -/
theorem limitOf_le (p : FormulaParams) (reserve : Int) :
    limitOf p reserve ≤ reserve ∧
      (0 < p.maxTotalPerBlock → limitOf p reserve ≤ p.maxTotalPerBlock) := by
  unfold limitOf
  split
  · omega
  · omega

theorem limitOf_nonneg (h : 0 ≤ reserve) : 0 ≤ limitOf p reserve := by
  unfold limitOf
  split
  · omega
  · exact h

/-! ### The plan of a round -/

/-- The allocations the callback collects: those of the validators that earn something. -/
def paid (p : FormulaParams) (vals : List Validator) : List Alloc :=
  (vals.map fun v => ⟨v, rewardOf p v⟩).filter fun a => decide (0 < a.amt)

theorem paid_cons_of_pos (hpos : 0 < rewardOf p v) :
    paid p (v :: vals) = ⟨v, rewardOf p v⟩ :: paid p vals :=
  List.filter_cons_of_pos (decide_eq_true hpos)

theorem paid_cons_of_not_pos (hpos : ¬ 0 < rewardOf p v) : paid p (v :: vals) = paid p vals :=
  List.filter_cons_of_neg (by rw [decide_eq_true_eq]; exact hpos)

/-- **The callback collects every validator's reward** exactly when no reward and no running sum
    overflows. -/
theorem collect_eq_ok (hp : p.Values rate floor cap total) {acc allocs : List Alloc} {t sum : Int}
    (ht : 0 ≤ t) (htbits : t < maxInt) :
    collect p vals acc t = .ok (allocs, sum) ↔
      (∀ v ∈ vals, InRange p v) ∧ t + unscaled p vals < maxInt ∧
        allocs = acc ++ paid p vals ∧ sum = t + unscaled p vals := by
  -- on the validators, `t` being the running sum the callback checks
  induction vals generalizing acc t with
  | nil =>
    show (.ok (acc, t) : Outcome _) = _ ↔ _
    have hnil : unscaled p [] = 0 := rfl
    rw [hnil, Int.add_zero]
    constructor
    · intro h
      obtain ⟨rfl, rfl⟩ := ok_pair h
      exact ⟨fun v hv => absurd hv List.not_mem_nil, htbits, (List.append_nil _).symm, rfl⟩
    · rintro ⟨-, -, rfl, rfl⟩
      rw [paid, List.map_nil, List.filter_nil, List.append_nil]
  | cons v vals ih =>
    rw [collect, unscaled_cons]
    have hpb : 0 ≤ rewardOf p v := rewardOf_nonneg hp
    have hrest : 0 ≤ unscaled p vals := unscaled_nonneg hp
    by_cases hin : InRange p v
    · rw [hp.perBlockReward_of_inRange hin, ok_bind]
      have hforall : (∀ x ∈ v :: vals, InRange p x) ↔ ∀ x ∈ vals, InRange p x := by
        rw [List.forall_mem_cons]
        exact and_iff_right hin
      rw [hforall]
      by_cases hpos : 0 < rewardOf p v
      · rw [if_pos hpos, paid_cons_of_pos hpos]
        by_cases hfits : t + rewardOf p v < maxInt
        · have hfit : fit (t + rewardOf p v) = .ok (t + rewardOf p v) :=
            fit_eq_ok.mpr ⟨by omega, rfl⟩
          rw [hfit, ok_bind, ih (by omega) hfits, List.append_assoc, Int.add_assoc]
          rfl
        · constructor
          · intro h
            obtain ⟨t', hfit, -⟩ := bind_eq_ok.mp h
            obtain ⟨hbits, -⟩ := fit_eq_ok.mp hfit
            omega
          · rintro ⟨-, hbits, -⟩
            omega
      · have hzero : rewardOf p v = 0 := by omega
        rw [if_neg hpos, paid_cons_of_not_pos hpos, hzero, Int.zero_add, ih ht htbits]
    · constructor
      · intro h
        obtain ⟨pb, hpb, -⟩ := bind_eq_ok.mp h
        exact absurd (hp.perBlockReward_eq_ok.mp hpb).1 hin
      · rintro ⟨hall, -⟩
        exact absurd (hall v List.mem_cons_self) hin

/-- The allocations scaled down by `capLimit / total`. -/
def scaled (capLimit total : Int) (allocs : List Alloc) : List Alloc :=
  allocs.map fun a => { a with amt := a.amt * capLimit / total }

/-- The scaling loop, when its products and their sum fit. -/
theorem scale_of_fits {capLimit total : Int} (hlimit : 0 ≤ capLimit) (htotal : 0 < total) :
    ∀ {allocs : List Alloc} {t : Int}, (∀ a ∈ allocs, 0 ≤ a.amt) → 0 ≤ t →
      (∀ a ∈ allocs, a.amt * capLimit < maxInt) →
      t + sumOf (scaled capLimit total allocs) < maxInt →
      scale capLimit total allocs t
        = .ok (scaled capLimit total allocs, t + sumOf (scaled capLimit total allocs))
  | [], t, _, _, _, _ => by
    show (.ok ([], t) : Outcome _) = .ok ([], t + sumOf [])
    rw [sumOf_nil, Int.add_zero]
  | a :: allocs, t, hnonneg, ht, hproduct, hsum => by
    have hamt : 0 ≤ a.amt * capLimit := Int.mul_nonneg (hnonneg a List.mem_cons_self) hlimit
    have hbits := hproduct a List.mem_cons_self
    have hquo : 0 ≤ a.amt * capLimit / total := Int.ediv_nonneg hamt htotal.le
    have hrest : 0 ≤ sumOf (scaled capLimit total allocs) := by
      refine List.sum_nonneg fun x hx => ?_
      obtain ⟨b, hb, rfl⟩ := List.mem_map.mp hx
      obtain ⟨c, hc, rfl⟩ := List.mem_map.mp hb
      exact Int.ediv_nonneg (Int.mul_nonneg (hnonneg c (List.mem_cons_of_mem a hc)) hlimit) htotal.le
    have hcons : sumOf (scaled capLimit total (a :: allocs))
        = a.amt * capLimit / total + sumOf (scaled capLimit total allocs) := sumOf_cons _ _
    rw [hcons] at hsum ⊢
    have hmul : fit (a.amt * capLimit) = .ok (a.amt * capLimit) := fit_eq_ok.mpr ⟨by omega, rfl⟩
    have hadd : fit (t + a.amt * capLimit / total) = .ok (t + a.amt * capLimit / total) :=
      fit_eq_ok.mpr ⟨by omega, rfl⟩
    -- the running sum only grows, so it fits as long as the last one does
    have ih := scale_of_fits hlimit htotal
      (fun b hb => hnonneg b (List.mem_cons_of_mem a hb)) (by omega : 0 ≤ t + a.amt * capLimit / total)
      (fun b hb => hproduct b (List.mem_cons_of_mem a hb)) (by omega)
    rw [scale, hmul, ok_bind]
    dsimp only
    rw [Int.tdiv_eq_ediv_of_nonneg hamt, hadd, ok_bind, ih, ok_bind, Int.add_assoc]
    rfl

/-- A scaling loop that went through had products that fit. -/
theorem products_of_scale {capLimit total : Int} : ∀ {allocs : List Alloc} {t : Int}
    {r : List Alloc × Int}, scale capLimit total allocs t = .ok r →
      ∀ a ∈ allocs, (a.amt * capLimit).natAbs < maxInt
  | [], _, _, _, a, ha => absurd ha List.not_mem_nil
  | b :: allocs, t, r, h, a, ha => by
    obtain ⟨product, hproduct, h⟩ := bind_eq_ok.mp h
    dsimp only at h
    obtain ⟨t', -, h⟩ := bind_eq_ok.mp h
    obtain ⟨r', hrest, -⟩ := bind_eq_ok.mp h
    rcases List.mem_cons.mp ha with rfl | ha
    · exact (fit_eq_ok.mp hproduct).1
    · exact products_of_scale hrest a ha

theorem mem_paid {a : Alloc} (ha : a ∈ paid p vals) :
    0 < a.amt ∧ a.val ∈ vals ∧ a.amt = rewardOf p a.val := by
  obtain ⟨hmem, hpos⟩ := List.mem_filter.mp ha
  obtain ⟨v, hv, rfl⟩ := List.mem_map.mp hmem
  exact ⟨of_decide_eq_true hpos, hv, rfl⟩

theorem mem_paid_of_pos (hv : v ∈ vals) (hpos : 0 < rewardOf p v) :
    ⟨v, rewardOf p v⟩ ∈ paid p vals :=
  List.mem_filter.mpr ⟨List.mem_map_of_mem hv, decide_eq_true hpos⟩

/-- Leaving out the validators that earn nothing does not change the sum. -/
theorem sumOf_paid (hp : p.Values rate floor cap total) : sumOf (paid p vals) = unscaled p vals := by
  induction vals with
  | nil => rfl
  | cons v vals ih =>
    rw [unscaled_cons]
    by_cases hpos : 0 < rewardOf p v
    · rw [paid_cons_of_pos hpos, sumOf_cons, ih]
    · have hnonneg : 0 ≤ rewardOf p v := rewardOf_nonneg hp
      rw [paid_cons_of_not_pos hpos, ih]
      omega

/-- The allocations of a round, each a share of the limit. -/
def planned (p : FormulaParams) (reserve : Int) (vals : List Validator) : List Alloc :=
  (paid p vals).map fun a => { a with amt := share (limitOf p reserve) (unscaled p vals) a.amt }

theorem planned_of_fits (h : unscaled p vals ≤ limitOf p reserve) :
    planned p reserve vals = paid p vals := by
  have hsame : planned p reserve vals = (paid p vals).map id := by
    refine List.map_congr_left fun a _ => ?_
    rw [share_of_fits h]
    rfl
  rw [hsame, List.map_id]

theorem planned_of_exceeds (h : limitOf p reserve < unscaled p vals) :
    planned p reserve vals = scaled (limitOf p reserve) (unscaled p vals) (paid p vals) := by
  refine List.map_congr_left fun a _ => ?_
  rw [share_of_exceeds h]

/-- **A round stays within its limit.** -/
theorem sumOf_planned_le (hp : p.Values rate floor cap total) (hreserve : 0 ≤ reserve) :
    sumOf (planned p reserve vals) ≤ limitOf p reserve := by
  have hsum := sum_share_le ((paid p vals).map Alloc.amt) (limitOf_nonneg (p := p) hreserve)
  have hamts : (planned p reserve vals).map Alloc.amt
      = ((paid p vals).map Alloc.amt).map (share (limitOf p reserve) (unscaled p vals)) := by
    rw [planned, List.map_map, List.map_map]
    rfl
  have htotal : ((paid p vals).map Alloc.amt).sum = unscaled p vals := sumOf_paid hp
  rw [htotal] at hsum
  rw [sumOf, hamts]
  exact hsum

theorem collect_of_fits (hp : p.Values rate floor cap total) (hfits : Fits p reserve vals) :
    collect p vals [] 0 = .ok (paid p vals, unscaled p vals) := by
  refine (collect_eq_ok hp le_rfl (by decide)).mpr ⟨hfits.earned, ?_, (List.nil_append _).symm, ?_⟩
  · rw [Int.zero_add]
    exact hfits.total
  · rw [Int.zero_add]

/-- **What a round plans** when nothing in it overflows: everyone's share, if that is anything. -/
theorem round_eq (hp : p.Values rate floor cap total) {height : Nat} (hheight : 1 < height)
    (hreserve : 0 < reserve) (hfits : Fits p reserve vals) :
    round p height reserve (.ok vals) = .ok (if sumOf (planned p reserve vals) ≤ 0 then none
      else some (planned p reserve vals, sumOf (planned p reserve vals))) := by
  have hlimit : 0 ≤ limitOf p reserve := limitOf_nonneg hreserve.le
  unfold round
  rw [if_neg (not_le.mpr hheight), if_neg (not_le.mpr hreserve), ok_bind, collect_of_fits hp hfits,
    ok_bind]
  dsimp only
  by_cases hnothing : unscaled p vals ≤ 0
  · have hsum : sumOf (planned p reserve vals) ≤ 0 := by
      rw [planned_of_fits (le_trans hnothing hlimit), sumOf_paid hp]
      exact hnothing
    rw [if_pos hnothing, if_pos hsum]
  have hcap : (if 0 < p.maxTotalPerBlock ∧ p.maxTotalPerBlock < reserve then p.maxTotalPerBlock
      else reserve) = limitOf p reserve := rfl
  rw [if_neg hnothing, hcap]
  -- the scaling loop runs only when the rewards exceed the limit
  by_cases hexceeds : limitOf p reserve < unscaled p vals
  · have hbound : sumOf (planned p reserve vals) ≤ limitOf p reserve :=
      sumOf_planned_le hp hreserve.le
    have htotal := hfits.total
    rw [planned_of_exceeds hexceeds] at hbound ⊢
    have hscale := scale_of_fits hlimit (not_le.mp hnothing) (t := 0)
      (fun a ha => (mem_paid ha).1.le) le_rfl
      (fun a ha => by
        obtain ⟨-, hmem, hamt⟩ := mem_paid ha
        rw [hamt]
        exact hfits.product hexceeds a.val hmem)
      (by omega)
    rw [if_pos hexceeds, hscale, ok_bind, Int.zero_add]
  · have hsum : sumOf (paid p vals) = unscaled p vals := sumOf_paid hp
    rw [if_neg hexceeds, planned_of_fits (not_lt.mp hexceeds), hsum, if_neg hnothing]

/-- **A round goes through exactly when nothing in it overflows.** -/
theorem round_succeeds_iff (hp : p.Values rate floor cap total) {height : Nat} (hheight : 1 < height)
    (hreserve : 0 < reserve) :
    succeeds (round p height reserve (.ok vals)) ↔ Fits p reserve vals := by
  constructor
  · rintro ⟨r, h⟩
    unfold round at h
    rw [if_neg (not_le.mpr hheight), if_neg (not_le.mpr hreserve), ok_bind] at h
    obtain ⟨⟨allocs, sum⟩, hcollect, h⟩ := bind_eq_ok.mp h
    obtain ⟨hearned, htotal, hallocs, hsum⟩ := (collect_eq_ok hp le_rfl (by decide)).mp hcollect
    rw [Int.zero_add] at htotal hsum
    rw [List.nil_append] at hallocs
    subst hallocs hsum
    refine ⟨hearned, htotal, fun hexceeds v hv => ?_⟩
    have hlimit : 0 ≤ limitOf p reserve := limitOf_nonneg hreserve.le
    -- a validator that earns nothing is not in the loop, and its product is 0
    by_cases hpos : 0 < rewardOf p v
    · have hcap : (if 0 < p.maxTotalPerBlock ∧ p.maxTotalPerBlock < reserve then p.maxTotalPerBlock
          else reserve) = limitOf p reserve := rfl
      dsimp only at h
      rw [if_neg (by omega), hcap, if_pos hexceeds] at h
      obtain ⟨r', hscale, -⟩ := bind_eq_ok.mp h
      have hbits := products_of_scale hscale _ (mem_paid_of_pos hv hpos)
      dsimp only at hbits
      omega
    · have hzero : rewardOf p v = 0 := le_antisymm (not_lt.mp hpos) (rewardOf_nonneg hp)
      rw [hzero, Int.zero_mul]
      decide
  · intro hfits
    exact ⟨_, round_eq hp hheight hreserve hfits⟩

end

end Gemba.Rewards.RewardStreamer
