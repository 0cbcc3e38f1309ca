/-
  Parameters that freeze the reward formula.

  `Validate` bounds no magnitude from above, and a round computes with 256 and 315 bits.  A round that
  overflows panics; `BeginBlock` recovers and skips the block, and the next block computes the same.  So
  a governance update can stop the rewards for good while every block reports success
  (`huge_rate_freezes`).

  Which parameters can?  For bonded sets and reserves of up to 10²⁶ units, exactly those for which one
  of three numbers is too large (`never_freezes_iff`):

  1. the product of 10²⁶ and the rate;
  2. the reward of a validator with all of the stake, times the limit of a round;
  3. the floor of a block, paid to 10²⁶ validators of one unit each (unless the cap is 0).

  That the running sum of the rewards fits too is the point of the proof (`unscaled_lt`).  Either a
  block's floor is at least what a unit of stake earns; then a stake of `t` earns at most `t` floors, and
  3. bounds the sum.  Or every stake earns more than the floor; then a reward is at most its product with
  the rate, and 1. bounds the sum.
-/
import Gemba.Rewards.FormulaCredits

namespace Gemba.Rewards.RewardStreamer

open Gemba.Lib Gemba.Sdk

/-- 10²⁶ units, 100 million GMB. -/
def maxStake : Int := 10 ^ 26

theorem maxStake_fits : maxStake.natAbs < 2 ^ 256 := by decide

/-- A bonded set of at most `maxStake` in all. -/
structure BondedSet (vals : List Validator) : Prop where
  distinct : Distinct vals
  nonneg : ∀ v ∈ vals, 0 ≤ v.tokens.val
  bounded : (vals.map fun v => v.tokens.val).sum ≤ maxStake

/-- No round of the parameters panics: whatever the bonded set and the reserve, up to `maxStake` each,
    the round ends without a fault if no keeper has one. -/
def NeverFreezes (p : FormulaParams) : Prop :=
  ∀ (D : Type) (K : Keepers D) (height : Nat) (bank : Bank) (distr : D) (vals : List Validator),
    K.NeverFails → BondedSet vals → 0 ≤ bank.balance reserveAccount p.rewardDenom →
    bank.balance reserveAccount p.rewardDenom ≤ maxStake →
    succeeds (streamFormulaRewards K (some p) height bank distr (.ok vals) none).1

/-- The validator that has all of the stake. -/
def whale : Validator := ⟨"", .int maxStake maxStake_fits⟩

/-- **The three numbers that have to fit.** -/
structure Bounded (p : FormulaParams) : Prop where
  rate : (maxStake * p.ratePerDay.raw).natAbs < maxDec
  product : dailyOf p.ratePerDay.raw p.floorPerDay.val p.capPerDay.val maxStake
    / p.blocksPerDay.toNat * limitOf p maxStake < maxInt
  floor : p.capPerDay.val ≠ 0 →
    maxStake * (p.floorPerDay.val / p.blocksPerDay.toNat) < maxInt

section
variable {p : FormulaParams} {rate floor cap total reserve : Int} {vals : List Validator}
  {v : Validator}

theorem BondedSet.le (h : BondedSet vals) (hv : v ∈ vals) : v.tokens.val ≤ maxStake := by
  refine le_trans (List.single_le_sum (fun x hx => ?_) _
    (List.mem_map_of_mem (f := fun v => v.tokens.val) hv)) h.bounded
  obtain ⟨w, hw, rfl⟩ := List.mem_map.mp hx
  exact h.nonneg w hw

/-- A smaller reserve has no larger limit. -/
theorem limitOf_mono {r s : Int} (h : r ≤ s) : limitOf p r ≤ limitOf p s := by
  unfold limitOf
  split
  · split
    · omega
    · omega
  · split
    · omega
    · omega

/-- Parts of the stake that are each bounded by a multiple of the stake are bounded together. -/
theorem sum_mul_le {f : Validator → Int} {c d : Int}
    (h : ∀ v ∈ vals, f v * d ≤ v.tokens.val * c) :
    (vals.map f).sum * d ≤ (vals.map fun v => v.tokens.val).sum * c := by
  induction vals with
  | nil => simp
  | cons v vals ih =>
    have hhead := h v List.mem_cons_self
    have htail := ih fun w hw => h w (List.mem_cons_of_mem v hw)
    rw [List.map_cons, List.map_cons, List.sum_cons, List.sum_cons, Int.add_mul, Int.add_mul]
    omega

/-- A reward is at most what the stake earns in a block, or the floor of a block. -/
theorem rewardOf_le (hp : p.Values rate floor cap total) (hpos : 0 < v.tokens.val)
    (hin : InRange p v) :
    rewardOf p v ≤ v.tokens.val * rate / precisionReuse / p.blocksPerDay.toNat ∨
      rewardOf p v ≤ floor / p.blocksPerDay.toNat := by
  rw [hp.rewardOf_eq hin, if_pos hpos]
  have hdaily : dailyOf rate floor cap v.tokens.val ≤
      max (v.tokens.val * rate / precisionReuse) floor := by
    rw [dailyOf_eq]
    exact min_le_right _ _
  rcases le_max_iff.mp hdaily with hearned | hfloor
  · exact .inl (Int.ediv_le_ediv hp.blocks_pos hearned)
  · exact .inr (Int.ediv_le_ediv hp.blocks_pos hfloor)

/-- With a cap of 0 nobody earns anything. -/
theorem rewardOf_of_cap_zero (hp : p.Values rate floor 0 total) : rewardOf p v = 0 := by
  have hle : p.blocksPerDay.toNat * rewardOf p v ≤ 0 := rewardOf_mul_blocks_le hp
  have hnonneg : 0 ≤ rewardOf p v := rewardOf_nonneg hp
  have hblocks := hp.blocks_pos
  by_contra hne
  have hpos : 0 < p.blocksPerDay.toNat * rewardOf p v :=
    Int.mul_pos hblocks (lt_of_le_of_ne hnonneg (Ne.symm hne))
  omega

/-- What a stake earns in a block, in decimals, is at most its product with the rate. -/
theorem earned_mul_le (hp : p.Values rate floor cap total) {stake : Int} :
    stake * rate / precisionReuse / p.blocksPerDay.toNat * precisionReuse * p.blocksPerDay.toNat
      ≤ stake * rate := by
  have hblocks := hp.blocks_pos
  have hday := Int.ediv_mul_le (stake * rate / precisionReuse) hblocks.ne'
  have hunits := Int.ediv_mul_le (stake * rate) (b := precisionReuse) (by decide)
  calc stake * rate / precisionReuse / p.blocksPerDay.toNat * precisionReuse * p.blocksPerDay.toNat
      = stake * rate / precisionReuse / p.blocksPerDay.toNat * p.blocksPerDay.toNat
          * precisionReuse := by rw [Int.mul_right_comm]
    _ ≤ stake * rate / precisionReuse * precisionReuse :=
        Int.mul_le_mul_of_nonneg_right hday (by decide)
    _ ≤ stake * rate := hunits

/-- A floor above what a unit of stake earns: a stake earns at most a floor for each unit. -/
theorem rewardOf_le_floors (hp : p.Values rate floor cap total) (hnonneg : 0 ≤ v.tokens.val)
    (hin : InRange p v)
    (hfloor : rate ≤ floor / p.blocksPerDay.toNat * p.blocksPerDay.toNat * precisionReuse) :
    rewardOf p v * 1 ≤ v.tokens.val * (floor / p.blocksPerDay.toNat) := by
  have hblocks := hp.blocks_pos
  have hF : 0 ≤ floor / p.blocksPerDay.toNat := Int.ediv_nonneg hp.floor_nonneg hblocks.le
  rw [Int.mul_one]
  -- a validator without stake is not paid, not even the floor
  by_cases hpos : 0 < v.tokens.val
  · rcases rewardOf_le hp hpos hin with hle | hle
    · refine le_trans hle ?_
      have hunits : v.tokens.val * rate ≤ v.tokens.val *
          (floor / p.blocksPerDay.toNat * p.blocksPerDay.toNat * precisionReuse) :=
        Int.mul_le_mul_of_nonneg_left hfloor hnonneg
      have hearned := le_trans (earned_mul_le hp) hunits
      have hscale : 0 < precisionReuse * (p.blocksPerDay.toNat : Int) :=
        Int.mul_pos (by decide) hblocks
      refine le_of_mul_le_mul_right ?_ hscale
      calc v.tokens.val * rate / precisionReuse / p.blocksPerDay.toNat
            * (precisionReuse * p.blocksPerDay.toNat)
          = v.tokens.val * rate / precisionReuse / p.blocksPerDay.toNat
            * precisionReuse * p.blocksPerDay.toNat := (Int.mul_assoc _ _ _).symm
        _ ≤ _ := hearned
        _ = v.tokens.val * (floor / p.blocksPerDay.toNat)
            * (precisionReuse * p.blocksPerDay.toNat) := by ring
    · exact le_trans hle (le_mul_of_one_le_left hF hpos)
  · rw [hp.rewardOf_eq hin, if_neg hpos]
    exact Int.mul_nonneg hnonneg hF

/-- A floor below what a unit of stake earns: a reward is at most the product with the rate. -/
theorem rewardOf_le_product (hp : p.Values rate floor cap total) (hnonneg : 0 ≤ v.tokens.val)
    (hin : InRange p v)
    (hfloor : floor / p.blocksPerDay.toNat * p.blocksPerDay.toNat * precisionReuse < rate) :
    rewardOf p v * precisionReuse ≤ v.tokens.val * rate := by
  have hblocks := hp.blocks_pos
  by_cases hpos : 0 < v.tokens.val
  · -- a reward is a part of a day
    have hpart : rewardOf p v * precisionReuse ≤
        rewardOf p v * precisionReuse * p.blocksPerDay.toNat :=
      le_mul_of_one_le_right (Int.mul_nonneg (rewardOf_nonneg hp) (by decide)) hblocks
    refine le_trans hpart ?_
    rcases rewardOf_le hp hpos hin with hle | hle
    · refine le_trans ?_ (earned_mul_le hp)
      exact Int.mul_le_mul_of_nonneg_right
        (Int.mul_le_mul_of_nonneg_right hle (by decide)) hblocks.le
    · calc rewardOf p v * precisionReuse * p.blocksPerDay.toNat
          ≤ floor / p.blocksPerDay.toNat * precisionReuse * p.blocksPerDay.toNat :=
            Int.mul_le_mul_of_nonneg_right
              (Int.mul_le_mul_of_nonneg_right hle (by decide)) hblocks.le
        _ = floor / p.blocksPerDay.toNat * p.blocksPerDay.toNat * precisionReuse :=
            Int.mul_right_comm _ _ _
        _ ≤ rate := hfloor.le
        _ ≤ v.tokens.val * rate := le_mul_of_one_le_left hp.rate_nonneg hpos
  · rw [hp.rewardOf_eq hin, if_neg hpos, Int.zero_mul]
    exact Int.mul_nonneg hnonneg hp.rate_nonneg

theorem inRange_of_le (hp : p.Values rate floor cap total)
    (hrate : (maxStake * p.ratePerDay.raw).natAbs < maxDec) (hle : v.tokens.val ≤ maxStake) :
    InRange p v := by
  intro hpos
  rw [hp.rate_raw] at hrate ⊢
  have hprod : v.tokens.val * rate ≤ maxStake * rate :=
    Int.mul_le_mul_of_nonneg_right hle hp.rate_nonneg
  have hnonneg : 0 ≤ v.tokens.val * rate := Int.mul_nonneg hpos.le hp.rate_nonneg
  omega

theorem rewardOf_whale (hp : p.Values rate floor cap total)
    (hrate : (maxStake * p.ratePerDay.raw).natAbs < maxDec) :
    rewardOf p whale = dailyOf p.ratePerDay.raw p.floorPerDay.val p.capPerDay.val maxStake
      / p.blocksPerDay.toNat := by
  have hin : InRange p whale := inRange_of_le hp hrate le_rfl
  rw [hp.rewardOf_eq hin, hp.rate_raw, hp.floor_val, hp.cap_val]
  exact if_pos (by decide)

/-- **The rewards of a bounded set add up to less than 256 bits**, whoever holds the stake. -/
theorem unscaled_lt (hp : p.Values rate floor cap total) (hbounded : Bounded p)
    (hset : BondedSet vals) : unscaled p vals < maxInt := by
  have hrange : ∀ v ∈ vals, InRange p v := fun v hv =>
    inRange_of_le hp hbounded.rate (hset.le hv)
  have hblocks := hp.blocks_pos
  by_cases hcap : cap = 0
  · subst hcap
    have hzero : unscaled p vals = 0 := by
      refine List.sum_eq_zero fun x hx => ?_
      obtain ⟨v, -, rfl⟩ := List.mem_map.mp hx
      exact rewardOf_of_cap_zero hp
    rw [hzero]
    decide
  -- a cap that is not 0 is at least the floor, so the floor counts
  have hfloor := hbounded.floor (by rw [hp.cap_val]; exact hcap)
  rw [hp.floor_val] at hfloor
  -- what a unit of stake earns, or the floor, bounds every reward by its share of the stake
  by_cases hless : rate ≤ floor / p.blocksPerDay.toNat * p.blocksPerDay.toNat * precisionReuse
  · have hsum := sum_mul_le fun v hv =>
      rewardOf_le_floors hp (hset.nonneg v hv) (hrange v hv) hless
    have hstake : (vals.map fun v => v.tokens.val).sum * (floor / p.blocksPerDay.toNat) ≤
        maxStake * (floor / p.blocksPerDay.toNat) :=
      Int.mul_le_mul_of_nonneg_right hset.bounded
        (Int.ediv_nonneg hp.floor_nonneg hblocks.le)
    rw [Int.mul_one] at hsum
    exact lt_of_le_of_lt (le_trans hsum hstake) hfloor
  · have hsum := sum_mul_le fun v hv =>
      rewardOf_le_product hp (hset.nonneg v hv) (hrange v hv) (not_le.mp hless)
    have hstake : (vals.map fun v => v.tokens.val).sum * rate ≤ maxStake * rate :=
      Int.mul_le_mul_of_nonneg_right hset.bounded hp.rate_nonneg
    have hdec : maxStake * rate < maxDec := by
      have hbits := hbounded.rate
      rw [hp.rate_raw] at hbits
      omega
    have hunits : unscaled p vals * precisionReuse < maxInt * precisionReuse :=
      lt_trans (lt_of_le_of_lt (le_trans hsum hstake) hdec) (by decide)
    exact lt_of_mul_lt_mul_right hunits (by decide)

theorem fits_of_bounded (hp : p.Values rate floor cap total) (hbounded : Bounded p)
    (hset : BondedSet vals) (hle : reserve ≤ maxStake) (hreserve : 0 ≤ reserve) :
    Fits p reserve vals := by
  refine ⟨fun v hv => inRange_of_le hp hbounded.rate (hset.le hv), unscaled_lt hp hbounded hset,
    fun _ v hv => ?_⟩
  have hreward : rewardOf p v ≤ rewardOf p whale :=
    rewardOf_mono hp (inRange_of_le hp hbounded.rate (hset.le hv))
      (inRange_of_le hp hbounded.rate le_rfl) (hset.le hv)
  -- the largest product is that of the largest stake and the fullest reserve
  have hproduct : rewardOf p v * limitOf p reserve ≤ rewardOf p whale * limitOf p maxStake :=
    Int.mul_le_mul hreward (limitOf_mono hle) (limitOf_nonneg hreserve) (rewardOf_nonneg hp)
  rw [rewardOf_whale hp hbounded.rate] at hproduct
  exact lt_of_le_of_lt hproduct hbounded.product

/-- Parameters that are switched off pay nothing. -/
theorem stream_of_disabled {D : Type} (K : Keepers D) {height : Nat} {bank : Bank} {distr : D}
    {bonded : Outcome (List Validator)} {fault : Option Fault}
    (hoff : p.enabled = false ∨ K.wired = false) :
    streamFormulaRewards K (some p) height bank distr bonded fault = (.ok 0, bank, distr) := by
  unfold streamFormulaRewards getFormulaParams
  rw [Option.getD_some]
  dsimp only
  rw [if_pos hoff]

/-- The first block pays nothing. -/
theorem stream_of_first_block {D : Type} (K : Keepers D) {height : Nat} {bank : Bank} {distr : D}
    {bonded : Outcome (List Validator)} {fault : Option Fault} (hheight : height ≤ 1) :
    streamFormulaRewards K (some p) height bank distr bonded fault = (.ok 0, bank, distr) := by
  unfold streamFormulaRewards getFormulaParams round
  rw [Option.getD_some]
  dsimp only
  rw [if_pos hheight]
  split
  · rfl
  · rfl

/-- **Bounded parameters never freeze.** -/
theorem neverFreezes_of_bounded (hp : p.Values rate floor cap total) (hbounded : Bounded p) :
    NeverFreezes p := by
  intro D K height bank distr vals hK hset hreserve hle
  by_cases hoff : p.enabled = false ∨ K.wired = false
  · rw [stream_of_disabled K hoff]
    exact succeeds_ok _
  by_cases hheight : height ≤ 1
  · rw [stream_of_first_block K hheight]
    exact succeeds_ok _
  rw [not_or, Bool.not_eq_false, Bool.not_eq_false] at hoff
  obtain ⟨moved, hok, -⟩ := round_correct distr hp hoff.1 hoff.2 hK (not_le.mp hheight) rfl hreserve
    fun _ => fits_of_bounded hp hbounded hset hle hreserve
  exact ⟨moved, hok⟩

/-! ### Three bonded sets that find an overflow -/

/-- Keepers that accept every credit. -/
def accepting : Keepers Unit := ⟨true, fun u _ _ => (.ok ⟨⟩, u)⟩

theorem accepting_neverFails : accepting.NeverFails := fun _ _ _ => succeeds_ok _

/-- A round with a full reserve that goes through has no overflow. -/
theorem NeverFreezes.fits (h : NeverFreezes p) (hp : p.Values rate floor cap total)
    (henabled : p.enabled = true) (hset : BondedSet vals) : Fits p maxStake vals := by
  have hbalance : (reserveOf p.rewardDenom hp.denom maxStake).balance reserveAccount p.rewardDenom
      = maxStake := if_pos ⟨rfl, rfl⟩
  obtain ⟨moved, hok⟩ := h Unit accepting 2 (reserveOf p.rewardDenom hp.denom maxStake) () vals
    accepting_neverFails hset (by rw [hbalance]; decide) (by rw [hbalance])
  refine (round_succeeds_iff hp (by decide : 1 < 2) (by decide)).mp ?_
  unfold streamFormulaRewards getFormulaParams at hok
  rw [Option.getD_some] at hok
  dsimp only at hok
  rw [henabled, hbalance, if_neg (by decide)] at hok
  cases hround : round p 2 maxStake (.ok vals) with
  | ok r => exact succeeds_ok r
  | error e =>
    rw [hround] at hok
    nomatch hok

theorem bondedSet_whale : BondedSet [whale] where
  distinct := List.nodup_singleton _
  nonneg := fun v hv => by rw [List.mem_singleton.mp hv]; decide
  bounded := by decide

theorem one_fits : (1 : Int).natAbs < 2 ^ 256 := by decide

/-- The `i`-th of many validators of one unit each. -/
def unitValidator (i : Nat) : Validator :=
  ⟨String.ofList (List.replicate i 'a'), .int 1 one_fits⟩

/-- `n` validators of one unit each. -/
def crowd (n : Nat) : List Validator := (List.range n).map unitValidator

theorem sum_map_crowd (n : Nat) {f : Validator → Int} {c : Int} (h : ∀ i, f (unitValidator i) = c) :
    ((crowd n).map f).sum = n * c := by
  have hconst : (List.range n).map (f ∘ unitValidator) = List.replicate n c := by
    rw [List.eq_replicate_iff, List.length_map, List.length_range]
    refine ⟨rfl, fun x hx => ?_⟩
    obtain ⟨i, -, rfl⟩ := List.mem_map.mp hx
    exact h i
  rw [crowd, List.map_map, hconst, List.sum_replicate, nsmul_eq_mul]

theorem bondedSet_crowd {n : Nat} (hn : (n : Int) ≤ maxStake) : BondedSet (crowd n) where
  distinct := by
    unfold Distinct crowd
    rw [List.map_map]
    refine List.Nodup.map (fun i j hij => ?_) List.nodup_range
    have hchars := String.ofList_injective hij
    have hlen := congrArg List.length hchars
    rw [List.length_replicate, List.length_replicate] at hlen
    exact hlen
  nonneg := fun v hv => by
    obtain ⟨i, -, rfl⟩ := List.mem_map.mp hv
    exact Int.zero_le_ofNat 1
  bounded := by
    rw [sum_map_crowd n (c := 1) fun _ => rfl, Int.mul_one]
    exact hn

/-- A unit of stake earns at least the floor. -/
theorem floor_le_rewardOf (hp : p.Values rate floor cap total) (hcap : cap ≠ 0) {i : Nat}
    (hin : InRange p (unitValidator i)) :
    floor / p.blocksPerDay.toNat ≤ rewardOf p (unitValidator i) := by
  have hpos : 0 < (unitValidator i).tokens.val := Int.zero_lt_one
  rw [hp.rewardOf_eq hin, if_pos hpos]
  exact Int.ediv_le_ediv hp.blocks_pos (le_dailyOf (hp.floor_le_cap hcap) (.inr le_rfl))

theorem NeverFreezes.bounded (h : NeverFreezes p) (hp : p.Values rate floor cap total)
    (henabled : p.enabled = true) : Bounded p := by
  have hwhale := h.fits hp henabled bondedSet_whale
  have hrate : (maxStake * p.ratePerDay.raw).natAbs < maxDec :=
    hwhale.earned whale List.mem_cons_self (by decide)
  refine ⟨hrate, ?_, ?_⟩
  · rw [← rewardOf_whale hp hrate]
    have hlimit0 : 0 ≤ limitOf p maxStake := limitOf_nonneg (by decide)
    have hunscaled : unscaled p [whale] = rewardOf p whale := by
      rw [unscaled, List.map_singleton, List.sum_singleton]
    by_cases hexceeds : limitOf p maxStake < rewardOf p whale
    · exact hwhale.product (by rw [hunscaled]; exact hexceeds) whale List.mem_cons_self
    · -- a reward within the limit is no larger than the reserve
      have hlimit := (limitOf_le p maxStake).1
      have hproduct : rewardOf p whale * limitOf p maxStake ≤ maxStake * maxStake :=
        Int.mul_le_mul (le_trans (not_lt.mp hexceeds) hlimit) hlimit hlimit0 (by decide)
      exact lt_of_le_of_lt hproduct (by decide)
  · intro hcap
    rw [hp.cap_val] at hcap
    rw [hp.floor_val]
    have hcast : ((maxStake.toNat : Nat) : Int) = maxStake := Int.toNat_of_nonneg (by decide)
    have hcrowd := h.fits hp henabled (bondedSet_crowd hcast.le)
    have hin : ∀ i, InRange p (unitValidator i) := fun i =>
      inRange_of_le hp hrate (by decide : (1 : Int) ≤ maxStake)
    have hsame : ∀ i, rewardOf p (unitValidator i) = rewardOf p (unitValidator 0) := fun i => rfl
    have hsum : unscaled p (crowd maxStake.toNat) = maxStake * rewardOf p (unitValidator 0) := by
      rw [unscaled, sum_map_crowd _ hsame, hcast]
    have htotal := hcrowd.total
    rw [hsum] at htotal
    exact lt_of_le_of_lt
      (Int.mul_le_mul_of_nonneg_left (floor_le_rewardOf hp hcap (hin 0)) (by decide)) htotal

/-- A round that overflows is skipped and changes nothing: with the same validators the next block
    overflows too. -/
theorem beginBlock_of_overflow {D : Type} {K : Keepers D} {store : Option Stream.Params}
    {height : Nat} {bank : Bank} {distr : D} {fault : Option Fault}
    (hp : p.Values rate floor cap total) (hheight : 1 < height)
    (henabled : p.enabled = true) (hwired : K.wired = true)
    (hreserve : 0 < bank.balance reserveAccount p.rewardDenom)
    (hoverflow : ¬ Fits p (bank.balance reserveAccount p.rewardDenom) vals) :
    beginBlock K store (some p) height bank distr (.ok vals) fault = (bank, distr) := by
  have hactive : formulaActive K (some p) = true := by
    unfold formulaActive getFormulaParams
    rw [Option.getD_some, hwired, henabled]
    rfl
  unfold beginBlock
  rw [if_pos hactive]
  unfold streamFormulaRewards getFormulaParams
  rw [Option.getD_some]
  dsimp only
  rw [if_neg (by rw [henabled, hwired]; decide)]
  cases hround : round p height (bank.balance reserveAccount p.rewardDenom) (.ok vals) with
  | ok r => exact absurd ((round_succeeds_iff hp hheight hreserve).mp ⟨r, hround⟩) hoverflow
  | error e => rfl

/-- **Validated parameters never freeze the rewards exactly when** they are switched off or the three
    numbers fit. -/
theorem never_freezes_iff (hp : p.validate = .ok ⟨⟩) :
    NeverFreezes p ↔ p.enabled = false ∨ Bounded p := by
  obtain ⟨rate, floor, cap, total, hv⟩ := FormulaParams.validate_values hp
  constructor
  · intro h
    by_cases henabled : p.enabled = true
    · exact .inr (h.bounded hv henabled)
    · exact .inl (Bool.eq_false_iff.mpr henabled)
  · rintro (hoff | hbounded)
    · intro D K height bank distr vals _ _ _ _
      rw [stream_of_disabled K (.inl hoff)]
      exact succeeds_ok _
    · exact neverFreezes_of_bounded hv hbounded

end

/-- The default parameters. -/
theorem never_freezes_iff_default : NeverFreezes defaultFormulaParams :=
  (never_freezes_iff (by decide)).mpr (.inr ⟨by decide, by decide, by decide⟩)

theorem hugeRate_fits : ((10 : Int) ^ 78).natAbs < maxDec := by decide

/-- The default parameters with a rate of 10⁶⁰ a day, which `Validate` accepts. -/
def hugeRate : FormulaParams :=
  { defaultFormulaParams with ratePerDay := .dec (10 ^ 78) hugeRate_fits }

/-- **A rate that freezes the rewards**: one validator of 100 million GMB, and every round panics in the
    first product. -/
theorem huge_rate_freezes : hugeRate.validate = .ok ⟨⟩ ∧ ¬ NeverFreezes hugeRate := by
  refine ⟨by decide, fun h => ?_⟩
  obtain ⟨moved, hok⟩ := h Unit accepting 2 (reserveOf "agmb" (by decide) maxStake) () [whale]
    accepting_neverFails bondedSet_whale (by decide) (by decide)
  have hpanic : (streamFormulaRewards accepting (some hugeRate) 2
      (reserveOf "agmb" (by decide) maxStake) () (.ok [whale]) none).1
        = .error (.panic "Int overflow") := by decide +kernel
  rw [hpanic] at hok
  nomatch hok

end Gemba.Rewards.RewardStreamer
