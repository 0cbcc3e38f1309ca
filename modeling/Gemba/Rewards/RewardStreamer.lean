/-
  `src/chain/x/rewardstreamer` — the validators' reward, paid from a reserve.

  The module has two engines with a switch each.  `StreamRewards` is the fixed stream of `Stream`.
  `StreamFormulaRewards` pays every bonded validator by its stake, between a floor and a cap a day:
  it collects one allocation per validator, scales all of them down when their sum passes the reserve
  or the day's budget, moves the sum to the distribution module, and credits the validators one by
  one.  `BeginBlock` runs the second when its parameters are enabled and its keepers are wired, the
  first otherwise, and swallows whatever either returns or panics with.

  Nothing rolls a failed round back.  Up to the move it has written nothing, so a round is a plan
  (`round`, which only reads) followed by the writes, and `streamFormulaRewards` answers with the
  bank and the distribution module's state as they are when it stops.

  The distribution keeper is outside the repository: `Keepers` is all the module sees of it, a
  function that credits one validator and may fail whenever and however it likes.

  * `round_spec`  — a round moves a positive total of at most the reserve and the budget;
  * `scale_spec`  — scaling down pro rata, each share rounded down, keeps the sum within the limit.
-/
import Mathlib.Tactic.Ring
import Mathlib.Tactic.Linarith
import Gemba.Rewards.Stream

namespace Gemba.Rewards.RewardStreamer

open Gemba.Lib Gemba.Sdk

/-- `types.ModuleName`; the module's account is the reserve. -/
def moduleName : String := "rewardstreamer"

/-- The account that holds the reserve. -/
def reserveAccount : Account := .module moduleName

/-- The account of the distribution module. -/
def distributionAccount : Account := .module distributionName

/-! ## The fixed stream -/

/-- `DefaultParams()`: 2,000,000 GMB a year. -/
def defaultParams : Stream.Params where
  enabled := true
  rewardDenom := "agmb"
  annualReward := .int (2000000 * 10 ^ 18) (by decide)
  blocksPerYear := 15778476

/-- `k.GetParams(ctx)` on the stored value. -/
def getParams (store : Option Stream.Params) : Stream.Params := store.getD defaultParams

/-- `k.SetParams(ctx, p)`: the new stored value. -/
def setParams (p : Stream.Params) : Outcome (Option Stream.Params) := do
  p.validate
  .ok (some p)

/-- `k.StreamRewards(ctx)`. -/
def streamRewards (store : Option Stream.Params) (height : Nat) (bank : Bank)
    (fault : Option Fault) : Outcome (Bank × Int) :=
  Stream.stream moduleName "rewardstreamer: stream to fee collector failed" (getParams store) height
    bank fault

/-! ## The formula's parameters -/

/-- `types.FormulaParams`. -/
structure FormulaParams where
  enabled : Bool
  ratePerDay : LegacyDec
  floorPerDay : MathInt
  capPerDay : MathInt
  blocksPerDay : UInt64
  rewardDenom : String
  maxTotalPerDay : MathInt
deriving DecidableEq

/-- `DefaultFormulaParams()`: 1 % a day between 10 and 100 GMB, 5,479 GMB a day in all. -/
def defaultFormulaParams : FormulaParams where
  enabled := true
  ratePerDay := .percent 1 (by decide)
  floorPerDay := .int (10 * 10 ^ 18) (by decide)
  capPerDay := .int (100 * 10 ^ 18) (by decide)
  blocksPerDay := 28800
  rewardDenom := "agmb"
  maxTotalPerDay := .int (5479 * 10 ^ 18) (by decide)

namespace FormulaParams

/-- `p.DailyReward(stake)`. -/
def dailyReward (p : FormulaParams) : MathInt → Outcome Int
  | .nil => .ok 0
  | .int stake _ =>
    if stake ≤ 0 then .ok 0
    else do
      let rate ← p.ratePerDay.deref
      let earned ← LegacyDec.mul (LegacyDec.ofInt stake) rate
      let r ← LegacyDec.truncateInt earned
      let floor ← p.floorPerDay.deref
      let r := if r < floor then floor else r
      let cap ← p.capPerDay.deref
      .ok (if cap < r then cap else r)

/-- `p.PerBlockReward(stake)`, rounded down. -/
def perBlockReward (p : FormulaParams) (stake : MathInt) : Outcome Int :=
  if p.blocksPerDay = 0 then .ok 0
  else do
    let daily ← p.dailyReward stake
    .ok (daily.tdiv p.blocksPerDay.toNat)

/-- `p.MaxTotalPerBlock()`, rounded down; 0 stands for "no aggregate cap". -/
def maxTotalPerBlock (p : FormulaParams) : Int :=
  match p.maxTotalPerDay with
  | .nil => 0
  | .int total _ => if total ≤ 0 ∨ p.blocksPerDay = 0 then 0 else total.tdiv p.blocksPerDay.toNat

/-- `p.Validate()`. -/
def validate (p : FormulaParams) : Outcome PUnit := do
  failIf (validateDenom p.rewardDenom = false)
    (.error s!"invalid reward_denom: invalid denom: {p.rewardDenom}")
  failIf (p.ratePerDay.isNil = true)
    (.error s!"rate_per_day must be non-negative, got {p.ratePerDay}")
  let rate ← p.ratePerDay.deref
  failIf (rate < 0) (.error s!"rate_per_day must be non-negative, got {p.ratePerDay}")
  let badFloor ← orElse p.floorPerDay.isNil p.floorPerDay.isNegative
  failIf (badFloor = true) (.error "floor_per_day must be non-negative")
  let badCap ← orElse p.capPerDay.isNil p.capPerDay.isNegative
  failIf (badCap = true) (.error "cap_per_day must be non-negative")
  let floor ← p.floorPerDay.deref
  let cap ← p.capPerDay.deref
  failIf (cap ≠ 0 ∧ cap < floor)
    (.error s!"cap_per_day {p.capPerDay} must be >= floor_per_day {p.floorPerDay}")
  failIf (p.blocksPerDay = 0) (.error "blocks_per_day must be positive")
  let badTotal ← orElse p.maxTotalPerDay.isNil p.maxTotalPerDay.isNegative
  failIf (badTotal = true)
    (.error "max_total_per_day must be non-negative (0 = no aggregate cap)")

end FormulaParams

/-- `k.GetFormulaParams(ctx)` on the stored value. -/
def getFormulaParams (store : Option FormulaParams) : FormulaParams :=
  store.getD defaultFormulaParams

/-- `k.SetFormulaParams(ctx, p)`: the new stored value. -/
def setFormulaParams (p : FormulaParams) : Outcome (Option FormulaParams) := do
  p.validate
  .ok (some p)

/-! ## A round of the formula -/

/-- What the module asks of a validator. -/
structure Validator where
  operator : String
  tokens : MathInt
deriving DecidableEq

/-- The keepers of `WithFormulaKeepers`. -/
structure Keepers (D : Type) where
  /-- Whether they were injected at all. -/
  wired : Bool
  /-- `distrKeeper.AllocateTokensToValidator(ctx, val, tokens)`, on the state of the module. -/
  allocateTokensToValidator : D → Validator → Coin → Outcome PUnit × D

/-- One validator's part of a round. -/
structure Alloc where
  val : Validator
  amt : Int
deriving DecidableEq

/-- The callback of `IterateBondedValidatorsByPower` over the bonded validators. -/
def collect (fp : FormulaParams) : List Validator → List Alloc → Int → Outcome (List Alloc × Int)
  | [], allocs, total => .ok (allocs, total)
  | v :: vs, allocs, total => do
    let pb ← fp.perBlockReward v.tokens
    if 0 < pb then do
      let total ← fit (total + pb)
      collect fp vs (allocs ++ [⟨v, pb⟩]) total
    else collect fp vs allocs total

/-- The loop that scales every allocation by `capLimit / total`; `scaled` adds them up. -/
def scale (capLimit total : Int) : List Alloc → Int → Outcome (List Alloc × Int)
  | [], scaled => .ok ([], scaled)
  | a :: allocs, scaled => do
    let product ← fit (a.amt * capLimit)
    let amt := product.tdiv total
    let scaled ← fit (scaled + amt)
    let (allocs, scaled) ← scale capLimit total allocs scaled
    .ok ({ a with amt := amt } :: allocs, scaled)

/-- `StreamFormulaRewards` up to its first write: the allocations and their total, or nothing to pay.
    `bonded` is what the staking keeper's iterator answers. -/
def round (fp : FormulaParams) (height : Nat) (reserve : Int) (bonded : Outcome (List Validator)) :
    Outcome (Option (List Alloc × Int)) :=
  if height ≤ 1 then .ok none
  else if reserve ≤ 0 then .ok none
  else do
    let vals ← bonded
    let (allocs, total) ← collect fp vals [] 0
    if total ≤ 0 then .ok none
    else
      let budget := fp.maxTotalPerBlock
      let capLimit := if 0 < budget ∧ budget < reserve then budget else reserve
      if capLimit < total then do
        let (allocs, scaled) ← scale capLimit total allocs 0
        .ok (if scaled ≤ 0 then none else some (allocs, scaled))
      else .ok (some (allocs, total))

section
variable {D : Type} (K : Keepers D)

/-- The loop that credits the validators, skipping what is not positive. -/
def credit (denom : String) : List Alloc → D → Outcome PUnit × D
  | [], distr => (.ok ⟨⟩, distr)
  | a :: allocs, distr =>
    if a.amt ≤ 0 then credit denom allocs distr
    else match K.allocateTokensToValidator distr a.val ⟨denom, a.amt⟩ with
      | (.ok _, distr) => credit denom allocs distr
      | (.error e, distr) =>
        (wrapError "rewardstreamer: allocate to validator failed" (.error e), distr)

/-- `k.StreamFormulaRewards(ctx)`: its answer, and the bank and the distribution module's state as it
    leaves them. -/
def streamFormulaRewards (store : Option FormulaParams) (height : Nat) (bank : Bank) (distr : D)
    (bonded : Outcome (List Validator)) (fault : Option Fault) : Outcome Int × Bank × D :=
  let fp := getFormulaParams store
  if fp.enabled = false ∨ K.wired = false then (.ok 0, bank, distr)
  else match round fp height (bank.balance reserveAccount fp.rewardDenom) bonded with
    | .error e => (.error e, bank, distr)
    | .ok none => (.ok 0, bank, distr)
    | .ok (some (allocs, total)) =>
      match newCoin fp.rewardDenom total >>= fun coin =>
          wrapError "rewardstreamer: move reserve->distribution failed"
            (bank.send fault reserveAccount distributionAccount [coin]) with
      | .error e => (.error e, bank, distr)
      | .ok bank =>
        let (r, distr) := credit K fp.rewardDenom allocs distr
        (r.map fun _ => total, bank, distr)

/-- `k.FormulaActive(ctx)`. -/
def formulaActive (store : Option FormulaParams) : Bool :=
  K.wired && (getFormulaParams store).enabled

/-- `k.BeginBlock(ctx)`: the bank and the distribution module's state afterwards. -/
def beginBlock (store : Option Stream.Params) (formula : Option FormulaParams) (height : Nat)
    (bank : Bank) (distr : D) (bonded : Outcome (List Validator)) (fault : Option Fault) :
    Bank × D :=
  if formulaActive K formula then
    (streamFormulaRewards K formula height bank distr bonded fault).2
  else match streamRewards store height bank fault with
    | .ok (bank, _) => (bank, distr)
    | .error _ => (bank, distr)

end

/-! ## Genesis -/

/-- `types.GenesisState`. -/
structure GenesisState where
  params : Stream.Params
  formulaParams : FormulaParams

/-- `DefaultGenesis()`. -/
def defaultGenesis : GenesisState := ⟨defaultParams, defaultFormulaParams⟩

/-- `gs.ResolvedFormulaParams()`: the defaults when the block was left out. -/
def GenesisState.resolvedFormulaParams (gs : GenesisState) : FormulaParams :=
  if gs.formulaParams.ratePerDay.isNil then defaultFormulaParams else gs.formulaParams

/-- `gs.Validate()`. -/
def GenesisState.validate (gs : GenesisState) : Outcome PUnit := do
  gs.params.validate
  gs.resolvedFormulaParams.validate

/-- `k.InitGenesis(ctx, gs)`: both stored values. -/
def initGenesis (gs : GenesisState) : Outcome (Option Stream.Params × Option FormulaParams) := do
  let params ← panicOnError (setParams gs.params)
  let formula ← panicOnError (setFormulaParams gs.resolvedFormulaParams)
  .ok (params, formula)

/-! ## What a round moves -/

/-- What the allocations add up to. -/
def sumOf (allocs : List Alloc) : Int := (allocs.map Alloc.amt).sum

@[simp] theorem sumOf_nil : sumOf [] = 0 := rfl

@[simp] theorem sumOf_cons (a : Alloc) (allocs : List Alloc) :
    sumOf (a :: allocs) = a.amt + sumOf allocs := by
  simp [sumOf]

@[simp] theorem sumOf_append (as bs : List Alloc) : sumOf (as ++ bs) = sumOf as + sumOf bs := by
  simp [sumOf]

/-- The collected allocations are positive and add up to the total. -/
theorem collect_spec {fp : FormulaParams} : ∀ {vs : List Validator} {acc allocs : List Alloc}
    {total sum : Int}, sumOf acc = total → (∀ a ∈ acc, 0 < a.amt) →
      collect fp vs acc total = .ok (allocs, sum) → sumOf allocs = sum ∧ ∀ a ∈ allocs, 0 < a.amt
  | [], _, _, _, _, hsum, hpos, h => by
    obtain ⟨rfl, rfl⟩ := ok_pair h
    exact ⟨hsum, hpos⟩
  | v :: vs, acc, allocs, total, sum, hsum, hpos, h => by
    obtain ⟨pb, -, h⟩ := bind_eq_ok.mp h
    rcases ite_eq_ok.mp h with ⟨hpb, h⟩ | ⟨-, h⟩
    · obtain ⟨total', htotal, h⟩ := bind_eq_ok.mp h
      obtain ⟨-, rfl⟩ := fit_eq_ok.mp htotal
      refine collect_spec ?_ ?_ h
      · rw [sumOf_append, hsum, sumOf_cons, sumOf_nil, Int.add_zero]
      · intro a ha
        rcases List.mem_append.mp ha with ha | ha
        · exact hpos a ha
        · rw [List.mem_singleton.mp ha]
          exact hpb
    · exact collect_spec hsum hpos h

/-- **Scaling down keeps within the limit.**  Each share is rounded down, so `total` times what they
    add up to is at most `capLimit` times what they were. -/
theorem scale_spec {capLimit total : Int} (hlimit : 0 ≤ capLimit) (htotal : 0 < total) :
    ∀ {allocs scaledAllocs : List Alloc} {scaled sum : Int}, (∀ a ∈ allocs, 0 < a.amt) →
      scale capLimit total allocs scaled = .ok (scaledAllocs, sum) →
        sum = scaled + sumOf scaledAllocs ∧
          sumOf scaledAllocs * total ≤ capLimit * sumOf allocs
  | [], _, _, _, _, h => by
    obtain ⟨rfl, rfl⟩ := ok_pair h
    simp
  | a :: allocs, scaledAllocs, scaled, sum, hpos, h => by
    obtain ⟨product, hproduct, h⟩ := bind_eq_ok.mp h
    obtain ⟨-, rfl⟩ := fit_eq_ok.mp hproduct
    dsimp only at h
    obtain ⟨scaled', hscaled, h⟩ := bind_eq_ok.mp h
    obtain ⟨-, rfl⟩ := fit_eq_ok.mp hscaled
    obtain ⟨⟨rest, sum'⟩, hrest, h⟩ := bind_eq_ok.mp h
    obtain ⟨rfl, rfl⟩ := ok_pair h
    obtain ⟨hsum, hle⟩ := scale_spec hlimit htotal
      (fun b hb => hpos b (List.mem_cons_of_mem a hb)) hrest
    have hamt : 0 ≤ a.amt * capLimit := Int.mul_nonneg (hpos a List.mem_cons_self).le hlimit
    have hfloor : (a.amt * capLimit).tdiv total * total ≤ a.amt * capLimit := by
      rw [Int.tdiv_eq_ediv_of_nonneg hamt]
      exact Int.ediv_mul_le _ (by omega)
    rw [sumOf_cons, sumOf_cons]
    refine ⟨?_, ?_⟩
    · show sum' = scaled + (_ + sumOf rest)
      rw [hsum]
      ring
    · show (_ + sumOf rest) * total ≤ capLimit * (a.amt + sumOf allocs)
      rw [Int.add_mul, Int.mul_add, Int.mul_comm capLimit a.amt]
      exact Int.add_le_add hfloor hle

/-- **A round that pays** moves a positive total, of at most the reserve and at most the block's
    budget when there is one, and that is what its allocations add up to. -/
theorem round_spec {fp : FormulaParams} {height : Nat} {reserve total : Int}
    {bonded : Outcome (List Validator)} {allocs : List Alloc}
    (h : round fp height reserve bonded = .ok (some (allocs, total))) :
    1 < height ∧ 0 < total ∧ total ≤ reserve ∧ sumOf allocs = total ∧
      (0 < fp.maxTotalPerBlock → total ≤ fp.maxTotalPerBlock) := by
  unfold round at h
  rcases ite_eq_ok.mp h with ⟨-, h⟩ | ⟨hheight, h⟩
  · nomatch h
  rcases ite_eq_ok.mp h with ⟨-, h⟩ | ⟨hreserve, h⟩
  · nomatch h
  obtain ⟨vals, -, h⟩ := bind_eq_ok.mp h
  obtain ⟨⟨collected, sum⟩, hcollect, h⟩ := bind_eq_ok.mp h
  obtain ⟨hsum, hpos⟩ := collect_spec sumOf_nil (fun a ha => absurd ha List.not_mem_nil) hcollect
  rcases ite_eq_ok.mp h with ⟨-, h⟩ | ⟨hsumpos, h⟩
  · nomatch h
  dsimp only at h
  -- the limit is positive, within the reserve, and within a budget if there is one
  generalize hcap : (if 0 < fp.maxTotalPerBlock ∧ fp.maxTotalPerBlock < reserve
    then fp.maxTotalPerBlock else reserve) = capLimit at h
  have hlimit : 0 < capLimit ∧ capLimit ≤ reserve ∧
      (0 < fp.maxTotalPerBlock → capLimit ≤ fp.maxTotalPerBlock) := by
    rw [← hcap]
    split
    · omega
    · omega
  rcases ite_eq_ok.mp h with ⟨-, h⟩ | ⟨hfits, h⟩
  · obtain ⟨⟨scaledAllocs, scaled⟩, hscale, h⟩ := bind_eq_ok.mp h
    injection h with h
    dsimp only at h
    split at h
    · nomatch h
    · rename_i hscaled
      injection h with h
      injection h with ha ht
      subst ha ht
      obtain ⟨hsum', hle⟩ := scale_spec hlimit.1.le (by omega) hpos hscale
      rw [Int.zero_add] at hsum'
      rw [hsum, ← hsum'] at hle
      have hbound : scaled ≤ capLimit := le_of_mul_le_mul_right hle (by omega)
      refine ⟨by omega, by omega, by omega, hsum'.symm, ?_⟩
      intro hbudget
      have := hlimit.2.2 hbudget
      omega
  · injection h with h
    injection h with h
    injection h with ha ht
    subst ha ht
    refine ⟨by omega, by omega, by omega, hsum, ?_⟩
    intro hbudget
    have := hlimit.2.2 hbudget
    omega

end Gemba.Rewards.RewardStreamer
