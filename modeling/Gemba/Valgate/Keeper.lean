/-
  `x/valgate/keeper` — the module's KV store (`keeper.go`).

  The store has two kinds of entries:

  * the parameters, proto-encoded, under the one-byte key `paramsKey`;
  * for each validator, under `dailyBondPrefix` and its address, the day of the last charge (eight
    big-endian bytes) followed by the text of that day's total.

  What the rest of the development needs of it:

  1. `getParams_set`        — what was written by `setParams` is read back as `wireImage`;
  2. `usedOn_setDailyBondUsed` — a charge is seen under its own day and validator, reads 0 under any
                              other day, and leaves every other validator alone;
  3. `checkAndRecordDailyBond_eq_ok` — under a positive cap a charge goes through exactly when it
                              keeps the day's total within the cap, and then it writes that total;
                              `Charged` is what any number of charges does to the counters;
  4. `Stored`               — the invariant of the parameters' entry: absent, or written by
                              `setParams`.  Under it `getParams` cannot fail and returns parameters
                              that pass `validate` and have no nil.
-/
import Gemba.Sdk.Address
import Gemba.Valgate.Params

namespace Gemba.Valgate

open Gemba.Lib Gemba.Sdk

/-- A KV store. -/
abbrev Store := Bytes → Option Bytes

/-- `store.Set(key, value)`. -/
def Store.set (kv : Store) (key value : Bytes) : Store :=
  fun k => if k = key then some value else kv k

@[simp] theorem Store.set_same (kv : Store) (k v : Bytes) : kv.set k v k = some v := if_pos rfl

theorem Store.set_of_ne {kv : Store} {k k' v : Bytes} (h : k' ≠ k) : kv.set k v k' = kv k' :=
  if_neg h

/-- A block's time, in whole seconds since 1970 (`ctx.BlockTime().Unix()`, an `int64`). -/
structure BlockTime where
  unix : Nat
  inRange : unix < 2 ^ 63
deriving DecidableEq

/-- The UTC day of a block. -/
def BlockTime.day (t : BlockTime) : Nat := t.unix / 86400

theorem BlockTime.day_lt (t : BlockTime) : t.day < 256 ^ 8 := by
  have := t.inRange
  unfold BlockTime.day
  omega

theorem BlockTime.day_mono {t t' : BlockTime} (h : t.unix ≤ t'.unix) : t.day ≤ t'.day :=
  Nat.div_le_div_right h

/-- What the keeper sees of `sdk.Context`: its store and the block time. -/
structure Ctx where
  kv : Store
  blockTime : BlockTime

/-- `types.ParamsKey`. -/
def paramsKey : Bytes := [0x01]

/-- `types.DailyBondPrefix`. -/
def dailyBondPrefix : Bytes := [0x02]

/-- `k.dailyBondKey(valoper)`. -/
def dailyBondKey (valoper : ValAddress) : Bytes := dailyBondPrefix ++ valoper

theorem dailyBondKey_ne_paramsKey (valoper : ValAddress) : dailyBondKey valoper ≠ paramsKey := by
  intro h
  injection h with h
  revert h
  decide

theorem dailyBondKey_inj {v w : ValAddress} : dailyBondKey v = dailyBondKey w ↔ v = w := by
  constructor
  · intro h
    injection h
  · intro h
    rw [h]

/-! ## Parameters -/

/-- `k.cdc.MustUnmarshal(bz, &p)`. -/
def mustUnmarshal (bz : Bytes) : Outcome Params := panicOnError (Params.unmarshal bz)

/-- The two caps, filled in when the entry predates them. -/
def Params.backfill (p : Params) : Params :=
  let p := if p.maxSelfBond.isNil
    then { p with maxSelfBond := defaultParams.maxSelfBond } else p
  if p.maxDailyBondIncrease.isNil
    then { p with maxDailyBondIncrease := defaultParams.maxDailyBondIncrease } else p

/-- `k.GetParams(ctx)`: proto-decoded and backfilled, `defaultParams` if unset. -/
def getParams (kv : Store) : Outcome Params :=
  match kv paramsKey with
  | none => .ok defaultParams
  | some bz => do .ok (← mustUnmarshal bz).backfill

/-- `k.SetParams(ctx, p)`. -/
def setParams (kv : Store) (p : Params) : Outcome Store := do
  p.validate
  .ok (kv.set paramsKey p.marshal)

theorem setParams_eq_ok {kv kv' : Store} {p : Params} :
    setParams kv p = .ok kv' ↔ p.Valid ∧ kv' = kv.set paramsKey p.marshal := by
  rw [setParams, bind_eq_ok]
  constructor
  · rintro ⟨⟨⟩, hval, hset⟩
    injection hset with hset
    exact ⟨Params.validate_eq_ok.mp hval, hset.symm⟩
  · rintro ⟨hval, rfl⟩
    exact ⟨⟨⟩, Params.validate_eq_ok.mpr hval, rfl⟩

/-- Valid parameters are written. -/
theorem setParams_ok (kv : Store) {p : Params} (h : p.Valid) :
    setParams kv p = .ok (kv.set paramsKey p.marshal) :=
  setParams_eq_ok.mpr ⟨h, rfl⟩

/-- **What was written is read back with 0 for nil.**  The backfill of `getParams` never applies to
    an entry that `setParams` wrote: it holds all three fields. -/
theorem getParams_set (kv : Store) (p : Params) :
    getParams (kv.set paramsKey p.marshal) = .ok p.wireImage := by
  have hread : mustUnmarshal p.marshal = .ok p.wireImage := by
    rw [mustUnmarshal, panicOnError_eq_ok, Params.unmarshal_marshal]
  have hfill : p.wireImage.backfill = p.wireImage := by
    simp [Params.backfill, Params.wireImage]
  rw [getParams, Store.set_same]
  dsimp only
  rw [hread, ok_bind, hfill]

/-- The parameters' entry is absent or was written by `setParams`. -/
def Stored (kv : Store) : Prop :=
  kv paramsKey = none ∨ ∃ p : Params, p.Valid ∧ kv paramsKey = some p.marshal

/-- Parameters that pass `validate` and have no nil. -/
structure Params.Full (p : Params) : Prop where
  valid : p.Valid
  minSelfBond : p.minSelfBond.val? = some p.minSelfBond.val
  maxSelfBond : p.maxSelfBond.val? = some p.maxSelfBond.val
  maxDailyBondIncrease : p.maxDailyBondIncrease.val? = some p.maxDailyBondIncrease.val

/-- Writing 0 for nil keeps parameters valid: both mean "no cap". -/
theorem Params.Valid.wireImage {p : Params} (h : p.Valid) : p.wireImage.Full := by
  obtain ⟨⟨m, hm, hm0⟩, hmax, hdaily⟩ := h
  have hval : ∀ x : MathInt, x.val? = some x.val ∨ x.val = 0 := by
    intro x
    cases x with
    | nil => exact Or.inr rfl
    | int v hv => exact Or.inl rfl
  have hmin : p.minSelfBond.val = m := by rw [MathInt.val, hm]; rfl
  refine ⟨⟨⟨m, ?_, hm0⟩, ?_, ?_⟩, ?_, ?_, ?_⟩
  · rw [Params.wireImage, val?_wireInt, hmin]
  · intro x hx
    rw [Params.wireImage, val?_wireInt] at hx
    injection hx with hx
    subst hx
    rw [Params.wireImage, val_wireInt]
    rcases hval p.maxSelfBond with h | h
    · exact hmax _ h
    · exact ⟨by omega, by omega⟩
  · intro d hd
    rw [Params.wireImage, val?_wireInt] at hd
    injection hd with hd
    subst hd
    rcases hval p.maxDailyBondIncrease with h | h
    · exact hdaily _ h
    · omega
  · rw [Params.wireImage, val?_wireInt, val_wireInt]
  · rw [Params.wireImage, val?_wireInt, val_wireInt]
  · rw [Params.wireImage, val?_wireInt, val_wireInt]

theorem defaultParams_full : defaultParams.Full :=
  ⟨Params.validate_eq_ok.mp defaultParams_valid, rfl, rfl, rfl⟩

/-- **Reading well-stored parameters.**  `getParams` returns valid parameters without nil. -/
theorem Stored.getParams {kv : Store} (h : Stored kv) :
    ∃ p : Params, Valgate.getParams kv = .ok p ∧ p.Full := by
  rcases h with hnone | ⟨p, hp, hsome⟩
  · refine ⟨defaultParams, ?_, defaultParams_full⟩
    rw [Valgate.getParams, hnone]
  · refine ⟨p.wireImage, ?_, hp.wireImage⟩
    have hset : kv = kv.set paramsKey p.marshal := by
      funext k
      by_cases hk : k = paramsKey
      · rw [hk, Store.set_same, hsome]
      · rw [Store.set_of_ne hk]
    rw [hset]
    exact getParams_set kv p

theorem Stored.setParams {kv kv' : Store} {p : Params} (hs : setParams kv p = .ok kv') :
    Stored kv' := by
  obtain ⟨hp, rfl⟩ := setParams_eq_ok.mp hs
  exact Or.inr ⟨p, hp, Store.set_same _ _ _⟩

/-! ## The daily counter -/

/-- The amount charged to `valoper` on `day`: the stored total if it is that day's, else 0.  (What
    `Unmarshal` leaves after a failed read is not used: the store holds only texts of `Marshal`.) -/
def dailyBondUsedOn (kv : Store) (day : Nat) (valoper : ValAddress) : MathInt :=
  match kv (dailyBondKey valoper) with
  | none => .zeroInt
  | some bz =>
    if 8 ≤ bz.length ∧ ofBE (bz.take 8) = day then
      match MathInt.zeroInt.unmarshal (bz.drop 8) with
      | .ok used => used
      | .error _ => .zeroInt
    else .zeroInt

/-- `k.dailyBondUsed(ctx, valoper)`. -/
def dailyBondUsed (ctx : Ctx) (valoper : ValAddress) : MathInt :=
  dailyBondUsedOn ctx.kv ctx.blockTime.day valoper

/-- `k.setDailyBondUsed(ctx, valoper, total)`. -/
def setDailyBondUsed (ctx : Ctx) (valoper : ValAddress) (total : MathInt) : Store :=
  ctx.kv.set (dailyBondKey valoper) (toBE 8 ctx.blockTime.day ++ total.marshal)

/-- `limit.IsNil() || !limit.IsPositive()`: 0 or nil is no cap. -/
def noCap (limit : MathInt) : Outcome Bool :=
  orElse limit.isNil (do .ok !(← limit.isPositive))

section
variable (B : AddressCodec)

/-- `k.checkDailyBond(ctx, valoper, amount)`: the cap and what is used of it today, or an error when
    `amount` does not fit. -/
def checkDailyBond (ctx : Ctx) (valoper : ValAddress) (amount : MathInt) :
    Outcome (MathInt × MathInt) := do
  let p ← getParams ctx.kv
  let limit := p.maxDailyBondIncrease
  if ← noCap limit then
    .ok (limit, .zeroInt)
  else
    let used := dailyBondUsed ctx valoper
    let total ← used.add amount
    failIf (← total.gt limit)
      (.error (s!"validator {B.valAddressString valoper} would add {amount} to its stake today, "
        ++ s!"exceeding the {limit}/day max bond increase (governance-set, x/valgate §6); "
        ++ s!"already added {used} today"))
    .ok (limit, used)

/-- `k.CheckDailyBond(ctx, valoper, amount)`: the same question; writes nothing. -/
def CheckDailyBond (ctx : Ctx) (valoper : ValAddress) (amount : MathInt) : Outcome Unit := do
  let _ ← checkDailyBond B ctx valoper amount
  .ok ()

/-- `k.CheckAndRecordDailyBond(ctx, valoper, amount)`: the store after the charge. -/
def checkAndRecordDailyBond (ctx : Ctx) (valoper : ValAddress) (amount : MathInt) :
    Outcome Store := do
  let (limit, used) ← checkDailyBond B ctx valoper amount
  if ← noCap limit then
    .ok ctx.kv
  else
    let total ← used.add amount
    .ok (setDailyBondUsed ctx valoper total)

end

/-- The counter is a number: never nil. -/
theorem dailyBondUsedOn_isSome (kv : Store) (day : Nat) (v : ValAddress) :
    (dailyBondUsedOn kv day v).val? = some (dailyBondUsedOn kv day v).val := by
  have hunmarshal : ∀ (bz : Bytes) (x : MathInt), MathInt.zeroInt.unmarshal bz = .ok x →
      x.val? = some x.val := by
    intro bz x h
    unfold MathInt.unmarshal at h
    split at h
    · injection h with h
      rw [← h]
      rfl
    · split at h
      · cases h
      · split at h
        · injection h with h
          rw [← h]
          rfl
        · cases h
  unfold dailyBondUsedOn
  split
  · rfl
  · split
    · split
      · rename_i used h
        exact hunmarshal _ _ h
      · rfl
    · rfl

/-- **One charge.**  The counter of the charged validator reads the new total on the day of the
    charge and 0 on any other; the other counters read what they did. -/
theorem usedOn_setDailyBondUsed (ctx : Ctx) (valoper : ValAddress) {total : MathInt}
    (htotal : total.isNil = false) (day : Nat) (v : ValAddress) :
    dailyBondUsedOn (setDailyBondUsed ctx valoper total) day v =
      if v = valoper then (if day = ctx.blockTime.day then total else .zeroInt)
      else dailyBondUsedOn ctx.kv day v := by
  by_cases hv : v = valoper
  · subst hv
    rw [if_pos rfl]
    have hlen : (toBE 8 ctx.blockTime.day).length = 8 := length_toBE 8 _
    have hday : ofBE ((toBE 8 ctx.blockTime.day ++ total.marshal).take 8) = ctx.blockTime.day := by
      rw [List.take_left' hlen]
      exact ofBE_toBE_of_lt ctx.blockTime.day_lt
    rw [dailyBondUsedOn, setDailyBondUsed, Store.set_same]
    dsimp only
    by_cases hd : day = ctx.blockTime.day
    · rw [if_pos hd, if_pos ⟨by simp, hday.trans hd.symm⟩, List.drop_left' hlen,
        MathInt.unmarshal_marshal, htotal]
      rfl
    · rw [if_neg hd, if_neg]
      rintro ⟨-, h⟩
      exact hd (h.symm.trans hday)
  · rw [if_neg hv, dailyBondUsedOn, setDailyBondUsed,
      Store.set_of_ne (fun h => hv (dailyBondKey_inj.mp h))]
    rfl

/-- A charge leaves the parameters alone. -/
theorem setDailyBondUsed_paramsKey (ctx : Ctx) (valoper : ValAddress) (total : MathInt) :
    setDailyBondUsed ctx valoper total paramsKey = ctx.kv paramsKey :=
  Store.set_of_ne (fun h => dailyBondKey_ne_paramsKey valoper h.symm)

/-- The cap in force: `getParams` returns a positive `max_daily_bond_increase`. -/
def DailyCap (kv : Store) (cap : Int) : Prop :=
  0 < cap ∧ ∃ p : Params, getParams kv = .ok p ∧ p.maxDailyBondIncrease.val? = some cap

theorem DailyCap.of_paramsKey {kv kv' : Store} {cap : Int} (h : DailyCap kv cap)
    (hkey : kv' paramsKey = kv paramsKey) : DailyCap kv' cap := by
  obtain ⟨hpos, p, hp, hcap⟩ := h
  refine ⟨hpos, p, ?_, hcap⟩
  rw [getParams, hkey]
  exact hp

theorem noCap_of_pos {limit : MathInt} {cap : Int} (h : limit.val? = some cap) (hpos : 0 < cap) :
    noCap limit = .ok false := by
  obtain ⟨hb, rfl⟩ := MathInt.val?_eq_some.mp h
  simp [noCap, hpos]

/-- Under a positive cap the check passes exactly when the amount fits. -/
theorem checkDailyBond_eq_ok {B : AddressCodec} {ctx : Ctx} {valoper : ValAddress}
    {amount : MathInt} {p : Params} {cap : Int} (hp : getParams ctx.kv = .ok p)
    (hlimit : p.maxDailyBondIncrease.val? = some cap) (hpos : 0 < cap) {r : MathInt × MathInt} :
    checkDailyBond B ctx valoper amount = .ok r ↔
      (∃ total, (dailyBondUsed ctx valoper).add amount = .ok total ∧ total.val ≤ cap) ∧
        r = (p.maxDailyBondIncrease, dailyBondUsed ctx valoper) := by
  obtain ⟨hlb, hl⟩ := MathInt.val?_eq_some.mp hlimit
  rw [checkDailyBond, hp, ok_bind]
  dsimp only
  rw [noCap_of_pos hlimit hpos, ok_bind, if_neg (by decide), bind_eq_ok, hl]
  have hadd_some : ∀ total, (dailyBondUsed ctx valoper).add amount = .ok total →
      ∃ v h, total = .int v h := by
    intro total hadd
    obtain ⟨u, a, -, -, ht⟩ := MathInt.add_eq_ok.mp hadd
    exact ⟨u + a, MathInt.val?_eq_some.mp ht⟩
  constructor
  · rintro ⟨total, hadd, h⟩
    obtain ⟨v, hv, rfl⟩ := hadd_some total hadd
    rw [MathInt.gt_int, ok_bind] at h
    simp only [bind_eq_ok, failIf_eq_ok, decide_eq_true_eq] at h
    obtain ⟨-, hle, hr⟩ := h
    injection hr with hr
    exact ⟨⟨_, hadd, Int.not_lt.mp hle⟩, hr.symm⟩
  · rintro ⟨⟨total, hadd, hle⟩, rfl⟩
    obtain ⟨v, hv, rfl⟩ := hadd_some total hadd
    refine ⟨_, hadd, ?_⟩
    rw [MathInt.gt_int, ok_bind, failIf_neg, ok_bind]
    rw [decide_eq_true_eq]
    exact Int.not_lt.mpr hle

/-- **The charge.**  Under a positive cap it goes through exactly when the day's total stays within
    the cap, and then that total is what the store holds. -/
theorem checkAndRecordDailyBond_eq_ok {B : AddressCodec} {ctx : Ctx} {valoper : ValAddress}
    {amount : MathInt} {cap : Int} (hcap : DailyCap ctx.kv cap) {kv' : Store} :
    checkAndRecordDailyBond B ctx valoper amount = .ok kv' ↔
      ∃ total, (dailyBondUsed ctx valoper).add amount = .ok total ∧ total.val ≤ cap ∧
        kv' = setDailyBondUsed ctx valoper total := by
  obtain ⟨hpos, p, hp, hlimit⟩ := hcap
  rw [checkAndRecordDailyBond, bind_eq_ok]
  constructor
  · rintro ⟨⟨limit, used⟩, hcheck, h⟩
    obtain ⟨⟨total, hadd, hle⟩, hr⟩ := (checkDailyBond_eq_ok hp hlimit hpos).mp hcheck
    injection hr with hr1 hr2
    subst hr1 hr2
    dsimp only at h
    rw [noCap_of_pos hlimit hpos, ok_bind, if_neg (by decide), hadd, ok_bind] at h
    injection h with h
    exact ⟨total, hadd, hle, h.symm⟩
  · rintro ⟨total, hadd, hle, rfl⟩
    refine ⟨_, (checkDailyBond_eq_ok hp hlimit hpos).mpr ⟨⟨total, hadd, hle⟩, rfl⟩, ?_⟩
    dsimp only
    rw [noCap_of_pos hlimit hpos, ok_bind, if_neg (by decide), hadd, ok_bind]

/-! ## Changes of the counters

  `Charged cap t kv kv' sum` says what happened to the counters between `kv` and `kv'`, in blocks at
  time `t`: each validator's total for the day grew by `sum`, no total went past the cap, and the
  days to come are as empty as they were.  Charges compose, so a transaction's effect on the
  counters is the sum of its charges. -/

/-- The counters went from `kv` to `kv'` by charges that sum to `sum`. -/
structure Charged (cap : Int) (t : BlockTime) (kv kv' : Store) (sum : ValAddress → Int) : Prop where
  params : kv' paramsKey = kv paramsKey
  today : ∀ v, (dailyBondUsedOn kv' t.day v).val = (dailyBondUsedOn kv t.day v).val + sum v
  bounded : (∀ v, (dailyBondUsedOn kv t.day v).val ≤ cap) →
    ∀ v, (dailyBondUsedOn kv' t.day v).val ≤ cap
  later : ∀ day, t.day < day → (∀ v, (dailyBondUsedOn kv day v).val = 0) →
    ∀ v, (dailyBondUsedOn kv' day v).val = 0

theorem Charged.refl {cap : Int} {t : BlockTime} {kv : Store} : Charged cap t kv kv (fun _ => 0) :=
  ⟨rfl, fun _ => (Int.add_zero _).symm, fun h => h, fun _ _ h => h⟩

theorem Charged.trans {cap : Int} {t : BlockTime} {kv₁ kv₂ kv₃ : Store} {f g : ValAddress → Int}
    (h₁ : Charged cap t kv₁ kv₂ f) (h₂ : Charged cap t kv₂ kv₃ g) :
    Charged cap t kv₁ kv₃ (fun v => f v + g v) := by
  refine ⟨h₂.params.trans h₁.params, ?_, ?_, ?_⟩
  · intro v
    rw [h₂.today v, h₁.today v]
    omega
  · intro hle
    exact h₂.bounded (h₁.bounded hle)
  · intro day hday hzero
    exact h₂.later day hday (h₁.later day hday hzero)

theorem Charged.congr {cap : Int} {t : BlockTime} {kv kv' : Store} {f g : ValAddress → Int}
    (h : Charged cap t kv kv' f) (hfg : ∀ v, f v = g v) : Charged cap t kv kv' g := by
  have : f = g := funext hfg
  rwa [this] at h

theorem Charged.dailyCap {cap : Int} {t : BlockTime} {kv kv' : Store} {f : ValAddress → Int}
    (h : Charged cap t kv kv' f) (hcap : DailyCap kv cap) : DailyCap kv' cap :=
  hcap.of_paramsKey h.params

/-- **One charge.**  A successful `checkAndRecordDailyBond` adds the amount to the validator's
    counter and nothing to the others. -/
theorem checkAndRecordDailyBond_charged {B : AddressCodec} {ctx : Ctx} {valoper : ValAddress}
    {amount : MathInt} {cap : Int} (hcap : DailyCap ctx.kv cap) {kv' : Store}
    (h : checkAndRecordDailyBond B ctx valoper amount = .ok kv') :
    Charged cap ctx.blockTime ctx.kv kv' (fun v => if v = valoper then amount.val else 0) := by
  obtain ⟨total, hadd, hle, rfl⟩ := (checkAndRecordDailyBond_eq_ok hcap).mp h
  obtain ⟨u, a, hu, ha, ht⟩ := MathInt.add_eq_ok.mp hadd
  have hval : total.val = (dailyBondUsed ctx valoper).val + amount.val := by
    rw [MathInt.val, MathInt.val, MathInt.val, hu, ha, ht]
    rfl
  have hnil : total.isNil = false := by
    obtain ⟨hb, rfl⟩ := MathInt.val?_eq_some.mp ht
    rfl
  refine ⟨setDailyBondUsed_paramsKey ctx valoper total, ?_, ?_, ?_⟩
  · intro v
    rw [usedOn_setDailyBondUsed ctx valoper hnil]
    by_cases hv : v = valoper
    · subst hv
      rw [if_pos rfl, if_pos rfl, if_pos rfl, hval]
      rfl
    · rw [if_neg hv, if_neg hv, Int.add_zero]
  · intro hbound v
    rw [usedOn_setDailyBondUsed ctx valoper hnil]
    by_cases hv : v = valoper
    · rw [if_pos hv, if_pos rfl]
      exact hle
    · rw [if_neg hv]
      exact hbound v
  · intro day hday hzero v
    rw [usedOn_setDailyBondUsed ctx valoper hnil]
    by_cases hv : v = valoper
    · rw [if_pos hv, if_neg (by omega)]
      rfl
    · rw [if_neg hv]
      exact hzero v

end Gemba.Valgate
