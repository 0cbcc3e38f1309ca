/-
  What is left of a validator's day: `RemainingDailyBond` of `keeper.go`.

  A caller that clamps to the remaining allowance wants the two answers of the keeper to agree: the
  check accepts an amount exactly when it is at most what remains.  The check compares `used + amount`
  with the cap, the allowance is `cap - used`, at least 0; under a cap these are the same limit
  (`checkDailyBond_capped`, `remainingDailyBond_capped`).

  Without a cap the check accepts every amount, and what remains is said to be the largest `uint64`,
  "a huge number".  In units of 10⁻¹⁸ GMB it is 18.4 GMB, so a larger amount is clamped although the
  chain would take it (`uncapped_clamped`).  The two agree for the amounts up to it
  (`remaining_agrees_iff`).
-/
import Gemba.Valgate.Staking

namespace Gemba.Valgate

open Gemba.Lib Gemba.Sdk

/-- `^uint64(0)`. -/
def maxUint64 : Int := 2 ^ 64 - 1

/-- `k.RemainingDailyBond(ctx, valoper)`: 0 at the cap, `maxUint64` without one. -/
def remainingDailyBond (ctx : Ctx) (valoper : ValAddress) : Outcome MathInt := do
  let p ← getParams ctx.kv
  let limit := p.maxDailyBondIncrease
  if ← noCap limit then
    .ok (.int maxUint64 (by decide))
  else
    let rem ← limit.sub (dailyBondUsed ctx valoper)
    if ← rem.isNegative then .ok .zeroInt else .ok rem

section
variable {B : AddressCodec} {ctx : Ctx} {valoper : ValAddress} {p : Params} {amount : MathInt}
  {a cap : Int}

/-- The keeper's two answers agree about an amount: it is accepted exactly when it is at most what
    remains. -/
def RemainingAgrees (B : AddressCodec) (ctx : Ctx) (valoper : ValAddress) (amount : MathInt) : Prop :=
  succeeds (CheckDailyBond B ctx valoper amount) ↔
    ∃ rem, remainingDailyBond ctx valoper = .ok rem ∧ amount.val ≤ rem.val

/-- 0, nil and what is below 0 are no cap. -/
theorem noCap_of_nonpos {limit : MathInt} (h : limit.val ≤ 0) : noCap limit = .ok true := by
  cases limit with
  | nil => rfl
  | int v hv =>
    have hle : ¬ 0 < v := not_lt.mpr h
    simp [noCap, hle]

/-! ### Without a cap -/

theorem checkDailyBond_uncapped (hp : getParams ctx.kv = .ok p)
    (hcap : p.maxDailyBondIncrease.val ≤ 0) : succeeds (CheckDailyBond B ctx valoper amount) := by
  refine ⟨(), ?_⟩
  rw [CheckDailyBond, checkDailyBond, hp, ok_bind]
  dsimp only
  rw [noCap_of_nonpos hcap, ok_bind, if_pos rfl, ok_bind]

theorem remainingDailyBond_uncapped (hp : getParams ctx.kv = .ok p)
    (hcap : p.maxDailyBondIncrease.val ≤ 0) :
    remainingDailyBond ctx valoper = .ok (.int maxUint64 (by decide)) := by
  rw [remainingDailyBond, hp, ok_bind]
  dsimp only
  rw [noCap_of_nonpos hcap, ok_bind, if_pos rfl]

/-! ### Under a cap -/

/-- The counter is a number. -/
theorem exists_used (ctx : Ctx) (valoper : ValAddress) :
    ∃ u h, dailyBondUsed ctx valoper = .int u h := by
  obtain ⟨h, hu⟩ := MathInt.val?_eq_some.mp
    (dailyBondUsedOn_isSome ctx.kv ctx.blockTime.day valoper)
  exact ⟨_, h, hu⟩

/-- An amount is accepted exactly when it keeps the day within the cap; within it the sum does not
    overflow, unless it is far below 0. -/
theorem checkDailyBond_capped (hp : getParams ctx.kv = .ok p)
    (hlimit : p.maxDailyBondIncrease.val? = some cap) (hpos : 0 < cap)
    (hamount : amount.val? = some a) (hlow : -(2 ^ 256) < (dailyBondUsed ctx valoper).val + a) :
    succeeds (CheckDailyBond B ctx valoper amount) ↔ (dailyBondUsed ctx valoper).val + a ≤ cap := by
  have hcheck : succeeds (CheckDailyBond B ctx valoper amount) ↔
      succeeds (checkDailyBond B ctx valoper amount) := by
    rw [CheckDailyBond, succeeds_bind]
    constructor
    · rintro ⟨r, hr, -⟩
      exact ⟨r, hr⟩
    · rintro ⟨r, hr⟩
      exact ⟨r, hr, (), rfl⟩
  obtain ⟨u, hubits, hu⟩ := exists_used ctx valoper
  obtain ⟨hcbits, -⟩ := MathInt.val?_eq_some.mp hlimit
  obtain ⟨habits, rfl⟩ := MathInt.val?_eq_some.mp hamount
  rw [hu, MathInt.val_int] at hlow
  rw [hcheck, hu, MathInt.val_int]
  constructor
  · rintro ⟨r, hr⟩
    obtain ⟨⟨total, hadd, hle⟩, -⟩ := (checkDailyBond_eq_ok hp hlimit hpos).mp hr
    rw [hu] at hadd
    have htotal : total.val? = some (u + a) := MathInt.checked_eq_ok.mp hadd
    obtain ⟨hbits, rfl⟩ := MathInt.val?_eq_some.mp htotal
    exact hle
  · intro hle
    -- within the cap, the sum takes no more bits than the cap
    have hfits : (u + a).natAbs < 2 ^ 256 := by omega
    refine ⟨_, (checkDailyBond_eq_ok hp hlimit hpos).mpr ⟨⟨.int (u + a) hfits, ?_, hle⟩, rfl⟩⟩
    rw [hu]
    exact MathInt.checked_of_fits hfits

/-- What remains under a cap is the difference, at least 0; it is a panic if it does not fit. -/
theorem remainingDailyBond_capped (hp : getParams ctx.kv = .ok p)
    (hlimit : p.maxDailyBondIncrease.val? = some cap) (hpos : 0 < cap) {rem : MathInt} :
    remainingDailyBond ctx valoper = .ok rem ↔
      cap - (dailyBondUsed ctx valoper).val < 2 ^ 256 ∧
        rem.val? = some (max 0 (cap - (dailyBondUsed ctx valoper).val)) := by
  obtain ⟨u, hubits, hu⟩ := exists_used ctx valoper
  obtain ⟨hcbits, hc⟩ := MathInt.val?_eq_some.mp hlimit
  rw [remainingDailyBond, hp, ok_bind]
  dsimp only
  rw [noCap_of_pos hlimit hpos, ok_bind, if_neg (by decide), hc, hu, MathInt.val_int]
  show (MathInt.checked (cap - u) >>= _) = _ ↔ _
  by_cases hfits : (cap - u).natAbs < 2 ^ 256
  · rw [MathInt.checked_of_fits hfits, ok_bind, MathInt.isNegative_int, ok_bind]
    -- a cap lowered below the counter leaves 0, and accepts nothing
    by_cases hneg : cap - u < 0
    · rw [if_pos (decide_eq_true hneg), max_eq_left hneg.le]
      constructor
      · intro h
        injection h with h
        subst h
        exact ⟨by omega, rfl⟩
      · rintro ⟨-, h⟩
        obtain ⟨-, rfl⟩ := MathInt.val?_eq_some.mp h
        rfl
    · rw [if_neg (by rw [decide_eq_true_eq]; exact hneg), max_eq_right (not_lt.mp hneg)]
      constructor
      · intro h
        injection h with h
        subst h
        exact ⟨by omega, rfl⟩
      · rintro ⟨-, h⟩
        obtain ⟨-, rfl⟩ := MathInt.val?_eq_some.mp h
        rfl
  · constructor
    · intro h
      unfold MathInt.checked at h
      rw [dif_neg hfits] at h
      nomatch h
    · rintro ⟨hlt, -⟩
      exact absurd (by omega) hfits

/-- Under a cap an amount is within the allowance when the allowance fits and is at least the amount. -/
theorem le_remainingDailyBond_iff (hp : getParams ctx.kv = .ok p)
    (hlimit : p.maxDailyBondIncrease.val? = some cap) (hpos : 0 < cap) :
    (∃ rem, remainingDailyBond ctx valoper = .ok rem ∧ a ≤ rem.val) ↔
      cap - (dailyBondUsed ctx valoper).val < 2 ^ 256 ∧
        a ≤ max 0 (cap - (dailyBondUsed ctx valoper).val) := by
  obtain ⟨hcbits, -⟩ := MathInt.val?_eq_some.mp hlimit
  constructor
  · rintro ⟨rem, hrem, hle⟩
    obtain ⟨hfits, hval⟩ := (remainingDailyBond_capped hp hlimit hpos).mp hrem
    obtain ⟨hbits, rfl⟩ := MathInt.val?_eq_some.mp hval
    exact ⟨hfits, hle⟩
  · rintro ⟨hfits, hle⟩
    have hbits : (max 0 (cap - (dailyBondUsed ctx valoper).val)).natAbs < 2 ^ 256 := by omega
    exact ⟨.int _ hbits, (remainingDailyBond_capped hp hlimit hpos).mpr ⟨hfits, rfl⟩, hle⟩

theorem remainingAgrees_uncapped (hp : getParams ctx.kv = .ok p)
    (hcap : p.maxDailyBondIncrease.val ≤ 0) :
    RemainingAgrees B ctx valoper amount ↔ amount.val ≤ maxUint64 := by
  unfold RemainingAgrees
  rw [remainingDailyBond_uncapped hp hcap]
  constructor
  · intro hiff
    obtain ⟨rem, hrem, hle⟩ := hiff.mp (checkDailyBond_uncapped hp hcap)
    injection hrem with hrem
    subst hrem
    exact hle
  · intro hle
    exact ⟨fun _ => ⟨_, rfl, hle⟩, fun _ => checkDailyBond_uncapped hp hcap⟩

theorem remainingAgrees_capped (hp : getParams ctx.kv = .ok p)
    (hlimit : p.maxDailyBondIncrease.val? = some cap) (hpos : 0 < cap)
    (hamount : amount.val? = some a) (ha : 0 < a) :
    RemainingAgrees B ctx valoper amount ↔ cap - (dailyBondUsed ctx valoper).val < 2 ^ 256 := by
  have hval : amount.val = a := by rw [MathInt.val, hamount, Option.getD_some]
  obtain ⟨habits, -⟩ := MathInt.val?_eq_some.mp hamount
  have hsmall : a < 2 ^ 256 := by omega
  have hlow : -(2 ^ 256) < (dailyBondUsed ctx valoper).val + a := by
    obtain ⟨u, hubits, hu⟩ := exists_used ctx valoper
    rw [hu, MathInt.val_int]
    omega
  unfold RemainingAgrees
  rw [checkDailyBond_capped hp hlimit hpos hamount hlow, hval,
    le_remainingDailyBond_iff hp hlimit hpos]
  constructor
  · -- an allowance that does not fit is larger than any amount
    intro hiff
    by_contra hbig
    have hle : (dailyBondUsed ctx valoper).val + a ≤ cap :=
      add_le_of_le_sub_left (le_trans hsmall.le (not_lt.mp hbig))
    exact hbig (hiff.mp hle).1
  · intro hfits
    constructor
    · intro hle
      exact ⟨hfits, by omega⟩
    · rintro ⟨-, hle⟩
      omega

/-- **When the check and the remaining allowance agree.**  Without a cap: for the amounts up to the
    largest `uint64`.  Under a cap: always, unless the counter is so far below 0 that the allowance
    does not fit into 256 bits. -/
theorem remaining_agrees_iff (hp : getParams ctx.kv = .ok p) (hamount : amount.val? = some a)
    (ha : 0 < a) :
    RemainingAgrees B ctx valoper amount ↔
      if p.maxDailyBondIncrease.val ≤ 0 then a ≤ maxUint64
      else p.maxDailyBondIncrease.val - (dailyBondUsed ctx valoper).val < 2 ^ 256 := by
  have hval : amount.val = a := by rw [MathInt.val, hamount, Option.getD_some]
  by_cases hcap : p.maxDailyBondIncrease.val ≤ 0
  · rw [if_pos hcap, remainingAgrees_uncapped hp hcap, hval]
  · rw [if_neg hcap]
    have hpos : 0 < p.maxDailyBondIncrease.val := not_le.mp hcap
    exact remainingAgrees_capped hp (MathInt.val?_of_pos hpos) hpos hamount ha

end

/-! ### Fifty GMB a day, and no cap -/

/-- The store after governance set the launch parameters with another daily cap. -/
def storeWithCap (cap : MathInt) : Store :=
  Store.set (fun _ => none) paramsKey { defaultParams with maxDailyBondIncrease := cap }.marshal

theorem getParams_storeWithCap (cap : MathInt) :
    getParams (storeWithCap cap) = .ok { defaultParams with maxDailyBondIncrease := cap }.wireImage :=
  getParams_set _ _

/-- Under a cap of 50 GMB a fresh validator may bond 20. -/
theorem remaining_agrees_iff_capped :
    RemainingAgrees sampleCodec ⟨storeWithCap (.int (50 * oneGmb) (by decide)), ⟨0, by decide⟩⟩
      sampleAddress (.int (20 * oneGmb) (by decide)) :=
  (remaining_agrees_iff (getParams_storeWithCap _) rfl (by decide)).mpr (by decide)

/-- **Without a cap, 20 GMB are accepted and clamped**: they are more than the "huge number". -/
theorem uncapped_clamped :
    ¬ RemainingAgrees sampleCodec ⟨storeWithCap .zeroInt, ⟨0, by decide⟩⟩ sampleAddress
      (.int (20 * oneGmb) (by decide)) := by
  intro hiff
  have haccepted : succeeds (CheckDailyBond sampleCodec ⟨storeWithCap .zeroInt, ⟨0, by decide⟩⟩
      sampleAddress (.int (20 * oneGmb) (by decide))) :=
    checkDailyBond_uncapped (getParams_storeWithCap .zeroInt) (by decide)
  obtain ⟨rem, hrem, hle⟩ := hiff.mp haccepted
  rw [remainingDailyBond_uncapped (getParams_storeWithCap .zeroInt) (by decide)] at hrem
  injection hrem with hrem
  subst hrem
  revert hle
  decide

end Gemba.Valgate
