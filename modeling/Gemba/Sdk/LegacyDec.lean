/-
  `cosmossdk.io/math.LegacyDec` — a decimal with 18 places, kept as an integer — and the arithmetic
  of amounts.

  A parameter of type `math.Int` or `LegacyDec` may be nil, and holds a value of a limited size; once
  it is dereferenced it is an integer (`MathInt.deref`) or the integer of 10⁻¹⁸ths (`LegacyDec.deref`).
  What is computed from there is checked by each operation: a result that does not fit is a panic.

  `chopPrecisionAndRound` is the rounding of `Mul`: to the nearest, and to the even one in the
  middle.  Both uses the modules make of decimals are exact or floors:

  * `mul_ofInt`     — a whole number times a decimal needs no rounding;
  * `truncateInt_eq_ok` — truncation of a non-negative decimal is the floor.
-/
import Mathlib.Data.Int.Basic
import Mathlib.Tactic.Positivity
import Gemba.Sdk.MathInt

namespace Gemba.Sdk

open Gemba.Lib

/-! ## Amounts -/

/-- The value of a `math.Int` that is dereferenced. -/
def MathInt.deref : MathInt → Outcome Int
  | .nil => .error nilDeref
  | .int v _ => .ok v

@[simp] theorem MathInt.deref_eq_ok {x : MathInt} {v : Int} : x.deref = .ok v ↔ x.val? = some v := by
  cases x with
  | nil => simp [deref]
  | int w h => simp [deref]

/-- A `math.Int` takes at most 256 bits. -/
def maxInt : Nat := 2 ^ 256

/-- A computed `math.Int`, or the overflow panic. -/
def fit (v : Int) : Outcome Int :=
  if v.natAbs < maxInt then .ok v else .error (.panic "Int overflow")

@[simp] theorem fit_eq_ok {v w : Int} : fit v = .ok w ↔ v.natAbs < maxInt ∧ w = v := by
  unfold fit
  split
  · rename_i h
    simp [h, eq_comm]
  · rename_i h
    simp [h]

/-! ## Decimals -/

/-- `10^18`. -/
def precisionReuse : Int := 10 ^ 18

/-- A decimal takes at most `maxDecBitLen` = 256 + 59 = 315 bits. -/
def maxDec : Nat := maxInt * 2 ^ 59

/-- `LegacyDec`: nil, or a number of 10⁻¹⁸ths in range. -/
inductive LegacyDec where
  | nil
  | dec (raw : Int) (inRange : raw.natAbs < maxDec)
deriving DecidableEq

namespace LegacyDec

/-- The number of 10⁻¹⁸ths, if any. -/
def raw? : LegacyDec → Option Int
  | nil => none
  | dec raw _ => some raw

/-- The number of 10⁻¹⁸ths, 0 for nil. -/
def raw (x : LegacyDec) : Int := x.raw?.getD 0

/-- `d.IsNil()`. -/
def isNil : LegacyDec → Bool
  | nil => true
  | dec _ _ => false

/-- What `%s` prints: all 18 places. -/
def toString : LegacyDec → String
  | nil => "<nil>"
  | dec raw _ =>
    let digits := ToString.toString (raw.natAbs % 10 ^ 18)
    let zeros := String.ofList (List.replicate (18 - digits.length) '0')
    let sign := if raw < 0 then "-" else ""
    s!"{sign}{raw.natAbs / 10 ^ 18}.{zeros}{digits}"

instance : ToString LegacyDec := ⟨LegacyDec.toString⟩

/-- The value of a decimal that is dereferenced, in 10⁻¹⁸ths. -/
def deref : LegacyDec → Outcome Int
  | nil => .error nilDeref
  | dec raw _ => .ok raw

@[simp] theorem deref_eq_ok {x : LegacyDec} {r : Int} : x.deref = .ok r ↔ x.raw? = some r := by
  cases x with
  | nil => simp [deref, raw?]
  | dec raw h => simp [deref, raw?]

/-- `LegacyNewDecWithPrec(n, 2)`, a percentage. -/
def percent (n : Nat) (h : n * 10 ^ 16 < maxDec) : LegacyDec := dec (n * 10 ^ 16 : Nat) h

/-- A computed decimal, or the overflow panic. -/
def assertInValidRange (raw : Int) : Outcome Int :=
  if raw.natAbs < maxDec then .ok raw else .error (.panic "Int overflow")

@[simp] theorem assertInValidRange_eq_ok {v w : Int} :
    assertInValidRange v = .ok w ↔ v.natAbs < maxDec ∧ w = v := by
  unfold assertInValidRange
  split
  · rename_i h
    simp [h, eq_comm]
  · rename_i h
    simp [h]

/-- `chopPrecisionAndRound`: division by `10^18`, to the nearest, halves to the even side. -/
def chopPrecisionAndRound (d : Int) : Int :=
  let chopped (n : Nat) : Nat :=
    let quo := n / 10 ^ 18
    let rem := n % 10 ^ 18
    if rem < 5 * 10 ^ 17 then quo
    else if 5 * 10 ^ 17 < rem then quo + 1
    else if quo % 2 = 0 then quo else quo + 1
  if d < 0 then - (chopped d.natAbs : Int) else chopped d.natAbs

/-- `LegacyNewDecFromInt(i)`. -/
def ofInt (i : Int) : Int := i * precisionReuse

/-- `d.Mul(e)`. -/
def mul (d e : Int) : Outcome Int := assertInValidRange (chopPrecisionAndRound (d * e))

/-- `d.MulInt(i)`. -/
def mulInt (d i : Int) : Outcome Int := assertInValidRange (d * i)

/-- `d.TruncateInt()`. -/
def truncateInt (d : Int) : Outcome Int := fit (d.tdiv precisionReuse)

/-- A whole number of units is chopped exactly. -/
theorem chop_exact (n : Nat) : chopPrecisionAndRound (n * precisionReuse) = n := by
  have hnat : ((n : Int) * precisionReuse) = ((n * 10 ^ 18 : Nat) : Int) := by
    rw [precisionReuse]
    push_cast
    rfl
  have hneg : ¬ (((n * 10 ^ 18 : Nat) : Int) < 0) := by omega
  rw [hnat, chopPrecisionAndRound]
  simp only [hneg, if_false, Int.natAbs_natCast]
  have hrem : n * 10 ^ 18 % 10 ^ 18 = 0 := Nat.mul_mod_left n (10 ^ 18)
  have hquo : n * 10 ^ 18 / 10 ^ 18 = n := Nat.mul_div_cancel n (by decide)
  rw [hrem, hquo, if_pos (by decide)]

/-- **A whole number times a decimal is exact.** -/
theorem mul_ofInt {i r x : Int} (hi : 0 ≤ i) (hr : 0 ≤ r) :
    mul (ofInt i) r = .ok x ↔ (i * r).natAbs < maxDec ∧ x = i * r := by
  obtain ⟨n, rfl⟩ := Int.eq_ofNat_of_zero_le hi
  obtain ⟨m, rfl⟩ := Int.eq_ofNat_of_zero_le hr
  have hchop : chopPrecisionAndRound (ofInt n * m) = (n : Int) * m := by
    have hrearrange : ofInt n * (m : Int) = ((n * m : Nat) : Int) * precisionReuse := by
      rw [ofInt, Nat.cast_mul, mul_right_comm]
    rw [hrearrange, chop_exact, Nat.cast_mul]
  rw [mul, hchop, assertInValidRange_eq_ok]

/-- Truncation of a non-negative decimal is the floor, and always fits. -/
theorem truncateInt_of_inRange {d : Int} (hd : 0 ≤ d) (hrange : d.natAbs < maxDec) :
    truncateInt d = .ok (d / precisionReuse) := by
  rw [truncateInt, Int.tdiv_eq_ediv_of_nonneg hd, fit_eq_ok]
  refine ⟨?_, rfl⟩
  obtain ⟨n, rfl⟩ := Int.eq_ofNat_of_zero_le hd
  have hcast : ((n : Int) / precisionReuse) = ((n / 10 ^ 18 : Nat) : Int) := by
    rw [precisionReuse]
    push_cast
    rfl
  rw [hcast, Int.natAbs_natCast]
  rw [Int.natAbs_natCast] at hrange
  have hlt : n < 10 ^ 18 * maxInt := Nat.lt_of_lt_of_le hrange (by decide)
  exact Nat.div_lt_of_lt_mul hlt

theorem truncateInt_eq_ok {d x : Int} (hd : 0 ≤ d) (h : truncateInt d = .ok x) :
    x = d / precisionReuse := by
  rw [truncateInt, Int.tdiv_eq_ediv_of_nonneg hd, fit_eq_ok] at h
  exact h.2

end LegacyDec
end Gemba.Sdk
