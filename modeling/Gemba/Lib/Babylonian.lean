/-
  The Babylonian method on natural numbers, as contracts write it.

  From an upper estimate `z` the next one is `(n / z + z) / 2`; the loop stops when that is no smaller.
  Every estimate stays at or above the root (`le_average`), so the first that does not come down is the
  root itself (`babylonianLoop_eq`).  The loop below carries the number of steps it may still take; an
  estimate comes down by at least one each time, so `n` steps are enough from `n`, and the function is
  the floor of the square root for every argument (`babylonian_eq_sqrt`).
-/
import Mathlib.Data.Nat.Sqrt
import Mathlib.Tactic.Linarith

namespace Gemba.Lib

/-- `while (x < z) { z = x; x = (n / x + x) / 2; }`, and then `z`. -/
def babylonianLoop (n : Nat) : (fuel z x : Nat) → Nat
  | 0, z, _ => z
  | fuel + 1, z, x => if x < z then babylonianLoop n fuel x ((n / x + x) / 2) else z

/-- The floor of the square root of `n`: the first estimate after `n` itself is `n / 2 + 1`. -/
def babylonian (n : Nat) : Nat :=
  if 3 < n then babylonianLoop n n n (n / 2 + 1) else if n ≠ 0 then 1 else 0

section
variable {n z : Nat}

/-- The mean of `z` and `n / z` is not below the root. -/
theorem le_average (hz : 0 < z) : Nat.sqrt n ≤ (n / z + z) / 2 := by
  have hroot : Nat.sqrt n * Nat.sqrt n ≤ n := Nat.sqrt_le n
  by_cases hle : 2 * Nat.sqrt n ≤ z
  · have := Nat.zero_le (n / z)
    omega
  · -- `(2 r - z) z` is at most `r ^ 2`
    obtain ⟨k, hk⟩ := Nat.exists_eq_add_of_lt (not_le.mp hle)
    have hquot : k + 1 ≤ n / z := by
      rw [Nat.le_div_iff_mul_le hz]
      nlinarith [sq_nonneg ((z : ℤ) - (k : ℤ) - 1), hroot, hk]
    omega

/-- **The loop ends at the root**, from any estimate at or above it. -/
theorem babylonianLoop_eq (hn : 0 < n) : ∀ {fuel z : Nat}, 0 < z → z ≤ fuel → Nat.sqrt n ≤ z →
    babylonianLoop n fuel z ((n / z + z) / 2) = Nat.sqrt n
  | 0, z, hz, hfuel, _ => absurd hz (by omega)
  | fuel + 1, z, hz, hfuel, hroot => by
    have hnext : Nat.sqrt n ≤ (n / z + z) / 2 := le_average hz
    have hpos : 0 < Nat.sqrt n := Nat.sqrt_pos.mpr hn
    rw [babylonianLoop]
    by_cases hdown : (n / z + z) / 2 < z
    · rw [if_pos hdown]
      exact babylonianLoop_eq hn (by omega) (by omega) hnext
    · -- the estimate does not come down: `z ≤ n / z`
      rw [if_neg hdown]
      have hquot : z ≤ n / z := by omega
      have hsq : z * z ≤ n := (Nat.le_div_iff_mul_le hz).mp hquot
      exact le_antisymm (Nat.le_sqrt.mpr hsq) hroot

/-- **The method computes the floor of the square root.** -/
theorem babylonian_eq_sqrt (n : Nat) : babylonian n = Nat.sqrt n := by
  rw [babylonian]
  by_cases hbig : 3 < n
  · rw [if_pos hbig]
    obtain ⟨fuel, rfl⟩ : ∃ fuel, n = fuel + 1 := ⟨n - 1, by omega⟩
    have hdown : (fuel + 1) / 2 + 1 < fuel + 1 := by omega
    rw [babylonianLoop, if_pos hdown]
    refine babylonianLoop_eq (by omega) (by omega) (by omega) ?_
    by_contra hlt
    have hsq : Nat.sqrt (fuel + 1) * Nat.sqrt (fuel + 1) ≤ fuel + 1 := Nat.sqrt_le _
    have hfour : 4 * Nat.sqrt (fuel + 1) ≤ Nat.sqrt (fuel + 1) * Nat.sqrt (fuel + 1) :=
      Nat.mul_le_mul_right _ (by omega)
    omega
  · rw [if_neg hbig]
    have hcases : n = 0 ∨ n = 1 ∨ n = 2 ∨ n = 3 := by omega
    rcases hcases with rfl | rfl | rfl | rfl <;> simp [Nat.eq_sqrt]

end
end Gemba.Lib
