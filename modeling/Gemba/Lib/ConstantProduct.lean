/-
  Two reserves and shares of them, in whole units.

  Every amount is rounded down, and always the amount that leaves.  The facts below say that this
  never costs the reserves: a trade at a constant product with a fee keeps the product, and giving
  shares for a proportional deposit, or a proportional part for shares, keeps what one share is worth.
  "Worth" is compared crosswise, `r * S' ≤ r' * S`, so nothing divides.

  `growth_fee` is about a fee taken in shares, a sixth of what the root of the product grew by: where
  a share is worth at least one unit of the root, the fee never costs more than the growth, although
  both roots are rounded down.
-/
import Mathlib.Tactic.Ring
import Mathlib.Tactic.Linarith
import Mathlib.Algebra.Order.Ring.Nat
import Mathlib.Data.Nat.Sqrt

namespace Gemba.Lib

section
variable {a x y g d out : Nat}

/-- What a trade takes out is below the reserve it comes from. -/
theorem trade_lt (hx : 0 < x) (hd : 0 < d) (hy : 0 < y) (hout : out = a * g * y / (x * d + a * g)) :
    out < y := by
  have hden : 0 < x * d + a * g := by
    have := Nat.mul_pos hx hd
    omega
  rw [hout, Nat.div_lt_iff_lt_mul hden]
  calc a * g * y < x * d * y + a * g * y := by
        have := Nat.mul_pos (Nat.mul_pos hx hd) hy
        omega
    _ = y * (x * d + a * g) := by ring

/-- **A trade keeps the product**: `out` for `a` at the fee `g / d` leaves `x * y` no smaller. -/
theorem trade_product (hg : g ≤ d) (hd : 0 < d) (hout : out = a * g * y / (x * d + a * g))
    (hle : out ≤ y) : x * y ≤ (x + a) * (y - out) := by
  have hfloor : out * (x * d + a * g) ≤ a * g * y := by
    rw [hout]
    exact Nat.div_mul_le_self _ _
  -- the fee that stays in is worth at most its share of the input
  have hfee : (d - g) * (a * out) ≤ (d - g) * (a * y) :=
    Nat.mul_le_mul_left _ (Nat.mul_le_mul_left _ hle)
  have hscaled : d * ((x + a) * out) ≤ d * (a * y) := by
    obtain ⟨k, rfl⟩ := Nat.exists_eq_add_of_le hg
    rw [Nat.add_sub_cancel_left] at hfee
    calc (g + k) * ((x + a) * out) = out * (x * (g + k) + a * g) + k * (a * out) := by ring
      _ ≤ a * g * y + k * (a * y) := Nat.add_le_add hfloor hfee
      _ = (g + k) * (a * y) := by ring
  have htaken : (x + a) * out ≤ a * y := Nat.le_of_mul_le_mul_left hscaled hd
  rw [Nat.mul_sub]
  have hsum : (x + a) * y = x * y + a * y := by ring
  omega

end

section
variable {r s part given shares : Nat}

/-- Shares for a deposit of `given`, no more than its proportion, do not dilute. -/
theorem deposit_share (hshares : shares * r ≤ given * s) : r * (s + shares) ≤ (r + given) * s := by
  calc r * (s + shares) = r * s + shares * r := by ring
    _ ≤ r * s + given * s := Nat.add_le_add_left hshares _
    _ = (r + given) * s := by ring

/-- A part for `shares`, no more than their proportion, does not dilute. -/
theorem withdraw_share (hpart : part * s ≤ shares * r) :
    r * (s - shares) ≤ (r - part) * s := by
  have h₁ : r * (s - shares) = r * s - shares * r := by
    rw [Nat.mul_sub, Nat.mul_comm r shares]
  have h₂ : (r - part) * s = r * s - part * s := Nat.sub_mul r part s
  rw [h₁, h₂]
  exact Nat.sub_le_sub_left hpart _

/-- **Depositing and withdrawing at once** returns no more than was given. -/
theorem deposit_withdraw_le (hshares : shares * r ≤ given * s) :
    shares * (r + given) / (s + shares) ≤ given := by
  refine Nat.div_le_of_le_mul ?_
  calc shares * (r + given) = shares * r + shares * given := by ring
    _ ≤ given * s + shares * given := Nat.add_le_add_right hshares _
    _ = (s + shares) * given := by ring

/-- Two reserves that are worth no less per share, together. -/
theorem share_product {x y x' y' s' : Nat} (hx : x * s' ≤ x' * s) (hy : y * s' ≤ y' * s) :
    x * y * s' ^ 2 ≤ x' * y' * s ^ 2 := by
  calc x * y * s' ^ 2 = (x * s') * (y * s') := by ring
    _ ≤ (x' * s) * (y' * s) := Nat.mul_le_mul hx hy
    _ = x' * y' * s ^ 2 := by ring

end

section
variable {k k₀ s fee : Nat}

/-- The fee against the growth of the root, with the rounding of both roots on its side. -/
theorem growth_fee_root {l d : Nat} (hd : 0 < d) (hs : s ≤ l)
    (hfee : fee * (5 * (l + d) + l) ≤ s * d) : fee * (l + 1) ≤ s * (d - 1) := by
  obtain ⟨e, rfl⟩ := Nat.exists_eq_succ_of_ne_zero (Nat.ne_of_gt hd)
  rw [Nat.succ_sub_one]
  cases e with
  | zero =>
    -- one unit of growth is less than a share's worth: there is no fee
    have hnone : fee = 0 := by
      by_contra hne
      have hone : 1 * (5 * (l + 1) + l) ≤ fee * (5 * (l + 1) + l) :=
        Nat.mul_le_mul_right _ (Nat.pos_of_ne_zero hne)
      have hfee' : fee * (5 * (l + 1) + l) ≤ s * 1 := hfee
      omega
    rw [hnone, Nat.zero_mul]
    exact Nat.zero_le _
  | succ e =>
    have hscaled : fee * (l + 1) * (e + 2) ≤ s * (e + 1) * (e + 2) := by
      calc fee * (l + 1) * (e + 2) ≤ fee * ((5 * (l + (e + 2)) + l) * (e + 1)) := by
            rw [Nat.mul_assoc]
            refine Nat.mul_le_mul_left _ ?_
            nlinarith [Nat.zero_le (l * e), Nat.zero_le (e * e)]
        _ = fee * (5 * (l + (e + 2)) + l) * (e + 1) := (Nat.mul_assoc _ _ _).symm
        _ ≤ s * (e + 2) * (e + 1) := Nat.mul_le_mul_right _ hfee
        _ = s * (e + 1) * (e + 2) := by ring
    exact Nat.le_of_mul_le_mul_right hscaled (by omega)

/-- **A fee of a sixth of the growth of the root** does not bring the product for a share, squared,
    below what it was before it grew. -/
theorem growth_fee (hroot : Nat.sqrt k₀ < Nat.sqrt k) (hs : s * s ≤ k₀)
    (hfee : fee * (5 * Nat.sqrt k + Nat.sqrt k₀) ≤ s * (Nat.sqrt k - Nat.sqrt k₀)) :
    k₀ * (s + fee) ^ 2 ≤ k * s ^ 2 := by
  obtain ⟨d, hd⟩ := Nat.exists_eq_add_of_lt hroot
  generalize hl : Nat.sqrt k₀ = l at *
  have hk₀ : k₀ ≤ (l + 1) * (l + 1) := by
    rw [← hl]
    exact Nat.le_of_lt (Nat.lt_succ_sqrt k₀)
  have hk : Nat.sqrt k * Nat.sqrt k ≤ k := Nat.sqrt_le k
  have hle : s ≤ l := by
    rw [← hl]
    exact Nat.le_sqrt.mpr hs
  have hgrowth : Nat.sqrt k - l = d + 1 := by omega
  rw [hgrowth, hd] at hfee
  have hpart : fee * (l + 1) ≤ s * d :=
    growth_fee_root (Nat.succ_pos d) hle hfee
  have hshares : (s + fee) * (l + 1) ≤ s * Nat.sqrt k := by
    calc (s + fee) * (l + 1) = s * (l + 1) + fee * (l + 1) := Nat.add_mul _ _ _
      _ ≤ s * (l + 1) + s * d := Nat.add_le_add_left hpart _
      _ = s * Nat.sqrt k := by
          rw [hd]
          ring
  calc k₀ * (s + fee) ^ 2 ≤ (l + 1) * (l + 1) * (s + fee) ^ 2 := Nat.mul_le_mul_right _ hk₀
    _ = ((s + fee) * (l + 1)) ^ 2 := by ring
    _ ≤ (s * Nat.sqrt k) ^ 2 := Nat.pow_le_pow_left hshares 2
    _ = Nat.sqrt k * Nat.sqrt k * s ^ 2 := by ring
    _ ≤ k * s ^ 2 := Nat.mul_le_mul_right _ hk

end
end Gemba.Lib
