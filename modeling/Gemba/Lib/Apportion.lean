/-
  Paying claims out of a limited amount, in whole units.

  Claims that add up to at most the limit are paid in full.  Otherwise each is paid its part of the
  limit, `a * limit / total` rounded down.  Rounding down keeps the order of the claims and cannot pay
  more than there is:

  * `share_le`, `share_mono` — nobody is paid more than was claimed, and no more than a larger claim;
  * `sum_share_le`           — together they are paid at most the limit;
  * `sum_ediv_le`            — rounded down one by one, parts are at most the part of their sum.
-/
import Mathlib.Algebra.BigOperators.Group.List.Basic
import Mathlib.Algebra.Order.BigOperators.Group.List
import Mathlib.Algebra.Order.Ring.Int
import Mathlib.Algebra.BigOperators.Ring.List

namespace Gemba.Lib

variable {limit total a b d bound : ℤ} {as : List ℤ}

/-- What is paid of the claim `a` when the claims add up to `total`. -/
def share (limit total a : ℤ) : ℤ := if total ≤ limit then a else a * limit / total

theorem share_of_fits (h : total ≤ limit) : share limit total a = a := if_pos h

theorem share_of_exceeds (h : limit < total) : share limit total a = a * limit / total :=
  if_neg (not_le.mpr h)

/-- Nothing is paid of nothing. -/
theorem share_zero : share limit total 0 = 0 := by
  unfold share
  split
  · rfl
  · rw [Int.zero_mul, Int.zero_ediv]

theorem share_nonneg (hlimit : 0 ≤ limit) (ha : 0 ≤ a) : 0 ≤ share limit total a := by
  unfold share
  split
  · exact ha
  · exact Int.ediv_nonneg (Int.mul_nonneg ha hlimit) (by omega)

/-- Nobody is paid more than was claimed. -/
theorem share_le (hlimit : 0 ≤ limit) (ha : 0 ≤ a) : share limit total a ≤ a := by
  unfold share
  split
  · exact le_rfl
  · rename_i hexceeds
    have hle : a * limit ≤ a * total := Int.mul_le_mul_of_nonneg_left (by omega) ha
    calc a * limit / total ≤ a * total / total := Int.ediv_le_ediv (by omega) hle
      _ = a := Int.mul_ediv_cancel a (by omega)

/-- A larger claim is paid no less. -/
theorem share_mono (hlimit : 0 ≤ limit) (hab : a ≤ b) : share limit total a ≤ share limit total b := by
  unfold share
  split
  · exact hab
  · exact Int.ediv_le_ediv (by omega) (Int.mul_le_mul_of_nonneg_right hab hlimit)

/-- Parts rounded down one by one are at most the part of their sum. -/
theorem sum_ediv_le (hd : 0 < d) : (as.map (· / d)).sum ≤ as.sum / d := by
  induction as with
  | nil => simp
  | cons a as ih =>
    rw [List.map_cons, List.sum_cons, List.sum_cons, Int.le_ediv_iff_mul_le hd, Int.add_mul]
    have hhead : a / d * d ≤ a := Int.ediv_mul_le a (by omega)
    have htail := (Int.le_ediv_iff_mul_le hd).mp ih
    omega

/-- **The claims are paid at most the limit.** -/
theorem sum_share_le (as : List ℤ) (hlimit : 0 ≤ limit) : (as.map (share limit as.sum)).sum ≤ limit := by
  by_cases hfits : as.sum ≤ limit
  · have hfull : as.map (share limit as.sum) = as.map id :=
      List.map_congr_left fun a _ => share_of_fits hfits
    rw [hfull, List.map_id]
    exact hfits
  · have hparts : as.map (share limit as.sum) = (as.map (· * limit)).map (· / as.sum) := by
      rw [List.map_map]
      exact List.map_congr_left fun a _ => share_of_exceeds (not_le.mp hfits)
    have hpos : 0 < as.sum := by omega
    rw [hparts]
    calc ((as.map (· * limit)).map (· / as.sum)).sum
        ≤ (as.map (· * limit)).sum / as.sum := sum_ediv_le hpos
      _ = limit := by
        rw [List.sum_map_mul_right, List.map_id', Int.mul_comm, Int.mul_ediv_cancel limit (by omega)]

end Gemba.Lib
