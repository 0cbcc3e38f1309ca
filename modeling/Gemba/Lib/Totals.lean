/-
  Totals over finitely many accounts.

  A change of a ledger is written pointwise, as what goes out and what comes in at each account;
  `sum_balance` adds it up, and `sum_one` is the total of an amount that sits at one account.
-/
import Mathlib.Algebra.BigOperators.Group.Finset.Basic
import Mathlib.Algebra.BigOperators.Group.Finset.Piecewise
import Mathlib.Data.Fintype.Basic

namespace Gemba.Lib

universe u

variable {ι : Type u} [Fintype ι] {f g out inn : ι → Nat}

/-- The totals balance when every account does. -/
theorem sum_balance (h : ∀ x, g x + out x = f x + inn x) :
    ∑ x, g x + ∑ x, out x = ∑ x, f x + ∑ x, inn x := by
  rw [← Finset.sum_add_distrib, ← Finset.sum_add_distrib]
  exact Finset.sum_congr rfl fun x _ => h x

section
variable [DecidableEq ι] {a b : ι} {v : Nat}

/-- An amount at one account. -/
theorem sum_one (a : ι) (v : Nat) : ∑ x, (if x = a then v else 0) = v := by
  rw [Finset.sum_ite_eq' Finset.univ a, if_pos (Finset.mem_univ a)]

theorem sum_credit (h : ∀ x, g x = f x + if x = a then v else 0) :
    ∑ x, g x = ∑ x, f x + v := by
  have hsum : ∑ x, g x + ∑ _x : ι, 0 = ∑ x, f x + ∑ x, (if x = a then v else 0) := sum_balance h
  rw [Finset.sum_const_zero, Nat.add_zero, sum_one] at hsum
  exact hsum

theorem sum_debit (h : ∀ x, g x + (if x = a then v else 0) = f x) :
    ∑ x, g x + v = ∑ x, f x := by
  have hsum : ∑ x, g x + ∑ x, (if x = a then v else 0) = ∑ x, f x + ∑ _x : ι, 0 := sum_balance h
  rw [Finset.sum_const_zero, Nat.add_zero, sum_one] at hsum
  exact hsum

/-- The same over some of the accounts. -/
theorem sum_debit_mem {κ : Type u} [DecidableEq κ] {s : Finset κ} {f g : κ → Nat} {a : κ}
    (ha : a ∈ s) (h : ∀ x ∈ s, g x + (if x = a then v else 0) = f x) :
    ∑ x ∈ s, g x + v = ∑ x ∈ s, f x := by
  have hone : ∑ x ∈ s, (if x = a then v else 0) = v := by
    rw [Finset.sum_ite_eq' s a, if_pos ha]
  calc ∑ x ∈ s, g x + v
      = ∑ x ∈ s, g x + ∑ x ∈ s, (if x = a then v else 0) := by rw [hone]
    _ = ∑ x ∈ s, (g x + if x = a then v else 0) := Finset.sum_add_distrib.symm
    _ = ∑ x ∈ s, f x := Finset.sum_congr rfl h

/-- A transfer keeps the total, also one to oneself. -/
theorem sum_move (h : ∀ x, g x + (if x = a then v else 0) = f x + if x = b then v else 0) :
    ∑ x, g x = ∑ x, f x := by
  have hsum := sum_balance h
  rw [sum_one, sum_one] at hsum
  omega

end
end Gemba.Lib
