/-
  Weights gathered by representatives.

  Each of finitely many accounts has a weight and names a representative; what a representative
  gathers is the sum of the weights of those who name it.  Gathering is additive in the weights, so a
  change of a few weights changes what is gathered by the representatives of those accounts and nobody
  else (`gathered_single`); and an account that names another representative takes its weight from one
  to the other (`gathered_rename`).
-/
import Mathlib.Algebra.BigOperators.Group.Finset.Basic
import Mathlib.Algebra.BigOperators.Group.Finset.Piecewise
import Mathlib.Algebra.Order.BigOperators.Group.Finset
import Mathlib.Data.Fintype.Basic

namespace Gemba.Lib

universe u v

variable {ι : Type u} {κ : Type v} [Fintype ι] [DecidableEq ι] [DecidableEq κ]

/-- What the representative `r` gathers. -/
def gathered (weight : ι → Nat) (rep : ι → κ) (r : κ) : Nat :=
  ∑ a, if rep a = r then weight a else 0

variable {weight weight' out inn : ι → Nat} {rep rep' : ι → κ} {r : κ} {a : ι} {v : Nat}

omit [DecidableEq ι] in
/-- Gathering is additive, so weights that balance are gathered to sums that balance. -/
theorem gathered_balance (h : ∀ x, weight' x + out x = weight x + inn x) :
    gathered weight' rep r + gathered out rep r = gathered weight rep r + gathered inn rep r := by
  unfold gathered
  rw [← Finset.sum_add_distrib, ← Finset.sum_add_distrib]
  apply Finset.sum_congr rfl
  intro x _
  have hx := h x
  split
  · exact hx
  · rfl

/-- One account's weight goes to its representative. -/
theorem gathered_single : gathered (fun x => if x = a then v else 0) rep r
    = if rep a = r then v else 0 := by
  have hswap : ∀ x, (if rep x = r then if x = a then v else 0 else 0)
      = if x = a then if rep a = r then v else 0 else 0 := by
    intro x
    by_cases hx : x = a
    · subst hx
      rw [if_pos rfl, if_pos rfl]
    · rw [if_neg hx, if_neg hx, ite_self]
  unfold gathered
  rw [Finset.sum_congr rfl fun x _ => hswap x, Finset.sum_ite_eq', if_pos (Finset.mem_univ a)]

/-- What an account adds to its representative, and what the others do. -/
theorem gathered_split (a : ι) : gathered weight rep r
    = (if rep a = r then weight a else 0)
      + ∑ x ∈ Finset.univ.erase a, if rep x = r then weight x else 0 :=
  (Finset.add_sum_erase Finset.univ (fun x => if rep x = r then weight x else 0)
    (Finset.mem_univ a)).symm

/-- **An account that names another representative** takes its weight along. -/
theorem gathered_rename (h : ∀ x, x ≠ a → rep' x = rep x) :
    gathered weight rep' r + (if rep a = r then weight a else 0)
      = gathered weight rep r + if rep' a = r then weight a else 0 := by
  have hrest : ∑ x ∈ Finset.univ.erase a, (if rep' x = r then weight x else 0)
      = ∑ x ∈ Finset.univ.erase a, if rep x = r then weight x else 0 := by
    apply Finset.sum_congr rfl
    intro x hx
    rw [h x (Finset.ne_of_mem_erase hx)]
  rw [gathered_split a, gathered_split a, hrest]
  omega

omit [DecidableEq ι] in
/-- **Nothing is gathered twice**: what some representatives gather is at most the weights of those who
    may name them. -/
theorem sum_gathered_le [Fintype κ] {chosen : κ → Prop} {free : ι → Prop} [DecidablePred chosen]
    [DecidablePred free] (h : ∀ x, chosen (rep x) → free x) :
    ∑ r, (if chosen r then gathered weight rep r else 0)
      ≤ ∑ x, if free x then weight x else 0 := by
  have hswap : ∑ r, (if chosen r then gathered weight rep r else 0)
      = ∑ x, ∑ r, if chosen r ∧ rep x = r then weight x else 0 := by
    rw [Finset.sum_comm]
    apply Finset.sum_congr rfl
    intro r _
    unfold gathered
    by_cases hr : chosen r
    · rw [if_pos hr]
      simp only [hr, true_and]
    · rw [if_neg hr]
      simp only [hr, false_and, if_false, Finset.sum_const_zero]
  rw [hswap]
  apply Finset.sum_le_sum
  intro x _
  -- an account names one representative
  have hone : (∑ r, if chosen r ∧ rep x = r then weight x else 0)
      = if chosen (rep x) then weight x else 0 := by
    rw [Finset.sum_eq_single (rep x)]
    · simp only [and_true]
    · intro r _ hr
      rw [if_neg fun he => hr he.2.symm]
    · intro hmem
      exact absurd (Finset.mem_univ _) hmem
  rw [hone]
  by_cases hx : chosen (rep x)
  · rw [if_pos hx, if_pos (h x hx)]
  · rw [if_neg hx]
    exact Nat.zero_le _

end Gemba.Lib
