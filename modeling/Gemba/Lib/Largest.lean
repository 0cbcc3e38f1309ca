/-
  The largest elements of a list.

  A list in descending order of a measure `f` begins with its largest elements: no selection of `k`
  elements measures more than the first `k` (`sum_le_sum_take`).  So a loop that adds the elements up
  in that order, and stops as soon as a threshold is passed, stops at the smallest number of elements
  that pass it together, whichever they are (`isLeast_countUntil`).

  The elements are from any type and the measure is in any ordered monoid; ties may stand in any order.
-/
import Mathlib.Algebra.Order.BigOperators.Group.List
import Mathlib.Order.Bounds.Basic

namespace Gemba.Lib

universe u v

variable {α : Type u} {M : Type v}

/-- The list is in descending order of `f`. -/
def Descending [LE M] (f : α → M) (xs : List α) : Prop := xs.Pairwise fun x y => f y ≤ f x

section
variable [AddCommMonoid M] [PartialOrder M] [IsOrderedAddMonoid M] {f : α → M} {xs ys : List α}
  {a : α}

/-- One element more at the front: the first `k` are no less than the `k` they push back. -/
theorem sum_take_le_cons (h : Descending f (a :: xs)) (k : Nat) (hk : k < xs.length) :
    ((xs.take (k + 1)).map f).sum ≤ (((a :: xs).take (k + 1)).map f).sum := by
  obtain ⟨ha, -⟩ := List.pairwise_cons.mp h
  have hlast : f xs[k] ≤ f a := ha _ (List.getElem_mem hk)
  rw [List.take_add_one, List.getElem?_eq_getElem hk, Option.toList_some, List.map_append,
    List.sum_append, List.map_singleton, List.sum_singleton, List.take_succ_cons, List.map_cons,
    List.sum_cons, add_comm]
  exact add_le_add hlast le_rfl

/-- **The first are the largest.** -/
theorem sum_le_sum_take (h : Descending f xs) (hsub : ys.Sublist xs) :
    (ys.map f).sum ≤ ((xs.take ys.length).map f).sum := by
  induction hsub with
  | slnil => exact le_rfl
  | @cons ys xs a hsub ih =>
    -- `a` is left out: what was selected from the rest is within the first of the rest
    have hrest := ih (List.Pairwise.of_cons h)
    cases ys with
    | nil => exact le_rfl
    | cons y ys => exact le_trans hrest (sum_take_le_cons h ys.length hsub.length_le)
  | @cons_cons ys xs a hsub ih =>
    rw [List.length_cons, List.take_succ_cons, List.map_cons, List.map_cons, List.sum_cons,
      List.sum_cons]
    exact add_le_add le_rfl (ih (List.Pairwise.of_cons h))

/-- The same for elements selected in any order. -/
theorem sum_le_sum_take_of_subperm (h : Descending f xs) (hsub : ys.Subperm xs) :
    (ys.map f).sum ≤ ((xs.take ys.length).map f).sum := by
  obtain ⟨zs, hperm, hzs⟩ := hsub
  rw [← (hperm.map f).sum_eq, ← hperm.length_eq]
  exact sum_le_sum_take h hzs

end

/-! ## Adding up to a threshold -/

/-- How many elements a loop takes that starts from `acc` and stops once `stop` holds of the sum. -/
def countUntil [Add M] (stop : M → Prop) [DecidablePred stop] (f : α → M) : M → List α → Nat
  | _, [] => 0
  | acc, x :: xs => if stop (acc + f x) then 1 else countUntil stop f (acc + f x) xs + 1

section
variable [AddCommMonoid M] {stop : M → Prop} [DecidablePred stop] {f : α → M} {xs : List α} {acc : M}

theorem countUntil_le : countUntil stop f acc xs ≤ xs.length := by
  induction xs generalizing acc with
  | nil => exact Nat.le_refl 0
  | cons x xs ih =>
    rw [countUntil, List.length_cons]
    split
    · exact Nat.le_add_left 1 _
    · exact Nat.succ_le_succ ih

/-- Where the loop stops, the threshold is passed, if all the elements together pass it. -/
theorem stop_countUntil (hne : xs ≠ []) (hall : stop (acc + (xs.map f).sum)) :
    stop (acc + ((xs.take (countUntil stop f acc xs)).map f).sum) := by
  induction xs generalizing acc with
  | nil => exact absurd rfl hne
  | cons x xs ih =>
    rw [countUntil]
    by_cases hx : stop (acc + f x)
    · rw [if_pos hx, List.take_succ_cons, List.take_zero, List.map_singleton, List.sum_singleton]
      exact hx
    · rw [if_neg hx, List.take_succ_cons, List.map_cons, List.sum_cons, ← add_assoc]
      rw [List.map_cons, List.sum_cons, ← add_assoc] at hall
      cases xs with
      | nil =>
        rw [List.map_nil, List.sum_nil, add_zero] at hall
        exact absurd hall hx
      | cons y ys => exact ih (List.cons_ne_nil y ys) hall

/-- Before the loop stops, the threshold is not passed. -/
theorem not_stop_of_lt_countUntil {j : Nat} (hpos : 0 < j) (hj : j < countUntil stop f acc xs) :
    ¬ stop (acc + ((xs.take j).map f).sum) := by
  induction xs generalizing acc j with
  | nil => exact absurd hj (Nat.not_lt_zero j)
  | cons x xs ih =>
    rw [countUntil] at hj
    by_cases hx : stop (acc + f x)
    · rw [if_pos hx] at hj
      omega
    · rw [if_neg hx] at hj
      obtain ⟨j, rfl⟩ := Nat.exists_eq_succ_of_ne_zero hpos.ne'
      rw [Nat.succ_eq_add_one, List.take_succ_cons, List.map_cons, List.sum_cons, ← add_assoc]
      by_cases hj0 : j = 0
      · rw [hj0, List.take_zero, List.map_nil, List.sum_nil, add_zero]
        exact hx
      · exact ih (Nat.pos_of_ne_zero hj0) (by omega)

/-- **The loop counts the fewest elements that pass the threshold.**  `stop` holds of all larger sums, and
    of that of all the elements, but not of nothing. -/
theorem isLeast_countUntil [PartialOrder M] [IsOrderedAddMonoid M] (h : Descending f xs)
    (hup : ∀ s t, s ≤ t → stop s → stop t) (hzero : ¬ stop 0) (hall : stop (xs.map f).sum) :
    IsLeast {k | ∃ ys : List α, ys.Subperm xs ∧ ys.length = k ∧ stop (ys.map f).sum}
      (countUntil stop f 0 xs) := by
  have hne : xs ≠ [] := by
    intro hnil
    rw [hnil, List.map_nil, List.sum_nil] at hall
    exact hzero hall
  constructor
  · refine ⟨xs.take (countUntil stop f 0 xs), (List.take_sublist _ _).subperm, ?_, ?_⟩
    · rw [List.length_take, Nat.min_eq_left countUntil_le]
    · rw [← zero_add (xs.map f).sum] at hall
      have hstop := stop_countUntil hne hall
      rw [zero_add] at hstop
      exact hstop
  · rintro k ⟨ys, hsub, rfl, hys⟩
    -- the first `ys.length` pass it as well, so the loop has stopped by then
    have hfirst := hup _ _ (sum_le_sum_take_of_subperm h hsub) hys
    by_contra hlt
    have hpos : 0 < ys.length := by
      rw [List.length_pos_iff]
      rintro rfl
      exact hzero hys
    have hnot := not_stop_of_lt_countUntil hpos (not_le.mp hlt)
    rw [zero_add] at hnot
    exact hnot hfirst

end
end Gemba.Lib
