/-
  How many elements a mutable set has.

  A contract keeps a set as a mapping to `bool` and counts its members in a variable of its own.
  `Counts p n` says that the variable `n` is right: the members of `p` can be listed without
  repetition, and the list has length `n`.  Nothing is assumed of the type, so no element has to be
  enumerated; the list is the evidence.

  * `Counts.empty`  — the mapping starts false everywhere, and the count at 0;
  * `Counts.insert` — setting a member that was not there adds one;
  * `Counts.erase`  — clearing a member takes one off.
-/
import Mathlib.Data.List.Perm.Lattice
import Mathlib.Logic.Function.Basic

namespace Gemba.Lib

universe u

variable {α : Type u} {p : α → Bool} {n : Nat} {a : α}

/-- `n` elements satisfy `p`. -/
def Counts (p : α → Bool) (n : Nat) : Prop :=
  ∃ l : List α, l.Nodup ∧ (∀ a, a ∈ l ↔ p a = true) ∧ l.length = n

/-- No element is in the set that was never written. -/
theorem Counts.empty : Counts (fun _ : α => false) 0 := by
  refine ⟨[], List.nodup_nil, ?_, rfl⟩
  intro a
  simp

variable [DecidableEq α]

/-- Setting an element that was not in the set adds one to its size. -/
theorem Counts.insert (h : Counts p n) (ha : p a = false) :
    Counts (Function.update p a true) (n + 1) := by
  obtain ⟨l, hl, hmem, rfl⟩ := h
  have hnot : a ∉ l := by
    rw [hmem, ha]
    exact Bool.false_ne_true
  refine ⟨a :: l, List.nodup_cons.mpr ⟨hnot, hl⟩, ?_, rfl⟩
  intro b
  rw [List.mem_cons]
  by_cases hb : b = a
  · subst hb
    simp
  · rw [Function.update_of_ne hb, hmem]
    simp [hb]

/-- Clearing an element of the set takes one off its size. -/
theorem Counts.erase (h : Counts p n) (ha : p a = true) :
    Counts (Function.update p a false) (n - 1) := by
  obtain ⟨l, hl, hmem, rfl⟩ := h
  have hin : a ∈ l := (hmem a).mpr ha
  refine ⟨l.erase a, hl.erase a, ?_, List.length_erase_of_mem hin⟩
  intro b
  rw [hl.mem_erase_iff]
  by_cases hb : b = a
  · subst hb
    simp
  · rw [Function.update_of_ne hb, hmem]
    simp [hb]

end Gemba.Lib
