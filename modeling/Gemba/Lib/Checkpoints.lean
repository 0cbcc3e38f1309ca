/-
  Checkpointed values: a value with the history of what it was.

  A trace is a list of checkpoints `(key, value)`, newest first; a key is a time, and the value holds
  from its key on until the next checkpoint.  `push` writes at a key that is not before the newest
  one, replacing the newest checkpoint when the keys agree.

  * `upperLookup_push_of_lt` — a write leaves every earlier reading alone;
  * `upperLookup_push_of_le`, `latest_push` — from its key on, the value written is read;
  * `Upto.upperLookup_eq` — at or after the newest key, the reading is the newest value.
-/
import Mathlib.Order.Lattice
import Mathlib.Algebra.Group.Defs

namespace Gemba.Lib

universe u v

/-- Checkpoints `(key, value)`, newest first. -/
abbrev Trace (κ : Type u) (ν : Type v) := List (κ × ν)

namespace Trace

variable {κ : Type u} {ν : Type v} [LinearOrder κ] [Zero ν] {t t' : Trace κ ν} {k c j : κ} {v : ν}

/-- The newest value, zero before the first write. -/
def latest : Trace κ ν → ν
  | [] => 0
  | (_, v) :: _ => v

/-- The value at `key`: that of the newest checkpoint not after it. -/
def upperLookup : Trace κ ν → κ → ν
  | [], _ => 0
  | (k, v) :: t, key => if k ≤ key then v else upperLookup t key

/-- Write `value` at `key`; `none` when `key` is before the newest checkpoint. -/
def push : Trace κ ν → κ → ν → Option (Trace κ ν)
  | [], key, value => some [(key, value)]
  | (k, v) :: rest, key, value =>
    if key < k then none
    else if k = key then some ((key, value) :: rest)
    else some ((key, value) :: (k, v) :: rest)

omit [Zero ν] in
/-- A write puts its checkpoint first, and below it leaves the older ones, without the one it
    replaced. -/
theorem push_eq_some (h : push t k v = some t') :
    ∃ rest, t' = (k, v) :: rest ∧ (t = rest ∨ ∃ old, t = (k, old) :: rest) := by
  cases t with
  | nil =>
    injection h with h
    exact ⟨[], h.symm, .inl rfl⟩
  | cons p rest =>
    obtain ⟨k', old⟩ := p
    change (if k < k' then none else if k' = k then some ((k, v) :: rest)
      else some ((k, v) :: (k', old) :: rest)) = some t' at h
    by_cases hlt : k < k'
    · rw [if_pos hlt] at h
      nomatch h
    · rw [if_neg hlt] at h
      by_cases heq : k' = k
      · rw [if_pos heq] at h
        injection h with h
        subst heq
        exact ⟨rest, h.symm, .inr ⟨old, rfl⟩⟩
      · rw [if_neg heq] at h
        injection h with h
        exact ⟨_, h.symm, .inl rfl⟩

/-- The newest value is the one written last. -/
theorem latest_push (h : push t k v = some t') : latest t' = v := by
  obtain ⟨rest, rfl, -⟩ := push_eq_some h
  rfl

/-- **A write leaves the past alone.** -/
theorem upperLookup_push_of_lt (h : push t k v = some t') (hj : j < k) :
    upperLookup t' j = upperLookup t j := by
  have hk : ¬ k ≤ j := not_le_of_gt hj
  obtain ⟨rest, rfl, rfl | ⟨old, rfl⟩⟩ := push_eq_some h
  · show (if k ≤ j then v else upperLookup t j) = _
    rw [if_neg hk]
  · show (if k ≤ j then v else upperLookup rest j) = if k ≤ j then old else upperLookup rest j
    rw [if_neg hk, if_neg hk]

/-- From its key on, the value written is read. -/
theorem upperLookup_push_of_le (h : push t k v = some t') (hj : k ≤ j) : upperLookup t' j = v := by
  obtain ⟨rest, rfl, -⟩ := push_eq_some h
  show (if k ≤ j then v else upperLookup rest j) = v
  rw [if_pos hj]

/-- No checkpoint is later than `c`. -/
def Upto (t : Trace κ ν) (c : κ) : Prop := ∀ p ∈ t, p.1 ≤ c

omit [Zero ν] in
theorem Upto.mono (h : Upto t c) (hc : c ≤ j) : Upto t j :=
  fun p hp => le_trans (h p hp) hc

omit [Zero ν] in
theorem Upto.push (hup : Upto t c) (h : Trace.push t k v = some t') (hk : k ≤ c) : Upto t' c := by
  intro p hp
  obtain ⟨rest, rfl, ht⟩ := push_eq_some h
  rcases List.mem_cons.mp hp with rfl | hp
  · exact hk
  · rcases ht with rfl | ⟨old, rfl⟩
    · exact hup p hp
    · exact hup p (List.mem_cons_of_mem _ hp)

/-- After the newest checkpoint, the newest value is read. -/
theorem Upto.upperLookup_eq (h : Upto t c) (hc : c ≤ j) : upperLookup t j = latest t := by
  cases t with
  | nil => rfl
  | cons p rest =>
    obtain ⟨k', v'⟩ := p
    have hk : k' ≤ j := le_trans (h (k', v') List.mem_cons_self) hc
    show (if k' ≤ j then v' else upperLookup rest j) = v'
    rw [if_pos hk]

end Trace
end Gemba.Lib
