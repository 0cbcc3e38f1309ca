/-
  A queue that is retried from its oldest end, a limited number at a time.

  A pass attempts the oldest `limit` entries; those that succeed leave the queue, and those that are
  stuck keep their place.  So the stuck entries of earlier passes are attempted again first, and what is
  left of the limit is how far a pass gets beyond them: `reach` counts that.

  * `passes_eq`        — the queue after some passes: the stuck part of what was reached, and the rest;
  * `mem_attempts_iff` — an entry was attempted iff it was reached;
  * `reached_iff`      — an entry is reached at all iff fewer than `limit` stuck ones are ahead of it.
-/
import Mathlib.Data.List.Basic

namespace Gemba.Lib.RetryQueue

universe u

variable {α : Type u} (limit : Nat) (stuck : α → Bool)

/-- One pass: the oldest `limit` entries are attempted. -/
def pass (q : List α) : List α := (q.take limit).filter stuck ++ q.drop limit

/-- The queue after some passes. -/
def passes (q : List α) : Nat → List α
  | 0 => q
  | j + 1 => pass limit stuck (passes q j)

/-- How many of the entries the first passes reached. -/
def reach (q : List α) : Nat → Nat
  | 0 => 0
  | j + 1 => reach q j + (limit - (q.take (reach q j)).countP stuck)

variable {limit stuck} {q : List α} {x : α} {j m : Nat}

/-- A pass asks only about the entries of the queue. -/
theorem pass_congr {stuck' : α → Bool} (h : ∀ x ∈ q, stuck x = stuck' x) :
    pass limit stuck q = pass limit stuck' q :=
  congrArg (· ++ q.drop limit) (List.filter_congr fun x hx => h x (List.mem_of_mem_take hx))

/-- No pass brings in an entry. -/
theorem passes_subset (q : List α) (j : Nat) : passes limit stuck q j ⊆ q := by
  induction j with
  | zero => exact List.Subset.refl q
  | succ j ih =>
    intro x hx
    rcases List.mem_append.mp hx with hx | hx
    · exact ih (List.mem_of_mem_take (List.mem_of_mem_filter hx))
    · exact ih (List.mem_of_mem_drop hx)

/-- A pass over a queue that begins with stuck entries. -/
theorem pass_append {a d : List α} (ha : ∀ x ∈ a, stuck x = true) :
    pass limit stuck (a ++ d)
      = a ++ (d.take (limit - a.length)).filter stuck ++ d.drop (limit - a.length) := by
  unfold pass
  rw [List.take_append, List.drop_append, List.filter_append]
  have hkept : (a.take limit).filter stuck = a.take limit :=
    List.filter_eq_self.mpr fun x hx => ha x (List.mem_of_mem_take hx)
  rw [hkept]
  by_cases hle : a.length ≤ limit
  · rw [List.take_of_length_le hle, List.drop_of_length_le hle, List.nil_append]
  · -- the limit is used up by the stuck entries alone
    have hzero : limit - a.length = 0 := by omega
    rw [hzero, List.take_zero, List.drop_zero, List.filter_nil, List.append_nil, List.append_nil,
      ← List.append_assoc, List.take_append_drop]

/-- **The queue after some passes.** -/
theorem passes_eq (q : List α) (j : Nat) : passes limit stuck q j
    = (q.take (reach limit stuck q j)).filter stuck ++ q.drop (reach limit stuck q j) := by
  induction j with
  | zero => rfl
  | succ j ih =>
    have hstuck : ∀ x ∈ (q.take (reach limit stuck q j)).filter stuck, stuck x = true :=
      fun x hx => (List.mem_filter.mp hx).2
    rw [passes, ih, pass_append hstuck, ← List.countP_eq_length_filter, reach, List.take_add,
      List.filter_append, List.drop_drop]

/-- What a pass attempts: the stuck entries again, and those it newly reaches. -/
theorem attempts_eq (q : List α) (j : Nat) : (passes limit stuck q j).take limit
    = ((q.take (reach limit stuck q j)).filter stuck).take limit
      ++ (q.drop (reach limit stuck q j)).take
        (limit - (q.take (reach limit stuck q j)).countP stuck) := by
  rw [passes_eq, List.take_append, List.countP_eq_length_filter]

/-- **Attempted is reached.** -/
theorem mem_attempts_iff : (∃ j < m, x ∈ (passes limit stuck q j).take limit) ↔
    x ∈ q.take (reach limit stuck q m) := by
  induction m with
  | zero =>
    rw [reach, List.take_zero]
    exact ⟨fun ⟨j, hj, _⟩ => absurd hj (Nat.not_lt_zero j), fun h => absurd h List.not_mem_nil⟩
  | succ m ih =>
    rw [reach, List.take_add, List.mem_append, ← ih]
    constructor
    · rintro ⟨j, hj, hx⟩
      rcases Nat.lt_succ_iff_lt_or_eq.mp hj with hj | rfl
      · exact .inl ⟨j, hj, hx⟩
      · rw [attempts_eq, List.mem_append] at hx
        rcases hx with hx | hx
        -- a stuck entry that was reached before
        · exact .inl (ih.mpr (List.mem_of_mem_filter (List.mem_of_mem_take hx)))
        · exact .inr hx
    · rintro (⟨j, hj, hx⟩ | hx)
      · exact ⟨j, Nat.lt_succ_of_lt hj, hx⟩
      · refine ⟨m, Nat.lt_succ_self m, ?_⟩
        rw [attempts_eq]
        exact List.mem_append_right _ hx

/-- The passes get no further than where the limit is stuck. -/
theorem reach_le {a b : List α} (hfull : limit ≤ a.countP stuck) (j : Nat) :
    reach limit stuck (a ++ b) j ≤ a.length := by
  induction j with
  | zero => exact Nat.zero_le _
  | succ j ih =>
    rw [reach]
    -- among those reached so far some are stuck, and the next pass finds the others at least
    have htake : (a ++ b).take (reach limit stuck (a ++ b) j)
        = a.take (reach limit stuck (a ++ b) j) := by
      rw [List.take_append_of_le_length ih]
    have hsplit : a.countP stuck = (a.take (reach limit stuck (a ++ b) j)).countP stuck
        + (a.drop (reach limit stuck (a ++ b) j)).countP stuck := by
      rw [← List.countP_append, List.take_append_drop]
    have hrest : (a.drop (reach limit stuck (a ++ b) j)).countP stuck
        ≤ a.length - reach limit stuck (a ++ b) j := by
      rw [← List.length_drop]
      exact List.countP_le_length
    rw [htake]
    omega

/-- While fewer than the limit are stuck, each pass gets further. -/
theorem le_reach {a b : List α} (hfew : a.countP stuck < limit) (j : Nat) :
    min j (a.length + 1) ≤ reach limit stuck (a ++ b) j := by
  induction j with
  | zero => exact Nat.zero_le _
  | succ j ih =>
    rw [reach]
    by_cases hdone : a.length + 1 ≤ reach limit stuck (a ++ b) j
    · omega
    · have hcount : ((a ++ b).take (reach limit stuck (a ++ b) j)).countP stuck ≤ a.countP stuck := by
        rw [List.take_append_of_le_length (by omega)]
        exact (List.take_sublist _ a).countP_le
      omega

/-- **Who is reached at all**: an entry with fewer than `limit` stuck ones ahead of it. -/
theorem reached_iff {a b : List α} :
    (∃ j, a.length < reach limit stuck (a ++ x :: b) j) ↔ a.countP stuck < limit := by
  constructor
  · rintro ⟨j, hj⟩
    by_contra hfull
    exact absurd (reach_le (b := x :: b) (Nat.le_of_not_lt hfull) j) (Nat.not_le_of_lt hj)
  · intro hfew
    have hfar := le_reach (b := x :: b) hfew (a.length + 1)
    exact ⟨a.length + 1, by omega⟩

end Gemba.Lib.RetryQueue
