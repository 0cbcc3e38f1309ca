/-
  Spending caps with lazily placed windows.

  A meter keeps the start of its current window and what was spent in it.  A spending inside the
  window is added to it; the first spending after the window has run out opens the next one, at its
  own time.  So where the windows lie depends on the history, and what is capped is each of them, not
  an interval somebody picks.  What follows for an interval: starts of windows are at least a window
  length apart, so an interval of length `T` meets at most `T / L + 2` windows.

  * `Metered.between_le` — in a closed interval of length `T`, at most `(T / L + 2) * cap` is spent.
-/
import Mathlib.Data.Nat.Lattice
import Mathlib.Tactic.Ring
import Mathlib.Algebra.BigOperators.Group.List.Basic

namespace Gemba.Lib

/-- A spending: when and how much. -/
structure Spending where
  time : Nat
  amount : Nat
deriving DecidableEq, Repr

/-- What was spent at times in the closed interval from `x` to `y`. -/
def spentBetween (log : List Spending) (x y : Nat) : Nat :=
  ((log.filter fun s => x ≤ s.time ∧ s.time ≤ y).map Spending.amount).sum

/-- What was spent from the time `x` on. -/
def spentSince (log : List Spending) (x : Nat) : Nat :=
  ((log.filter fun s => x ≤ s.time).map Spending.amount).sum

/-- All that was spent. -/
def spentIn (log : List Spending) : Nat := (log.map Spending.amount).sum

/-- The log of a meter with windows of length `L` and the cap `cap` on each, in the order of time;
    the current window started at `start`, `spent` was spent in it, and it is `now`. -/
inductive Metered (L cap : Nat) : List Spending → (start spent now : Nat) → Prop
  | fresh {start spent now : Nat} (h : start ≤ now) : Metered L cap [] start spent now
  | wait {log : List Spending} {start spent now later : Nat} (h : Metered L cap log start spent now)
      (hlater : now ≤ later) : Metered L cap log start spent later
  | spend {log : List Spending} {start spent now amount : Nat}
      (h : Metered L cap log start spent now) (hin : now < start + L)
      (hcap : spent + amount ≤ cap) :
      Metered L cap (log ++ [⟨now, amount⟩]) start (spent + amount) now
  | roll {log : List Spending} {start spent now amount : Nat}
      (h : Metered L cap log start spent now) (hout : start + L ≤ now) (hcap : amount ≤ cap) :
      Metered L cap (log ++ [⟨now, amount⟩]) now amount now

section
variable {L cap start spent now : Nat} {log : List Spending}

theorem spentIn_snoc (log : List Spending) (t a : Nat) :
    spentIn (log ++ [⟨t, a⟩]) = spentIn log + a := by
  simp [spentIn]

theorem spentSince_snoc (log : List Spending) (t a x : Nat) :
    spentSince (log ++ [⟨t, a⟩]) x = spentSince log x + if x ≤ t then a else 0 := by
  unfold spentSince
  rw [List.filter_append, List.map_append, List.sum_append]
  by_cases hx : x ≤ t <;> simp [hx]

theorem spentBetween_snoc (log : List Spending) (t a x y : Nat) :
    spentBetween (log ++ [⟨t, a⟩]) x y =
      spentBetween log x y + if x ≤ t ∧ t ≤ y then a else 0 := by
  unfold spentBetween
  rw [List.filter_append, List.map_append, List.sum_append]
  by_cases hx : x ≤ t ∧ t ≤ y <;> simp [hx]

theorem spentSince_append (log later : List Spending) (x : Nat) :
    spentSince (log ++ later) x = spentSince log x + spentSince later x := by
  unfold spentSince
  rw [List.filter_append, List.map_append, List.sum_append]

/-- What was spent from a time on is part of what was spent. -/
theorem spentSince_le_in (log : List Spending) (x : Nat) : spentSince log x ≤ spentIn log := by
  induction log using List.reverseRecOn with
  | nil => exact Nat.le_refl 0
  | append_singleton log s ih =>
    rw [spentSince_snoc, spentIn_snoc]
    split <;> omega

/-- What was spent up to a time is part of what was spent. -/
theorem spentBetween_le_since (log : List Spending) (x y : Nat) :
    spentBetween log x y ≤ spentSince log x := by
  induction log using List.reverseRecOn with
  | nil => exact Nat.le_refl 0
  | append_singleton log s ih =>
    rw [spentBetween_snoc, spentSince_snoc]
    split
    · rename_i h
      rw [if_pos h.1]
      omega
    · omega

/-- Nothing was spent from a time on that every spending lies before. -/
theorem spentSince_eq_zero {x : Nat} (h : ∀ s ∈ log, s.time < x) : spentSince log x = 0 := by
  unfold spentSince
  rw [List.filter_eq_nil_iff.mpr]
  · rfl
  · intro s hs
    have := h s hs
    simp only [decide_eq_true_eq]
    omega

/-! ## What a meter keeps -/

theorem Metered.start_le (h : Metered L cap log start spent now) : start ≤ now := by
  induction h with
  | fresh h => exact h
  | wait _ hlater ih => omega
  | spend _ _ _ ih => exact ih
  | roll _ _ _ _ => exact Nat.le_refl _

/-- The log lies in the past, before the end of the current window. -/
theorem Metered.past (h : Metered L cap log start spent now) :
    ∀ s ∈ log, s.time ≤ now ∧ (0 < L → s.time < start + L) := by
  induction h with
  | fresh h => exact fun s hs => absurd hs List.not_mem_nil
  | wait _ hlater ih =>
    intro s hs
    have := ih s hs
    exact ⟨by omega, this.2⟩
  | spend _ hin _ ih =>
    intro s hs
    rcases List.mem_append.mp hs with hs | hs
    · exact ih s hs
    · rw [List.mem_singleton.mp hs]
      exact ⟨Nat.le_refl _, fun _ => hin⟩
  | roll _ hout _ ih =>
    intro s hs
    rcases List.mem_append.mp hs with hs | hs
    · have := ih s hs
      exact ⟨this.1, fun hL => by have := this.2 hL; omega⟩
    · rw [List.mem_singleton.mp hs]
      exact ⟨Nat.le_refl _, fun hL => Nat.lt_add_of_pos_right hL⟩

/-- The cap holds of the window as soon as something was spent. -/
theorem Metered.spent_le (h : Metered L cap log start spent now) : log = [] ∨ spent ≤ cap := by
  induction h with
  | fresh h => exact .inl rfl
  | wait _ _ ih => exact ih
  | spend _ _ hcap _ => exact .inr hcap
  | roll _ _ hcap _ => exact .inr hcap

/-- The windows between a time and the start of the current one: the first of them may have begun
    before that time, and they begin at least `L` apart. -/
def windowsBefore (L x start : Nat) : Nat := if x < start then (start - x - 1) / L + 1 else 0

/-- A window that starts a window length later has at least one more before it. -/
theorem windowsBefore_succ {x later : Nat} (hL : 0 < L) (hlater : start + L ≤ later)
    (hx : x < later) : windowsBefore L x start + 1 ≤ windowsBefore L x later ∨ start + L ≤ x := by
  by_cases hin : start + L ≤ x
  · exact .inr hin
  · refine .inl ?_
    unfold windowsBefore
    rw [if_pos hx]
    by_cases hs : x < start
    · rw [if_pos hs]
      have hmono : (start - x - 1 + L) / L ≤ (later - x - 1) / L :=
        Nat.div_le_div_right (by omega)
      rw [Nat.add_div_right _ hL] at hmono
      omega
    · rw [if_neg hs]
      exact Nat.le_add_left _ _

/-- **What was spent since `x`** is what was spent in the current window and at most the cap of each
    window before it that reaches past `x`. -/
theorem Metered.spentSince_le (hL : 0 < L) (h : Metered L cap log start spent now) (x : Nat) :
    spentSince log x ≤ spent + windowsBefore L x start * cap := by
  induction h with
  | fresh h => exact Nat.zero_le _
  | wait _ _ ih => exact ih
  | spend _ _ _ ih =>
    rw [spentSince_snoc]
    split <;> omega
  | @roll log start spent now amount h hout hcap ih =>
    rw [spentSince_snoc]
    by_cases hx : x ≤ now
    · rw [if_pos hx]
      rcases Nat.lt_or_eq_of_le hx with hlt | rfl
      · rcases windowsBefore_succ hL hout hlt with hw | hend
        · -- the window that ended is one of those before the new one
          have hmul : (windowsBefore L x start + 1) * cap ≤ windowsBefore L x now * cap :=
            Nat.mul_le_mul_right cap hw
          rw [Nat.succ_mul] at hmul
          rcases h.spent_le with rfl | hspent
          · have hnil : spentSince [] x = 0 := rfl
            omega
          · omega
        · rw [spentSince_eq_zero fun s hs => by have := (h.past s hs).2 hL; omega]
          omega
      · rw [spentSince_eq_zero fun s hs => by have := (h.past s hs).2 hL; omega]
        omega
    · rw [if_neg hx, spentSince_eq_zero fun s hs => by have := (h.past s hs).1; omega]
      omega

/-- An interval of length `T` that reaches the start of a window has at most `T / L + 1` before it. -/
theorem windowsBefore_le {x y : Nat} (hstart : start ≤ y) :
    windowsBefore L x start ≤ (y - x) / L + 1 := by
  unfold windowsBefore
  split
  · exact Nat.succ_le_succ (Nat.div_le_div_right (by omega))
  · exact Nat.zero_le _

/-- **The bound on every interval.**  However the windows came to lie, at most `(T / L + 2) * cap` is
    spent in a closed interval of length `T`. -/
theorem Metered.between_le (hL : 0 < L) (h : Metered L cap log start spent now) (x T : Nat) :
    spentBetween log x (x + T) ≤ (T / L + 2) * cap := by
  -- the last spending of the interval is the end of a shorter log, whose window began before it
  have reach : ∀ {log : List Spending} {start spent now : Nat}, Metered L cap log start spent now →
      log ≠ [] → now ≤ x + T → spentBetween log x (x + T) ≤ (T / L + 2) * cap := by
    intro log start spent now h hne hnow
    have hsince := h.spentSince_le hL x
    have hspent := h.spent_le.resolve_left hne
    have hw : windowsBefore L x start * cap ≤ ((x + T - x) / L + 1) * cap :=
      Nat.mul_le_mul_right cap (windowsBefore_le (Nat.le_trans h.start_le hnow))
    rw [Nat.add_sub_cancel_left] at hw
    calc spentBetween log x (x + T) ≤ spentSince log x := spentBetween_le_since log x (x + T)
      _ ≤ spent + windowsBefore L x start * cap := hsince
      _ ≤ cap + (T / L + 1) * cap := Nat.add_le_add hspent hw
      _ = (T / L + 2) * cap := by ring
  induction h with
  | fresh _ => exact Nat.zero_le _
  | wait _ _ ih => exact ih
  | @spend log start spent now amount h hin hcap ih =>
    by_cases hnow : now ≤ x + T
    · exact reach (h.spend hin hcap) (List.append_ne_nil_of_right_ne_nil _ (List.cons_ne_nil _ _)) hnow
    · rw [spentBetween_snoc, if_neg fun hc => hnow hc.2]
      exact ih
  | @roll log start spent now amount h hout hcap ih =>
    by_cases hnow : now ≤ x + T
    · exact reach (h.roll hout hcap) (List.append_ne_nil_of_right_ne_nil _ (List.cons_ne_nil _ _)) hnow
    · rw [spentBetween_snoc, if_neg fun hc => hnow hc.2]
      exact ih

end
end Gemba.Lib
