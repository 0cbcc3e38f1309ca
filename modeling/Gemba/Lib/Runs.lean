/-
  Runs of a state machine whose steps may fail.

  A machine is a function `step : σ → α → Except ε σ`: from a state and a label (which carries
  every choice the environment makes) it computes the next state, or fails and changes nothing.
  `Run step P s as t` says that the labels `as`, fired in order from `s`, all succeeded and ended
  in `t`, and that each fired at a state where `P` allowed it.  The parameter `P` is how a theorem
  talks about "every run whose steps all meet a condition"; `fun _ _ => True` is every run.

  * `Run.inv`       — what holds at the start and is kept by each allowed step holds at the end;
  * `Run.append`    — runs compose, so a run can be looked at from any state it passed through;
  * `runM`, `runTo`, `Run.of_runM` — the executable version, for runs on concrete inputs.
-/
import Gemba.Lib.Outcome

namespace Gemba.Lib

universe u v w

variable {ε : Type u} {σ : Type v} {α : Type w}

/-- The labels `as` fired in order from `s₀`, each allowed by `P` where it fired. -/
inductive Run (step : σ → α → Except ε σ) (P : σ → α → Prop) (s₀ : σ) : List α → σ → Prop where
  | nil : Run step P s₀ [] s₀
  | snoc {as : List α} {t u : σ} {a : α} (h : Run step P s₀ as t) (hP : P t a)
      (hs : step t a = .ok u) : Run step P s₀ (as ++ [a]) u

variable {step : σ → α → Except ε σ} {P Q : σ → α → Prop} {s₀ t u : σ} {as bs : List α}

/-- **The invariant rule.**  `I` at the start, kept by every allowed step, holds after the run. -/
theorem Run.inv (I : σ → Prop) (h0 : I s₀)
    (hstep : ∀ t a u, I t → P t a → step t a = .ok u → I u)
    (h : Run step P s₀ as t) : I t := by
  induction h with
  | nil => exact h0
  | snoc _ hP hs ih => exact hstep _ _ _ ih hP hs

/-- Runs compose. -/
theorem Run.append (h : Run step P s₀ as t) (h' : Run step P t bs u) :
    Run step P s₀ (as ++ bs) u := by
  induction h' with
  | nil =>
    rw [List.append_nil]
    exact h
  | snoc _ hP hs ih =>
    rw [← List.append_assoc]
    exact Run.snoc ih hP hs

/-- The last step of a run. -/
theorem Run.last {a : α} (h : Run step P s₀ (as ++ [a]) u) :
    ∃ t, Run step P s₀ as t ∧ P t a ∧ step t a = .ok u := by
  generalize hl : as ++ [a] = l at h
  cases h with
  | nil =>
    have hlen := congrArg List.length hl
    simp at hlen
  | snoc h hP hs =>
    obtain ⟨rfl, ha⟩ := List.append_inj' hl rfl
    injection ha with ha
    subst ha
    exact ⟨_, h, hP, hs⟩

/-- A weaker condition allows the same run. -/
theorem Run.mono (hPQ : ∀ s a, P s a → Q s a) (h : Run step P s₀ as t) : Run step Q s₀ as t := by
  induction h with
  | nil => exact Run.nil
  | snoc _ hP hs ih => exact Run.snoc ih (hPQ _ _ hP) hs

/-- A condition that allows the steps of a run where an invariant of it holds. -/
theorem Run.mono_inv (I : σ → Prop) (h0 : I s₀) (hstep : ∀ t a u, I t → P t a → step t a = .ok u → I u)
    (hPQ : ∀ t a, I t → P t a → Q t a) (h : Run step P s₀ as t) : Run step Q s₀ as t := by
  induction h with
  | nil => exact Run.nil
  | snoc h hP hs ih => exact Run.snoc ih (hPQ _ _ (Run.inv I h0 hstep h) hP) hs

/-! ## Running the machine -/

/-- Fire the labels in order, stopping at the first that fails. -/
def runM (step : σ → α → Except ε σ) : σ → List α → Except ε σ
  | s, [] => .ok s
  | s, a :: as => do
    let t ← step s a
    runM step t as

/-- An execution of two lists is one after the other. -/
theorem runM_append (as bs : List α) (s : σ) :
    runM step s (as ++ bs) = runM step s as >>= fun t => runM step t bs := by
  induction as generalizing s with
  | nil => rfl
  | cons a as ih =>
    show step s a >>= (fun t => runM step t (as ++ bs))
      = (step s a >>= fun t => runM step t as) >>= fun t => runM step t bs
    cases step s a with
    | error e => rfl
    | ok t => exact ih t

/-- An execution fails where its first failing step does. -/
theorem runM_eq_error {e : ε} {as : List α} {s : σ} :
    runM step s as = .error e ↔
      ∃ pre a post t, as = pre ++ a :: post ∧ runM step s pre = .ok t ∧ step t a = .error e := by
  constructor
  · intro h
    induction as generalizing s with
    | nil => nomatch h
    | cons a as ih =>
      rcases bind_eq_error.mp h with h | ⟨t, ht, h⟩
      · exact ⟨[], a, as, s, rfl, rfl, h⟩
      · obtain ⟨pre, b, post, u, rfl, hrun, hb⟩ := ih h
        exact ⟨a :: pre, b, post, u, rfl, bind_eq_ok.mpr ⟨t, ht, hrun⟩, hb⟩
  · rintro ⟨pre, a, post, t, rfl, hrun, ha⟩
    rw [runM_append, hrun, ok_bind, runM, ha]
    rfl

/-- An execution without a state goes through when every step does. -/
theorem runM_unit {step : PUnit → α → Except ε PUnit} {as : List α} :
    runM step ⟨⟩ as = .ok ⟨⟩ ↔ ∀ a ∈ as, step ⟨⟩ a = .ok ⟨⟩ := by
  induction as with
  | nil => exact ⟨fun _ a ha => absurd ha List.not_mem_nil, fun _ => rfl⟩
  | cons a as ih =>
    rw [runM, bind_eq_ok, List.forall_mem_cons, ← ih]
    constructor
    · rintro ⟨⟨⟩, ha, hrest⟩
      exact ⟨ha, hrest⟩
    · rintro ⟨ha, hrest⟩
      exact ⟨⟨⟩, ha, hrest⟩

/-- The condition checked along an execution. -/
def allowedM (step : σ → α → Except ε σ) (P : σ → α → Prop) : σ → List α → Prop
  | _, [] => True
  | s, a :: as => P s a ∧ ∀ t, step s a = .ok t → allowedM step P t as

/-- An execution whose labels were all allowed is a run. -/
theorem Run.of_runM : ∀ {as : List α} {s t : σ}, allowedM step P s as → runM step s as = .ok t →
    Run step P s as t
  | [], _, _, _, h => by
    injection h with h
    subst h
    exact Run.nil
  | a :: as, s, t, hP, h => by
    obtain ⟨m, hm, h⟩ := bind_eq_ok.mp h
    exact Run.append (Run.snoc Run.nil hP.1 hm) (Run.of_runM (hP.2 m hm) h)

/-- A condition that can be checked can be checked along an execution. -/
instance allowedM.decidable [∀ s a, Decidable (P s a)] :
    ∀ (s : σ) (as : List α), Decidable (allowedM step P s as)
  | _, [] => .isTrue trivial
  | s, a :: as =>
    match h : step s a with
    | .error e => decidable_of_iff (P s a)
        ⟨fun hP => ⟨hP, fun t ht => by rw [h] at ht; nomatch ht⟩, fun hP => hP.1⟩
    | .ok t =>
      have : Decidable (allowedM step P t as) := allowedM.decidable t as
      decidable_of_iff (P s a ∧ allowedM step P t as)
        ⟨fun hP => ⟨hP.1, fun u hu => by rw [h] at hu; injection hu with hu; exact hu ▸ hP.2⟩,
          fun hP => ⟨hP.1, hP.2 t h⟩⟩

/-- A condition on the labels alone can be checked on the list of them. -/
theorem allowedM_of_forall {s : σ} (h : ∀ a ∈ as, ∀ t, P t a) : allowedM step P s as := by
  induction as generalizing s with
  | nil => exact trivial
  | cons a as ih =>
    refine ⟨h a List.mem_cons_self s, fun t _ => ?_⟩
    exact ih (fun b hb => h b (List.mem_cons_of_mem a hb))

/-- A run on concrete labels, from what the execution shows of its last state. -/
theorem Run.of_runM_map {β : Type v} {f : σ → β} {b : β} (hP : allowedM step P s₀ as)
    (h : (runM step s₀ as).map f = .ok b) : ∃ t, Run step P s₀ as t ∧ f t = b := by
  cases hrun : runM step s₀ as with
  | error e =>
    rw [hrun] at h
    nomatch h
  | ok t =>
    rw [hrun] at h
    injection h with h
    exact ⟨t, Run.of_runM hP hrun, h⟩

/-- The state an execution ends in, the first one if it fails. -/
def runTo (step : σ → α → Except ε σ) (s : σ) (as : List α) : σ := (runM step s as).toOption.getD s

/-- An execution that goes through is a run to the state it ends in. -/
theorem Run.of_runTo (hP : allowedM step P s₀ as) (h : succeeds (runM step s₀ as)) :
    Run step P s₀ as (runTo step s₀ as) := by
  obtain ⟨t, ht⟩ := h
  have hto : runTo step s₀ as = t := by
    unfold runTo
    rw [ht]
    rfl
  rw [hto]
  exact Run.of_runM hP ht

/-- A step that goes through is one to the state its execution ends in. -/
theorem step_runTo {a : α} (h : succeeds (step s₀ a)) : step s₀ a = .ok (runTo step s₀ [a]) := by
  obtain ⟨t, ht⟩ := h
  unfold runTo runM
  rw [ht]
  rfl

end Gemba.Lib
