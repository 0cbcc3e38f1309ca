/-
  Movements on a ledger of several things.

  A ledger says how much of each thing each account has.  What happened to it is a list of movements,
  and `Flow` says so without subtraction: what an account has in the end and what left it is what it
  had and what came in.  Flows compose as the lists do (`Flow.trans`), an account that no movement
  leaves has no less (`Flow.le`), and nothing is made or lost (`Flow.total`).
-/
import Mathlib.Algebra.BigOperators.Group.List.Basic
import Mathlib.Algebra.Ring.Nat
import Gemba.Lib.Totals

namespace Gemba.Lib

universe u v

/-- `amount` of a thing from one account to another. -/
structure Movement (κ : Type u) (ι : Type v) where
  thing : κ
  src : ι
  dst : ι
  amount : Nat
deriving DecidableEq

section
variable {κ : Type u} {ι : Type v} [DecidableEq κ] [DecidableEq ι]

/-- What one movement takes from an account. -/
def Movement.takes (m : Movement κ ι) (k : κ) (x : ι) : Nat :=
  if m.thing = k ∧ m.src = x then m.amount else 0

/-- What one movement gives to an account. -/
def Movement.gives (m : Movement κ ι) (k : κ) (x : ι) : Nat :=
  if m.thing = k ∧ m.dst = x then m.amount else 0

/-- What the movements take from an account. -/
def outOf (ms : List (Movement κ ι)) (k : κ) (x : ι) : Nat := (ms.map (·.takes k x)).sum

/-- What the movements give to an account. -/
def into (ms : List (Movement κ ι)) (k : κ) (x : ι) : Nat := (ms.map (·.gives k x)).sum

/-- The movements `ms` lead from the ledger `f` to the ledger `g`. -/
def Flow (ms : List (Movement κ ι)) (f g : κ → ι → Nat) : Prop :=
  ∀ k x, g k x + outOf ms k x = f k x + into ms k x

variable {ms ns : List (Movement κ ι)} {f g h : κ → ι → Nat} {k : κ} {x : ι}

theorem outOf_append : outOf (ms ++ ns) k x = outOf ms k x + outOf ns k x := by
  rw [outOf, List.map_append, List.sum_append]
  rfl

theorem into_append : into (ms ++ ns) k x = into ms k x + into ns k x := by
  rw [into, List.map_append, List.sum_append]
  rfl

theorem outOf_cons {m : Movement κ ι} : outOf (m :: ms) k x = m.takes k x + outOf ms k x := rfl

theorem into_cons {m : Movement κ ι} : into (m :: ms) k x = m.gives k x + into ms k x := rfl

theorem takes_mk {thing : κ} {src dst : ι} {amount : Nat} :
    (Movement.mk thing src dst amount).takes k x = if thing = k ∧ src = x then amount else 0 := rfl

theorem gives_mk {thing : κ} {src dst : ι} {amount : Nat} :
    (Movement.mk thing src dst amount).gives k x = if thing = k ∧ dst = x then amount else 0 := rfl

/-- An account that is the source of no movement loses nothing. -/
theorem outOf_eq_zero (hms : ∀ m ∈ ms, m.thing = k → m.src ≠ x) : outOf ms k x = 0 := by
  induction ms with
  | nil => rfl
  | cons m ms ih =>
    rw [outOf_cons, ih fun m' hm' => hms m' (List.mem_cons_of_mem m hm')]
    exact if_neg fun hc => hms m List.mem_cons_self hc.1 hc.2

/-- An account that is the target of no movement gains nothing. -/
theorem into_eq_zero (hms : ∀ m ∈ ms, m.thing = k → m.dst ≠ x) : into ms k x = 0 := by
  induction ms with
  | nil => rfl
  | cons m ms ih =>
    rw [into_cons, ih fun m' hm' => hms m' (List.mem_cons_of_mem m hm')]
    exact if_neg fun hc => hms m List.mem_cons_self hc.1 hc.2

theorem Flow.refl (f : κ → ι → Nat) : Flow ([] : List (Movement κ ι)) f f := fun _ _ => rfl

/-- **Flows compose.** -/
theorem Flow.trans (h₁ : Flow ms f g) (h₂ : Flow ns g h) : Flow (ms ++ ns) f h := by
  intro k x
  have hfirst := h₁ k x
  have hsecond := h₂ k x
  rw [outOf_append, into_append]
  omega

/-- Movements that take and give the same are as good. -/
theorem Flow.congr (hflow : Flow ms f g) (hout : ∀ k x, outOf ns k x = outOf ms k x)
    (hin : ∀ k x, into ns k x = into ms k x) : Flow ns f g := by
  intro k x
  rw [hout, hin]
  exact hflow k x

/-- An account that nothing leaves has no less. -/
theorem Flow.le (hflow : Flow ms f g) (hms : ∀ m ∈ ms, m.thing = k → m.src ≠ x) : f k x ≤ g k x := by
  have hx := hflow k x
  rw [outOf_eq_zero hms, Nat.add_zero] at hx
  rw [hx]
  exact Nat.le_add_right _ _

/-- An account that takes no part is as it was. -/
theorem Flow.untouched (hflow : Flow ms f g)
    (hms : ∀ m ∈ ms, m.thing = k → m.src ≠ x ∧ m.dst ≠ x) : g k x = f k x := by
  have hx := hflow k x
  rw [outOf_eq_zero fun m hm hk => (hms m hm hk).1, into_eq_zero fun m hm hk => (hms m hm hk).2] at hx
  exact hx

/-- The receiver of one movement. -/
theorem Flow.received {src dst : ι} {amount : Nat} (hflow : Flow [⟨k, src, dst, amount⟩] f g)
    (hne : src ≠ dst) : g k dst = f k dst + amount := by
  have hx := hflow k dst
  rw [outOf_cons, into_cons, takes_mk, gives_mk, if_neg fun hc => hne hc.2, if_pos ⟨rfl, rfl⟩] at hx
  exact hx

variable [Fintype ι]

/-- What leaves all accounts is what comes into them. -/
theorem sum_outOf : ∑ x, outOf ms k x = ∑ x, into ms k x := by
  induction ms with
  | nil => rfl
  | cons m ms ih =>
    have hone : ∑ x, m.takes k x = ∑ x, m.gives k x := by
      unfold Movement.takes Movement.gives
      by_cases hk : m.thing = k
      · simp [hk]
      · simp [hk]
    calc ∑ x, (m.takes k x + outOf ms k x)
        = ∑ x, m.takes k x + ∑ x, outOf ms k x := Finset.sum_add_distrib
      _ = ∑ x, m.gives k x + ∑ x, into ms k x := by rw [hone, ih]
      _ = ∑ x, (m.gives k x + into ms k x) := Finset.sum_add_distrib.symm

/-- **Movements make nothing and lose nothing.** -/
theorem Flow.total (hflow : Flow ms f g) (k : κ) : ∑ x, g k x = ∑ x, f k x := by
  have hsum := sum_balance (hflow k)
  rw [sum_outOf] at hsum
  omega

end
end Gemba.Lib
