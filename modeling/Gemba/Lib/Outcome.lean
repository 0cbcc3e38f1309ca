/-
  Fallible calls, and what it takes for one to succeed.

  Both halves of the development are written in an `Except` monad: Go functions return an error or
  panic, Solidity functions return or revert.  Every proof about such a function starts the same
  way: from "the call returned `b`" recover what each line of its body did.  The lemmas below do
  that once, as a `simp` set:

  * `bind_eq_ok`   — a `do` block succeeds exactly when each of its lines does;
  * `failIf_eq_ok` — a guard `if c { return err }` passes exactly when `c` is false;
  * `ite_eq_ok`    — a conditional call succeeds through one of its two branches;
  * `orThrow`      — a value that may be missing, which then stops the call;
  * `orElse`, `andThen` — the short-circuit connectives with a call on the right.

  `failIf c e` is the guard clause itself, so a body of guards followed by an effect reads like
  the source and its success unfolds to the conjunction of the negated guards.
-/
import Mathlib.Logic.Basic

namespace Gemba.Lib

universe u v w

variable {ε : Type u} {α : Type v} {β : Type v}

/-- The guard clause: stop with `e` when `c` holds. -/
def failIf (c : Prop) [Decidable c] (e : ε) : Except ε PUnit :=
  if c then .error e else .ok ⟨⟩

/-- A guard passes exactly when its condition is false. -/
@[simp] theorem failIf_eq_ok {c : Prop} [Decidable c] {e : ε} {x : PUnit} :
    failIf c e = .ok x ↔ ¬ c := by
  unfold failIf
  split
  · rename_i h
    simp [h]
  · rename_i h
    simp [h]

/-- A guard whose condition is false does nothing. -/
theorem failIf_neg {c : Prop} [Decidable c] {e : ε} (h : ¬ c) : failIf c e = .ok ⟨⟩ := by
  rw [failIf, if_neg h]

theorem ok_bind {a : α} {f : α → Except ε β} : (.ok a >>= f : Except ε β) = f a := rfl

/-- A sequence of two calls succeeds exactly when both do. -/
@[simp] theorem bind_eq_ok {x : Except ε α} {f : α → Except ε β} {b : β} :
    (x >>= f) = .ok b ↔ ∃ a, x = .ok a ∧ f a = .ok b := by
  cases x with
  | error e =>
    constructor
    · intro h
      nomatch h
    · rintro ⟨a, ha, -⟩
      nomatch ha
  | ok a =>
    constructor
    · intro h
      exact ⟨a, rfl, h⟩
    · rintro ⟨a', ha, h⟩
      injection ha with ha
      subst ha
      exact h

/-- A guard in front: it passed, and the rest succeeded. -/
theorem failIf_bind_eq_ok {c : Prop} [Decidable c] {e : ε} {f : PUnit → Except ε β} {b : β} :
    (failIf c e >>= f) = .ok b ↔ ¬ c ∧ f ⟨⟩ = .ok b := by
  rw [bind_eq_ok]
  constructor
  · rintro ⟨⟨⟩, hc, h⟩
    exact ⟨failIf_eq_ok.mp hc, h⟩
  · rintro ⟨hc, h⟩
    exact ⟨⟨⟩, failIf_eq_ok.mpr hc, h⟩

/-- A pair that was returned, part by part. -/
theorem ok_pair {a a' : α} {b b' : β} (h : (.ok (a, b) : Except ε (α × β)) = .ok (a', b')) :
    a = a' ∧ b = b' := by
  injection h with h
  injection h with ha hb
  exact ⟨ha, hb⟩

/-- A sequence of two calls stops where the first of them that stops does. -/
theorem bind_eq_error {x : Except ε α} {f : α → Except ε β} {e : ε} :
    (x >>= f) = .error e ↔ x = .error e ∨ ∃ a, x = .ok a ∧ f a = .error e := by
  cases x with
  | error e' =>
    constructor
    · intro h
      injection h with h
      rw [h]
      exact .inl rfl
    · rintro (h | ⟨a, ha, -⟩)
      · injection h with h
        rw [h]
        rfl
      · nomatch ha
  | ok a =>
    constructor
    · intro h
      exact .inr ⟨a, rfl, h⟩
    · rintro (h | ⟨a', ha, h⟩)
      · nomatch h
      · injection ha with ha
        subst ha
        exact h

/-- A guard that stops the call stops it with its own error. -/
theorem failIf_eq_error {c : Prop} [Decidable c] {e e' : ε} (h : failIf c e = .error e') :
    c ∧ e' = e := by
  unfold failIf at h
  split at h
  · rename_i hc
    injection h with h
    exact ⟨hc, h.symm⟩
  · nomatch h

@[simp] theorem pure_eq_ok {a b : α} : (pure a : Except ε α) = .ok b ↔ a = b := by
  constructor
  · intro h
    injection h
  · intro h
    rw [h]
    rfl

@[simp] theorem throw_ne_ok {e : ε} {b : α} : (throw e : Except ε α) ≠ .ok b := by
  intro h
  nomatch h

/-- A conditional call succeeds through the branch its condition selects. -/
theorem ite_eq_ok {c : Prop} [Decidable c] {x y : Except ε α} {a : α} :
    (if c then x else y) = .ok a ↔ (c ∧ x = .ok a) ∨ (¬ c ∧ y = .ok a) := by
  split
  · rename_i h
    simp [h]
  · rename_i h
    simp [h]

/-- The value of a call that may have none, which then stops with `e`. -/
def orThrow (x : Option α) (e : ε) : Except ε α :=
  match x with
  | some a => .ok a
  | none => .error e

@[simp] theorem orThrow_eq_ok {x : Option α} {e : ε} {a : α} :
    orThrow x e = .ok a ↔ x = some a := by
  cases x with
  | none =>
    constructor
    · intro h
      nomatch h
    · intro h
      nomatch h
  | some b =>
    constructor
    · intro h
      injection h with h
      rw [h]
    · intro h
      injection h with h
      rw [h]
      rfl

/-- A missing value stops the call with the error it was given. -/
theorem orThrow_eq_error {x : Option α} {e e' : ε} (h : orThrow x e = .error e') : e' = e := by
  cases x with
  | none =>
    injection h with h
    exact h.symm
  | some a => nomatch h

/-! ## Short-circuit connectives

  In `a || f()` and `a && f()` the call is made only when `a` does not settle the answer. -/

/-- `a || f()`. -/
def orElse (a : Bool) (x : Except ε Bool) : Except ε Bool := if a then .ok true else x

/-- `a && f()`. -/
def andThen (a : Bool) (x : Except ε Bool) : Except ε Bool := if a then x else .ok false

@[simp] theorem orElse_true (x : Except ε Bool) : orElse true x = .ok true := rfl
@[simp] theorem orElse_false (x : Except ε Bool) : orElse false x = x := rfl
@[simp] theorem andThen_true (x : Except ε Bool) : andThen true x = x := rfl
@[simp] theorem andThen_false (x : Except ε Bool) : andThen false x = .ok false := rfl

@[simp] theorem orElse_ok (a b : Bool) : orElse a (.ok b : Except ε Bool) = .ok (a || b) := by
  cases a <;> rfl

@[simp] theorem andThen_ok (a b : Bool) : andThen a (.ok b : Except ε Bool) = .ok (a && b) := by
  cases a <;> rfl

/-- The value of a call that succeeded. -/
theorem toOption_eq_some {x : Except ε α} {a : α} : x.toOption = some a ↔ x = .ok a := by
  cases x with
  | error e =>
    constructor
    · intro h
      nomatch h
    · intro h
      nomatch h
  | ok b =>
    constructor
    · intro h
      injection h with h
      rw [h]
    · intro h
      injection h with h
      rw [h]
      rfl

/-- Whether a call succeeded. -/
def succeeds (x : Except ε α) : Prop := ∃ a, x = .ok a

instance (x : Except ε α) : Decidable (succeeds x) :=
  match x with
  | .ok a => .isTrue ⟨a, rfl⟩
  | .error _ => .isFalse (fun ⟨_, h⟩ => nomatch h)

@[simp] theorem succeeds_ok (a : α) : succeeds (.ok a : Except ε α) := ⟨a, rfl⟩

@[simp] theorem not_succeeds_error (e : ε) : ¬ succeeds (.error e : Except ε α) :=
  fun ⟨_, h⟩ => nomatch h

/-- A sequence succeeds when its second half does on the value of the first. -/
theorem succeeds_bind {x : Except ε α} {f : α → Except ε β} :
    succeeds (x >>= f) ↔ ∃ a, x = .ok a ∧ succeeds (f a) := by
  constructor
  · rintro ⟨b, h⟩
    obtain ⟨a, ha, hb⟩ := bind_eq_ok.mp h
    exact ⟨a, ha, b, hb⟩
  · rintro ⟨a, ha, b, hb⟩
    exact ⟨b, bind_eq_ok.mpr ⟨a, ha, hb⟩⟩

end Gemba.Lib
