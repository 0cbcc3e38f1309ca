/-
  Solidity calls: addresses, reverts and checked 256-bit arithmetic.

  A call returns a value or reverts, and a revert undoes everything the call did; `Call` is that, and
  a contract function is a function from its storage to `Call` of the new storage.  A `uint256` is a
  natural number that every operation keeps below `2 ^ 256`: `add`, `sub`, `mul` and `div` revert
  with the compiler's panic codes instead of leaving the range (Solidity 0.8).

  The `_eq_ok` lemmas turn a call that went through into the equations it solved, so a function's
  body is read off its success by `simp`.
-/
import Mathlib.Algebra.Group.Nat.Defs
import Gemba.Lib.Outcome

namespace Gemba.Evm

open Gemba.Lib

/-- An account. -/
abbrev Address := BitVec 160

instance : LawfulBEq Address := inferInstance

/-- Why a call reverted. -/
inductive Revert where
  /-- A custom error of the contract, with its arguments. -/
  | custom (name : String) (args : List Nat)
  /-- A compiler panic: 0x11 arithmetic, 0x12 division by zero. -/
  | panic (code : Nat)
  /-- A call to another contract reverted, or its answer was refused. -/
  | external
deriving DecidableEq, Repr

instance : Inhabited Revert := ⟨.external⟩

/-- The outcome of a call. -/
abbrev Call := Except Revert

/-- A custom error without arguments. -/
def err (name : String) : Revert := .custom name []

/-! ## Checked arithmetic -/

def maxUint256 : Nat := 2 ^ 256 - 1

/-- `a + b`. -/
def add (a b : Nat) : Call Nat := if a + b < 2 ^ 256 then .ok (a + b) else .error (.panic 0x11)

/-- `a - b`. -/
def sub (a b : Nat) : Call Nat := if b ≤ a then .ok (a - b) else .error (.panic 0x11)

/-- `a * b`. -/
def mul (a b : Nat) : Call Nat := if a * b < 2 ^ 256 then .ok (a * b) else .error (.panic 0x11)

/-- `a / b`. -/
def div (a b : Nat) : Call Nat := if b = 0 then .error (.panic 0x12) else .ok (a / b)

/-- `SafeCast.toUint{bits}(n)`. -/
def toUint (bits n : Nat) : Call Nat :=
  if n < 2 ^ bits then .ok n else .error (.custom "SafeCastOverflowedUintDowncast" [bits, n])

@[simp] theorem add_eq_ok {a b c : Nat} : add a b = .ok c ↔ a + b < 2 ^ 256 ∧ c = a + b := by
  unfold add
  split
  · rename_i h
    constructor
    · intro heq
      injection heq with heq
      exact ⟨h, heq.symm⟩
    · rintro ⟨-, rfl⟩
      rfl
  · rename_i h
    constructor
    · intro heq
      nomatch heq
    · rintro ⟨hlt, -⟩
      exact absurd hlt h

@[simp] theorem sub_eq_ok {a b c : Nat} : sub a b = .ok c ↔ b ≤ a ∧ c = a - b := by
  unfold sub
  split
  · rename_i h
    simp [h, eq_comm]
  · rename_i h
    simp [h]

@[simp] theorem mul_eq_ok {a b c : Nat} : mul a b = .ok c ↔ a * b < 2 ^ 256 ∧ c = a * b := by
  unfold mul
  split
  · rename_i h
    constructor
    · intro heq
      injection heq with heq
      exact ⟨h, heq.symm⟩
    · rintro ⟨-, rfl⟩
      rfl
  · rename_i h
    constructor
    · intro heq
      nomatch heq
    · rintro ⟨hlt, -⟩
      exact absurd hlt h

@[simp] theorem div_eq_ok {a b c : Nat} : div a b = .ok c ↔ b ≠ 0 ∧ c = a / b := by
  unfold div
  split
  · rename_i h
    simp [h]
  · rename_i h
    simp [h, eq_comm]

@[simp] theorem toUint_eq_ok {bits n c : Nat} : toUint bits n = .ok c ↔ n < 2 ^ bits ∧ c = n := by
  unfold toUint
  split
  · rename_i h
    simp [h, eq_comm]
  · rename_i h
    simp [h]

end Gemba.Evm
