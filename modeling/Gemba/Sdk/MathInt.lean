/-
  `cosmossdk.io/math.Int` — an arbitrary integer behind a pointer, limited to 256 bits.

  A `math.Int` that was never set is a nil pointer: `isNil` is the only question it answers, every
  comparison on it panics, and it marshals like zero (the one place where nil and 0 can no longer
  be told apart).  A set `math.Int` holds at most 256 bits; the constructor carries that bound, so
  the only way to build a sum is `add`, which panics when the sum does not fit.

  A Go call ends in a value, in an error or in a panic; `Outcome` is that.
-/
import Gemba.Lib.Outcome
import Gemba.Lib.Bytes

namespace Gemba.Sdk

open Gemba.Lib

/-- How a Go call fails: with an error it returns, or by panicking. -/
inductive Fault where
  | error (msg : String)
  | panic (msg : String)
deriving DecidableEq, Repr

/-- The outcome of a Go call. -/
abbrev Outcome := Except Fault

/-- The panic of a nil pointer dereference. -/
def nilDeref : Fault :=
  .panic "runtime error: invalid memory address or nil pointer dereference"

/-- `if err != nil { panic(err) }`. -/
def panicOnError {α : Type} : Outcome α → Outcome α
  | .ok a => .ok a
  | .error (.error msg) => .error (.panic msg)
  | .error (.panic msg) => .error (.panic msg)

@[simp] theorem panicOnError_eq_ok {α : Type} {x : Outcome α} {a : α} :
    panicOnError x = .ok a ↔ x = .ok a := by
  cases x with
  | ok b => exact Iff.rfl
  | error e => cases e <;> simp [panicOnError]

/-- `fmt.Errorf("context: %w", err)` on a call that returned an error; a panic passes through. -/
def wrapError {α : Type} (context : String) : Outcome α → Outcome α
  | .ok a => .ok a
  | .error (.error msg) => .error (.error s!"{context}: {msg}")
  | .error (.panic msg) => .error (.panic msg)

@[simp] theorem wrapError_eq_ok {α : Type} {context : String} {x : Outcome α} {a : α} :
    wrapError context x = .ok a ↔ x = .ok a := by
  cases x with
  | ok b => exact Iff.rfl
  | error e => cases e <;> simp [wrapError]

/-- `math.Int`: nil, or an integer of at most 256 bits. -/
inductive MathInt where
  | nil
  | int (v : Int) (bitLen : v.natAbs < 2 ^ 256)
deriving DecidableEq

namespace MathInt

/-- The integer held, if any. -/
def val? : MathInt → Option Int
  | nil => none
  | int v _ => some v

/-- The integer held, 0 for nil. -/
def val (x : MathInt) : Int := x.val?.getD 0

@[simp] theorem val?_nil : val? nil = none := rfl
@[simp] theorem val?_int (v : Int) (h : v.natAbs < 2 ^ 256) : val? (int v h) = some v := rfl
@[simp] theorem val_nil : val nil = 0 := rfl
@[simp] theorem val_int (v : Int) (h : v.natAbs < 2 ^ 256) : val (int v h) = v := rfl

theorem val?_eq_some {x : MathInt} {v : Int} : x.val? = some v ↔ ∃ h, x = int v h := by
  cases x with
  | nil => simp
  | int w h =>
    constructor
    · intro hw
      injection hw with hw
      subst hw
      exact ⟨h, rfl⟩
    · rintro ⟨h', he⟩
      injection he with he
      subst he
      rfl

/-- A positive `math.Int` is not nil. -/
theorem val?_of_pos {x : MathInt} (h : 0 < x.val) : x.val? = some x.val := by
  cases x with
  | nil => exact absurd h (by decide)
  | int v hv => rfl

/-- What `%s` prints. -/
def toString : MathInt → String
  | nil => "<nil>"
  | int v _ => ToString.toString v

instance : ToString MathInt := ⟨MathInt.toString⟩

/-- `math.ZeroInt()`. -/
def zeroInt : MathInt := int 0 (by decide)

@[simp] theorem val?_zeroInt : zeroInt.val? = some 0 := rfl

/-! ## Questions -/

/-- `i.IsNil()`. -/
def isNil : MathInt → Bool
  | nil => true
  | int _ _ => false

@[simp] theorem isNil_nil : isNil nil = true := rfl
@[simp] theorem isNil_int (v : Int) (h : v.natAbs < 2 ^ 256) : isNil (int v h) = false := rfl

/-- `i.IsNegative()`. -/
def isNegative : MathInt → Outcome Bool
  | nil => .error nilDeref
  | int v _ => .ok (v < 0)

/-- `i.IsPositive()`. -/
def isPositive : MathInt → Outcome Bool
  | nil => .error nilDeref
  | int v _ => .ok (0 < v)

/-- `i.LT(j)`. -/
def lt : MathInt → MathInt → Outcome Bool
  | int v _, int w _ => .ok (v < w)
  | _, _ => .error nilDeref

/-- `i.GT(j)`. -/
def gt : MathInt → MathInt → Outcome Bool
  | int v _, int w _ => .ok (w < v)
  | _, _ => .error nilDeref

@[simp] theorem isNegative_int (v : Int) (h : v.natAbs < 2 ^ 256) :
    isNegative (int v h) = .ok (decide (v < 0)) := rfl
@[simp] theorem isPositive_int (v : Int) (h : v.natAbs < 2 ^ 256) :
    isPositive (int v h) = .ok (decide (0 < v)) := rfl
@[simp] theorem lt_int (v w : Int) (h : v.natAbs < 2 ^ 256) (h' : w.natAbs < 2 ^ 256) :
    lt (int v h) (int w h') = .ok (decide (v < w)) := rfl
@[simp] theorem gt_int (v w : Int) (h : v.natAbs < 2 ^ 256) (h' : w.natAbs < 2 ^ 256) :
    gt (int v h) (int w h') = .ok (decide (w < v)) := rfl

/-! ## Arithmetic -/

/-- The integer `v`, or the overflow panic when it takes more than 256 bits. -/
def checked (v : Int) : Outcome MathInt :=
  if h : v.natAbs < 2 ^ 256 then .ok (int v h) else .error (.panic "Int overflow")

/-- `i.Add(j)`. -/
def add : MathInt → MathInt → Outcome MathInt
  | int v _, int w _ => checked (v + w)
  | _, _ => .error nilDeref

/-- `i.Sub(j)`. -/
def sub : MathInt → MathInt → Outcome MathInt
  | int v _, int w _ => checked (v - w)
  | _, _ => .error nilDeref

theorem checked_eq_ok {v : Int} {x : MathInt} : checked v = .ok x ↔ x.val? = some v := by
  unfold checked
  split
  · rename_i h
    rw [val?_eq_some]
    constructor
    · intro he
      injection he with he
      exact ⟨h, he.symm⟩
    · rintro ⟨_, rfl⟩
      rfl
  · rename_i h
    rw [val?_eq_some]
    constructor
    · intro he
      nomatch he
    · rintro ⟨h', -⟩
      exact absurd h' h

/-- **A sum that did not panic is the sum of two integers.** -/
theorem add_eq_ok {x y z : MathInt} :
    add x y = .ok z ↔ ∃ v w, x.val? = some v ∧ y.val? = some w ∧ z.val? = some (v + w) := by
  cases x with
  | nil => simp [add]
  | int v hv =>
    cases y with
    | nil => simp [add]
    | int w hw =>
      show checked (v + w) = .ok z ↔ _
      rw [checked_eq_ok]
      simp

theorem checked_of_fits {v : Int} (h : v.natAbs < 2 ^ 256) : checked v = .ok (int v h) := dif_pos h

/-! ## Encoding -/

/-- `i.Marshal()`: the ASCII decimal digits; a nil pointer is marshalled as 0. -/
def marshal : MathInt → Bytes
  | nil => decimal 0
  | int v _ => decimal v

/-- `i.Unmarshal(data)` over the texts `marshal` writes: empty data leaves the receiver as it was,
    anything else has to spell an integer of at most 256 bits. -/
def unmarshal (cur : MathInt) (data : Bytes) : Outcome MathInt :=
  if data = [] then .ok cur
  else match parseDecimal data with
    | none => .error (.error "math/big: cannot unmarshal into a *big.Int")
    | some v =>
      if h : v.natAbs < 2 ^ 256 then .ok (int v h)
      else .error (.error "integer out of range; max: 256")

theorem decimal_ne_nil (v : Int) : decimal v ≠ [] := by
  intro h
  have := parseDecimal_decimal v
  rw [h] at this
  nomatch this

/-- The text of a `math.Int` reads back as the integer it holds, nil as 0. -/
theorem unmarshal_marshal (cur x : MathInt) :
    unmarshal cur x.marshal = .ok (if x.isNil then zeroInt else x) := by
  have hread : ∀ (v : Int) (h : v.natAbs < 2 ^ 256), unmarshal cur (decimal v) = .ok (int v h) := by
    intro v h
    rw [unmarshal, if_neg (decimal_ne_nil v), parseDecimal_decimal]
    exact dif_pos h
  cases x with
  | nil => exact hread 0 _
  | int v h => exact hread v h

/-- A `math.Int` takes at most 79 bytes: 78 digits and a sign. -/
theorem length_marshal_lt (x : MathInt) : x.marshal.length < 128 := by
  have hbound : ∀ v : Int, v.natAbs < 2 ^ 256 → (decimal v).length < 128 := by
    intro v h
    have hlt : v.natAbs < 10 ^ 78 := Nat.lt_trans h (by decide)
    have := length_decimal_le (by omega) hlt
    omega
  cases x with
  | nil => exact hbound 0 (by decide)
  | int v h => exact hbound v h

end MathInt
end Gemba.Sdk
