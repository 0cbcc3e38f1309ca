/-
  Calldata: a four-byte function selector followed by 32-byte words.

  A governance proposal carries its calls as raw bytes, so what it does is only known through the
  decoder of the contract it reaches.  The readers below are Solidity's own (the ABI decoder, which
  rejects an address, a `bool` or a small integer with dirty high bits); a contract's decoder is a
  table of entries over them.

  `dispatch_sel` is how a decoder is used: a function decoded from calldata has the selector the
  calldata starts with, so a condition on selectors is a condition on the functions that can be
  reached.
-/
import Gemba.Lib.Bytes
import Gemba.Evm.Basic

namespace Gemba.Evm

open Gemba.Lib

/-- A revert without data: no such function, a bad argument, native GMB sent to a function that takes
    none. -/
def noData : Revert := .custom "" []

/-- `block.number` and `block.timestamp`. -/
structure Block where
  number : Nat
  timestamp : Nat
deriving DecidableEq, Repr

/-- The first four bytes, zero when there are fewer. -/
def selector (data : Bytes) : Nat := if data.length < 4 then 0 else ofBE (data.take 4)

/-! ## Arguments -/

/-- The `i`-th argument word. -/
def word (i : Nat) (data : Bytes) : Option Nat :=
  let w := (data.drop (4 + 32 * i)).take 32
  if w.length = 32 then some (ofBE w) else none

/-- An unsigned integer of `bits` bits. -/
def uintArg (bits i : Nat) (data : Bytes) : Option Nat := do
  let w ← word i data
  if w < 2 ^ bits then some w else none

/-- An address. -/
def addressArg (i : Nat) (data : Bytes) : Option Address := (uintArg 160 i data).map (BitVec.ofNat 160)

/-- A `bool`. -/
def boolArg (i : Nat) (data : Bytes) : Option Bool := (uintArg 1 i data).map (· = 1)

/-- A `bytes` argument: its word is the offset of its length, counted from the first argument. -/
def bytesArg (i : Nat) (data : Bytes) : Option Bytes := do
  let offset ← uintArg 64 i data
  let tail := data.drop (4 + offset)
  let body := (tail.drop 32).take (ofBE (tail.take 32))
  if tail.length < 32 ∨ body.length ≠ ofBE (tail.take 32) then none else some body

/-- The calldata of a call whose arguments are all one word. -/
def encodeCall (sel : Nat) (args : List Nat) : Bytes := toBE 4 sel ++ args.flatMap (toBE 32)

/-! ## Dispatch -/

/-- An entry of a contract's dispatch table: a selector, the reader of the arguments, and that every
    function it reads has that selector. -/
structure Entry {Fn : Type} (sel : Fn → Nat) where
  selector : Nat
  read : Bytes → Option Fn
  reads : ∀ data f, read data = some f → sel f = selector

namespace Entry

variable {Fn α β γ : Type} {sel : Fn → Nat}

/-- A function without arguments. -/
def args0 (s : Nat) (f : Fn) (h : sel f = s) : Entry sel where
  selector := s
  read := fun _ => some f
  reads := by
    intro data g hg
    injection hg with hg
    rw [← hg, h]

/-- A function of one argument. -/
def args1 (s : Nat) (a : Bytes → Option α) (f : α → Fn) (h : ∀ x, sel (f x) = s) : Entry sel where
  selector := s
  read := fun data => do
    let x ← a data
    some (f x)
  reads := by
    intro data g hg
    obtain ⟨x, -, hg⟩ := Option.bind_eq_some_iff.mp hg
    injection hg with hg
    rw [← hg, h]

/-- A function of two arguments. -/
def args2 (s : Nat) (a : Bytes → Option α) (b : Bytes → Option β) (f : α → β → Fn)
    (h : ∀ x y, sel (f x y) = s) : Entry sel where
  selector := s
  read := fun data => do
    let x ← a data
    let y ← b data
    some (f x y)
  reads := by
    intro data g hg
    obtain ⟨x, -, hg⟩ := Option.bind_eq_some_iff.mp hg
    obtain ⟨y, -, hg⟩ := Option.bind_eq_some_iff.mp hg
    injection hg with hg
    rw [← hg, h]

/-- A function of three arguments. -/
def args3 (s : Nat) (a : Bytes → Option α) (b : Bytes → Option β) (c : Bytes → Option γ)
    (f : α → β → γ → Fn) (h : ∀ x y z, sel (f x y z) = s) : Entry sel where
  selector := s
  read := fun data => do
    let x ← a data
    let y ← b data
    let z ← c data
    some (f x y z)
  reads := by
    intro data g hg
    obtain ⟨x, -, hg⟩ := Option.bind_eq_some_iff.mp hg
    obtain ⟨y, -, hg⟩ := Option.bind_eq_some_iff.mp hg
    obtain ⟨z, -, hg⟩ := Option.bind_eq_some_iff.mp hg
    injection hg with hg
    rw [← hg, h]

end Entry

/-- The function calldata calls: the entry with its selector reads the arguments. -/
def dispatch {Fn : Type} {sel : Fn → Nat} : List (Entry sel) → Bytes → Option Fn
  | [], _ => none
  | e :: table, data => if selector data = e.selector then e.read data else dispatch table data

/-- **A function reached through a table has the selector the calldata starts with.** -/
theorem dispatch_sel {Fn : Type} {sel : Fn → Nat} {table : List (Entry sel)} {data : Bytes} {f : Fn}
    (h : dispatch table data = some f) : sel f = selector data := by
  induction table with
  | nil => nomatch h
  | cons e table ih =>
    change (if selector data = e.selector then e.read data else dispatch table data) = some f at h
    by_cases hs : selector data = e.selector
    · rw [if_pos hs] at h
      rw [hs]
      exact e.reads data f h
    · rw [if_neg hs] at h
      exact ih h

end Gemba.Evm
