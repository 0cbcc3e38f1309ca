/-
  JavaScript values, as far as a request handler looks into them.

  A service parses a body with `JSON.parse` and reads fields, compares, concatenates and computes with
  whatever it finds.  `Value` is what it can find; the functions below are the operators it applies,
  each with the language's coercions: `String(v)`, `Number(v)`, `a || b`, `a ?? b` and `v.name`.  The
  ones that can throw a `TypeError` return an `Option`, `none` when they do.

  Numbers are doubles.  Nothing here depends on how they round, so their type and arithmetic, the
  number syntax, Unicode case mapping and the JSON grammar are the fields of `Runtime`.
-/
import Mathlib.Logic.Basic

namespace Gemba.Js

/-- A value as `JSON.parse` builds it, or `undefined`. -/
inductive Value (F : Type) where
  | undefined
  | null
  | bool (b : Bool)
  | num (x : F)
  | str (s : String)
  | arr (xs : List (Value F))
  | obj (fields : List (String × Value F))

/-- What the language brings: doubles, strings and JSON. -/
structure Runtime (F : Type) where
  nan : F
  zero : F
  one : F
  /-- The number a literal of the source stands for, in hundredths. -/
  hundredths : Nat → F
  sub : F → F → F
  mul : F → F → F
  div : F → F → F
  /-- `Math.abs`. -/
  abs : F → F
  /-- `Math.round`. -/
  round : F → F
  /-- `a > b`. -/
  gt : F → F → Bool
  /-- `a <= b`. -/
  le : F → F → Bool
  /-- `Number.isFinite`. -/
  isFinite : F → Bool
  /-- The number is neither zero nor `NaN`. -/
  truthy : F → Bool
  /-- `Number(s)` of a string. -/
  parseNumber : String → F
  /-- `String(x)` of a number. -/
  printNumber : F → String
  toUpperCase : String → String
  trim : String → String
  /-- `JSON.parse(raw.toString('utf8'))`, `none` when it throws. -/
  parseJson : List UInt8 → Option (Value F)

/-- The property names every plain object inherits. -/
def objectPrototype : List String :=
  ["constructor", "__defineGetter__", "__defineSetter__", "hasOwnProperty", "__lookupGetter__",
    "__lookupSetter__", "isPrototypeOf", "propertyIsEnumerable", "toString", "valueOf", "__proto__",
    "toLocaleString"]

namespace Value

variable {F : Type} (rt : Runtime F)

/-- `v.name`, for a name no built-in prototype has. -/
def get (name : String) : Value F → Option (Value F)
  | .undefined => none
  | .null => none
  | .obj fields => some ((fields.find? (fun f => f.1 = name)).elim .undefined Prod.snd)
  | _ => some .undefined

/-- Whether `v` counts as true. -/
def truthy : Value F → Bool
  | .undefined => false
  | .null => false
  | .bool b => b
  | .num x => rt.truthy x
  | .str s => s ≠ ""
  | .arr _ => true
  | .obj _ => true

/-- `a || b`. -/
def or (a b : Value F) : Value F := if truthy rt a then a else b

/-- `a ?? b`. -/
def coalesce (a b : Value F) : Value F :=
  match a with
  | .undefined => b
  | .null => b
  | _ => a

/-- `v === s`, for a string `s`. -/
def isStr (s : String) : Value F → Bool
  | .str t => t = s
  | _ => false

mutual
/-- `String(v)`.  An object with a `toString` of its own that is no function cannot be converted. -/
def text : Value F → Option String
  | .undefined => some "undefined"
  | .null => some "null"
  | .bool b => some (if b then "true" else "false")
  | .num x => some (rt.printNumber x)
  | .str s => some s
  | .arr xs => (elements xs).map (String.intercalate ",")
  | .obj fields =>
    if fields.any (fun f => f.1 = "toString") then none else some "[object Object]"

/-- The elements of an array as `join` prints them. -/
def elements : List (Value F) → Option (List String)
  | [] => some []
  | .undefined :: xs => (elements xs).map ("" :: ·)
  | .null :: xs => (elements xs).map ("" :: ·)
  | x :: xs => do
    let s ← text x
    let ss ← elements xs
    some (s :: ss)
end

/-- `Number(v)`. -/
def number : Value F → Option F
  | .undefined => some rt.nan
  | .null => some rt.zero
  | .bool b => some (if b then rt.one else rt.zero)
  | .num x => some x
  | .str s => some (rt.parseNumber s)
  | .arr xs => (text rt (.arr xs)).map rt.parseNumber
  | .obj fields => (text rt (.obj fields)).map rt.parseNumber

/-- What `JSON.parse(JSON.stringify(v))` makes of a number: only the finite ones have a notation. -/
def stored : Value F → Value F
  | .num x => if rt.isFinite x then .num x else .null
  | v => v

end Value
end Gemba.Js
