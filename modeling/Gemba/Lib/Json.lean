/-
  JSON documents and how Go's `encoding/json` reads them into structs.

  A document is a tree; a number keeps its literal, since whether it fits is the field's question.
  Reading is into a variable that holds something already: `null` and an absent key leave it alone, a
  key named twice is read twice, one struct after the other, and a key matches a field whatever the
  case of its letters.  A `Field` is one field of a struct with its reader, `decodeStruct` reads an
  object member by member.

  * `decodeMembers_get` — what a field holds in the end is what its reader makes, one after the other,
    of the values given under its name, and nothing else in the document matters to it.
-/
import Mathlib.Data.List.Nodup
import Mathlib.Data.Nat.Notation

namespace Gemba.Lib

/-- A JSON document. -/
inductive Json where
  | null
  | bool (b : Bool)
  | num (literal : String)
  | str (s : String)
  | arr (items : List Json)
  | obj (members : List (String × Json))

namespace Json

/-- The members of an object. -/
def members : Json → List (String × Json)
  | .obj ms => ms
  | _ => []

/-! ## Names -/

/-- The letter two characters of one case-folding class share.  Of the letters of ASCII only `s` and `k`
    have a third one in theirs, the long s and the Kelvin sign. -/
def foldChar (c : Char) : Char :=
  if c = Char.ofNat 0x17F then 's' else if c = Char.ofNat 0x212A then 'k' else c.toLower

/-- `foldName`. -/
def foldName (key : String) : List Char := key.toList.map foldChar

/-- The values given under a name, in order. -/
def given (name : String) (ms : List (String × Json)) : List Json :=
  (ms.filter fun m => foldName m.1 == foldName name).map Prod.snd

/-! ## Readers -/

/-- A reader: from what the variable holds and the document to what it holds then; `none` is an
    error. -/
abbrev Decoder (α : Type) := α → Json → Option α

/-- Into a `bool`. -/
def decodeBool : Decoder Bool
  | _, .bool b => some b
  | cur, .null => some cur
  | _, _ => none

/-- Into a `string`. -/
def decodeString : Decoder String
  | _, .str s => some s
  | cur, .null => some cur
  | _, _ => none

/-- `strconv.ParseUint(literal, 10, 64)`. -/
def parseUint64 (literal : String) : Option UInt64 :=
  let cs := literal.toList
  let n := Nat.ofDigitChars 10 cs 0
  if cs ≠ [] ∧ cs.all Char.isDigit = true ∧ n < UInt64.size then some (UInt64.ofNat n) else none

/-- Into a `uint64`. -/
def decodeUint64 : Decoder UInt64
  | _, .num literal => parseUint64 literal
  | cur, .null => some cur
  | _, _ => none

/-- A `uint64` as it is written. -/
def ofUint64 (n : UInt64) : Json := .num (toString n.toNat)

/-- A field of a struct. -/
structure Field (σ : Type) where
  name : String
  decode : Decoder σ

/-- The field `get`, read by `d`. -/
def Field.of {σ α : Type} (name : String) (get : σ → α) (set : σ → α → σ) (d : Decoder α) : Field σ :=
  ⟨name, fun s j => (d (get s) j).map (set s)⟩

/-- One member of an object; a key that names no field is skipped. -/
def decodeMember {σ : Type} (fields : List (Field σ)) (s : σ) (m : String × Json) : Option σ :=
  match fields.find? fun f => foldName m.1 == foldName f.name with
  | some f => f.decode s m.2
  | none => some s

/-- Into a struct. -/
def decodeStruct {σ : Type} (fields : List (Field σ)) : Decoder σ
  | s, .obj ms => ms.foldlM (decodeMember fields) s
  | s, .null => some s
  | _, _ => none

section
variable {σ α : Type} {fields : List (Field σ)} {f : Field σ} {s t : σ} {m : String × Json}
  {ms : List (String × Json)} {name : String} {get : σ → α} {set : σ → α → σ} {d : Decoder α}

/-- No two fields answer to one name. -/
def DistinctNames (fields : List (Field σ)) : Prop := (fields.map fun f => foldName f.name).Nodup

instance : Decidable (DistinctNames fields) := inferInstanceAs (Decidable (List.Nodup _))

@[simp] theorem given_nil : given name [] = [] := rfl

theorem given_cons : given name (m :: ms)
    = if foldName m.1 = foldName name then m.2 :: given name ms else given name ms := by
  unfold given
  rw [List.filter_cons]
  by_cases hm : foldName m.1 = foldName name
  · rw [if_pos hm, if_pos (beq_iff_eq.mpr hm), List.map_cons]
  · rw [if_neg hm, if_neg (fun h => hm (beq_iff_eq.mp h))]

theorem find_named (h : (fields.find? fun f => foldName m.1 == foldName f.name) = some f) :
    foldName m.1 = foldName f.name := by
  have hnamed := List.find?_some h
  exact beq_iff_eq.mp hnamed

/-- A member is read by the field it names. -/
theorem decodeMember_of_mem (hnames : DistinctNames fields) (hf : f ∈ fields)
    (hm : foldName m.1 = foldName f.name) : decodeMember fields s m = f.decode s m.2 := by
  unfold decodeMember
  cases hfind : fields.find? fun f => foldName m.1 == foldName f.name with
  | none => exact absurd (beq_iff_eq.mpr hm) (List.find?_eq_none.mp hfind f hf)
  | some g =>
    have hsame : g = f := List.inj_on_of_nodup_map hnames (List.mem_of_find?_eq_some hfind) hf
      ((find_named hfind).symm.trans hm)
    rw [hsame]

/-- A member is read by the `i`th field, if that is the one it names. -/
theorem decodeMember_at (hnames : DistinctNames fields) (i : Nat) (hi : fields[i]? = some f)
    (hm : foldName m.1 = foldName f.name) : decodeMember fields s m = f.decode s m.2 :=
  decodeMember_of_mem hnames (List.mem_of_getElem? hi) hm

/-- A member that the `i`th field can read sets it. -/
theorem decodeMembers_cons {key : String} {j : Json} {a : α} (hnames : DistinctNames fields) (i : Nat)
    (hi : fields[i]? = some (Field.of name get set d)) (hm : foldName key = foldName name)
    (hj : d (get s) j = some a) :
    ((key, j) :: ms).foldlM (decodeMember fields) s = ms.foldlM (decodeMember fields) (set s a) := by
  have hread : (Field.of name get set d).decode s j = some (set s a) := by
    show (d (get s) j).map (set s) = _
    rw [hj, Option.map_some]
  rw [List.foldlM_cons, decodeMember_at hnames i hi hm, hread]
  rfl

/-- Reading a field leaves another one alone. -/
theorem Field.of_keeps {β : Type} {other : σ → β} {j : Json}
    (h : (Field.of name get set d).decode s j = some t) (hset : ∀ s a, other (set s a) = other s) :
    other t = other s := by
  obtain ⟨a, -, rfl⟩ := Option.map_eq_some_iff.mp h
  exact hset s a

/-- **What a field holds** after an object is read: what its reader makes, one after the other, of the
    values given under its name. -/
theorem decodeMembers_get (hnames : DistinctNames fields) (hf : Field.of name get set d ∈ fields)
    (hget : ∀ s a, get (set s a) = a)
    (hother : ∀ g ∈ fields, foldName g.name ≠ foldName name →
      ∀ s j t, g.decode s j = some t → get t = get s)
    (h : ms.foldlM (decodeMember fields) s = some t) :
    (given name ms).foldlM d (get s) = some (get t) := by
  -- on the members: one that names the field sets it, any other leaves it
  induction ms generalizing s with
  | nil =>
    injection h with h
    rw [h]
    rfl
  | cons m ms ih =>
    rw [List.foldlM_cons] at h
    obtain ⟨u, hu, h⟩ := Option.bind_eq_some_iff.mp h
    have hrest := ih h
    rw [given_cons]
    by_cases hm : foldName m.1 = foldName name
    · rw [decodeMember_of_mem hnames hf hm] at hu
      obtain ⟨a, ha, rfl⟩ := Option.map_eq_some_iff.mp hu
      rw [hget] at hrest
      rw [if_pos hm, List.foldlM_cons, ha]
      exact hrest
    · have hkept : get u = get s := by
        unfold decodeMember at hu
        cases hfind : fields.find? fun f => foldName m.1 == foldName f.name with
        | none =>
          rw [hfind] at hu
          injection hu with hu
          rw [hu]
        | some g =>
          rw [hfind] at hu
          rw [find_named hfind] at hm
          exact hother g (List.mem_of_find?_eq_some hfind) hm s m.2 u hu
      rw [if_neg hm, ← hkept]
      exact hrest

/-- Structs read one after the other into one variable are read like one object. -/
theorem decodeStructs_eq {js : List Json} (h : js.foldlM (decodeStruct fields) s = some t) :
    (js.flatMap members).foldlM (decodeMember fields) s = some t := by
  induction js generalizing s with
  | nil => exact h
  | cons j js ih =>
    rw [List.foldlM_cons] at h
    obtain ⟨u, hu, h⟩ := Option.bind_eq_some_iff.mp h
    rw [List.flatMap_cons, List.foldlM_append]
    have hj : (members j).foldlM (decodeMember fields) s = some u := by
      cases j with
      | obj ms => exact hu
      | null => exact hu
      | bool b => nomatch hu
      | num literal => nomatch hu
      | str str => nomatch hu
      | arr items => nomatch hu
    rw [hj]
    exact ih h

/-- A `uint64` reads back as it was written. -/
theorem decodeUint64_ofUint64 (cur n : UInt64) : decodeUint64 cur (ofUint64 n) = some n := by
  show parseUint64 (toString n.toNat) = some n
  have hread : Nat.ofDigitChars 10 (Nat.toDigits 10 n.toNat) 0 = n.toNat :=
    Nat.ofDigitChars_ten_toDigits
  have hdigits : (Nat.toDigits 10 n.toNat).all Char.isDigit = true := by
    rw [List.all_eq_true]
    exact fun c hc => Nat.isDigit_of_mem_toDigits (by decide) (by decide) hc
  unfold parseUint64
  rw [Nat.toString_eq_repr, Nat.toList_repr]
  dsimp only
  rw [hread, if_pos ⟨Nat.toDigits_ne_nil, hdigits, n.toNat_lt_size⟩, UInt64.ofNat_toNat]

end

end Json

end Gemba.Lib
