/-
  `math.Int` and `LegacyDec` in JSON.

  Both are written as strings: an integer with its decimal digits, a decimal with all 18 places; nil is
  written like zero.  They are read more liberally than they are written: an integer as Go reads an
  integer literal (a base before the digits, underscores between them), a decimal with up to 18 places
  or none.  `null` reads as the empty text, which is no number.

  * `unmarshalJSON_marshalJSON` — a number that is not nil reads back as it is.
-/
import Gemba.Lib.Json
import Gemba.Sdk.Address
import Gemba.Sdk.LegacyDec

namespace Gemba.Sdk

open Gemba.Lib

/-! ## `math/big` -/

/-- The number digits of a base spell, `n` being what was read before.  An underscore stands after a
    digit and before one; `digit` says whether the last character was one. -/
def scanDigits (base : Nat) : Bool → Nat → List Char → Option Nat
  | digit, n, [] => if digit then some n else none
  | digit, n, c :: cs =>
    if c = '_' then
      if digit then scanDigits base false n cs else none
    else match hexDigit c with
      | some d => if d < base then scanDigits base true (base * n + d) cs else none
      | none => none

/-- The digits after a base. -/
def scanAfterBase (base : Nat) (cs : List Char) : Option Nat :=
  if cs = [] then none else scanDigits base true 0 cs

/-- A number whose base its first characters tell. -/
def scanAnyBase : List Char → Option Nat
  | '0' :: c :: cs =>
    if c = 'b' ∨ c = 'B' then scanAfterBase 2 cs
    else if c = 'o' ∨ c = 'O' then scanAfterBase 8 cs
    else if c = 'x' ∨ c = 'X' then scanAfterBase 16 cs
    else scanDigits 8 true 0 (c :: cs)
  | cs => scanDigits 10 false 0 cs

/-- A number in base 10. -/
def scanDecimal (cs : List Char) : Option Nat :=
  if cs ≠ [] ∧ cs.all Char.isDigit = true then some (Nat.ofDigitChars 10 cs 0) else none

/-- A number after its sign, if it has one. -/
def scanSigned (scan : List Char → Option Nat) : List Char → Option Int
  | '-' :: cs => (scan cs).map fun n : Nat => -(n : Int)
  | '+' :: cs => (scan cs).map fun n : Nat => (n : Int)
  | cs => (scan cs).map fun n : Nat => (n : Int)

/-! ## The types -/

/-- `json.Unmarshal(bz, &text)`. -/
def unmarshalText (j : Json) : Option (List Char) := (Json.decodeString "" j).map String.toList

/-- `i.MarshalJSON()`. -/
def MathInt.marshalJSON : MathInt → Json
  | .nil => .str "0"
  | .int v _ => .str (ToString.toString v)

/-- `i.UnmarshalJSON(bz)`. -/
def MathInt.unmarshalJSON (j : Json) : Option MathInt := do
  let text ← unmarshalText j
  let v ← scanSigned scanAnyBase text
  if h : v.natAbs < 2 ^ 256 then some (.int v h) else none

/-- The decimal of so many 10⁻¹⁸ths, if it is in range. -/
def LegacyDec.ofRaw (raw : Int) : Option LegacyDec :=
  if h : raw.natAbs < maxDec then some (.dec raw h) else none

/-- `LegacyNewDecFromStr` on the digits before and after the point. -/
def LegacyDec.combine (neg : Bool) (whole places : List Char) : Option LegacyDec := do
  let combined ← scanSigned scanDecimal (whole ++ places ++ List.replicate (18 - places.length) '0')
  LegacyDec.ofRaw (if neg then -combined else combined)

/-- `LegacyNewDecFromStr(str)` without the sign in front. -/
def LegacyDec.ofUnsigned (neg : Bool) (str : List Char) : Option LegacyDec :=
  if str = [] then none
  else match str.splitOn '.' with
    | [whole] => combine neg whole []
    | [whole, places] =>
      if places = [] ∨ whole = [] then none
      else if 18 < places.length then none
      else combine neg whole places
    | _ => none

/-- `LegacyNewDecFromStr(str)`. -/
def legacyNewDecFromStr : List Char → Option LegacyDec
  | '-' :: str => LegacyDec.ofUnsigned true str
  | str => LegacyDec.ofUnsigned false str

/-- `d.MarshalJSON()`. -/
def LegacyDec.marshalJSON : LegacyDec → Json
  | .nil => .str "0"
  | .dec raw h => .str (ToString.toString (LegacyDec.dec raw h))

/-- `d.UnmarshalJSON(bz)`. -/
def LegacyDec.unmarshalJSON (j : Json) : Option LegacyDec := do
  let text ← unmarshalText j
  legacyNewDecFromStr text

/-! ## Digits -/

section
variable {c : Char} {cs : List Char} {n : Nat}

theorem hexDigit_of_isDigit (h : c.isDigit = true) :
    hexDigit c = some (c.toNat - '0'.toNat) ∧ c.toNat - '0'.toNat < 10 ∧ c ≠ '_' := by
  have hrange : '0' ≤ c ∧ c ≤ '9' := by
    unfold Char.isDigit at h
    rw [Bool.and_eq_true, decide_eq_true_eq, decide_eq_true_eq] at h
    exact h
  refine ⟨if_pos hrange, ?_, ?_⟩
  · have hle : c.toNat ≤ '9'.toNat := hrange.2
    have hnine : '9'.toNat = 57 := rfl
    have hzero : '0'.toNat = 48 := rfl
    omega
  · rintro rfl
    exact absurd h (by decide)

/-- Digits of base 10 are read like digits. -/
theorem scanDigits_ten {digit : Bool} (h : ∀ c ∈ cs, c.isDigit = true) (hne : digit = true ∨ cs ≠ []) :
    scanDigits 10 digit n cs = some (Nat.ofDigitChars 10 cs n) := by
  induction cs generalizing digit n with
  | nil =>
    rw [scanDigits, if_pos (hne.resolve_right (fun h => h rfl)), Nat.ofDigitChars_nil]
  | cons c cs ih =>
    obtain ⟨hdigit, hlt, hunderscore⟩ := hexDigit_of_isDigit (h c List.mem_cons_self)
    rw [scanDigits, if_neg hunderscore, hdigit, Nat.ofDigitChars_cons]
    dsimp only
    rw [if_pos hlt]
    exact ih (fun d hd => h d (List.mem_cons_of_mem c hd)) (.inl rfl)

theorem isDigit_toDigits : ∀ c ∈ Nat.toDigits 10 n, c.isDigit = true :=
  fun _ hc => Nat.isDigit_of_mem_toDigits (by decide) (by decide) hc

/-- The digits of a positive number do not begin with 0. -/
theorem head_toDigits_ne_zero (hn : 0 < n) : (Nat.toDigits 10 n).head? ≠ some '0' := by
  induction n using Nat.strongRecOn with
  | ind n ih =>
    by_cases hsmall : n < 10
    · rw [Nat.toDigits_of_lt_base hsmall, List.head?_cons]
      intro h
      injection h with h
      rw [Nat.digitChar_eq_zero] at h
      omega
    · rw [Nat.toDigits_of_base_le (by decide) (by omega),
        List.head?_append_of_ne_nil _ Nat.toDigits_ne_nil]
      exact ih (n / 10) (by omega) (by omega)

/-- Written digits are read in base 10. -/
theorem scanAnyBase_toDigits (n : Nat) : scanAnyBase (Nat.toDigits 10 n) = some n := by
  have hten : scanDigits 10 false 0 (Nat.toDigits 10 n) = some n := by
    rw [scanDigits_ten isDigit_toDigits (.inr Nat.toDigits_ne_nil), Nat.ofDigitChars_ten_toDigits]
  -- a leading 0 would be read as a base
  rcases Nat.eq_zero_or_pos n with rfl | hn
  · rfl
  · have hhead := head_toDigits_ne_zero hn
    unfold scanAnyBase
    split
    · rename_i heq
      rw [heq] at hhead
      exact absurd rfl hhead
    · exact hten

/-- A number without a sign. -/
theorem scanSigned_digit {scan : List Char → Option Nat} (h : c.isDigit = true) :
    scanSigned scan (c :: cs) = (scan (c :: cs)).map fun n : Nat => (n : Int) := by
  unfold scanSigned
  split
  · rename_i heq
    injection heq with hc
    rw [hc] at h
    exact absurd h (by decide)
  · rename_i heq
    injection heq with hc
    rw [hc] at h
    exact absurd h (by decide)
  · rfl

end

/-! ## Round trips -/

/-- The digits of a number have a first one. -/
theorem toDigits_eq_cons (n : Nat) : ∃ c cs, Nat.toDigits 10 n = c :: cs ∧ c.isDigit = true := by
  cases hdigits : Nat.toDigits 10 n with
  | nil => exact absurd hdigits Nat.toDigits_ne_nil
  | cons c cs =>
    refine ⟨c, cs, rfl, isDigit_toDigits (n := n) c ?_⟩
    rw [hdigits]
    exact List.mem_cons_self

/-- An integer is read as it is written. -/
theorem scanSigned_toString (v : Int) : scanSigned scanAnyBase (ToString.toString v).toList = some v := by
  rw [Int.toString_eq_repr, Int.repr_eq_if]
  by_cases hv : 0 ≤ v
  · obtain ⟨c, cs, hdigits, hc⟩ := toDigits_eq_cons v.toNat
    have hscan := scanAnyBase_toDigits v.toNat
    rw [if_pos hv, Nat.toList_repr]
    rw [hdigits] at hscan ⊢
    rw [scanSigned_digit hc, hscan, Option.map_some, Int.toNat_of_nonneg hv]
  · have hminus : "-".toList = ['-'] := rfl
    rw [if_neg hv, String.toList_append, Nat.toList_repr, hminus]
    show (scanAnyBase (Nat.toDigits 10 (-v).toNat)).map _ = some v
    rw [scanAnyBase_toDigits, Option.map_some, Int.toNat_of_nonneg (by omega), neg_neg]

/-- A `math.Int` reads back as it is. -/
theorem MathInt.unmarshalJSON_marshalJSON {x : MathInt} (h : x.isNil = false) :
    MathInt.unmarshalJSON x.marshalJSON = some x := by
  cases x with
  | nil => nomatch h
  | int v hv =>
    show ((scanSigned scanAnyBase (ToString.toString v).toList).bind fun v => _) = _
    rw [scanSigned_toString, Option.bind_some]
    exact dif_pos hv

/-- The 18 places of a decimal. -/
def places (n : Nat) : List Char :=
  List.replicate (18 - (Nat.toDigits 10 (n % 10 ^ 18)).length) '0' ++ Nat.toDigits 10 (n % 10 ^ 18)

theorem length_places (n : Nat) : (places n).length = 18 := by
  have hle : (Nat.toDigits 10 (n % 10 ^ 18)).length ≤ 18 :=
    (Nat.length_toDigits_le_iff (by decide) (by decide)).mpr (Nat.mod_lt n (by decide))
  unfold places
  rw [List.length_append, List.length_replicate]
  omega

theorem isDigit_places (n : Nat) : ∀ c ∈ places n, c.isDigit = true := by
  intro c hc
  rcases List.mem_append.mp hc with hc | hc
  · rw [List.eq_of_mem_replicate hc]
    decide
  · exact isDigit_toDigits c hc

/-- The digits before and after the point are those of the number of 10⁻¹⁸ths. -/
theorem scanDecimal_places (n : Nat) :
    scanDecimal (Nat.toDigits 10 (n / 10 ^ 18) ++ places n) = some n := by
  have hall : ∀ c ∈ Nat.toDigits 10 (n / 10 ^ 18) ++ places n, c.isDigit = true := by
    intro c hc
    rcases List.mem_append.mp hc with hc | hc
    · exact isDigit_toDigits c hc
    · exact isDigit_places n c hc
  have hplaces : Nat.ofDigitChars 10 (places n) 0 = n % 10 ^ 18 := by
    unfold places
    rw [Nat.ofDigitChars_append, Nat.ofDigitChars_replicate_zero, Nat.mul_zero,
      Nat.ofDigitChars_ten_toDigits]
  have hne : Nat.toDigits 10 (n / 10 ^ 18) ++ places n ≠ [] :=
    List.append_ne_nil_of_left_ne_nil Nat.toDigits_ne_nil _
  unfold scanDecimal
  rw [if_pos ⟨hne, List.all_eq_true.mpr hall⟩, Nat.ofDigitChars_append, Nat.ofDigitChars_ten_toDigits,
    Nat.ofDigitChars_eq_ofDigitChars_zero, length_places, hplaces, Nat.div_add_mod]

/-- What a decimal is written as. -/
theorem toList_toString (raw : Int) (h : raw.natAbs < maxDec) :
    (ToString.toString (LegacyDec.dec raw h)).toList = (if raw < 0 then ['-'] else [])
      ++ Nat.toDigits 10 (raw.natAbs / 10 ^ 18) ++ '.' :: places raw.natAbs := by
  show (LegacyDec.toString (.dec raw h)).toList = _
  unfold LegacyDec.toString places
  have hpoint : ".".toList = ['.'] := rfl
  have hlength : (raw.natAbs % 10 ^ 18).repr.length
      = (Nat.toDigits 10 (raw.natAbs % 10 ^ 18)).length := by
    rw [← Nat.toList_repr, String.length_toList]
  have hsign : (if raw < 0 then "-" else "").toList = if raw < 0 then ['-'] else [] := by
    split
    · rfl
    · rfl
  simp only [toString, String.toList_append]
  rw [hsign, hpoint, hlength, String.toList_ofList, Nat.toList_repr, Nat.toList_repr]
  simp only [List.append_assoc, List.cons_append, List.nil_append]

/-- The digits around a point. -/
theorem ofUnsigned_places (neg : Bool) (n : Nat) :
    LegacyDec.ofUnsigned neg (Nat.toDigits 10 (n / 10 ^ 18) ++ '.' :: places n)
      = LegacyDec.ofRaw (if neg then -(n : Int) else n) := by
  obtain ⟨c, cs, hdigits, hc⟩ := toDigits_eq_cons (n / 10 ^ 18)
  have hpoint : ∀ {cs : List Char}, (∀ c ∈ cs, c.isDigit = true) → '.' ∉ cs := by
    intro cs hall hmem
    exact absurd (hall '.' hmem) (by decide)
  have hscan := scanDecimal_places n
  have hlength := length_places n
  have hsome : places n ≠ [] := by
    intro h
    rw [h] at hlength
    nomatch hlength
  unfold LegacyDec.ofUnsigned
  rw [if_neg (List.append_ne_nil_of_left_ne_nil Nat.toDigits_ne_nil _),
    List.splitOn_append_cons_self_of_not_mem (hpoint isDigit_toDigits),
    List.splitOn_eq_singleton (hpoint (isDigit_places n))]
  dsimp only
  rw [if_neg (by rw [not_or]; exact ⟨hsome, Nat.toDigits_ne_nil⟩), if_neg (by omega)]
  unfold LegacyDec.combine
  rw [hlength, Nat.sub_self, List.replicate_zero, List.append_nil, hdigits, List.cons_append,
    scanSigned_digit hc, ← List.cons_append, ← hdigits, hscan]
  rfl

/-- A `LegacyDec` reads back as it is. -/
theorem LegacyDec.unmarshalJSON_marshalJSON {x : LegacyDec} (h : x.isNil = false) :
    LegacyDec.unmarshalJSON x.marshalJSON = some x := by
  cases x with
  | nil => nomatch h
  | dec raw hraw =>
    show legacyNewDecFromStr (ToString.toString (LegacyDec.dec raw hraw)).toList = _
    rw [toList_toString]
    have hback : LegacyDec.ofRaw raw = some (.dec raw hraw) := dif_pos hraw
    by_cases hneg : raw < 0
    · rw [if_pos hneg, List.append_assoc]
      show LegacyDec.ofUnsigned true (_ ++ _ :: _) = _
      rw [ofUnsigned_places, if_pos rfl, Int.ofNat_natAbs_of_nonpos hneg.le, neg_neg, hback]
    · obtain ⟨c, cs, hdigits, hc⟩ := toDigits_eq_cons (raw.natAbs / 10 ^ 18)
      have hunsigned := ofUnsigned_places false raw.natAbs
      rw [if_neg hneg, List.nil_append]
      rw [hdigits, List.cons_append] at hunsigned ⊢
      unfold legacyNewDecFromStr
      split
      · rename_i heq
        injection heq with hminus
        rw [hminus] at hc
        exact absurd hc (by decide)
      · rw [hunsigned, if_neg Bool.false_ne_true, Int.natAbs_of_nonneg (not_lt.mp hneg), hback]

/-- What is read is not nil. -/
theorem LegacyDec.unmarshalJSON_not_nil {j : Json} {x : LegacyDec}
    (h : LegacyDec.unmarshalJSON j = some x) : x.isNil = false := by
  have hraw : ∀ {raw : Int}, LegacyDec.ofRaw raw = some x → x.isNil = false := by
    intro raw h
    unfold LegacyDec.ofRaw at h
    split at h
    · injection h with h
      rw [← h]
      rfl
    · cases h
  have hcombine : ∀ {neg : Bool} {whole places : List Char},
      LegacyDec.combine neg whole places = some x → x.isNil = false := by
    intro neg whole places h
    obtain ⟨combined, -, h⟩ := Option.bind_eq_some_iff.mp h
    exact hraw h
  have hunsigned : ∀ {neg : Bool} {str : List Char},
      LegacyDec.ofUnsigned neg str = some x → x.isNil = false := by
    intro neg str h
    unfold LegacyDec.ofUnsigned at h
    split at h
    · cases h
    split at h
    · exact hcombine h
    · split at h
      · cases h
      split at h
      · cases h
      · exact hcombine h
    · cases h
  obtain ⟨text, -, h⟩ := Option.bind_eq_some_iff.mp h
  unfold legacyNewDecFromStr at h
  split at h
  · exact hunsigned h
  · exact hunsigned h

end Gemba.Sdk
