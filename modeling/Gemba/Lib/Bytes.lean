/-
  Byte strings: the encodings a key-value store is written in.

  Three encodings and, for each, the fact its readers rely on (decoding what was encoded gives the
  value back):

  * fixed-width big-endian numbers     — `toBE` / `ofBE`,       `ofBE_toBE`;
  * base-128 varints of 64-bit values  — `varint` / `getVarint`, `getVarint_of_lt` (one byte);
  * signed decimal text                — `decimal` / `parseDecimal`, `parseDecimal_decimal`.

  A byte string is a `List UInt8`; every decoder returns what it read together with the bytes it
  left, so decoders chain without indices.
-/
import Mathlib.Data.Nat.Digits.Lemmas
import Mathlib.Tactic.Ring

namespace Gemba.Lib

/-- Byte strings. -/
abbrev Bytes := List UInt8

/-! ## Big-endian numbers of a fixed width -/

/-- The `k` low bytes of `n`, most significant first. -/
def toBE : Nat → Nat → Bytes
  | 0, _ => []
  | k + 1, n => toBE k (n / 256) ++ [UInt8.ofNat n]

/-- The number a byte string spells, most significant byte first. -/
def ofBE (bs : Bytes) : Nat := bs.foldl (fun acc b => acc * 256 + b.toNat) 0

@[simp] theorem length_toBE (k n : Nat) : (toBE k n).length = k := by
  induction k generalizing n with
  | zero => rfl
  | succ k ih => simp [toBE, ih]

/-- Reading back a `k`-byte number keeps its low `8 * k` bits. -/
theorem ofBE_toBE (k n : Nat) : ofBE (toBE k n) = n % 256 ^ k := by
  induction k generalizing n with
  | zero => simp [toBE, ofBE, Nat.mod_one]
  | succ k ih =>
    have hlast : (UInt8.ofNat n).toNat = n % 256 := UInt8.toNat_ofNat'
    have hfold : ofBE (toBE (k + 1) n) = ofBE (toBE k (n / 256)) * 256 + n % 256 := by
      simp [ofBE, toBE, List.foldl_append, hlast]
    rw [hfold, ih, Nat.pow_succ, Nat.mul_comm (256 ^ k) 256, Nat.mod_mul]
    ring

theorem ofBE_toBE_of_lt {k n : Nat} (h : n < 256 ^ k) : ofBE (toBE k n) = n := by
  rw [ofBE_toBE, Nat.mod_eq_of_lt h]

/-! ## Varints -/

/-- The base-128 encoding of `n`: seven bits a byte, lowest first, the high bit set on every byte
    but the last.  `fuel` bounds the number of bytes (ten are enough for 64 bits). -/
def varintAux : Nat → Nat → Bytes
  | 0, n => [UInt8.ofNat (n % 128)]
  | fuel + 1, n =>
    if n < 128 then [UInt8.ofNat n]
    else UInt8.ofNat (n % 128 + 128) :: varintAux fuel (n / 128)

/-- The varint encoding of a 64-bit value. -/
def varint (n : Nat) : Bytes := varintAux 9 n

/-- Why a varint could not be read. -/
inductive VarintError where
  /-- An eleventh byte would be needed. -/
  | overflow
  /-- The bytes end inside the number. -/
  | unexpectedEOF
deriving DecidableEq, Repr

/-- The varint at the start of `bs` and the bytes after it.  `shift` is the position of the next
    seven bits and `acc` the bits read so far, kept modulo `2 ^ 64`. -/
def getVarint : Nat → Nat → Bytes → Except VarintError (Nat × Bytes)
  | shift, acc, bs =>
    match bs with
    | [] => if 64 ≤ shift then .error .overflow else .error .unexpectedEOF
    | b :: rest =>
      if 64 ≤ shift then .error .overflow
      else if b.toNat < 128 then .ok ((acc + b.toNat * 2 ^ shift) % 2 ^ 64, rest)
      else getVarint (shift + 7) ((acc + (b.toNat - 128) * 2 ^ shift) % 2 ^ 64) rest

/-- One byte is enough below 128. -/
theorem varint_of_lt {n : Nat} (h : n < 128) : varint n = [UInt8.ofNat n] := by
  show (if n < 128 then [UInt8.ofNat n] else _) = _
  rw [if_pos h]

/-- A one-byte varint is read back, whatever follows it. -/
theorem getVarint_of_lt {n : Nat} (h : n < 128) (rest : Bytes) :
    getVarint 0 0 (UInt8.ofNat n :: rest) = .ok (n, rest) := by
  have hb : (UInt8.ofNat n).toNat = n := by
    rw [UInt8.toNat_ofNat', Nat.mod_eq_of_lt (by omega)]
  rw [getVarint, if_neg (by omega), hb, if_pos h]
  simp only [Nat.zero_add, Nat.pow_zero, Nat.mul_one]
  rw [Nat.mod_eq_of_lt (by omega)]

/-! ## Decimal text -/

/-- The ASCII decimal digits of `n`, without leading zeros. -/
def decimalNat (n : Nat) : Bytes :=
  if n = 0 then [48] else (Nat.digits 10 n).reverse.map fun d => UInt8.ofNat (48 + d)

/-- The ASCII text of an integer: a minus sign for the negative ones, then the digits. -/
def decimal (v : Int) : Bytes :=
  if v < 0 then 45 :: decimalNat v.natAbs else decimalNat v.natAbs

/-- Read one more digit. -/
def pushDigit (acc : Option Nat) (b : UInt8) : Option Nat :=
  match acc with
  | none => none
  | some n => if 48 ≤ b.toNat ∧ b.toNat ≤ 57 then some (n * 10 + (b.toNat - 48)) else none

/-- The number a non-empty string of digits spells. -/
def parseDecimalNat (bs : Bytes) : Option Nat :=
  if bs = [] then none else bs.foldl pushDigit (some 0)

/-- The integer a decimal text spells. -/
def parseDecimal : Bytes → Option Int
  | 45 :: rest => (parseDecimalNat rest).map fun (n : Nat) => -(n : Int)
  | bs => (parseDecimalNat bs).map fun (n : Nat) => (n : Int)

/-- Reading digits most significant first is `Nat.ofDigits` of the reversed list. -/
theorem foldl_pushDigit (ds : List Nat) (hds : ∀ d ∈ ds, d < 10) :
    (ds.reverse.map fun d => UInt8.ofNat (48 + d)).foldl pushDigit (some 0)
      = some (Nat.ofDigits 10 ds) := by
  induction ds with
  | nil => rfl
  | cons d ds ih =>
    have hd : d < 10 := hds d List.mem_cons_self
    have hb : (UInt8.ofNat (48 + d)).toNat = 48 + d := by
      rw [UInt8.toNat_ofNat', Nat.mod_eq_of_lt (by omega)]
    rw [List.reverse_cons, List.map_append, List.foldl_append,
      ih (fun e he => hds e (List.mem_cons_of_mem d he)), Nat.ofDigits_cons]
    show pushDigit (some _) (UInt8.ofNat (48 + d)) = _
    rw [pushDigit, hb, if_pos (by omega)]
    congr 1
    show _ * 10 + _ = d + 10 * _
    omega

theorem parseDecimalNat_decimalNat (n : Nat) : parseDecimalNat (decimalNat n) = some n := by
  unfold decimalNat
  split
  · rename_i h
    rw [h]
    rfl
  · rename_i h
    have hne : Nat.digits 10 n ≠ [] := Nat.digits_ne_nil_iff_ne_zero.mpr h
    rw [parseDecimalNat, if_neg (by simpa using hne),
      foldl_pushDigit _ (fun d hd => Nat.digits_lt_base (by omega) hd), Nat.ofDigits_digits]

/-- The first byte of a natural number's text is a digit, never the minus sign. -/
theorem decimalNat_ne_minus (n : Nat) (rest : Bytes) : decimalNat n ≠ 45 :: rest := by
  intro h
  have hp := parseDecimalNat_decimalNat n
  rw [h, parseDecimalNat, if_neg (by simp), List.foldl_cons] at hp
  have hnone : ∀ bs : Bytes, bs.foldl pushDigit none = none := by
    intro bs
    induction bs with
    | nil => rfl
    | cons b bs ih => exact ih
  have h45 : pushDigit (some 0) 45 = none := rfl
  rw [h45, hnone] at hp
  nomatch hp

/-- The text of a natural number is made of digits. -/
theorem digit_of_mem_decimalNat {n : Nat} {b : UInt8} (h : b ∈ decimalNat n) :
    48 ≤ b.toNat ∧ b.toNat ≤ 57 := by
  unfold decimalNat at h
  split at h
  · rw [List.mem_singleton.mp h]
    decide
  · obtain ⟨d, hd, rfl⟩ := List.mem_map.mp h
    have hlt : d < 10 := Nat.digits_lt_base (by omega) (List.mem_reverse.mp hd)
    rw [UInt8.toNat_ofNat', Nat.mod_eq_of_lt (by omega)]
    omega

/-- **Decimal text round trip.** -/
theorem parseDecimal_decimal (v : Int) : parseDecimal (decimal v) = some v := by
  unfold decimal
  split
  · rename_i h
    rw [parseDecimal, parseDecimalNat_decimalNat, Option.map_some]
    congr 1
    omega
  · rename_i h
    have hstart : parseDecimal (decimalNat v.natAbs)
        = (parseDecimalNat (decimalNat v.natAbs)).map fun (n : Nat) => (n : Int) := by
      generalize hd : decimalNat v.natAbs = bs
      match bs, hd with
      | [], _ => rfl
      | b :: rest, hd =>
        by_cases hb : b = 45
        · subst hb
          exact absurd hd (decimalNat_ne_minus _ _)
        · rw [parseDecimal]
          intro rest' hcons
          injection hcons with hbb
          exact hb hbb
    rw [hstart, parseDecimalNat_decimalNat, Option.map_some]
    congr 1
    omega

/-- The text of an integer below `10 ^ k` in size takes at most `k + 1` bytes. -/
theorem length_decimal_le {v : Int} {k : Nat} (hk : 0 < k) (h : v.natAbs < 10 ^ k) :
    (decimal v).length ≤ k + 1 := by
  have hnat : (decimalNat v.natAbs).length ≤ k := by
    unfold decimalNat
    split
    · exact hk
    · rw [List.length_map, List.length_reverse]
      exact (Nat.digits_length_le_iff (by omega) _).mpr h
  unfold decimal
  split
  · simpa using hnat
  · omega

end Gemba.Lib
