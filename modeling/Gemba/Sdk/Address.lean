/-
  Validator addresses and the two ways their strings are read.

  * `sdk.ValAddressFromBech32` reads bech32 strings with the validator prefix, and nothing else;
  * the address codec the staking keeper is wired with (`evmaddress.NewEvmCodec`, see
    `gembad-wiring.patch`) reads those and, besides, any string go-ethereum calls a hex address.

  Both live outside the repository, so they are the fields of a structure, `AddressCodec`, together
  with what is documented about them.  The two languages differ by exactly the hex addresses:
  `AddressCodec.fails_of_hex` (a hex address is never bech32) and `AddressCodec.bech32_of_not_hex`
  (any other string the codec resolves is bech32, with the same bytes).
-/
import Gemba.Sdk.MathInt

namespace Gemba.Sdk

open Gemba.Lib

/-- `sdk.ValAddress`: raw bytes. -/
abbrev ValAddress := Bytes

/-! ## Hex addresses -/

/-- `has0xPrefix`. -/
def has0xPrefix : List Char → Bool
  | '0' :: 'x' :: _ => true
  | '0' :: 'X' :: _ => true
  | _ => false

/-- The value of a hexadecimal digit. -/
def hexDigit (c : Char) : Option Nat :=
  if '0' ≤ c ∧ c ≤ '9' then some (c.toNat - '0'.toNat)
  else if 'a' ≤ c ∧ c ≤ 'f' then some (c.toNat - 'a'.toNat + 10)
  else if 'A' ≤ c ∧ c ≤ 'F' then some (c.toNat - 'A'.toNat + 10)
  else none

/-- The digits of `s` without the prefix. -/
def hexBody (s : String) : List Char :=
  if has0xPrefix s.toList then s.toList.drop 2 else s.toList

/-- `common.IsHexAddress(s)`: twenty bytes in hexadecimal, with or without `0x`. -/
def isHexAddress (s : String) : Bool :=
  (hexBody s).length == 40 && (hexBody s).all fun c => (hexDigit c).isSome

/-- The bytes two by two digits spell. -/
def hexBytes : List Char → Bytes
  | hi :: lo :: rest =>
    UInt8.ofNat ((hexDigit hi).getD 0 * 16 + (hexDigit lo).getD 0) :: hexBytes rest
  | _ => []

/-- `common.HexToAddress(s).Bytes()`. -/
def hexToAddress (s : String) : ValAddress := hexBytes (hexBody s)

/-- The lower-case hexadecimal digit of a number below 16. -/
def hexChar (n : Nat) : Char := if n < 10 then Char.ofNat (48 + n) else Char.ofNat (87 + n)

/-- A byte string in lower-case hexadecimal. -/
def hexText (bs : Bytes) : List Char :=
  bs.flatMap fun b => [hexChar (b.toNat / 16), hexChar (b.toNat % 16)]

theorem hexDigit_hexChar : ∀ n < 16, hexDigit (hexChar n) = some n := by decide

/-- The text has a digit pair for each byte. -/
theorem hexText_eq_nil {bs : Bytes} : hexText bs = [] ↔ bs = [] := by
  cases bs with
  | nil => exact iff_of_true rfl rfl
  | cons b bs => simp [hexText]

/-- The digits of a byte string read back as the bytes. -/
theorem hexBytes_hexText (bs : Bytes) : hexBytes (hexText bs) = bs := by
  induction bs with
  | nil => rfl
  | cons b bs ih =>
    have hlt : b.toNat < 256 := b.toNat_lt
    have hsum : b.toNat / 16 * 16 + b.toNat % 16 = b.toNat := Nat.div_add_mod' _ _
    show hexBytes (hexChar (b.toNat / 16) :: hexChar (b.toNat % 16) :: hexText bs) = b :: bs
    rw [hexBytes, hexDigit_hexChar _ (by omega), hexDigit_hexChar _ (by omega), Option.getD_some,
      Option.getD_some, hsum, UInt8.ofNat_toNat, ih]

/-! ## The codecs -/

/-- How a validator's string is read: by the guard (`valAddressFromBech32`) and by the staking
    keeper (`stringToBytes`). -/
structure AddressCodec where
  /-- `sdk.ValAddressFromBech32(s)`. -/
  valAddressFromBech32 : String → Outcome ValAddress
  /-- `va.String()`. -/
  valAddressString : ValAddress → String
  /-- `StringToBytes(s)` of the codec the staking keeper is wired with. -/
  stringToBytes : String → Outcome ValAddress
  /-- A bech32 string starts with its prefix and the separator, in one case throughout. -/
  bech32_prefix : ∀ s va, valAddressFromBech32 s = .ok va →
    ∃ rest, s.toList = "cosmosvaloper1".toList ++ rest ∨
      s.toList = "COSMOSVALOPER1".toList ++ rest
  /-- The staking codec reads hex addresses. -/
  hex : ∀ s, isHexAddress s → stringToBytes s = .ok (hexToAddress s)
  /-- Of other strings it reads bech32 ones only. -/
  bech32_of_not_hex : ∀ s va, ¬ isHexAddress s → stringToBytes s = .ok va →
    valAddressFromBech32 s = .ok va

namespace AddressCodec

variable (B : AddressCodec)

/-- **A hex address is no bech32 string**: it starts with `0` or its second digit is not an `o`. -/
theorem fails_of_hex {s : String} (h : isHexAddress s) :
    ∃ e, B.valAddressFromBech32 s = .error e := by
  cases hs : B.valAddressFromBech32 s with
  | error e => exact ⟨e, rfl⟩
  | ok va =>
    exfalso
    obtain ⟨rest, hlist⟩ := B.bech32_prefix s va hs
    -- neither spelling has the 0x prefix, so all of `s` are its digits
    have hbody : hexBody s = s.toList := by
      rw [hexBody]
      rcases hlist with hlist | hlist
      · rw [hlist]
        rfl
      · rw [hlist]
        rfl
    have hall : ∀ c ∈ s.toList, (hexDigit c).isSome := by
      rw [isHexAddress, hbody, Bool.and_eq_true] at h
      exact List.all_eq_true.mp h.2
    rcases hlist with hlist | hlist
    · have ho : 'o' ∈ s.toList := by
        rw [hlist]
        exact List.mem_append_left _ (by decide)
      exact absurd (hall 'o' ho) (by decide)
    · have ho : 'O' ∈ s.toList := by
        rw [hlist]
        exact List.mem_append_left _ (by decide)
      exact absurd (hall 'O' ho) (by decide)

end AddressCodec
end Gemba.Sdk
