/-
  `x/valgate/types` — the validator-gate parameters and their wire format.

  * `Params`, `defaultParams`, `Params.validate`  — `params.go`;
  * `Params.marshal`, `Params.unmarshal`          — the generated `params.pb.go`.

  A nil cap and a zero cap are both "no cap" to `validate`, but they are not the same value: nil is
  what a JSON document that leaves the field out decodes to.  On the wire the difference is lost,
  because every field is written and nil is written as 0.  `unmarshal_marshal` says exactly that:
  what is read back is `wireImage p`, which is `p` with 0 for nil.  (A field is nil after reading
  only if the bytes do not contain it, as in entries written before the field existed:
  `unmarshal_minSelfBond_only`.)
-/
import Gemba.Sdk.MathInt

namespace Gemba.Valgate

open Gemba.Lib Gemba.Sdk

/-- The validator-gate parameters. -/
structure Params where
  /-- Minimum self-delegation of a new validator. -/
  minSelfBond : MathInt
  /-- Maximum self-delegation of a new validator; 0/nil = no cap. -/
  maxSelfBond : MathInt
  /-- Maximum stake added to an existing validator in a day; 0/nil = no cap. -/
  maxDailyBondIncrease : MathInt
deriving DecidableEq

/-- `oneGmb`: 10^18 agmb. -/
def oneGmb : Int := 1000000000000000000

def defaultMinSelfBondGmb : Int := 1000
def defaultMaxSelfBondGmb : Int := 10000
def defaultMaxDailyBondIncreaseGmb : Int := 50

/-- `DefaultParams()`. -/
def defaultParams : Params where
  minSelfBond := .int (defaultMinSelfBondGmb * oneGmb) (by decide)
  maxSelfBond := .int (defaultMaxSelfBondGmb * oneGmb) (by decide)
  maxDailyBondIncrease := .int (defaultMaxDailyBondIncreaseGmb * oneGmb) (by decide)

/-! ## `Params.Validate` -/

/-- `p.Validate()`. -/
def Params.validate (p : Params) : Outcome Unit := do
  let badMin ← orElse p.minSelfBond.isNil p.minSelfBond.isNegative
  failIf badMin (.error s!"min_self_bond must be non-negative, got {p.minSelfBond}")
  -- max_self_bond: nil/0 = no cap.  If set, it must be non-negative and >= the minimum.
  if !p.maxSelfBond.isNil then
    let negMax ← p.maxSelfBond.isNegative
    failIf negMax (.error s!"max_self_bond must be non-negative, got {p.maxSelfBond}")
    let belowMin ← andThen (← p.maxSelfBond.isPositive) (p.maxSelfBond.lt p.minSelfBond)
    failIf belowMin
      (.error s!"max_self_bond {p.maxSelfBond} must be >= min_self_bond {p.minSelfBond}")
  -- max_daily_bond_increase: nil/0 = no cap; if set, must be non-negative.
  let negDaily ← andThen (!p.maxDailyBondIncrease.isNil) p.maxDailyBondIncrease.isNegative
  failIf negDaily
    (.error s!"max_daily_bond_increase must be non-negative, got {p.maxDailyBondIncrease}")

/-- **What `validate` accepts.**  The floor is set and non-negative; a cap that is set is
    non-negative, and a positive maximum is at least the floor. -/
structure Params.Valid (p : Params) : Prop where
  minSelfBond : ∃ m, p.minSelfBond.val? = some m ∧ 0 ≤ m
  maxSelfBond : ∀ x, p.maxSelfBond.val? = some x → 0 ≤ x ∧ (0 < x → p.minSelfBond.val ≤ x)
  maxDailyBondIncrease : ∀ d, p.maxDailyBondIncrease.val? = some d → 0 ≤ d

theorem Params.validate_eq_ok {p : Params} : p.validate = .ok () ↔ p.Valid := by
  obtain ⟨mn, mx, md⟩ := p
  cases mn with
  | nil =>
    -- a nil floor is refused before anything else is looked at
    constructor
    · intro h
      simp [Params.validate] at h
    · rintro ⟨⟨m, hm, -⟩, -, -⟩
      nomatch hm
  | int m hm =>
    have hmin : (∃ v, (MathInt.int m hm).val? = some v ∧ 0 ≤ v) ↔ 0 ≤ m := by
      constructor
      · rintro ⟨v, hv, h0⟩
        injection hv with hv
        omega
      · intro h0
        exact ⟨m, rfl, h0⟩
    have hvalid : Params.Valid ⟨.int m hm, mx, md⟩ ↔ 0 ≤ m ∧
        (∀ x, mx.val? = some x → 0 ≤ x ∧ (0 < x → m ≤ x)) ∧
        (∀ d, md.val? = some d → 0 ≤ d) := by
      constructor
      · rintro ⟨h1, h2, h3⟩
        exact ⟨hmin.mp h1, h2, h3⟩
      · rintro ⟨h1, h2, h3⟩
        exact ⟨hmin.mpr h1, h2, h3⟩
    rw [hvalid]
    cases mx <;> cases md <;> simp [Params.validate]
    omega

/-- The launch parameters pass their own check. -/
theorem defaultParams_valid : defaultParams.validate = .ok () := by decide

/-! ## The wire format

  `params.pb.go` is generated: a message is a sequence of fields, each a tag (the field number and
  a wire type), a length and that many bytes.  `MarshalToSizedBuffer` fills its buffer from the
  end, which puts the three fields in ascending order. -/

/-- One length-delimited field. -/
def marshalField (tag : UInt8) (x : MathInt) : Bytes :=
  tag :: (varint x.marshal.length ++ x.marshal)

/-- `m.Marshal()`: every field is written, set or not. -/
def Params.marshal (p : Params) : Bytes :=
  marshalField 0x0a p.minSelfBond ++ marshalField 0x12 p.maxSelfBond
    ++ marshalField 0x1a p.maxDailyBondIncrease

def errInvalidLengthParams : Fault := .error "proto: negative length found during unmarshaling"
def errIntOverflowParams : Fault := .error "proto: integer overflow"
def errUnexpectedEndOfGroupParams : Fault := .error "proto: unexpected end of group"
def errUnexpectedEOF : Fault := .error "unexpected EOF"

/-- The varint loop, written out at each place that reads one. -/
def readVarint (dAtA : Bytes) : Outcome (Nat × Bytes) :=
  match getVarint 0 0 dAtA with
  | .ok r => .ok r
  | .error .overflow => .error errIntOverflowParams
  | .error .unexpectedEOF => .error errUnexpectedEOF

/-- `skipParams(dAtA)`: the length of the field (or of the group of fields) `dAtA` starts with.
    `iNdEx` may pass the end, which the caller checks.  Every round reads a byte at least, so
    `len(dAtA)` rounds of fuel are enough. -/
def skipParamsAux (dAtA : Bytes) : Nat → Nat → Nat → Outcome Nat
  | 0, _, _ => .error errUnexpectedEOF
  | fuel + 1, iNdEx, depth => do
    failIf (dAtA.length ≤ iNdEx) errUnexpectedEOF
    let (wire, rest) ← readVarint (dAtA.drop iNdEx)
    let iNdEx := dAtA.length - rest.length
    let (iNdEx, depth) ← match wire % 8 with
      | 0 => do
        let (_, rest) ← readVarint rest
        pure (dAtA.length - rest.length, depth)
      | 1 => pure (iNdEx + 8, depth)
      | 2 => do
        let (length, rest) ← readVarint rest
        failIf (2 ^ 63 ≤ length) errInvalidLengthParams
        pure (dAtA.length - rest.length + length, depth)
      | 3 => pure (iNdEx, depth + 1)
      | 4 => do
        failIf (depth = 0) errUnexpectedEndOfGroupParams
        pure (iNdEx, depth - 1)
      | 5 => pure (iNdEx + 4, depth)
      | wireType => .error (.error s!"proto: illegal wireType {wireType}")
    failIf (2 ^ 63 ≤ iNdEx) errInvalidLengthParams
    if depth = 0 then pure iNdEx else skipParamsAux dAtA fuel iNdEx depth

def skipParams (dAtA : Bytes) : Outcome Nat := skipParamsAux dAtA dAtA.length 0 0

/-- The value of a length-delimited `math.Int` field, read into `cur`, and the bytes after it.
    `l` is the length of the whole message. -/
def unmarshalField (l : Nat) (field : String) (wireType : Nat) (cur : MathInt) (dAtA : Bytes) :
    Outcome (MathInt × Bytes) := do
  failIf (wireType ≠ 2) (.error s!"proto: wrong wireType = {wireType} for field {field}")
  let (stringLen, dAtA) ← readVarint dAtA
  failIf (2 ^ 63 ≤ stringLen) errInvalidLengthParams
  failIf (2 ^ 63 ≤ l - dAtA.length + stringLen) errInvalidLengthParams
  failIf (dAtA.length < stringLen) errUnexpectedEOF
  let x ← cur.unmarshal (dAtA.take stringLen)
  pure (x, dAtA.drop stringLen)

/-- `int32(wire >> 3)`. -/
def fieldNumber (wire : Nat) : Int :=
  let n : Nat := wire / 8 % 2 ^ 32
  if n < 2 ^ 31 then n else n - 2 ^ 32

/-- One round of the loop of `m.Unmarshal`: the field `dAtA` starts with, and what is left. -/
def unmarshalOne (l : Nat) (m : Params) (dAtA : Bytes) : Outcome (Params × Bytes) := do
  let (wire, rest) ← readVarint dAtA
  let wireType := wire % 8
  failIf (wireType = 4) (.error "proto: Params: wiretype end group for non-group")
  failIf (fieldNumber wire ≤ 0)
    (.error s!"proto: Params: illegal tag {fieldNumber wire} (wire type {wire})")
  if fieldNumber wire = 1 then
    let (x, rest) ← unmarshalField l "MinSelfBond" wireType m.minSelfBond rest
    pure ({ m with minSelfBond := x }, rest)
  else if fieldNumber wire = 2 then
    let (x, rest) ← unmarshalField l "MaxSelfBond" wireType m.maxSelfBond rest
    pure ({ m with maxSelfBond := x }, rest)
  else if fieldNumber wire = 3 then
    let (x, rest) ← unmarshalField l "MaxDailyBondIncrease" wireType m.maxDailyBondIncrease rest
    pure ({ m with maxDailyBondIncrease := x }, rest)
  else
    -- an unknown field is skipped from its tag on
    let skippy ← skipParams dAtA
    failIf (2 ^ 63 ≤ l - dAtA.length + skippy) errInvalidLengthParams
    failIf (dAtA.length < skippy) errUnexpectedEOF
    pure (m, dAtA.drop skippy)

/-- The loop of `m.Unmarshal`, one unit of fuel a round (a round reads a byte at least). -/
def unmarshalLoop (l : Nat) : Nat → Params → Bytes → Outcome Params
  | _, m, [] => .ok m
  | 0, _, _ :: _ => .error errUnexpectedEOF
  | fuel + 1, m, b :: bs => do
    let (m, rest) ← unmarshalOne l m (b :: bs)
    unmarshalLoop l fuel m rest

/-- `m.Unmarshal(dAtA)` into a fresh `Params{}`. -/
def Params.unmarshal (dAtA : Bytes) : Outcome Params :=
  unmarshalLoop dAtA.length dAtA.length ⟨.nil, .nil, .nil⟩ dAtA

/-! ### Round trip -/

/-- What a `math.Int` is after one trip over the wire: nil has become 0. -/
def wireInt (x : MathInt) : MathInt := if x.isNil then .zeroInt else x

/-- What a `Params` is after one trip over the wire. -/
def Params.wireImage (p : Params) : Params :=
  ⟨wireInt p.minSelfBond, wireInt p.maxSelfBond, wireInt p.maxDailyBondIncrease⟩

/-- A field that `marshalField` wrote is read back in one round, whatever follows it. -/
theorem unmarshalField_marshalField {l : Nat} {field : String} {cur x : MathInt} {rest : Bytes}
    (hl : l < 2 ^ 62) :
    unmarshalField l field 2 cur (varint x.marshal.length ++ x.marshal ++ rest)
      = .ok (wireInt x, rest) := by
  have hlen := x.length_marshal_lt
  have hread : readVarint (varint x.marshal.length ++ x.marshal ++ rest)
      = .ok (x.marshal.length, x.marshal ++ rest) := by
    rw [varint_of_lt hlen, readVarint, List.append_assoc, List.singleton_append,
      getVarint_of_lt hlen]
  rw [unmarshalField, hread]
  simp only [failIf_eq_ok, bind_eq_ok, pure_eq_ok, Prod.exists]
  refine ⟨⟨⟩, by simp, _, _, rfl, ⟨⟩, by omega, ⟨⟩, by omega, ⟨⟩, by simp, wireInt x, ?_, ?_⟩
  · rw [List.take_left, MathInt.unmarshal_marshal]
    rfl
  · rw [List.drop_left]

/-- One round on a field of the message: the value goes to the field its tag names. -/
theorem unmarshalOne_marshalField {l : Nat} {m : Params} {x : MathInt} {rest : Bytes}
    (hl : l < 2 ^ 62) :
    unmarshalOne l m (marshalField 0x0a x ++ rest)
        = .ok ({ m with minSelfBond := wireInt x }, rest) ∧
    unmarshalOne l m (marshalField 0x12 x ++ rest)
        = .ok ({ m with maxSelfBond := wireInt x }, rest) ∧
    unmarshalOne l m (marshalField 0x1a x ++ rest)
        = .ok ({ m with maxDailyBondIncrease := wireInt x }, rest) := by
  have htag : ∀ tag : Nat, tag < 128 → ∀ bs : Bytes,
      readVarint (UInt8.ofNat tag :: bs) = .ok (tag, bs) := by
    intro tag ht bs
    rw [readVarint, getVarint_of_lt ht]
  have hfield : ∀ field cur, unmarshalField l field 2 cur
      (varint x.marshal.length ++ x.marshal ++ rest) = .ok (wireInt x, rest) :=
    fun _ _ => unmarshalField_marshalField hl
  refine ⟨?_, ?_, ?_⟩
  · show unmarshalOne l m (UInt8.ofNat 0x0a :: (varint x.marshal.length ++ x.marshal ++ rest)) = _
    rw [unmarshalOne, htag 0x0a (by decide), ok_bind]
    dsimp only
    rw [failIf_neg (by decide), ok_bind, failIf_neg (by decide), ok_bind, if_pos (by decide)]
    rw [hfield]
    rfl
  · show unmarshalOne l m (UInt8.ofNat 0x12 :: (varint x.marshal.length ++ x.marshal ++ rest)) = _
    rw [unmarshalOne, htag 0x12 (by decide), ok_bind]
    dsimp only
    rw [failIf_neg (by decide), ok_bind, failIf_neg (by decide), ok_bind, if_neg (by decide),
      if_pos (by decide)]
    rw [hfield]
    rfl
  · show unmarshalOne l m (UInt8.ofNat 0x1a :: (varint x.marshal.length ++ x.marshal ++ rest)) = _
    rw [unmarshalOne, htag 0x1a (by decide), ok_bind]
    dsimp only
    rw [failIf_neg (by decide), ok_bind, failIf_neg (by decide), ok_bind, if_neg (by decide),
      if_neg (by decide), if_pos (by decide)]
    rw [hfield]
    rfl

/-- A field is never empty, so the loop takes it as one round. -/
theorem unmarshalLoop_cons {l fuel : Nat} {m m' : Params} {tag : UInt8} {x : MathInt}
    {rest : Bytes} (h : unmarshalOne l m (marshalField tag x ++ rest) = .ok (m', rest)) :
    unmarshalLoop l (fuel + 1) m (marshalField tag x ++ rest) = unmarshalLoop l fuel m' rest := by
  show (unmarshalOne l m (marshalField tag x ++ rest) >>= _) = _
  rw [h]
  rfl

/-- **Params round trip.**  Reading back what was marshalled gives the same parameters with 0 for
    every nil: on the wire an omitted cap and "no cap" are one. -/
theorem Params.unmarshal_marshal (p : Params) : Params.unmarshal p.marshal = .ok p.wireImage := by
  have hlen : ∀ tag x, (marshalField tag x).length < 1000 ∧ 1 ≤ (marshalField tag x).length := by
    intro tag x
    have hx := x.length_marshal_lt
    have : (marshalField tag x).length = 2 + x.marshal.length := by
      simp [marshalField, varint_of_lt hx]
      omega
    omega
  have h1 := hlen 0x0a p.minSelfBond
  have h2 := hlen 0x12 p.maxSelfBond
  have h3 := hlen 0x1a p.maxDailyBondIncrease
  have hl : p.marshal.length = (marshalField 0x0a p.minSelfBond).length
      + (marshalField 0x12 p.maxSelfBond).length
      + (marshalField 0x1a p.maxDailyBondIncrease).length := by
    simp [Params.marshal]
    omega
  have hloop : ∀ l fuel : Nat, l < 2 ^ 62 →
      unmarshalLoop l (fuel + 3) ⟨.nil, .nil, .nil⟩ p.marshal = .ok p.wireImage := by
    intro l fuel hl
    rw [Params.marshal, List.append_assoc]
    rw [unmarshalLoop_cons (unmarshalOne_marshalField hl).1,
      unmarshalLoop_cons (unmarshalOne_marshalField hl).2.1]
    rw [← List.append_nil (marshalField 0x1a p.maxDailyBondIncrease),
      unmarshalLoop_cons (unmarshalOne_marshalField hl).2.2, unmarshalLoop]
    rfl
  have hfuel := hloop p.marshal.length (p.marshal.length - 3) (by omega)
  rwa [Nat.sub_add_cancel (by omega)] at hfuel

/-- Parameters written before the caps existed read back with the caps unset. -/
theorem Params.unmarshal_minSelfBond_only (x : MathInt) :
    Params.unmarshal (marshalField 0x0a x) = .ok ⟨wireInt x, .nil, .nil⟩ := by
  have hx := x.length_marshal_lt
  have hlen : (marshalField 0x0a x).length = x.marshal.length + 1 + 1 := by
    simp [marshalField, varint_of_lt hx]
  rw [Params.unmarshal, hlen, ← List.append_nil (marshalField 0x0a x),
    unmarshalLoop_cons (unmarshalOne_marshalField (by omega)).1, unmarshalLoop]

/-! ### What survives the trip -/

@[simp] theorem wireInt_isNil (x : MathInt) : (wireInt x).isNil = false := by
  cases x <;> rfl

@[simp] theorem val?_wireInt (x : MathInt) : (wireInt x).val? = some x.val := by
  cases x <;> rfl

@[simp] theorem val_wireInt (x : MathInt) : (wireInt x).val = x.val := by
  cases x <;> rfl

end Gemba.Valgate
