/-
  The staking module as `x/valgate` sees it: `keeper/hooks.go`, `keeper/staking_msgserver.go`.

  cosmos-sdk's `x/staking` is outside the repository, so it is a structure, `Staking`: a state, the
  handlers of the messages, and what is documented about them.  The documented facts are few:

  * a created validator's record is stored with zero tokens before `AfterValidatorCreated` runs, and
    the self-delegation is added to it afterwards (`Staking.createValidator` is that sequence);
  * a handler that accepts a message resolved the validator's string with the wired codec and found
    a positive amount;
  * a delegation and a cancelled unbonding add the amount to the validator's tokens, a redelegation
    adds at most the amount to its destination's.

  From the repository:

  * `afterValidatorCreated` — the hook, called on the record staking has just stored;
  * `CapEnforcing.delegate`, `CapEnforcing.beginRedelegate`, `CapEnforcing.handle` — the message
    server the EVM staking precompile is wired with: `Delegate` and `BeginRedelegate` are charged
    first, everything else passes through.
-/
import Gemba.Valgate.Keeper

namespace Gemba.Valgate

open Gemba.Lib Gemba.Sdk

/-! ## Messages -/

/-- `sdk.Coin`. -/
structure Coin where
  denom : String
  amount : MathInt
deriving DecidableEq

/-- `stakingtypes.MsgCreateValidator` (description, commission and key left out). -/
structure MsgCreateValidator where
  minSelfDelegation : MathInt
  validatorAddress : String
  value : Coin
deriving DecidableEq

/-- `stakingtypes.MsgDelegate`. -/
structure MsgDelegate where
  delegatorAddress : String
  validatorAddress : String
  amount : Coin
deriving DecidableEq

/-- `stakingtypes.MsgBeginRedelegate`. -/
structure MsgBeginRedelegate where
  delegatorAddress : String
  validatorSrcAddress : String
  validatorDstAddress : String
  amount : Coin
deriving DecidableEq

/-- `stakingtypes.MsgUndelegate`. -/
structure MsgUndelegate where
  delegatorAddress : String
  validatorAddress : String
  amount : Coin
deriving DecidableEq

/-- `stakingtypes.MsgCancelUnbondingDelegation`. -/
structure MsgCancelUnbondingDelegation where
  delegatorAddress : String
  validatorAddress : String
  amount : Coin
  creationHeight : Int
deriving DecidableEq

/-- The messages of `x/staking` that move stake. -/
inductive StakingMsg where
  | createValidator (m : MsgCreateValidator)
  | delegate (m : MsgDelegate)
  | beginRedelegate (m : MsgBeginRedelegate)
  | undelegate (m : MsgUndelegate)
  | cancelUnbondingDelegation (m : MsgCancelUnbondingDelegation)
deriving DecidableEq

/-- The validator and the amount of a message that bonds new stake to an existing validator. -/
def StakingMsg.bond? : StakingMsg → Option (String × MathInt)
  | delegate m => some (m.validatorAddress, m.amount.amount)
  | beginRedelegate m => some (m.validatorDstAddress, m.amount.amount)
  | _ => none

/-- The validator whose tokens a message increases, and by what amount; creation, whose stake is the
    validator's entry, is not among them. -/
def StakingMsg.increase? : StakingMsg → Option (String × MathInt)
  | delegate m => some (m.validatorAddress, m.amount.amount)
  | beginRedelegate m => some (m.validatorDstAddress, m.amount.amount)
  | cancelUnbondingDelegation m => some (m.validatorAddress, m.amount.amount)
  | _ => none

/-! ## The staking module -/

/-- `stakingtypes.Validator`, the two fields the hook reads. -/
structure Validator where
  minSelfDelegation : MathInt
  tokens : MathInt
deriving DecidableEq

/-- cosmos-sdk's `x/staking`, wired with the address codec of `B`. -/
structure Staking (B : AddressCodec) where
  /-- The staking keeper's state. -/
  State : Type
  /-- `GetValidator(ctx, addr)`. -/
  getValidator : State → ValAddress → Outcome Validator
  /-- The checks of `CreateValidator`; the validator's address if they pass. -/
  checkCreateValidator : State → MsgCreateValidator → Outcome ValAddress
  /-- `SetValidator` with the record of a new validator. -/
  setNewValidator : State → ValAddress → Validator → State
  /-- The self-delegation at the end of `CreateValidator`. -/
  selfDelegate : State → ValAddress → MsgCreateValidator → Outcome State
  delegate : State → MsgDelegate → Outcome State
  beginRedelegate : State → MsgBeginRedelegate → Outcome State
  undelegate : State → MsgUndelegate → Outcome State
  cancelUnbondingDelegation : State → MsgCancelUnbondingDelegation → Outcome State
  /-- The stored record is the one the hook reads. -/
  getValidator_setNewValidator : ∀ s va v, getValidator (setNewValidator s va v) va = .ok v

variable {B : AddressCodec}

/-- The tokens of a validator, 0 if there is none. -/
def Staking.tokens (S : Staking B) (s : S.State) (va : ValAddress) : Int :=
  match S.getValidator s va with
  | .ok v => v.tokens.val
  | .error _ => 0

/-- `CreateValidator`: checks, the record with zero tokens, `AfterValidatorCreated`, and only then
    the self-delegation. -/
def Staking.createValidator (S : Staking B) (hook : S.State → ValAddress → Outcome Unit)
    (s : S.State) (m : MsgCreateValidator) : Outcome S.State := do
  let va ← S.checkCreateValidator s m
  let s := S.setNewValidator s va ⟨m.minSelfDelegation, .zeroInt⟩
  hook s va
  S.selfDelegate s va m

/-- From `s` to `s'` the validator called `name` gained stake: its string resolved, the amount was
    positive, and the new tokens are `rel`ated to the old ones plus the amount. -/
structure Bonded (S : Staking B) (s s' : S.State) (name : String) (amount : MathInt)
    (rel : Int → Int → Prop) : Prop where
  resolved : ∃ va, B.stringToBytes name = .ok va ∧
    rel (S.tokens s' va) (S.tokens s va + amount.val)
  positive : ∃ a, amount.val? = some a ∧ 0 < a

/-- What is documented about the handlers that add stake. -/
structure Staking.Documented (S : Staking B) : Prop where
  delegate : ∀ s s' m, S.delegate s m = .ok s' →
    Bonded S s s' m.validatorAddress m.amount.amount (· = ·)
  /-- Removing shares rounds down, so a redelegation may move less than it names. -/
  beginRedelegate : ∀ s s' m, S.beginRedelegate s m = .ok s' →
    Bonded S s s' m.validatorDstAddress m.amount.amount (· ≤ ·)
  cancelUnbondingDelegation : ∀ s s' m, S.cancelUnbondingDelegation s m = .ok s' →
    Bonded S s s' m.validatorAddress m.amount.amount (· = ·)

/-! ## The hook -/

/-- `h.AfterValidatorCreated(ctx, valAddr)`. -/
def afterValidatorCreated (S : Staking B) (kv : Store) (s : S.State) (valAddr : ValAddress) :
    Outcome Unit := do
  let p ← getParams kv
  let min := p.minSelfBond
  let val ← S.getValidator s valAddr
  failIf (← val.minSelfDelegation.lt min)
    (.error (s!"validator min_self_delegation {val.minSelfDelegation} is below the minimum {min} "
      ++ "(governance-set, x/valgate; enforced on Cosmos and EVM-precompile paths)"))
  let max := p.maxSelfBond
  let aboveCap ← andThen (!max.isNil) (do
    andThen (← max.isPositive) (andThen (!val.tokens.isNil) (val.tokens.gt max)))
  failIf aboveCap
    (.error (s!"validator self-bond {val.tokens} exceeds the maximum {max} allowed at creation "
      ++ "(governance-set anti-domination cap, x/valgate; Cosmos + EVM-precompile paths)"))

/-- **The hook sees zero tokens.**  On a record without tokens it checks the floor only: zero is
    below every positive maximum. -/
theorem afterValidatorCreated_eq_ok {S : Staking B} {kv : Store} {s : S.State}
    {valAddr : ValAddress} {p : Params} {msd : Int} {hmsd : msd.natAbs < 2 ^ 256}
    (hp : getParams kv = .ok p) (hfull : p.Full)
    (hval : S.getValidator s valAddr = .ok ⟨.int msd hmsd, .zeroInt⟩) :
    afterValidatorCreated S kv s valAddr = .ok () ↔ p.minSelfBond.val ≤ msd := by
  obtain ⟨hmb, hm⟩ := MathInt.val?_eq_some.mp hfull.minSelfBond
  obtain ⟨hxb, hx⟩ := MathInt.val?_eq_some.mp hfull.maxSelfBond
  rw [afterValidatorCreated, hp, ok_bind, hval, ok_bind]
  dsimp only
  rw [hm, hx]
  have hzero : (MathInt.zeroInt.gt (.int p.maxSelfBond.val hxb) : Outcome Bool)
      = .ok (decide (p.maxSelfBond.val < 0)) := rfl
  have hnil : MathInt.zeroInt.isNil = false := rfl
  simp only [MathInt.lt_int, MathInt.isPositive_int, MathInt.isNil_int, hzero, hnil, Bool.not_false,
    ok_bind, andThen_ok, bind_eq_ok, failIf_eq_ok, decide_eq_true_eq,
    Bool.and_eq_true, MathInt.val_int]
  constructor
  · rintro ⟨-, hle, -⟩
    omega
  · intro hle
    exact ⟨⟨⟩, by omega, by omega⟩

/-! ## The precompile's message server -/

/-- A handler's answer to a message that is passed through to the staking module. -/
def Staking.handle (S : Staking B) (kv : Store) (s : S.State) : StakingMsg → Outcome S.State
  | .createValidator m => S.createValidator (afterValidatorCreated S kv) s m
  | .delegate m => S.delegate s m
  | .beginRedelegate m => S.beginRedelegate s m
  | .undelegate m => S.undelegate s m
  | .cancelUnbondingDelegation m => S.cancelUnbondingDelegation s m

/-- The charge both wrapped methods make first: none if the string is not bech32 or the amount is
    nil. -/
def chargeBond (B : AddressCodec) (ctx : Ctx) (validator : String) (amount : MathInt) :
    Outcome Store :=
  match B.valAddressFromBech32 validator with
  | .ok valAddr =>
    if amount.isNil then .ok ctx.kv else checkAndRecordDailyBond B ctx valAddr amount
  | .error _ => .ok ctx.kv

/-- The guard's share of `v` in a message that bonds `amount` to `name`: nothing if the string is not
    bech32 for `v`. -/
def guardShare (B : AddressCodec) (name : String) (amount : MathInt) (v : ValAddress) : Int :=
  if B.valAddressFromBech32 name = .ok v then amount.val else 0

theorem guardShare_of_bech32 {name : String} {amount : MathInt} {va v : ValAddress}
    (h : B.valAddressFromBech32 name = .ok va) :
    guardShare B name amount v = if v = va then amount.val else 0 := by
  rw [guardShare, h]
  by_cases hv : v = va
  · rw [hv, if_pos rfl, if_pos rfl]
  · rw [if_neg hv, if_neg (fun he => hv (by injection he with he; exact he.symm))]

theorem guardShare_of_error {name : String} {amount : MathInt} {e : Fault} {v : ValAddress}
    (h : B.valAddressFromBech32 name = .error e) : guardShare B name amount v = 0 := by
  rw [guardShare, h, if_neg (fun he => nomatch he)]

theorem chargeBond_charged {ctx : Ctx} {cap : Int} (hcap : DailyCap ctx.kv cap) {name : String}
    {amount : MathInt} {kv' : Store} (h : chargeBond B ctx name amount = .ok kv') :
    Charged cap ctx.blockTime ctx.kv kv' (guardShare B name amount) := by
  unfold chargeBond at h
  split at h
  · rename_i va hva
    split at h
    · rename_i hnil
      injection h with h
      subst h
      refine Charged.refl.congr (fun v => ?_)
      rw [guardShare_of_bech32 hva]
      have hzero : amount.val = 0 := by
        cases amount with
        | nil => rfl
        | int a ha => nomatch hnil
      rw [hzero]
      split <;> rfl
    · refine (checkAndRecordDailyBond_charged hcap h).congr (fun v => ?_)
      rw [guardShare_of_bech32 hva]
  · rename_i e he
    injection h with h
    subst h
    exact Charged.refl.congr (fun v => (guardShare_of_error he).symm)

/-- `s.Delegate(ctx, msg)`. -/
def CapEnforcing.delegate (S : Staking B) (ctx : Ctx) (s : S.State) (msg : MsgDelegate) :
    Outcome (Store × S.State) := do
  let kv ← chargeBond B ctx msg.validatorAddress msg.amount.amount
  let s ← S.delegate s msg
  .ok (kv, s)

/-- `s.BeginRedelegate(ctx, msg)`: the destination is charged. -/
def CapEnforcing.beginRedelegate (S : Staking B) (ctx : Ctx) (s : S.State)
    (msg : MsgBeginRedelegate) : Outcome (Store × S.State) := do
  let kv ← chargeBond B ctx msg.validatorDstAddress msg.amount.amount
  let s ← S.beginRedelegate s msg
  .ok (kv, s)

/-- The wrapped server: the store and the staking state after a message. -/
def CapEnforcing.handle (S : Staking B) (ctx : Ctx) (s : S.State) :
    StakingMsg → Outcome (Store × S.State)
  | .delegate m => CapEnforcing.delegate S ctx s m
  | .beginRedelegate m => CapEnforcing.beginRedelegate S ctx s m
  | m => do .ok (ctx.kv, ← S.handle ctx.kv s m)

/-- **What the wrapper does.**  It charges the message's validator, if the message bonds stake, and
    then does what the staking module does. -/
theorem CapEnforcing.handle_eq_ok {S : Staking B} {ctx : Ctx} {s s' : S.State} {m : StakingMsg}
    {kv : Store} :
    CapEnforcing.handle S ctx s m = .ok (kv, s') ↔
      (match m.bond? with
        | some (name, amount) => chargeBond B ctx name amount = .ok kv
        | none => kv = ctx.kv) ∧ S.handle ctx.kv s m = .ok s' := by
  have hwrapped : ∀ (charge : Outcome Store) (call : Outcome S.State),
      (do let kv ← charge; let s ← call; .ok (kv, s)) = (.ok (kv, s') : Outcome _) ↔
        charge = .ok kv ∧ call = .ok s' := by
    intro charge call
    cases charge <;> cases call <;> simp
  have hpassed : ∀ call : Outcome S.State,
      (do .ok (ctx.kv, ← call)) = (.ok (kv, s') : Outcome _) ↔ kv = ctx.kv ∧ call = .ok s' := by
    intro call
    rw [bind_eq_ok]
    constructor
    · rintro ⟨s₁, hcall, h⟩
      obtain ⟨rfl, rfl⟩ := ok_pair h
      exact ⟨rfl, hcall⟩
    · rintro ⟨rfl, hcall⟩
      exact ⟨s', hcall, rfl⟩
  cases m with
  | delegate m => exact hwrapped _ _
  | beginRedelegate m => exact hwrapped _ _
  | createValidator m => exact hpassed _
  | undelegate m => exact hpassed _
  | cancelUnbondingDelegation m => exact hpassed _

/-! ## A small staking module

  A staking module that is nothing but its table of validators.  It satisfies what is documented
  about the real one (`tableStaking_documented`), so nothing above is assumed in vain, and it runs,
  so behaviour can be shown on concrete messages. -/

/-- The string of one validator, and its address. -/
def sampleName : String := "cosmosvaloper1u6zhxsehl4xad59vlfmcuchv70pka76t7uzsye"
def sampleAddress : ValAddress :=
  [0xe6, 0x85, 0x73, 0x43, 0x37, 0xfd, 0x4d, 0xd6, 0xd0, 0xac, 0xfa, 0x77, 0x8e, 0x62, 0xec, 0xf3,
    0xc3, 0x6e, 0xfb, 0x4b]

/-- The same address in hexadecimal. -/
def sampleHex : String := "0xe685734337FD4Dd6d0AcFA778e62EcF3C36efb4b"

/-- The codecs on hex strings and the one bech32 string `sampleName`. -/
def sampleCodec : AddressCodec where
  valAddressFromBech32 s :=
    if s = sampleName then .ok sampleAddress else .error (.error "decoding bech32 failed")
  valAddressString va := if va = sampleAddress then sampleName else ""
  stringToBytes s :=
    if isHexAddress s then .ok (hexToAddress s)
    else if s = sampleName then .ok sampleAddress
    else .error (.error "unknown address format")
  bech32_prefix := by
    intro s va h
    split at h
    · rename_i hs
      exact ⟨"u6zhxsehl4xad59vlfmcuchv70pka76t7uzsye".toList, Or.inl (by rw [hs]; decide)⟩
    · nomatch h
  hex := fun s h => if_pos h
  bech32_of_not_hex := by
    intro s va hhex h
    rw [if_neg hhex] at h
    split at h
    · rename_i hs
      rw [if_pos hs]
      exact h
    · nomatch h

/-- The validators' records. -/
abbrev Table := ValAddress → Option Validator

def Table.get (s : Table) (va : ValAddress) : Outcome Validator :=
  match s va with
  | some v => .ok v
  | none => .error (.error "validator does not exist")

def Table.put (s : Table) (va : ValAddress) (v : Validator) : Table :=
  fun x => if x = va then some v else s x

/-- Add `amount` (possibly negative) to a validator's tokens, which stay non-negative. -/
def Table.addTokens (s : Table) (va : ValAddress) (amount : Int) : Outcome Table := do
  let v ← s.get va
  let tokens ← MathInt.checked (v.tokens.val + amount)
  failIf (tokens.val < 0) (.error "insufficient tokens")
  .ok (s.put va { v with tokens := tokens })

/-- The positive integer an amount has to be. -/
def positiveAmount (amount : MathInt) : Outcome Int := do
  failIf (amount.val ≤ 0) (.error "invalid delegation amount")
  .ok amount.val

def Table.bond (B : AddressCodec) (s : Table) (name : String) (amount : MathInt) :
    Outcome Table := do
  let va ← B.stringToBytes name
  let a ← positiveAmount amount
  s.addTokens va a

/-- The staking module over a table of validators. -/
def tableStaking (B : AddressCodec) : Staking B where
  State := Table
  getValidator := Table.get
  checkCreateValidator s m := do
    let va ← B.stringToBytes m.validatorAddress
    failIf ((s va).isSome = true) (.error "validator already exist for this operator address")
    failIf (m.value.amount.val < m.minSelfDelegation.val)
      (.error "validator's self delegation must be greater than their minimum self delegation")
    .ok va
  setNewValidator := Table.put
  selfDelegate s va m := s.addTokens va m.value.amount.val
  delegate s m := s.bond B m.validatorAddress m.amount.amount
  beginRedelegate s m := do
    let src ← B.stringToBytes m.validatorSrcAddress
    let dst ← B.stringToBytes m.validatorDstAddress
    failIf (src = dst) (.error "cannot redelegate to the same validator")
    let a ← positiveAmount m.amount.amount
    let s ← s.addTokens src (-a)
    s.addTokens dst a
  undelegate s m := do
    let va ← B.stringToBytes m.validatorAddress
    let a ← positiveAmount m.amount.amount
    s.addTokens va (-a)
  cancelUnbondingDelegation s m := s.bond B m.validatorAddress m.amount.amount
  getValidator_setNewValidator s va v := by
    show Table.get (s.put va v) va = .ok v
    rw [Table.get, Table.put, if_pos rfl]

theorem tokens_addTokens {B : AddressCodec} {s s' : Table} {va : ValAddress} {a : Int}
    (h : s.addTokens va a = .ok s') (v : ValAddress) :
    (tableStaking B).tokens s' v = (tableStaking B).tokens s v + if v = va then a else 0 := by
  obtain ⟨val, hget, h⟩ := bind_eq_ok.mp h
  obtain ⟨tokens, hsum, h⟩ := bind_eq_ok.mp h
  obtain ⟨-, -, h⟩ := bind_eq_ok.mp h
  injection h with h
  subst h
  have hval : tokens.val = val.tokens.val + a := by
    rw [MathInt.val, MathInt.checked_eq_ok.mp hsum]
    rfl
  have htokens : ∀ (t : Table) x, (tableStaking B).tokens t x = match t.get x with
      | .ok v => v.tokens.val
      | .error _ => 0 := fun _ _ => rfl
  rw [htokens, htokens]
  by_cases hv : v = va
  · subst hv
    rw [hget, if_pos rfl, Table.get, Table.put, if_pos rfl]
    exact hval
  · rw [if_neg hv, Table.get, Table.put, if_neg hv, Int.add_zero]
    rfl

theorem positiveAmount_eq_ok {amount : MathInt} {a : Int} (h : positiveAmount amount = .ok a) :
    amount.val? = some a ∧ amount.val = a ∧ 0 < a := by
  obtain ⟨⟨⟩, hpos, h⟩ := bind_eq_ok.mp h
  injection h with h
  subst h
  rw [failIf_eq_ok] at hpos
  cases amount with
  | nil => exact absurd (show (0 : Int) ≤ 0 by omega) hpos
  | int v hv => exact ⟨rfl, rfl, by omega⟩

theorem bond_bonded {s s' : Table} {name : String} {amount : MathInt}
    (h : s.bond B name amount = .ok s') :
    Bonded (tableStaking B) s s' name amount (· = ·) := by
  obtain ⟨va, hva, h⟩ := bind_eq_ok.mp h
  obtain ⟨a, ha, h⟩ := bind_eq_ok.mp h
  obtain ⟨hsome, hval, hpos⟩ := positiveAmount_eq_ok ha
  refine ⟨⟨va, hva, ?_⟩, ⟨a, hsome, hpos⟩⟩
  rw [tokens_addTokens h va, if_pos rfl, hval]

/-- **The table satisfies what is documented about staking.** -/
theorem tableStaking_documented (B : AddressCodec) : (tableStaking B).Documented where
  delegate _ _ _ h := bond_bonded h
  cancelUnbondingDelegation _ _ _ h := bond_bonded h
  beginRedelegate s s' m h := by
    obtain ⟨src, -, h⟩ := bind_eq_ok.mp h
    obtain ⟨dst, hdst, h⟩ := bind_eq_ok.mp h
    obtain ⟨⟨⟩, hne, h⟩ := bind_eq_ok.mp h
    obtain ⟨a, ha, h⟩ := bind_eq_ok.mp h
    obtain ⟨s₁, h₁, h₂⟩ := bind_eq_ok.mp h
    obtain ⟨hsome, hval, hpos⟩ := positiveAmount_eq_ok ha
    rw [failIf_eq_ok] at hne
    refine ⟨⟨dst, hdst, ?_⟩, ⟨a, hsome, hpos⟩⟩
    rw [tokens_addTokens h₂ dst, if_pos rfl, tokens_addTokens h₁ dst, if_neg (Ne.symm hne), hval]
    omega

end Gemba.Valgate
