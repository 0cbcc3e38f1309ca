/-
  `GembaVotes`: native GMB wrapped one to one into checkpointed voting power.

  The contract is OpenZeppelin's `ERC20` and `Votes` with an exclusion list over them.  A balance is
  voting power once delegated: every balance change and every delegation moves power between the
  checkpoint traces of the delegatees, at the key of the current block.  An excluded account cannot
  receive the token nor delegate, and reads as having no votes, now or in the past.

  The Governor reads two things of it: `getPastVotes` and `getPastTotalSupply`.
  `call_supply` and its companions say the second is final: no call changes the total supply of an
  earlier block.
-/
import Mathlib.Order.Basic
import Gemba.Lib.Checkpoints
import Gemba.Evm.Abi
import Gemba.Evm.Erc20
import Gemba.Reserves.BaseReserve

namespace Gemba.Governance

open Gemba.Lib Gemba.Evm
open Gemba.Reserves (Send)

/-- A checkpointed number: keys are block numbers. -/
abbrev History := Trace Nat Nat

/-- `Checkpoints.push`, at the current block. -/
def pushCheckpoint (t : History) (clock value : Nat) : Call History :=
  match t.push clock value with
  | some t => .ok t
  | none => .error (err "CheckpointUnorderedInsertion")

theorem pushCheckpoint_eq_ok {t t' : History} {clock value : Nat} :
    pushCheckpoint t clock value = .ok t' ↔ t.push clock value = some t' := by
  unfold pushCheckpoint
  cases t.push clock value with
  | none => simp
  | some t₁ => simp

/-- Reading an earlier block is not affected by a checkpoint at the current one. -/
theorem pushCheckpoint_lookup {t t' : History} {clock value : Nat}
    (h : pushCheckpoint t clock value = .ok t') :
    ∀ tp < clock, t'.upperLookup tp = t.upperLookup tp :=
  fun _ htp => Trace.upperLookup_push_of_lt (pushCheckpoint_eq_ok.mp h) htp

/-- The storage of `GembaVotes`. -/
structure GembaVotes where
  /-- The Timelock: the only account that may change exclusions. -/
  governance : Address
  excluded : Address → Bool
  erc20 : Erc20
  delegates : Address → Address
  delegateCheckpoints : Address → History
  totalCheckpoints : History
  nonces : Address → Nat
  /-- The reentrancy guard is entered. -/
  entered : Bool

namespace GembaVotes

/-- `constructor(_governance, initialExcluded)`. -/
def construct (governance : Address) (initialExcluded : List Address) : Call GembaVotes := do
  failIf (governance = 0) (err "ZeroAddress")
  .ok { governance, excluded := fun a => a ≠ 0 ∧ a ∈ initialExcluded, erc20 := .empty,
        delegates := fun _ => 0, delegateCheckpoints := fun _ => [], totalCheckpoints := [],
        nonces := fun _ => 0, entered := false }

/-! ## Checkpoints -/

/-- `_push(store, _add, delta)`. -/
def pushAdd (t : History) (clock delta : Nat) : Call History := do
  let delta ← toUint 208 delta
  failIf (2 ^ 208 ≤ t.latest + delta) (.panic 0x11)
  pushCheckpoint t clock (t.latest + delta)

/-- `_push(store, _subtract, delta)`. -/
def pushSubtract (t : History) (clock delta : Nat) : Call History := do
  let delta ← toUint 208 delta
  let value ← sub t.latest delta
  pushCheckpoint t clock value

def setCheckpoints (s : GembaVotes) (a : Address) (t : History) : GembaVotes :=
  { s with delegateCheckpoints := fun x => if x = a then t else s.delegateCheckpoints x }

/-- `_moveDelegateVotes(from, to, amount)`. -/
def moveDelegateVotes (s : GembaVotes) (clock : Nat) (src dst : Address) (amount : Nat) :
    Call GembaVotes :=
  if src = dst ∨ amount = 0 then .ok s
  else do
    let s ← (if src = 0 then .ok s else do
      let t ← pushSubtract (s.delegateCheckpoints src) clock amount
      .ok (s.setCheckpoints src t) : Call GembaVotes)
    if dst = 0 then .ok s
    else do
      let t ← pushAdd (s.delegateCheckpoints dst) clock amount
      .ok (s.setCheckpoints dst t)

/-- `_transferVotingUnits(from, to, amount)`. -/
def transferVotingUnits (s : GembaVotes) (clock : Nat) (src dst : Address) (amount : Nat) :
    Call GembaVotes := do
  let s ← (if src = 0 then do
    let t ← pushAdd s.totalCheckpoints clock amount
    .ok { s with totalCheckpoints := t } else .ok s : Call GembaVotes)
  let s ← (if dst = 0 then do
    let t ← pushSubtract s.totalCheckpoints clock amount
    .ok { s with totalCheckpoints := t } else .ok s : Call GembaVotes)
  s.moveDelegateVotes clock (s.delegates src) (s.delegates dst) amount

/-! ## The token -/

/-- `_update(from, to, value)`: the exclusion check, then `ERC20Votes._update`. -/
def update (s : GembaVotes) (clock : Nat) (src dst : Address) (value : Nat) : Call GembaVotes := do
  failIf (dst ≠ 0 ∧ s.excluded dst = true) (err "Excluded")
  let erc20 ← s.erc20.update src dst value
  failIf (src = 0 ∧ 2 ^ 208 ≤ erc20.totalSupply)
    (.custom "ERC20ExceededSafeSupply" [erc20.totalSupply, 2 ^ 208 - 1])
  { s with erc20 }.transferVotingUnits clock src dst value

/-- `transfer(to, value)`. -/
def transfer (s : GembaVotes) (clock : Nat) (src dst : Address) (value : Nat) : Call GembaVotes := do
  failIf (src = 0) (.custom "ERC20InvalidSender" [0])
  failIf (dst = 0) (.custom "ERC20InvalidReceiver" [0])
  s.update clock src dst value

/-- `approve(spender, value)`. -/
def approve (s : GembaVotes) (owner spender : Address) (value : Nat) : Call GembaVotes := do
  let erc20 ← s.erc20.approve owner spender value
  .ok { s with erc20 }

/-- `transferFrom(from, to, value)`. -/
def transferFrom (s : GembaVotes) (clock : Nat) (spender src dst : Address) (value : Nat) :
    Call GembaVotes := do
  let erc20 ← s.erc20.spendAllowance src spender value
  { s with erc20 }.transfer clock src dst value

/-- `depositFor(to)`, with `value` native GMB. -/
def depositFor (s : GembaVotes) (clock : Nat) (dst : Address) (value : Nat) : Call GembaVotes := do
  failIf (dst = 0) (err "ZeroAddress")
  failIf (value = 0) (err "ZeroAmount")
  failIf (s.excluded dst) (err "Excluded")
  s.update clock 0 dst value

/-- `withdrawTo(to, amount)`: the burn, then the send. -/
def withdrawTo (s : GembaVotes) (clock : Nat) (sender dst : Address) (amount : Nat) :
    Call (GembaVotes × Send) := do
  failIf s.entered (err "ReentrancyGuardReentrantCall")
  failIf (dst = 0) (err "ZeroAddress")
  failIf (amount = 0) (err "ZeroAmount")
  failIf (sender = 0) (.custom "ERC20InvalidSender" [0])
  let s ← s.update clock sender 0 amount
  .ok ({ s with entered := true }, ⟨dst, amount⟩)

/-- The recipient of a withdrawal returned. -/
def finishSend (s : GembaVotes) : GembaVotes := { s with entered := false }

/-! ## Delegation -/

/-- `Votes._delegate(account, delegatee)`. -/
def moveDelegation (s : GembaVotes) (clock : Nat) (account delegatee : Address) : Call GembaVotes :=
  { s with delegates := fun a => if a = account then delegatee else s.delegates a }.moveDelegateVotes
    clock (s.delegates account) delegatee (s.erc20.balances account)

/-- `_delegate(account, delegatee)`: an excluded account may only take its delegation back. -/
def delegate (s : GembaVotes) (clock : Nat) (account delegatee : Address) : Call GembaVotes := do
  failIf (s.excluded account = true ∧ delegatee ≠ 0) (err "Excluded")
  s.moveDelegation clock account delegatee

/-- `delegateBySig(delegatee, nonce, expiry, v, r, s)`, the signature being `signer`'s: none recovers
    to the zero address. -/
def delegateBySig (s : GembaVotes) (b : Block) (signer delegatee : Address) (nonce expiry : Nat) :
    Call GembaVotes := do
  failIf (expiry < b.timestamp) (.custom "VotesExpiredSignature" [expiry])
  failIf (signer = 0) (err "ECDSAInvalidSignature")
  failIf (nonce ≠ s.nonces signer) (.custom "InvalidAccountNonce" [signer.toNat, s.nonces signer])
  { s with nonces := fun a => if a = signer then nonce + 1 else s.nonces a }.delegate b.number signer
    delegatee

/-- `permit(owner, spender, value, deadline, v, r, s)`, the signature being the owner's over its
    current nonce. -/
def permit (s : GembaVotes) (b : Block) (owner spender : Address) (value deadline : Nat) :
    Call GembaVotes := do
  failIf (deadline < b.timestamp) (.custom "ERC2612ExpiredSignature" [deadline])
  { s with nonces := fun a => if a = owner then s.nonces owner + 1 else s.nonces a }.approve owner
    spender value

/-- `setExcluded(account, isExcluded)`: an account that is excluded loses its delegation, past the
    guard of `_delegate`. -/
def setExcluded (s : GembaVotes) (clock : Nat) (sender account : Address) (isExcluded : Bool) :
    Call GembaVotes := do
  failIf (sender ≠ s.governance) (err "OnlyGovernance")
  let s := { s with excluded := fun a => if a = account then isExcluded else s.excluded a }
  if isExcluded then s.moveDelegation clock account 0 else .ok s

/-! ## Reading votes -/

/-- `getVotes(account)`. -/
def getVotes (s : GembaVotes) (account : Address) : Nat :=
  if s.excluded account then 0 else (s.delegateCheckpoints account).latest

/-- `_validateTimepoint(timepoint)`: only the past can be read. -/
def validateTimepoint (clock timepoint : Nat) : Call PUnit :=
  failIf (clock ≤ timepoint) (.custom "ERC5805FutureLookup" [timepoint, clock])

/-- `getPastVotes(account, timepoint)`. -/
def getPastVotes (s : GembaVotes) (clock : Nat) (account : Address) (timepoint : Nat) : Call Nat :=
  if s.excluded account then .ok 0
  else do
    validateTimepoint clock timepoint
    .ok ((s.delegateCheckpoints account).upperLookup timepoint)

/-- `getPastTotalSupply(timepoint)`. -/
def getPastTotalSupply (s : GembaVotes) (clock timepoint : Nat) : Call Nat := do
  validateTimepoint clock timepoint
  .ok (s.totalCheckpoints.upperLookup timepoint)

/-! ## Calls -/

end GembaVotes

/-- The functions of `GembaVotes` that change state, but for those that carry a signature. -/
inductive VotesFn where
  | depositFor (dst : Address)
  | withdrawTo (dst : Address) (amount : Nat)
  | transfer (dst : Address) (value : Nat)
  | transferFrom (src dst : Address) (value : Nat)
  | approve (spender : Address) (value : Nat)
  | delegate (delegatee : Address)
  | setExcluded (account : Address) (isExcluded : Bool)
deriving DecidableEq, Repr

namespace VotesFn

/-- The selector of each function. -/
def sel : VotesFn → Nat
  | .depositFor .. => 0xaa67c919
  | .withdrawTo .. => 0x205c2878
  | .transfer .. => 0xa9059cbb
  | .transferFrom .. => 0x23b872dd
  | .approve .. => 0x095ea7b3
  | .delegate .. => 0x5c19a95c
  | .setExcluded .. => 0x2836be24

/-- The dispatch table. -/
def table : List (Entry sel) :=
  [.args1 0xaa67c919 (addressArg 0) .depositFor fun _ => rfl,
   .args2 0x205c2878 (addressArg 0) (word 1) .withdrawTo fun _ _ => rfl,
   .args2 0xa9059cbb (addressArg 0) (word 1) .transfer fun _ _ => rfl,
   .args3 0x23b872dd (addressArg 0) (addressArg 1) (word 2) .transferFrom fun _ _ _ => rfl,
   .args2 0x095ea7b3 (addressArg 0) (word 1) .approve fun _ _ => rfl,
   .args1 0x5c19a95c (addressArg 0) .delegate fun _ => rfl,
   .args2 0x2836be24 (addressArg 0) (boolArg 1) .setExcluded fun _ _ => rfl]

/-- The function calldata calls, with its arguments. -/
def decode (data : Bytes) : Option VotesFn := dispatch table data

/-- Only a deposit takes native GMB. -/
def payable : VotesFn → Bool
  | .depositFor _ => true
  | _ => false

end VotesFn

namespace GembaVotes

/-- `fn(...)` at block `b` from `sender` with `value`: the token after it, and what it sends out. -/
def call (s : GembaVotes) (b : Block) (sender : Address) (value : Nat) (fn : VotesFn) :
    Call (GembaVotes × Option Send) := do
  failIf (value ≠ 0 ∧ fn.payable = false) noData
  match fn with
  | .depositFor dst => do
    let s ← s.depositFor b.number dst value
    .ok (s, none)
  | .withdrawTo dst amount => do
    let (s, send) ← s.withdrawTo b.number sender dst amount
    .ok (s, some send)
  | .transfer dst value => do
    let s ← s.transfer b.number sender dst value
    .ok (s, none)
  | .transferFrom src dst value => do
    let s ← s.transferFrom b.number sender src dst value
    .ok (s, none)
  | .approve spender value => do
    let s ← s.approve sender spender value
    .ok (s, none)
  | .delegate delegatee => do
    let s ← s.delegate b.number sender delegatee
    .ok (s, none)
  | .setExcluded account isExcluded => do
    let s ← s.setExcluded b.number sender account isExcluded
    .ok (s, none)

/-! ## The supply of a past block is final -/

/-- `s'` has the total supply of `s` at every block before `clock`. -/
def SupplyKept (clock : Nat) (s s' : GembaVotes) : Prop :=
  ∀ tp < clock, s'.totalCheckpoints.upperLookup tp = s.totalCheckpoints.upperLookup tp

section
variable {s s' : GembaVotes} {clock : Nat} {src dst account : Address} {value : Nat}

theorem SupplyKept.of_eq (h : s'.totalCheckpoints = s.totalCheckpoints) : SupplyKept clock s s' :=
  fun tp _ => by rw [h]

theorem SupplyKept.trans {s'' : GembaVotes} (h : SupplyKept clock s s')
    (h' : SupplyKept clock s' s'') : SupplyKept clock s s'' :=
  fun tp htp => (h' tp htp).trans (h tp htp)

theorem pushAdd_lookup {t t' : History} (h : pushAdd t clock value = .ok t') :
    ∀ tp < clock, t'.upperLookup tp = t.upperLookup tp := by
  obtain ⟨delta, -, h⟩ := bind_eq_ok.mp h
  obtain ⟨-, h⟩ := failIf_bind_eq_ok.mp h
  exact pushCheckpoint_lookup h

theorem pushSubtract_lookup {t t' : History} (h : pushSubtract t clock value = .ok t') :
    ∀ tp < clock, t'.upperLookup tp = t.upperLookup tp := by
  obtain ⟨delta, -, h⟩ := bind_eq_ok.mp h
  obtain ⟨result, -, h⟩ := bind_eq_ok.mp h
  exact pushCheckpoint_lookup h

/-- Moving power between delegatees does not touch the total. -/
theorem moveDelegateVotes_total (h : s.moveDelegateVotes clock src dst value = .ok s') :
    s'.totalCheckpoints = s.totalCheckpoints := by
  unfold moveDelegateVotes at h
  by_cases hnop : src = dst ∨ value = 0
  · rw [if_pos hnop] at h
    injection h with h
    rw [h]
  · rw [if_neg hnop] at h
    obtain ⟨s₁, h₁, h₂⟩ := bind_eq_ok.mp h
    have hfirst : s₁.totalCheckpoints = s.totalCheckpoints := by
      by_cases hsrc : src = 0
      · rw [if_pos hsrc] at h₁
        injection h₁ with h₁
        rw [h₁]
      · rw [if_neg hsrc] at h₁
        obtain ⟨t, -, h₁⟩ := bind_eq_ok.mp h₁
        injection h₁ with h₁
        rw [← h₁]
        rfl
    by_cases hdst : dst = 0
    · rw [if_pos hdst] at h₂
      injection h₂ with h₂
      rw [← h₂, hfirst]
    · rw [if_neg hdst] at h₂
      obtain ⟨t, -, h₂⟩ := bind_eq_ok.mp h₂
      injection h₂ with h₂
      rw [← h₂]
      exact hfirst

theorem transferVotingUnits_supply (h : s.transferVotingUnits clock src dst value = .ok s') :
    SupplyKept clock s s' := by
  obtain ⟨s₁, h₁, h⟩ := bind_eq_ok.mp h
  obtain ⟨s₂, h₂, h₃⟩ := bind_eq_ok.mp h
  have hmint : SupplyKept clock s s₁ := by
    by_cases hsrc : src = 0
    · rw [if_pos hsrc] at h₁
      obtain ⟨t, ht, h₁⟩ := bind_eq_ok.mp h₁
      injection h₁ with h₁
      rw [← h₁]
      exact pushAdd_lookup ht
    · rw [if_neg hsrc] at h₁
      injection h₁ with h₁
      exact .of_eq (by rw [h₁])
  have hburn : SupplyKept clock s₁ s₂ := by
    by_cases hdst : dst = 0
    · rw [if_pos hdst] at h₂
      obtain ⟨t, ht, h₂⟩ := bind_eq_ok.mp h₂
      injection h₂ with h₂
      rw [← h₂]
      exact pushSubtract_lookup ht
    · rw [if_neg hdst] at h₂
      injection h₂ with h₂
      exact .of_eq (by rw [h₂])
  exact (hmint.trans hburn).trans (.of_eq (moveDelegateVotes_total h₃))

theorem update_supply (h : s.update clock src dst value = .ok s') : SupplyKept clock s s' := by
  obtain ⟨-, h⟩ := failIf_bind_eq_ok.mp h
  obtain ⟨erc20, -, h⟩ := bind_eq_ok.mp h
  obtain ⟨-, h⟩ := failIf_bind_eq_ok.mp h
  have hunits := transferVotingUnits_supply h
  exact hunits

theorem transfer_supply (h : s.transfer clock src dst value = .ok s') : SupplyKept clock s s' := by
  obtain ⟨-, h⟩ := failIf_bind_eq_ok.mp h
  obtain ⟨-, h⟩ := failIf_bind_eq_ok.mp h
  exact update_supply h

theorem approve_supply (h : s.approve src dst value = .ok s') : SupplyKept clock s s' := by
  obtain ⟨erc20, -, h⟩ := bind_eq_ok.mp h
  injection h with h
  exact .of_eq (by rw [← h])

theorem moveDelegation_supply (h : s.moveDelegation clock account dst = .ok s') :
    SupplyKept clock s s' := by
  unfold moveDelegation at h
  have htotal := moveDelegateVotes_total h
  exact .of_eq htotal

theorem delegate_supply (h : s.delegate clock account dst = .ok s') : SupplyKept clock s s' := by
  obtain ⟨-, h⟩ := failIf_bind_eq_ok.mp h
  exact moveDelegation_supply h

theorem delegateBySig_supply {b : Block} {nonce expiry : Nat}
    (h : s.delegateBySig b account dst nonce expiry = .ok s') : SupplyKept b.number s s' := by
  obtain ⟨-, h⟩ := failIf_bind_eq_ok.mp h
  obtain ⟨-, h⟩ := failIf_bind_eq_ok.mp h
  obtain ⟨-, h⟩ := failIf_bind_eq_ok.mp h
  have hdelegate := delegate_supply h
  exact hdelegate

theorem permit_supply {b : Block} {deadline : Nat} (h : s.permit b src dst value deadline = .ok s') :
    SupplyKept b.number s s' := by
  obtain ⟨-, h⟩ := failIf_bind_eq_ok.mp h
  have happrove := @approve_supply _ _ b.number _ _ _ h
  exact happrove

/-- What the call of an account comes down to, and what it sends out. -/
inductive Called (s : GembaVotes) (b : Block) (sender : Address) (value : Nat) :
    GembaVotes → Option Send → Prop where
  | mint {s' : GembaVotes} (dst : Address) (hdst : dst ≠ 0)
      (h : s.update b.number 0 dst value = .ok s') : Called s b sender value s' none
  | burn {s' : GembaVotes} (dst : Address) (amount : Nat) (hsender : sender ≠ 0)
      (h : s.update b.number sender 0 amount = .ok s') :
      Called s b sender value { s' with entered := true } (some ⟨dst, amount⟩)
  | transfer {s' : GembaVotes} (dst : Address) (amount : Nat)
      (h : s.transfer b.number sender dst amount = .ok s') : Called s b sender value s' none
  | transferFrom {s' : GembaVotes} (src dst : Address) (amount : Nat) {erc20 : Erc20}
      (herc20 : s.erc20.spendAllowance src sender amount = .ok erc20)
      (h : { s with erc20 }.transfer b.number src dst amount = .ok s') :
      Called s b sender value s' none
  | approve {s' : GembaVotes} (spender : Address) (amount : Nat)
      (h : s.approve sender spender amount = .ok s') : Called s b sender value s' none
  | delegate {s' : GembaVotes} (delegatee : Address)
      (h : s.delegate b.number sender delegatee = .ok s') : Called s b sender value s' none
  | setExcluded {s' : GembaVotes} (account : Address) (isExcluded : Bool)
      (h : s.setExcluded b.number sender account isExcluded = .ok s') :
      Called s b sender value s' none

theorem called_of_call {b : Block} {sender : Address} {fn : VotesFn} {out : Option Send}
    (h : s.call b sender value fn = .ok (s', out)) : Called s b sender value s' out := by
  obtain ⟨-, h⟩ := failIf_bind_eq_ok.mp h
  cases fn with
  | depositFor dst =>
    obtain ⟨s₁, h₁, h⟩ := bind_eq_ok.mp h
    obtain ⟨rfl, rfl⟩ := ok_pair h
    obtain ⟨hdst, h₁⟩ := failIf_bind_eq_ok.mp h₁
    obtain ⟨-, h₁⟩ := failIf_bind_eq_ok.mp h₁
    obtain ⟨-, h₁⟩ := failIf_bind_eq_ok.mp h₁
    exact .mint dst hdst h₁
  | withdrawTo dst amount =>
    obtain ⟨⟨s₁, send⟩, h₁, h⟩ := bind_eq_ok.mp h
    obtain ⟨rfl, rfl⟩ := ok_pair h
    obtain ⟨-, h₁⟩ := failIf_bind_eq_ok.mp h₁
    obtain ⟨-, h₁⟩ := failIf_bind_eq_ok.mp h₁
    obtain ⟨-, h₁⟩ := failIf_bind_eq_ok.mp h₁
    obtain ⟨hsender, h₁⟩ := failIf_bind_eq_ok.mp h₁
    obtain ⟨s₂, h₂, h₁⟩ := bind_eq_ok.mp h₁
    obtain ⟨rfl, rfl⟩ := ok_pair h₁
    exact .burn dst amount hsender h₂
  | transfer dst amount =>
    obtain ⟨s₁, h₁, h⟩ := bind_eq_ok.mp h
    obtain ⟨rfl, rfl⟩ := ok_pair h
    exact .transfer dst amount h₁
  | transferFrom src dst amount =>
    obtain ⟨s₁, h₁, h⟩ := bind_eq_ok.mp h
    obtain ⟨rfl, rfl⟩ := ok_pair h
    obtain ⟨erc20, herc20, h₁⟩ := bind_eq_ok.mp h₁
    exact .transferFrom src dst amount herc20 h₁
  | approve spender amount =>
    obtain ⟨s₁, h₁, h⟩ := bind_eq_ok.mp h
    obtain ⟨rfl, rfl⟩ := ok_pair h
    exact .approve spender amount h₁
  | delegate delegatee =>
    obtain ⟨s₁, h₁, h⟩ := bind_eq_ok.mp h
    obtain ⟨rfl, rfl⟩ := ok_pair h
    exact .delegate delegatee h₁
  | setExcluded account isExcluded =>
    obtain ⟨s₁, h₁, h⟩ := bind_eq_ok.mp h
    obtain ⟨rfl, rfl⟩ := ok_pair h
    exact .setExcluded account isExcluded h₁

theorem setExcluded_supply {sender : Address} {isExcluded : Bool}
    (h : s.setExcluded clock sender account isExcluded = .ok s') : SupplyKept clock s s' := by
  obtain ⟨-, h⟩ := failIf_bind_eq_ok.mp h
  cases isExcluded with
  | false =>
    injection h with h
    exact .of_eq (by rw [← h])
  | true =>
    have hmove := moveDelegation_supply h
    exact hmove

/-- **No call changes the total supply of an earlier block.** -/
theorem call_supply {b : Block} {sender : Address} {fn : VotesFn} {out : Option Send}
    (h : s.call b sender value fn = .ok (s', out)) : SupplyKept b.number s s' := by
  replace h := called_of_call h
  cases h with
  | mint dst hdst h => exact update_supply h
  | burn dst amount hsender h =>
    have hburn := update_supply h
    exact hburn
  | transfer dst amount h => exact transfer_supply h
  | transferFrom src dst amount herc20 h =>
    have htransfer := transfer_supply h
    exact htransfer
  | approve spender amount h => exact approve_supply h
  | delegate delegatee h => exact delegate_supply h
  | setExcluded account isExcluded h => exact setExcluded_supply h

end
end GembaVotes
end Gemba.Governance
