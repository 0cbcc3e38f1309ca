/-
  `GembaTimelock`: OpenZeppelin's `TimelockController`, with nothing added.

  Operations are scheduled by proposers, wait at least `minDelay`, and are then executed by an
  executor, or by anyone once the executor role is open.  The Timelock administers itself: its delay
  and its roles change only in calls it makes to itself.

  An operation's id is a hash of its content, which is taken to be the content.  A predecessor is
  part of the content; that it has to be done first only delays the operation, and is left out.

  * `schedule`, `cancel`, `beforeCall` and `afterCall` are the life of an operation; the calls in
    between are made by whoever steps the chain.
  * `configure` is the self-administration; `configure_hasRole` says who can gain by it.
-/
import Gemba.Evm.Abi

namespace Gemba.Governance

open Gemba.Lib Gemba.Evm

/-- A call an operation makes: its target, its native value and its calldata. -/
structure Action where
  target : Address
  value : Nat
  data : Bytes
deriving DecidableEq, Repr

/-- What `hashOperation` and `hashOperationBatch` hash. -/
structure Operation where
  calls : List Action
  predecessor : BitVec 256
  salt : BitVec 256
  /-- Scheduled by `scheduleBatch`, not by `schedule`. -/
  batch : Bool
deriving DecidableEq, Repr

/-- The storage of a Timelock. -/
structure Timelock where
  minDelay : Nat
  hasRole : Nat → Address → Bool
  timestamps : Operation → Nat

def DEFAULT_ADMIN_ROLE : Nat := 0
def PROPOSER_ROLE : Nat := 0xb09aa5aeb3702cfd50b6b62bc4532604938f21248a27a1d5ca736082b6819cc1
def EXECUTOR_ROLE : Nat := 0xd8aa0f3194971a2a116679f7c2090f6939c8d4e01a2a8d7e41d55e5351469e63
def CANCELLER_ROLE : Nat := 0xfd643c72710c63c0180259aba6b2d05451e3591a24e58b62239378085726f783

/-- `_DONE_TIMESTAMP`. -/
def DONE_TIMESTAMP : Nat := 1

/-- `OperationState`. -/
inductive OperationState where
  | unset | waiting | ready | done
deriving DecidableEq, Repr

namespace Timelock

/-- `constructor(minDelay, proposers, executors, admin)`, at the address `self`. -/
def construct (self : Address) (minDelay : Nat) (proposers executors : List Address)
    (admin : Address) : Timelock where
  minDelay
  hasRole := fun role a =>
    (role = DEFAULT_ADMIN_ROLE ∧ (a = self ∨ (admin ≠ 0 ∧ a = admin)))
      ∨ ((role = PROPOSER_ROLE ∨ role = CANCELLER_ROLE) ∧ a ∈ proposers)
      ∨ (role = EXECUTOR_ROLE ∧ a ∈ executors)
  timestamps := fun _ => 0

/-- `_checkRole(role, sender)`. -/
def onlyRole (t : Timelock) (role : Nat) (sender : Address) : Call PUnit :=
  failIf (t.hasRole role sender = false)
    (.custom "AccessControlUnauthorizedAccount" [sender.toNat, role])

/-- `onlyRoleOrOpenRole(role)`: granted to the zero address, the role is everyone's. -/
def onlyRoleOrOpenRole (t : Timelock) (role : Nat) (sender : Address) : Call PUnit :=
  if t.hasRole role 0 then .ok ⟨⟩ else t.onlyRole role sender

/-! ## The life of an operation -/

/-- `getOperationState(id)` at time `now`. -/
def operationState (t : Timelock) (now : Nat) (op : Operation) : OperationState :=
  if t.timestamps op = 0 then .unset
  else if t.timestamps op = DONE_TIMESTAMP then .done
  else if now < t.timestamps op then .waiting
  else .ready

/-- `isOperationPending(id)`. -/
def isPending (t : Timelock) (now : Nat) (op : Operation) : Bool :=
  t.operationState now op = .waiting ∨ t.operationState now op = .ready

def setTimestamp (t : Timelock) (op : Operation) (ts : Nat) : Timelock :=
  { t with timestamps := fun o => if o = op then ts else t.timestamps o }

/-- `schedule` and `scheduleBatch`. -/
def schedule (t : Timelock) (sender : Address) (now : Nat) (op : Operation) (delay : Nat) :
    Call Timelock := do
  t.onlyRole PROPOSER_ROLE sender
  failIf (t.timestamps op ≠ 0) (err "TimelockUnexpectedOperationState")
  failIf (delay < t.minDelay) (.custom "TimelockInsufficientDelay" [delay, t.minDelay])
  let ts ← add now delay
  .ok (t.setTimestamp op ts)

/-- `cancel(id)`. -/
def cancel (t : Timelock) (sender : Address) (now : Nat) (op : Operation) : Call Timelock := do
  t.onlyRole CANCELLER_ROLE sender
  failIf (t.isPending now op = false) (err "TimelockUnexpectedOperationState")
  .ok (t.setTimestamp op 0)

/-- The checks of `execute` and `executeBatch`, before the calls. -/
def beforeCall (t : Timelock) (sender : Address) (now : Nat) (op : Operation) : Call PUnit := do
  t.onlyRoleOrOpenRole EXECUTOR_ROLE sender
  failIf (t.operationState now op ≠ .ready) (err "TimelockUnexpectedOperationState")

/-- `_afterCall(id)`, after the last call. -/
def afterCall (t : Timelock) (now : Nat) (op : Operation) : Call Timelock := do
  failIf (t.operationState now op ≠ .ready) (err "TimelockUnexpectedOperationState")
  .ok (t.setTimestamp op DONE_TIMESTAMP)

/-! ## Self-administration -/

end Timelock

/-- The functions that change a Timelock's configuration. -/
inductive TimelockFn where
  | updateDelay (newDelay : Nat)
  | grantRole (role : Nat) (account : Address)
  | revokeRole (role : Nat) (account : Address)
  | renounceRole (role : Nat) (callerConfirmation : Address)
deriving DecidableEq, Repr

namespace TimelockFn

/-- The selector of each function. -/
def sel : TimelockFn → Nat
  | .updateDelay .. => 0x64d62353
  | .grantRole .. => 0x2f2ff15d
  | .revokeRole .. => 0xd547741f
  | .renounceRole .. => 0x36568abe

/-- The dispatch table. -/
def table : List (Entry sel) :=
  [.args1 0x64d62353 (word 0) .updateDelay fun _ => rfl,
   .args2 0x2f2ff15d (word 0) (addressArg 1) .grantRole fun _ _ => rfl,
   .args2 0xd547741f (word 0) (addressArg 1) .revokeRole fun _ _ => rfl,
   .args2 0x36568abe (word 0) (addressArg 1) .renounceRole fun _ _ => rfl]

/-- The function calldata calls, with its arguments. -/
def decode (data : Bytes) : Option TimelockFn := dispatch table data

/-- The selectors of `schedule`, `scheduleBatch`, `cancel`, `execute` and `executeBatch`. -/
def operationSelectors : List Nat := [0x01d5062a, 0x8f2a0bb0, 0xc4d252f5, 0x134008d3, 0xe38335e5]

end TimelockFn

namespace Timelock

def setRole (t : Timelock) (role : Nat) (account : Address) (granted : Bool) : Timelock :=
  { t with hasRole := fun r a => if r = role ∧ a = account then granted else t.hasRole r a }

/-- A configuration call to the Timelock at `self`.  Every role is administered by the default admin
    role. -/
def configure (t : Timelock) (self sender : Address) (fn : TimelockFn) : Call Timelock :=
  match fn with
  | .updateDelay newDelay => do
    failIf (sender ≠ self) (.custom "TimelockUnauthorizedCaller" [sender.toNat])
    .ok { t with minDelay := newDelay }
  | .grantRole role account => do
    t.onlyRole DEFAULT_ADMIN_ROLE sender
    .ok (t.setRole role account true)
  | .revokeRole role account => do
    t.onlyRole DEFAULT_ADMIN_ROLE sender
    .ok (t.setRole role account false)
  | .renounceRole role callerConfirmation => do
    failIf (callerConfirmation ≠ sender) (err "AccessControlBadConfirmation")
    .ok (t.setRole role sender false)

/-! ## What each call does -/

/-- The delay and the roles: what a Timelock's configuration is. -/
structure SameConfig (t t' : Timelock) : Prop where
  minDelay : t'.minDelay = t.minDelay
  hasRole : t'.hasRole = t.hasRole

section
variable {t t' : Timelock} {self sender : Address} {now delay : Nat} {op : Operation}

theorem SameConfig.refl (t : Timelock) : SameConfig t t := ⟨rfl, rfl⟩

@[simp] theorem onlyRole_eq_ok {role : Nat} {x : PUnit} :
    t.onlyRole role sender = .ok x ↔ t.hasRole role sender = true := by
  unfold onlyRole
  rw [failIf_eq_ok, Bool.not_eq_false]

@[simp] theorem setTimestamp_same (t : Timelock) (op : Operation) (ts : Nat) :
    (t.setTimestamp op ts).timestamps op = ts := if_pos rfl

theorem setTimestamp_of_ne {o : Operation} {ts : Nat} (h : o ≠ op) :
    (t.setTimestamp op ts).timestamps o = t.timestamps o := if_neg h

/-- Only a proposer schedules. -/
theorem schedule_spec (h : t.schedule sender now op delay = .ok t') :
    t.hasRole PROPOSER_ROLE sender = true ∧ t.timestamps op = 0 ∧ t.minDelay ≤ delay ∧
      t' = t.setTimestamp op (now + delay) := by
  obtain ⟨⟨⟩, hrole, h⟩ := bind_eq_ok.mp h
  obtain ⟨⟨⟩, hfresh, h⟩ := bind_eq_ok.mp h
  obtain ⟨⟨⟩, hdelay, h⟩ := bind_eq_ok.mp h
  obtain ⟨ts, hts, h⟩ := bind_eq_ok.mp h
  obtain ⟨-, rfl⟩ := add_eq_ok.mp hts
  rw [failIf_eq_ok, not_not] at hfresh
  rw [failIf_eq_ok] at hdelay
  injection h with h
  exact ⟨onlyRole_eq_ok.mp hrole, hfresh, by omega, h.symm⟩

theorem cancel_spec (h : t.cancel sender now op = .ok t') : t' = t.setTimestamp op 0 := by
  obtain ⟨-, h⟩ := failIf_bind_eq_ok.mp h
  obtain ⟨-, h⟩ := failIf_bind_eq_ok.mp h
  injection h with h
  exact h.symm

/-- Only an operation that was scheduled is executed. -/
theorem beforeCall_spec {x : PUnit} (h : t.beforeCall sender now op = .ok x) :
    t.operationState now op = .ready := by
  obtain ⟨⟨⟩, -, h⟩ := bind_eq_ok.mp h
  rw [failIf_eq_ok, not_not] at h
  exact h

theorem timestamps_of_ready (h : t.operationState now op = .ready) : t.timestamps op ≠ 0 := by
  intro hz
  rw [operationState, if_pos hz] at h
  nomatch h

theorem afterCall_spec (h : t.afterCall now op = .ok t') :
    t.timestamps op ≠ 0 ∧ t' = t.setTimestamp op DONE_TIMESTAMP := by
  obtain ⟨hready, h⟩ := failIf_bind_eq_ok.mp h
  rw [not_not] at hready
  injection h with h
  exact ⟨timestamps_of_ready hready, h.symm⟩

/-- A configuration call changes no operation. -/
theorem configure_timestamps {fn : TimelockFn} (h : t.configure self sender fn = .ok t') :
    t'.timestamps = t.timestamps := by
  cases fn with
  | updateDelay newDelay =>
    obtain ⟨-, h⟩ := failIf_bind_eq_ok.mp h
    injection h with h
    rw [← h]
  | grantRole role account =>
    obtain ⟨-, h⟩ := failIf_bind_eq_ok.mp h
    injection h with h
    rw [← h]
    rfl
  | revokeRole role account =>
    obtain ⟨-, h⟩ := failIf_bind_eq_ok.mp h
    injection h with h
    rw [← h]
    rfl
  | renounceRole role callerConfirmation =>
    obtain ⟨-, h⟩ := failIf_bind_eq_ok.mp h
    injection h with h
    rw [← h]
    rfl

/-- **Who holds no role changes nothing**, but the Timelock itself. -/
theorem configure_sameConfig {fn : TimelockFn} (h : t.configure self sender fn = .ok t')
    (hself : sender ≠ self) (hnone : ∀ role, t.hasRole role sender = false) : t.SameConfig t' := by
  cases fn with
  | updateDelay newDelay =>
    obtain ⟨hsender, -⟩ := failIf_bind_eq_ok.mp h
    exact absurd hself hsender
  | grantRole role account =>
    obtain ⟨⟨⟩, hrole, -⟩ := bind_eq_ok.mp h
    rw [onlyRole_eq_ok, hnone] at hrole
    nomatch hrole
  | revokeRole role account =>
    obtain ⟨⟨⟩, hrole, -⟩ := bind_eq_ok.mp h
    rw [onlyRole_eq_ok, hnone] at hrole
    nomatch hrole
  | renounceRole role callerConfirmation =>
    obtain ⟨-, h⟩ := failIf_bind_eq_ok.mp h
    injection h with h
    rw [← h]
    refine ⟨rfl, funext fun r => funext fun a => ?_⟩
    show (if r = role ∧ a = sender then false else t.hasRole r a) = t.hasRole r a
    by_cases hsame : r = role ∧ a = sender
    · rw [if_pos hsame, hsame.2, hnone]
    · rw [if_neg hsame]

/-- **Nobody but an administrator gains a role.**  A caller that is not one can only renounce its
    own. -/
theorem configure_hasRole {fn : TimelockFn} {role : Nat} {a : Address}
    (h : t.configure self sender fn = .ok t') (hadmin : t.hasRole DEFAULT_ADMIN_ROLE sender = false)
    (ha : t'.hasRole role a = true) : t.hasRole role a = true := by
  cases fn with
  | updateDelay newDelay =>
    obtain ⟨-, h⟩ := failIf_bind_eq_ok.mp h
    injection h with h
    rw [← h] at ha
    exact ha
  | grantRole role' account =>
    obtain ⟨⟨⟩, hrole, -⟩ := bind_eq_ok.mp h
    rw [onlyRole_eq_ok, hadmin] at hrole
    nomatch hrole
  | revokeRole role' account =>
    obtain ⟨⟨⟩, hrole, -⟩ := bind_eq_ok.mp h
    rw [onlyRole_eq_ok, hadmin] at hrole
    nomatch hrole
  | renounceRole role' callerConfirmation =>
    obtain ⟨-, h⟩ := failIf_bind_eq_ok.mp h
    injection h with h
    rw [← h] at ha
    change (if role = role' ∧ a = sender then false else t.hasRole role a) = true at ha
    by_cases hsame : role = role' ∧ a = sender
    · rw [if_pos hsame] at ha
      nomatch ha
    · rwa [if_neg hsame] at ha

end
end Timelock
end Gemba.Governance
