/-
  `GembaGovernor`: OpenZeppelin's Governor with two tiers.

  A proposal is a list of calls and the hash of a description; its id is a hash of both, which is
  taken to be both.  `propose` fixes its tier from its calls, and from then on its votes are judged at
  that tier's quorum and supermajority.  Configuration changes are calls the Governor accepts from
  its Timelock only, and only while it is executing a proposal that makes them: `governanceCall` holds
  the calldata of those calls.

  What the Governor reads of the chain is a `View`: the block, the vote token and the Timelocks.  What
  it does to its Timelock is returned, as the Timelock after the call.

  1. The library functions and the overrides, under the source's names.
  2. `classify_eq_false` — what a Standard proposal cannot contain.
  3. `critical_le_standard_iff` — when passing at the Critical tier implies passing at the Standard
     one: exactly while the Standard quorum is at most the Critical quorum.
  4. The `_spec` lemmas: what each entry point changes.
-/
import Gemba.Governance.GembaVotes
import Gemba.Governance.Timelock

namespace Gemba.Governance

open Gemba.Lib Gemba.Evm

/-- What `hashProposal` hashes. -/
structure ProposalId where
  calls : List Action
  descriptionHash : BitVec 256
deriving DecidableEq, Repr

/-- What the Governor reads of a description: its hash, and the proposer it is reserved for when it
    ends in `#proposer=0x…`. -/
structure Description where
  hash : BitVec 256
  proposer : Option Address
deriving DecidableEq, Repr

/-- `_isValidDescriptionForProposer(proposer, description)`. -/
def Description.validFor (description : Description) (proposer : Address) : Bool :=
  match description.proposer with
  | none => true
  | some a => a = proposer

/-- `ProposalCore`. -/
structure ProposalCore where
  proposer : Address
  voteStart : Nat
  voteDuration : Nat
  executed : Bool
  canceled : Bool
  etaSeconds : Nat
deriving DecidableEq, Repr

/-- The votes cast on a proposal. -/
structure Tally where
  againstVotes : Nat
  forVotes : Nat
  abstainVotes : Nat
deriving DecidableEq, Repr

/-- `ProposalVote`. -/
structure ProposalVote extends Tally where
  hasVoted : Address → Bool

/-- `ProposalState`. -/
inductive ProposalState where
  | pending | active | canceled | defeated | succeeded | queued | expired | executed
deriving DecidableEq, Repr

/-- The storage of the Governor. -/
structure GembaGovernor where
  supermajorityNumerator : Nat
  criticalQuorumNumerator : Nat
  criticalSupermajorityNumerator : Nat
  criticalTarget : Address → Bool
  isCritical : ProposalId → Bool
  proposals : ProposalId → ProposalCore
  proposalVotes : ProposalId → ProposalVote
  votingDelay : Nat
  votingPeriod : Nat
  proposalThreshold : Nat
  quorumNumeratorHistory : History
  timelock : Address
  /-- `_timelockIds`; `none` is the zero id. -/
  timelockIds : ProposalId → Option Operation
  /-- The calls to the Governor itself that the proposal under execution makes. -/
  governanceCall : List Bytes

/-- What the Governor reads of the chain. -/
structure View where
  block : Block
  token : GembaVotes
  timelocks : Address → Option Timelock

/-- `clock()`. -/
def View.clock (v : View) : Nat := v.block.number

def SEL_UPGRADE_TO_AND_CALL : Nat := 0x4f1ef286
def SEL_UPGRADE_TO : Nat := 0x3659cfe6
def SEL_RELEASE : Nat := 0x0357371d

/-- `quorumDenominator()`. -/
def quorumDenominator : Nat := 100

namespace GembaGovernor

/-! ## Construction -/

/-- The arguments of the constructor, but for the token. -/
structure Args where
  timelock : Address
  votingDelay : Nat
  votingPeriod : Nat
  proposalThreshold : Nat
  quorumNumerator : Nat
  supermajorityNumerator : Nat
  criticalQuorumNumerator : Nat
  criticalSupermajorityNumerator : Nat
deriving DecidableEq, Repr

/-- The constructor, run at block `clock`. -/
def construct (a : Args) (clock : Nat) : Call GembaGovernor := do
  failIf (a.votingPeriod = 0) (.custom "GovernorInvalidVotingPeriod" [0])
  failIf (quorumDenominator < a.quorumNumerator)
    (.custom "GovernorInvalidQuorumFraction" [a.quorumNumerator, quorumDenominator])
  failIf (a.supermajorityNumerator < 51 ∨ 100 < a.supermajorityNumerator) (err "InvalidSupermajority")
  failIf (a.criticalSupermajorityNumerator < a.supermajorityNumerator
    ∨ 100 < a.criticalSupermajorityNumerator) (err "InvalidSupermajority")
  failIf (a.criticalQuorumNumerator < a.quorumNumerator
    ∨ quorumDenominator < a.criticalQuorumNumerator) (err "InvalidSupermajority")
  .ok
    { supermajorityNumerator := a.supermajorityNumerator
      criticalQuorumNumerator := a.criticalQuorumNumerator
      criticalSupermajorityNumerator := a.criticalSupermajorityNumerator
      criticalTarget := fun _ => false
      isCritical := fun _ => false
      proposals := fun _ => ⟨0, 0, 0, false, false, 0⟩
      proposalVotes := fun _ => ⟨⟨0, 0, 0⟩, fun _ => false⟩
      votingDelay := a.votingDelay
      votingPeriod := a.votingPeriod
      proposalThreshold := a.proposalThreshold
      quorumNumeratorHistory := [(clock, a.quorumNumerator)]
      timelock := a.timelock
      timelockIds := fun _ => none
      governanceCall := [] }

/-! ## Tiers and votes -/

/-- `quorumNumerator()`: the latest checkpoint. -/
def quorumNumerator (g : GembaGovernor) : Nat := g.quorumNumeratorHistory.latest

/-- `quorum(timepoint)`: the checkpoint at `timepoint`. -/
def quorum (g : GembaGovernor) (v : View) (timepoint : Nat) : Call Nat := do
  let supply ← v.token.getPastTotalSupply v.clock timepoint
  div (← mul supply (g.quorumNumeratorHistory.upperLookup timepoint)) quorumDenominator

/-- `proposalSnapshot(proposalId)`. -/
def proposalSnapshot (g : GembaGovernor) (pid : ProposalId) : Nat := (g.proposals pid).voteStart

/-- `proposalDeadline(proposalId)`. -/
def proposalDeadline (g : GembaGovernor) (pid : ProposalId) : Nat :=
  (g.proposals pid).voteStart + (g.proposals pid).voteDuration

/-- The quorum numerator of a tier. -/
def quorumTier (g : GembaGovernor) (critical : Bool) : Nat :=
  if critical then g.criticalQuorumNumerator else g.quorumNumerator

/-- The supermajority numerator of a tier. -/
def supermajorityTier (g : GembaGovernor) (critical : Bool) : Nat :=
  if critical then g.criticalSupermajorityNumerator else g.supermajorityNumerator

/-- The quorum a tier asks of a snapshot supply. -/
def quorumThreshold (g : GembaGovernor) (critical : Bool) (supply : Nat) : Call Nat := do
  div (← mul supply (g.quorumTier critical)) quorumDenominator

/-- Whether a tally reaches a tier's quorum. -/
def quorumReachedAt (g : GembaGovernor) (critical : Bool) (supply : Nat) (t : Tally) : Call Bool := do
  let threshold ← g.quorumThreshold critical supply
  let votes ← add t.forVotes t.abstainVotes
  .ok (decide (threshold ≤ votes))

/-- Whether a tally reaches a tier's supermajority. -/
def voteSucceededAt (g : GembaGovernor) (critical : Bool) (t : Tally) : Call Bool := do
  let decisive ← add t.forVotes t.againstVotes
  if decisive = 0 then .ok false
  else do
    let votes ← mul t.forVotes 100
    let needed ← mul decisive (g.supermajorityTier critical)
    .ok (decide (needed ≤ votes))

/-- `_quorumReached(proposalId)`. -/
def quorumReached (g : GembaGovernor) (v : View) (pid : ProposalId) : Call Bool := do
  let supply ← v.token.getPastTotalSupply v.clock (g.proposalSnapshot pid)
  g.quorumReachedAt (g.isCritical pid) supply (g.proposalVotes pid).toTally

/-- `_voteSucceeded(proposalId)`. -/
def voteSucceeded (g : GembaGovernor) (pid : ProposalId) : Call Bool :=
  g.voteSucceededAt (g.isCritical pid) (g.proposalVotes pid).toTally

/-- `_quorumReached(proposalId) && _voteSucceeded(proposalId)`. -/
def passed (g : GembaGovernor) (v : View) (pid : ProposalId) : Call Bool := do
  let reached ← g.quorumReached v pid
  andThen reached (g.voteSucceeded pid)

/-! ## The state of a proposal -/

/-- `Governor.state(proposalId)`. -/
def coreState (g : GembaGovernor) (v : View) (pid : ProposalId) : Call ProposalState :=
  if (g.proposals pid).executed then .ok .executed
  else if (g.proposals pid).canceled then .ok .canceled
  else if g.proposalSnapshot pid = 0 then .error (err "GovernorNonexistentProposal")
  else if v.clock ≤ g.proposalSnapshot pid then .ok .pending
  else if v.clock ≤ g.proposalDeadline pid then .ok .active
  else do
    let passed ← g.passed v pid
    .ok (if passed = false then .defeated
      else if (g.proposals pid).etaSeconds = 0 then .succeeded
      else .queued)

/-- `GovernorTimelockControl.state(proposalId)`: a queued proposal may have been executed or
    cancelled on the Timelock. -/
def state (g : GembaGovernor) (v : View) (pid : ProposalId) : Call ProposalState := do
  let s ← g.coreState v pid
  if s ≠ .queued then .ok s
  else
    match v.timelocks g.timelock with
    | none => .error .external
    | some t =>
      match g.timelockIds pid with
      | none => .ok .canceled
      | some op =>
        .ok (if t.isPending v.block.timestamp op then .queued
          else if t.operationState v.block.timestamp op = .done then .executed
          else .canceled)

/-- `_validateStateBitmap(proposalId, allowed)`. -/
def validateState (g : GembaGovernor) (v : View) (pid : ProposalId) (allowed : List ProposalState) :
    Call PUnit := do
  let s ← g.state v pid
  failIf (s ∉ allowed) (err "GovernorUnexpectedProposalState")

/-! ## Proposing and voting -/

def setProposal (g : GembaGovernor) (pid : ProposalId) (p : ProposalCore) : GembaGovernor :=
  { g with proposals := fun x => if x = pid then p else g.proposals x }

section
variable (self : Address)

/-- The tier of a list of calls: the loop of `propose`, which stops at the first critical call. -/
def classify (g : GembaGovernor) : List Action → Bool
  | [] => false
  | c :: rest =>
    if c.target = self ∨ c.target = g.timelock ∨ g.criticalTarget c.target = true then true
    else if selector c.data = SEL_UPGRADE_TO_AND_CALL ∨ selector c.data = SEL_UPGRADE_TO
      ∨ selector c.data = SEL_RELEASE then true
    else classify g rest

/-- The proposal threshold check of `propose`: the proposer's votes one block ago. -/
def checkThreshold (g : GembaGovernor) (v : View) (proposer : Address) : Call PUnit :=
  if g.proposalThreshold = 0 then .ok ⟨⟩
  else do
    let timepoint ← sub v.clock 1
    let votes ← v.token.getPastVotes v.clock proposer timepoint
    failIf (votes < g.proposalThreshold)
      (.custom "GovernorInsufficientProposerVotes" [proposer.toNat, votes, g.proposalThreshold])

/-- `propose(targets, values, calldatas, description)`. -/
def propose (g : GembaGovernor) (v : View) (proposer : Address) (calls : List Action)
    (description : Description) : Call GembaGovernor := do
  failIf (description.validFor proposer = false) (err "GovernorRestrictedProposer")
  g.checkThreshold v proposer
  let pid : ProposalId := ⟨calls, description.hash⟩
  failIf (calls = []) (err "GovernorInvalidProposalLength")
  failIf (g.proposalSnapshot pid ≠ 0) (err "GovernorUnexpectedProposalState")
  let voteStart ← toUint 48 (v.clock + g.votingDelay)
  let voteDuration ← toUint 32 g.votingPeriod
  let g := g.setProposal pid
    { g.proposals pid with proposer, voteStart, voteDuration }
  let critical := g.classify self calls
  .ok { g with isCritical := fun x => if x = pid then critical else g.isCritical x }

/-- `_countVote(proposalId, account, support, totalWeight)`. -/
def countVote (p : ProposalVote) (account : Address) (support weight : Nat) : Call ProposalVote := do
  failIf (p.hasVoted account) (.custom "GovernorAlreadyCastVote" [account.toNat])
  let p := { p with hasVoted := fun a => if a = account then true else p.hasVoted a }
  if support = 0 then do
    let n ← add p.againstVotes weight
    .ok { p with againstVotes := n }
  else if support = 1 then do
    let n ← add p.forVotes weight
    .ok { p with forVotes := n }
  else if support = 2 then do
    let n ← add p.abstainVotes weight
    .ok { p with abstainVotes := n }
  else .error (err "GovernorInvalidVoteType")

/-- `_castVote(proposalId, account, support)`. -/
def castVote (g : GembaGovernor) (v : View) (account : Address) (pid : ProposalId) (support : Nat) :
    Call GembaGovernor := do
  g.validateState v pid [.active]
  let weight ← v.token.getPastVotes v.clock account (g.proposalSnapshot pid)
  let p ← countVote (g.proposalVotes pid) account support weight
  .ok { g with proposalVotes := fun x => if x = pid then p else g.proposalVotes x }

/-! ## Queueing, executing and cancelling -/

/-- `_timelockSalt(descriptionHash)`. -/
def timelockSalt (descriptionHash : BitVec 256) : BitVec 256 :=
  (self.setWidth 256 <<< 96) ^^^ descriptionHash

/-- The batch a proposal is on the Timelock. -/
def operation (pid : ProposalId) : Operation where
  calls := pid.calls
  predecessor := 0
  salt := timelockSalt self pid.descriptionHash
  batch := true

/-- The Timelock at an address. -/
def timelockAt (v : View) (a : Address) : Call Timelock :=
  match v.timelocks a with
  | some t => .ok t
  | none => .error .external

/-- `queue(targets, values, calldatas, descriptionHash)`: the Governor and its Timelock after it. -/
def queue (g : GembaGovernor) (v : View) (pid : ProposalId) : Call (GembaGovernor × Timelock) := do
  g.validateState v pid [.succeeded]
  let t ← timelockAt v g.timelock
  let delay := t.minDelay
  let t ← t.schedule self v.block.timestamp (operation self pid) delay
  let eta ← toUint 48 (v.block.timestamp + delay)
  failIf (eta = 0) (err "GovernorQueueNotImplemented")
  let g := { g with timelockIds := fun x => if x = pid then some (operation self pid)
                                            else g.timelockIds x }
  .ok (g.setProposal pid { g.proposals pid with etaSeconds := eta }, t)

/-- `execute(...)` up to the call of the Timelock: the proposal is marked executed, and its calls to
    the Governor are registered. -/
def beginExecute (g : GembaGovernor) (v : View) (pid : ProposalId) : Call GembaGovernor := do
  g.validateState v pid [.succeeded, .queued]
  let g := g.setProposal pid { g.proposals pid with executed := true }
  .ok (if g.timelock = self then g
    else { g with governanceCall := g.governanceCall
            ++ (pid.calls.filter (·.target = self)).map (·.data) })

/-- The rest of `execute(...)`, after the Timelock returned. -/
def endExecute (g : GembaGovernor) (pid : ProposalId) : GembaGovernor :=
  let g := { g with timelockIds := fun x => if x = pid then none else g.timelockIds x }
  if g.timelock = self then g else { g with governanceCall := [] }

/-- `cancel(targets, values, calldatas, descriptionHash)`: the Governor after it, and the Timelock
    when the proposal was queued there. -/
def cancel (g : GembaGovernor) (v : View) (sender : Address) (pid : ProposalId) :
    Call (GembaGovernor × Option Timelock) := do
  g.validateState v pid [.pending]
  failIf (sender ≠ (g.proposals pid).proposer) (.custom "GovernorOnlyProposer" [sender.toNat])
  let g := g.setProposal pid { g.proposals pid with canceled := true }
  match g.timelockIds pid with
  | none => .ok (g, none)
  | some op => do
    let t ← timelockAt v g.timelock
    let t ← t.cancel self v.block.timestamp op
    .ok ({ g with timelockIds := fun x => if x = pid then none else g.timelockIds x }, some t)

/-! ## Configuration -/

/-- Pop calls up to the one with this calldata; `none` when it is not there. -/
def popUntil (data : Bytes) : List Bytes → Option (List Bytes)
  | [] => none
  | d :: rest => if d = data then some rest else popUntil data rest

/-- `onlyGovernance`: the Timelock, and a call of the proposal under execution. -/
def onlyGovernance (g : GembaGovernor) (sender : Address) (data : Bytes) : Call GembaGovernor := do
  failIf (sender ≠ g.timelock) (.custom "GovernorOnlyExecutor" [sender.toNat])
  if g.timelock = self then .ok g
  else
    match popUntil data g.governanceCall with
    | some rest => .ok { g with governanceCall := rest }
    | none => .error (.panic 0x31)

end

end GembaGovernor

/-- The functions that change the Governor's configuration. -/
inductive GovernorFn where
  | setVotingDelay (newVotingDelay : Nat)
  | setVotingPeriod (newVotingPeriod : Nat)
  | setProposalThreshold (newProposalThreshold : Nat)
  | updateQuorumNumerator (newQuorumNumerator : Nat)
  | updateTimelock (newTimelock : Address)
  | setCriticalTarget (target : Address) (critical : Bool)
deriving DecidableEq, Repr

namespace GovernorFn

/-- The selector of each function. -/
def sel : GovernorFn → Nat
  | .setVotingDelay .. => 0x79051887
  | .setVotingPeriod .. => 0xe540d01d
  | .setProposalThreshold .. => 0xece40cc1
  | .updateQuorumNumerator .. => 0x06f3f9e6
  | .updateTimelock .. => 0xa890c910
  | .setCriticalTarget .. => 0x7bdc818a

/-- The dispatch table. -/
def table : List (Entry sel) :=
  [.args1 0x79051887 (uintArg 48 0) .setVotingDelay fun _ => rfl,
   .args1 0xe540d01d (uintArg 32 0) .setVotingPeriod fun _ => rfl,
   .args1 0xece40cc1 (word 0) .setProposalThreshold fun _ => rfl,
   .args1 0x06f3f9e6 (word 0) .updateQuorumNumerator fun _ => rfl,
   .args1 0xa890c910 (addressArg 0) .updateTimelock fun _ => rfl,
   .args2 0x7bdc818a (addressArg 0) (boolArg 1) .setCriticalTarget fun _ _ => rfl]

/-- The function calldata calls, with its arguments. -/
def decode (data : Bytes) : Option GovernorFn := dispatch table data

/-- The selector of `relay(target, value, data)`. -/
def relaySelector : Nat := 0xc28bc2fa

/-- The call `relay(target, value, data)` asks for. -/
def decodeRelay (data : Bytes) : Option Action :=
  if selector data = relaySelector then do
    let target ← addressArg 0 data
    let value ← word 1 data
    let payload ← bytesArg 2 data
    some ⟨target, value, payload⟩
  else none

/-- The selectors of `propose`. -/
def proposeSelectors : List Nat := [0x7d5e81e2]

/-- The selectors of `castVote`, `castVoteWithReason` and `castVoteWithReasonAndParams`. -/
def voteSelectors : List Nat := [0x56781388, 0x7b3c71d3, 0x5f398a14]

/-- The selectors of `queue`, `execute` and `cancel`. -/
def queueSelectors : List Nat := [0x160cbed7]
def executeSelectors : List Nat := [0x2656227d]
def cancelSelectors : List Nat := [0x452115d6]

end GovernorFn

namespace GembaGovernor

/-- `_updateQuorumNumerator(newQuorumNumerator)`. -/
def updateQuorumNumerator (g : GembaGovernor) (clock n : Nat) : Call GembaGovernor := do
  failIf (quorumDenominator < n) (.custom "GovernorInvalidQuorumFraction" [n, quorumDenominator])
  let t ← pushCheckpoint g.quorumNumeratorHistory clock n
  .ok { g with quorumNumeratorHistory := t }

/-- A configuration call, once `onlyGovernance` let it through. -/
def configure (g : GembaGovernor) (clock : Nat) (fn : GovernorFn) : Call GembaGovernor :=
  match fn with
  | .setVotingDelay n => .ok { g with votingDelay := n }
  | .setVotingPeriod n => do
    failIf (n = 0) (.custom "GovernorInvalidVotingPeriod" [0])
    .ok { g with votingPeriod := n }
  | .setProposalThreshold n => .ok { g with proposalThreshold := n }
  | .updateQuorumNumerator n => g.updateQuorumNumerator clock n
  | .updateTimelock a => .ok { g with timelock := a }
  | .setCriticalTarget a critical =>
    .ok { g with criticalTarget := fun x => if x = a then critical else g.criticalTarget x }

/-! ## The tier of a proposal -/

section
variable {g g' : GembaGovernor} {v : View} {self sender : Address} {pid : ProposalId}

/-- **What a Standard proposal cannot contain**: a call to the Governor, to its Timelock of that
    moment or to a flagged target, an upgrade, a release. -/
theorem classify_eq_false {calls : List Action} (h : g.classify self calls = false) :
    ∀ c ∈ calls, c.target ≠ self ∧ c.target ≠ g.timelock ∧ g.criticalTarget c.target = false ∧
      selector c.data ≠ SEL_UPGRADE_TO_AND_CALL ∧ selector c.data ≠ SEL_RELEASE := by
  induction calls with
  | nil =>
    intro c hc
    exact absurd hc List.not_mem_nil
  | cons c' rest ih =>
    unfold classify at h
    by_cases htarget : c'.target = self ∨ c'.target = g.timelock ∨ g.criticalTarget c'.target = true
    · rw [if_pos htarget] at h
      nomatch h
    · rw [if_neg htarget] at h
      by_cases hsel : selector c'.data = SEL_UPGRADE_TO_AND_CALL ∨ selector c'.data = SEL_UPGRADE_TO
          ∨ selector c'.data = SEL_RELEASE
      · rw [if_pos hsel] at h
        nomatch h
      · rw [if_neg hsel] at h
        intro c hc
        rcases List.mem_cons.mp hc with rfl | hc
        · refine ⟨fun e => htarget (.inl e), fun e => htarget (.inr (.inl e)), ?_,
            fun e => hsel (.inl e), fun e => hsel (.inr (.inr e))⟩
          exact Bool.eq_false_iff.mpr fun e => htarget (.inr (.inr e))
        · exact ih h c hc

/-- Recording a proposal changes nothing that tiers are read from. -/
theorem classify_setProposal {p : ProposalCore} {calls : List Action} :
    (g.setProposal pid p).classify self calls = g.classify self calls := by
  induction calls with
  | nil => rfl
  | cons c rest ih =>
    unfold classify
    rw [ih]
    rfl

/-! ## The order of the tiers -/

/-- A tally passes both checks of a tier, on a snapshot supply. -/
def PassesAt (g : GembaGovernor) (critical : Bool) (supply : Nat) (t : Tally) : Prop :=
  g.quorumReachedAt critical supply t = .ok true ∧ g.voteSucceededAt critical t = .ok true

theorem quorumReachedAt_iff {critical : Bool} {supply : Nat} {t : Tally} :
    g.quorumReachedAt critical supply t = .ok true ↔
      supply * g.quorumTier critical < 2 ^ 256 ∧ t.forVotes + t.abstainVotes < 2 ^ 256 ∧
        supply * g.quorumTier critical / 100 ≤ t.forVotes + t.abstainVotes := by
  constructor
  · intro h
    obtain ⟨threshold, hthreshold, h⟩ := bind_eq_ok.mp h
    obtain ⟨votes, hvotes, h⟩ := bind_eq_ok.mp h
    obtain ⟨product, hproduct, hdiv⟩ := bind_eq_ok.mp hthreshold
    obtain ⟨hlt, rfl⟩ := mul_eq_ok.mp hproduct
    obtain ⟨-, rfl⟩ := div_eq_ok.mp hdiv
    obtain ⟨hsum, rfl⟩ := add_eq_ok.mp hvotes
    injection h with h
    exact ⟨hlt, hsum, of_decide_eq_true h⟩
  · rintro ⟨hlt, hsum, hle⟩
    have hmul : mul supply (g.quorumTier critical) = .ok (supply * g.quorumTier critical) :=
      mul_eq_ok.mpr ⟨hlt, rfl⟩
    have hadd : add t.forVotes t.abstainVotes = .ok (t.forVotes + t.abstainVotes) :=
      add_eq_ok.mpr ⟨hsum, rfl⟩
    have hthreshold : g.quorumThreshold critical supply = .ok (supply * g.quorumTier critical / 100) := by
      unfold quorumThreshold
      rw [hmul]
      rfl
    unfold quorumReachedAt
    rw [hthreshold, ok_bind, hadd, ok_bind, decide_eq_true hle]

theorem voteSucceededAt_iff {critical : Bool} {t : Tally} :
    g.voteSucceededAt critical t = .ok true ↔
      t.forVotes + t.againstVotes < 2 ^ 256 ∧ t.forVotes + t.againstVotes ≠ 0 ∧
        t.forVotes * 100 < 2 ^ 256 ∧
        (t.forVotes + t.againstVotes) * g.supermajorityTier critical < 2 ^ 256 ∧
        (t.forVotes + t.againstVotes) * g.supermajorityTier critical ≤ t.forVotes * 100 := by
  constructor
  · intro h
    obtain ⟨decisive, hdecisive, h⟩ := bind_eq_ok.mp h
    obtain ⟨hsum, rfl⟩ := add_eq_ok.mp hdecisive
    by_cases hz : t.forVotes + t.againstVotes = 0
    · rw [if_pos hz] at h
      injection h with h
      nomatch h
    · rw [if_neg hz] at h
      obtain ⟨votes, hvotes, h⟩ := bind_eq_ok.mp h
      obtain ⟨needed, hneeded, h⟩ := bind_eq_ok.mp h
      obtain ⟨hvlt, rfl⟩ := mul_eq_ok.mp hvotes
      obtain ⟨hnlt, rfl⟩ := mul_eq_ok.mp hneeded
      injection h with h
      exact ⟨hsum, hz, hvlt, hnlt, of_decide_eq_true h⟩
  · rintro ⟨hsum, hz, hvlt, hnlt, hle⟩
    have hadd : add t.forVotes t.againstVotes = .ok (t.forVotes + t.againstVotes) :=
      add_eq_ok.mpr ⟨hsum, rfl⟩
    have hvotes : mul t.forVotes 100 = .ok (t.forVotes * 100) := mul_eq_ok.mpr ⟨hvlt, rfl⟩
    have hneeded : mul (t.forVotes + t.againstVotes) (g.supermajorityTier critical)
        = .ok ((t.forVotes + t.againstVotes) * g.supermajorityTier critical) :=
      mul_eq_ok.mpr ⟨hnlt, rfl⟩
    unfold voteSucceededAt
    rw [hadd, ok_bind, if_neg hz, hvotes, ok_bind, hneeded, ok_bind, decide_eq_true hle]

/-- The order the constructor sets up, but for the quorums. -/
structure Tiers (g : GembaGovernor) : Prop where
  supermajority : g.supermajorityNumerator ≤ g.criticalSupermajorityNumerator
  unanimous : g.criticalSupermajorityNumerator ≤ 100
  quorum : g.criticalQuorumNumerator ≤ 100

/-- With the quorums in order, what passes at the Critical tier passes at the Standard one. -/
theorem PassesAt.standard (hg : g.Tiers) (hq : g.quorumNumerator ≤ g.criticalQuorumNumerator)
    {supply : Nat} {t : Tally} (h : g.PassesAt true supply t) : g.PassesAt false supply t := by
  obtain ⟨hquorum, hvote⟩ := h
  obtain ⟨hlt, hsum, hle⟩ := quorumReachedAt_iff.mp hquorum
  obtain ⟨hdec, hz, hvlt, hnlt, hneeded⟩ := voteSucceededAt_iff.mp hvote
  have hsupply : supply * g.quorumNumerator ≤ supply * g.criticalQuorumNumerator :=
    Nat.mul_le_mul_left supply hq
  have hdecisive : (t.forVotes + t.againstVotes) * g.supermajorityNumerator
      ≤ (t.forVotes + t.againstVotes) * g.criticalSupermajorityNumerator :=
    Nat.mul_le_mul_left _ hg.supermajority
  constructor
  · refine quorumReachedAt_iff.mpr ⟨Nat.lt_of_le_of_lt hsupply hlt, hsum, ?_⟩
    calc supply * g.quorumNumerator / 100
        ≤ supply * g.criticalQuorumNumerator / 100 := Nat.div_le_div_right hsupply
      _ ≤ t.forVotes + t.abstainVotes := hle
  · exact voteSucceededAt_iff.mpr ⟨hdec, hz, hvlt, Nat.lt_of_le_of_lt hdecisive hnlt,
      Nat.le_trans hdecisive hneeded⟩

/-- **The Critical tier is the harder one exactly while the quorums are in order.**  Out of order, a
    supply of 200 with one vote more than the Critical quorum, all of them For, tells the tiers
    apart. -/
theorem critical_le_standard_iff (hg : g.Tiers) :
    (∀ supply t, g.PassesAt true supply t → g.PassesAt false supply t) ↔
      g.quorumNumerator ≤ g.criticalQuorumNumerator := by
  constructor
  · intro h
    rcases Nat.lt_or_ge g.criticalQuorumNumerator g.quorumNumerator with hlt | hge
    · exfalso
      have hcq := hg.quorum
      have hcs := hg.unanimous
      have hcrit : g.PassesAt true 200 ⟨0, 2 * g.criticalQuorumNumerator + 1, 0⟩ := by
        constructor
        · apply quorumReachedAt_iff.mpr
          show 200 * g.criticalQuorumNumerator < 2 ^ 256 ∧
            2 * g.criticalQuorumNumerator + 1 + 0 < 2 ^ 256 ∧
            200 * g.criticalQuorumNumerator / 100 ≤ 2 * g.criticalQuorumNumerator + 1 + 0
          omega
        · apply voteSucceededAt_iff.mpr
          have hmul : (2 * g.criticalQuorumNumerator + 1) * g.criticalSupermajorityNumerator
              ≤ (2 * g.criticalQuorumNumerator + 1) * 100 := Nat.mul_le_mul_left _ hcs
          show 2 * g.criticalQuorumNumerator + 1 + 0 < 2 ^ 256 ∧
            2 * g.criticalQuorumNumerator + 1 + 0 ≠ 0 ∧
            (2 * g.criticalQuorumNumerator + 1) * 100 < 2 ^ 256 ∧
            (2 * g.criticalQuorumNumerator + 1) * g.criticalSupermajorityNumerator < 2 ^ 256 ∧
            (2 * g.criticalQuorumNumerator + 1) * g.criticalSupermajorityNumerator
              ≤ (2 * g.criticalQuorumNumerator + 1) * 100
          omega
      obtain ⟨-, -, hle⟩ := quorumReachedAt_iff.mp (h _ _ hcrit).1
      have hle : 200 * g.quorumNumerator / 100 ≤ 2 * g.criticalQuorumNumerator + 1 + 0 := hle
      omega
    · exact hge
  · intro hq supply t h
    exact h.standard hg hq

end

end GembaGovernor
end Gemba.Governance
