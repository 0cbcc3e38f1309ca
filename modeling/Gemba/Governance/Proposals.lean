/-
  The life of a proposal: its state, its verdict, and what each entry point of the Governor changes.

  The library keeps no state variable: `state` is recomputed from the flags, the clock, the votes and
  the two tier checks whenever it is asked for.  So a verdict is not stored anywhere, and stays what it
  was exactly as long as everything it is computed from does.

  * `state_eq_succeeded_iff`, `state_eq_defeated_iff` — the Timelock has no say in either;
  * `coreState_congr` — what a verdict is computed from;
  * the `_spec` lemmas — what an entry point that went through changed, as an equation;
  * `GovernorChange` — what a step of the machine does to the Governor.
-/
import Gemba.Governance.Steps

namespace Gemba.Governance

open Gemba.Lib Gemba.Evm

namespace GembaGovernor

variable {g g' : GembaGovernor} {v v' : View} {self sender account : Address} {pid q : ProposalId}

/-! ## The state -/

/-- A state that the Timelock does not decide. -/
theorem state_eq_iff {s : ProposalState} (hq : s ≠ .queued) (he : s ≠ .executed)
    (hc : s ≠ .canceled) : g.state v pid = .ok s ↔ g.coreState v pid = .ok s := by
  unfold state
  cases hcore : g.coreState v pid with
  | error e =>
    constructor
    · intro h
      nomatch h
    · intro h
      nomatch h
  | ok s' =>
    rw [ok_bind]
    by_cases hs : s' = .queued
    · -- queued: the answer comes from the Timelock, and is one of the three others
      subst hs
      rw [if_neg (not_not.mpr rfl)]
      constructor
      · intro h
        exfalso
        split at h
        · nomatch h
        · split at h
          · injection h with h
            exact hc h.symm
          · injection h with h
            split at h
            · exact hq h.symm
            · split at h
              · exact he h.symm
              · exact hc h.symm
      · intro h
        injection h with h
        exact absurd h.symm hq
    · rw [if_pos hs]

theorem state_eq_succeeded_iff :
    g.state v pid = .ok .succeeded ↔ g.coreState v pid = .ok .succeeded :=
  state_eq_iff (by decide) (by decide) (by decide)

theorem state_eq_defeated_iff :
    g.state v pid = .ok .defeated ↔ g.coreState v pid = .ok .defeated :=
  state_eq_iff (by decide) (by decide) (by decide)

theorem state_eq_active_iff : g.state v pid = .ok .active ↔ g.coreState v pid = .ok .active :=
  state_eq_iff (by decide) (by decide) (by decide)

/-- A proposal that is still open for votes has not reached its deadline. -/
theorem deadline_of_active (h : g.state v pid = .ok .active) : v.clock ≤ g.proposalDeadline pid := by
  have h := state_eq_active_iff.mp h
  unfold coreState at h
  split at h
  · nomatch h
  · split at h
    · nomatch h
    · split at h
      · nomatch h
      · split at h
        · nomatch h
        · split at h
          · assumption
          · obtain ⟨passed, -, h⟩ := bind_eq_ok.mp h
            injection h with h
            cases passed with
            | false => nomatch h
            | true =>
              rw [if_neg (by decide)] at h
              split at h
              · nomatch h
              · nomatch h

theorem validateState_eq_ok {allowed : List ProposalState} {x : PUnit}
    (h : g.validateState v pid allowed = .ok x) : ∃ s ∈ allowed, g.state v pid = .ok s := by
  obtain ⟨s, hs, h⟩ := bind_eq_ok.mp h
  rw [failIf_eq_ok, not_not] at h
  exact ⟨s, h, hs⟩

/-- The threshold `_quorumReached` compares the votes with. -/
def appliedQuorum (g : GembaGovernor) (v : View) (pid : ProposalId) : Call Nat := do
  let supply ← v.token.getPastTotalSupply v.clock (g.proposalSnapshot pid)
  g.quorumThreshold (g.isCritical pid) supply

theorem quorumReached_eq : g.quorumReached v pid = (do
    let threshold ← g.appliedQuorum v pid
    let votes ← add (g.proposalVotes pid).forVotes (g.proposalVotes pid).abstainVotes
    .ok (decide (threshold ≤ votes))) := by
  unfold quorumReached appliedQuorum quorumReachedAt
  cases v.token.getPastTotalSupply v.clock (g.proposalSnapshot pid) with
  | error e => rfl
  | ok supply => rfl

/-- Everything a verdict is computed from, once voting has ended. -/
structure SameVerdict (g : GembaGovernor) (v : View) (g' : GembaGovernor) (v' : View)
    (pid : ProposalId) : Prop where
  proposal : g'.proposals pid = g.proposals pid
  tally : (g'.proposalVotes pid).toTally = (g.proposalVotes pid).toTally
  tier : g'.isCritical pid = g.isCritical pid
  supermajority : g'.supermajorityTier (g.isCritical pid) = g.supermajorityTier (g.isCritical pid)
  ended : g.proposalDeadline pid < v.clock ∧ g.proposalDeadline pid < v'.clock
  /-- A proposal that was executed or cancelled is not judged any more. -/
  quorum : (g.proposals pid).executed = false → (g.proposals pid).canceled = false →
    g'.appliedQuorum v' pid = g.appliedQuorum v pid

/-- **A verdict is the same when what it is computed from is.** -/
theorem coreState_congr (h : SameVerdict g v g' v' pid) :
    g'.coreState v' pid = g.coreState v pid := by
  have hsnap : g'.proposalSnapshot pid = g.proposalSnapshot pid := by
    unfold proposalSnapshot
    rw [h.proposal]
  have hdead : g'.proposalDeadline pid = g.proposalDeadline pid := by
    unfold proposalDeadline
    rw [h.proposal]
  have hle : g.proposalSnapshot pid ≤ g.proposalDeadline pid := Nat.le_add_right _ _
  obtain ⟨hended, hended'⟩ := h.ended
  unfold coreState
  rw [h.proposal, hsnap, hdead]
  by_cases hexec : (g.proposals pid).executed = true
  · rw [if_pos hexec, if_pos hexec]
  rw [if_neg hexec, if_neg hexec]
  by_cases hcanc : (g.proposals pid).canceled = true
  · rw [if_pos hcanc, if_pos hcanc]
  rw [if_neg hcanc, if_neg hcanc]
  have hreached : g'.quorumReached v' pid = g.quorumReached v pid := by
    have hforVotes : (g'.proposalVotes pid).forVotes = (g.proposalVotes pid).forVotes :=
      congrArg Tally.forVotes h.tally
    have habstain : (g'.proposalVotes pid).abstainVotes = (g.proposalVotes pid).abstainVotes :=
      congrArg Tally.abstainVotes h.tally
    rw [quorumReached_eq, quorumReached_eq, hforVotes, habstain,
      h.quorum (Bool.eq_false_iff.mpr hexec) (Bool.eq_false_iff.mpr hcanc)]
  have hvote : g'.voteSucceeded pid = g.voteSucceeded pid := by
    unfold voteSucceeded voteSucceededAt
    rw [h.tier, h.tally, h.supermajority]
  have hpassed : g'.passed v' pid = g.passed v pid := by
    unfold passed
    rw [hreached, hvote]
  rw [hpassed]
  -- the clock is past the deadline on both sides
  rw [if_neg (show ¬ v'.clock ≤ g.proposalSnapshot pid by omega),
    if_neg (show ¬ v.clock ≤ g.proposalSnapshot pid by omega),
    if_neg (show ¬ v'.clock ≤ g.proposalDeadline pid by omega),
    if_neg (show ¬ v.clock ≤ g.proposalDeadline pid by omega)]

/-! ## What each entry point changes -/

/-- A proposal exists. -/
def Proposed (g : GembaGovernor) (pid : ProposalId) : Prop := g.proposalSnapshot pid ≠ 0

instance (g : GembaGovernor) (pid : ProposalId) : Decidable (g.Proposed pid) :=
  inferInstanceAs (Decidable (g.proposalSnapshot pid ≠ 0))

/-- What a successful construction sets up. -/
theorem construct_spec {a : Args} {clock : Nat} {g : GembaGovernor}
    (h : construct a clock = .ok g) :
    g.Tiers ∧ g.quorumNumerator ≤ g.criticalQuorumNumerator ∧
      g.quorumNumeratorHistory.Upto clock ∧ g.timelock = a.timelock ∧ ∀ pid, ¬ g.Proposed pid := by
  obtain ⟨-, h⟩ := failIf_bind_eq_ok.mp h
  obtain ⟨-, h⟩ := failIf_bind_eq_ok.mp h
  obtain ⟨-, h⟩ := failIf_bind_eq_ok.mp h
  obtain ⟨⟨⟩, hsuper, h⟩ := bind_eq_ok.mp h
  obtain ⟨⟨⟩, hquorum, h⟩ := bind_eq_ok.mp h
  rw [failIf_eq_ok] at hsuper hquorum
  have hdenominator : quorumDenominator = 100 := rfl
  have hcs : a.supermajorityNumerator ≤ a.criticalSupermajorityNumerator := by omega
  have hunanimous : a.criticalSupermajorityNumerator ≤ 100 := by omega
  have hcq : a.quorumNumerator ≤ a.criticalQuorumNumerator := by omega
  have hfull : a.criticalQuorumNumerator ≤ 100 := by omega
  injection h with h
  subst h
  refine ⟨⟨hcs, hunanimous, hfull⟩, hcq, ?_, rfl, fun _ hp => hp rfl⟩
  intro p hp
  rw [List.mem_singleton.mp hp]

theorem propose_spec {calls : List Action} {description : Description}
    (h : g.propose self v sender calls description = .ok g') :
    ¬ g.Proposed ⟨calls, description.hash⟩ ∧ calls ≠ [] ∧
      g' = { g.setProposal ⟨calls, description.hash⟩
              { g.proposals ⟨calls, description.hash⟩ with
                proposer := sender, voteStart := v.clock + g.votingDelay
                voteDuration := g.votingPeriod } with
              isCritical := fun x => if x = ⟨calls, description.hash⟩ then g.classify self calls
                else g.isCritical x } := by
  obtain ⟨-, h⟩ := failIf_bind_eq_ok.mp h
  obtain ⟨⟨⟩, -, h⟩ := bind_eq_ok.mp h
  obtain ⟨⟨⟩, hne, h⟩ := bind_eq_ok.mp h
  obtain ⟨⟨⟩, hnew, h⟩ := bind_eq_ok.mp h
  obtain ⟨voteStart, hstart, h⟩ := bind_eq_ok.mp h
  obtain ⟨voteDuration, hduration, h⟩ := bind_eq_ok.mp h
  obtain ⟨-, rfl⟩ := toUint_eq_ok.mp hstart
  obtain ⟨-, rfl⟩ := toUint_eq_ok.mp hduration
  rw [failIf_eq_ok] at hne hnew
  rw [not_not] at hnew
  injection h with h
  rw [classify_setProposal] at h
  exact ⟨not_not.mpr hnew, hne, h.symm⟩

theorem castVote_spec {support : Nat} (h : g.castVote v account pid support = .ok g') :
    g.state v pid = .ok .active ∧
      ∃ p, g' = { g with proposalVotes := fun x => if x = pid then p else g.proposalVotes x } := by
  obtain ⟨⟨⟩, hstate, h⟩ := bind_eq_ok.mp h
  obtain ⟨weight, -, h⟩ := bind_eq_ok.mp h
  obtain ⟨p, -, h⟩ := bind_eq_ok.mp h
  obtain ⟨s, hs, hactive⟩ := validateState_eq_ok hstate
  rcases List.mem_singleton.mp hs with rfl
  injection h with h
  exact ⟨hactive, p, h.symm⟩

theorem queue_spec {t' : Timelock} (h : g.queue self v pid = .ok (g', t')) :
    g.state v pid = .ok .succeeded ∧
      (∃ t, v.timelocks g.timelock = some t ∧
        t.schedule self v.block.timestamp (operation self pid) t.minDelay = .ok t') ∧
      ∃ eta, g' = { g.setProposal pid { g.proposals pid with etaSeconds := eta } with
        timelockIds := fun x => if x = pid then some (operation self pid) else g.timelockIds x } := by
  obtain ⟨⟨⟩, hstate, h⟩ := bind_eq_ok.mp h
  obtain ⟨t, ht, h⟩ := bind_eq_ok.mp h
  obtain ⟨t₁, hsched, h⟩ := bind_eq_ok.mp h
  obtain ⟨eta, -, h⟩ := bind_eq_ok.mp h
  obtain ⟨-, h⟩ := failIf_bind_eq_ok.mp h
  obtain ⟨s, hs, hsucceeded⟩ := validateState_eq_ok hstate
  rcases List.mem_singleton.mp hs with rfl
  injection h with h
  injection h with hg ht'
  subst ht'
  exact ⟨hsucceeded, ⟨t, World.timelockAt_eq_ok.mp ht, hsched⟩, eta, hg.symm⟩

theorem beginExecute_spec (h : g.beginExecute self v pid = .ok g') :
    ∃ calls, g' = { g.setProposal pid { g.proposals pid with executed := true } with
      governanceCall := calls } := by
  obtain ⟨⟨⟩, -, h⟩ := bind_eq_ok.mp h
  injection h with h
  subst h
  dsimp only
  split
  · exact ⟨g.governanceCall, rfl⟩
  · exact ⟨_, rfl⟩

theorem cancel_spec {t' : Option Timelock} (h : g.cancel self v sender pid = .ok (g', t')) :
    (∃ ids, g' = { g.setProposal pid { g.proposals pid with canceled := true } with
        timelockIds := ids }) ∧
      ∀ t₁, t' = some t₁ → ∃ t op, v.timelocks g.timelock = some t ∧
        t.cancel self v.block.timestamp op = .ok t₁ := by
  obtain ⟨⟨⟩, -, h⟩ := bind_eq_ok.mp h
  obtain ⟨-, h⟩ := failIf_bind_eq_ok.mp h
  dsimp only at h
  split at h
  · injection h with h
    injection h with hg ht
    subst hg ht
    refine ⟨⟨g.timelockIds, rfl⟩, ?_⟩
    intro t₁ ht₁
    nomatch ht₁
  · rename_i op _
    obtain ⟨t, ht, h⟩ := bind_eq_ok.mp h
    obtain ⟨t₂, hcancel, h⟩ := bind_eq_ok.mp h
    injection h with h
    injection h with hg ht'
    subst hg ht'
    refine ⟨⟨_, rfl⟩, ?_⟩
    intro t₁ ht₁
    injection ht₁ with ht₁
    subst ht₁
    exact ⟨t, op, World.timelockAt_eq_ok.mp ht, hcancel⟩

theorem endExecute_spec (g : GembaGovernor) (self : Address) (pid : ProposalId) :
    ∃ ids calls, g.endExecute self pid = { g with timelockIds := ids, governanceCall := calls } := by
  unfold endExecute
  dsimp only
  split
  · exact ⟨_, g.governanceCall, rfl⟩
  · exact ⟨_, [], rfl⟩

theorem onlyGovernance_spec {data : Bytes} (h : g.onlyGovernance self sender data = .ok g') :
    sender = g.timelock ∧ ∃ calls, g' = { g with governanceCall := calls } := by
  obtain ⟨hsender, h⟩ := failIf_bind_eq_ok.mp h
  rw [not_not] at hsender
  refine ⟨hsender, ?_⟩
  split at h
  · injection h with h
    exact ⟨g.governanceCall, h.symm⟩
  · split at h
    · rename_i rest _
      injection h with h
      exact ⟨rest, h.symm⟩
    · nomatch h

/-- A configuration call leaves the proposals and the constants alone. -/
structure Reconfigured (g g' : GembaGovernor) : Prop where
  proposals : g'.proposals = g.proposals
  proposalVotes : g'.proposalVotes = g.proposalVotes
  isCritical : g'.isCritical = g.isCritical
  supermajorityNumerator : g'.supermajorityNumerator = g.supermajorityNumerator
  criticalQuorumNumerator : g'.criticalQuorumNumerator = g.criticalQuorumNumerator
  criticalSupermajorityNumerator :
    g'.criticalSupermajorityNumerator = g.criticalSupermajorityNumerator

theorem updateQuorumNumerator_spec {clock n : Nat} (h : g.updateQuorumNumerator clock n = .ok g') :
    ∃ t, g.quorumNumeratorHistory.push clock n = some t ∧
      g' = { g with quorumNumeratorHistory := t } := by
  obtain ⟨-, h⟩ := failIf_bind_eq_ok.mp h
  obtain ⟨t, ht, h⟩ := bind_eq_ok.mp h
  injection h with h
  exact ⟨t, pushCheckpoint_eq_ok.mp ht, h.symm⟩

theorem configure_reconfigured {clock : Nat} {fn : GovernorFn} (h : g.configure clock fn = .ok g') :
    Reconfigured g g' := by
  cases fn with
  | setVotingDelay n =>
    injection h with h
    subst h
    exact ⟨rfl, rfl, rfl, rfl, rfl, rfl⟩
  | setVotingPeriod n =>
    obtain ⟨-, h⟩ := failIf_bind_eq_ok.mp h
    injection h with h
    subst h
    exact ⟨rfl, rfl, rfl, rfl, rfl, rfl⟩
  | setProposalThreshold n =>
    injection h with h
    subst h
    exact ⟨rfl, rfl, rfl, rfl, rfl, rfl⟩
  | updateQuorumNumerator n =>
    obtain ⟨t, -, rfl⟩ := updateQuorumNumerator_spec h
    exact ⟨rfl, rfl, rfl, rfl, rfl, rfl⟩
  | updateTimelock a =>
    injection h with h
    subst h
    exact ⟨rfl, rfl, rfl, rfl, rfl, rfl⟩
  | setCriticalTarget a critical =>
    injection h with h
    subst h
    exact ⟨rfl, rfl, rfl, rfl, rfl, rfl⟩

/-- Only `updateQuorumNumerator` writes the quorum history. -/
theorem configure_history {clock : Nat} {fn : GovernorFn} (h : g.configure clock fn = .ok g') :
    g'.quorumNumeratorHistory = g.quorumNumeratorHistory ∨
      ∃ n, fn = .updateQuorumNumerator n ∧
        g.quorumNumeratorHistory.push clock n = some g'.quorumNumeratorHistory := by
  cases fn with
  | updateQuorumNumerator n =>
    obtain ⟨t, hpush, rfl⟩ := updateQuorumNumerator_spec h
    exact .inr ⟨n, rfl, hpush⟩
  | setVotingDelay n =>
    injection h with h
    exact .inl (by rw [← h])
  | setVotingPeriod n =>
    obtain ⟨-, h⟩ := failIf_bind_eq_ok.mp h
    injection h with h
    exact .inl (by rw [← h])
  | setProposalThreshold n =>
    injection h with h
    exact .inl (by rw [← h])
  | updateTimelock a =>
    injection h with h
    exact .inl (by rw [← h])
  | setCriticalTarget a critical =>
    injection h with h
    exact .inl (by rw [← h])

/-- Only `updateTimelock` replaces the Timelock. -/
theorem configure_timelock {clock : Nat} {fn : GovernorFn} (h : g.configure clock fn = .ok g') :
    g'.timelock = g.timelock ∨ fn = .updateTimelock g'.timelock := by
  cases fn with
  | updateTimelock a =>
    injection h with h
    exact .inr (by rw [← h])
  | updateQuorumNumerator n =>
    obtain ⟨t, -, rfl⟩ := updateQuorumNumerator_spec h
    exact .inl rfl
  | setVotingDelay n =>
    injection h with h
    exact .inl (by rw [← h])
  | setVotingPeriod n =>
    obtain ⟨-, h⟩ := failIf_bind_eq_ok.mp h
    injection h with h
    exact .inl (by rw [← h])
  | setProposalThreshold n =>
    injection h with h
    exact .inl (by rw [← h])
  | setCriticalTarget a critical =>
    injection h with h
    exact .inl (by rw [← h])

end GembaGovernor

/-! ## What a step does to the Governor -/

/-- The configuration function of the Governor that a step runs, if it runs one. -/
def configCall (d : Wiring) (w : World) : Label → Option GovernorFn
  | .call _ target _ data => if target = d.governor then GovernorFn.decode data else none
  | .act =>
    match w.frames with
    | .batch _ _ (c :: _) :: _ => if c.target = d.governor then GovernorFn.decode c.data else none
    | _ => none
  | _ => none

/-- The quorum numerator that an `updateQuorumNumerator` run by a step sets. -/
def newQuorum (d : Wiring) (w : World) (l : Label) : Option Nat :=
  match configCall d w l with
  | some (.updateQuorumNumerator n) => some n
  | _ => none

/-- The Timelock that an `updateTimelock` run by a step installs. -/
def newTimelock (d : Wiring) (w : World) (l : Label) : Option Address :=
  match configCall d w l with
  | some (.updateTimelock a) => some a
  | _ => none

theorem newQuorum_of_configCall {d : Wiring} {w : World} {l : Label} {n : Nat}
    (h : configCall d w l = some (.updateQuorumNumerator n)) : newQuorum d w l = some n := by
  unfold newQuorum
  rw [h]

theorem newTimelock_of_configCall {d : Wiring} {w : World} {l : Label} {a : Address}
    (h : configCall d w l = some (.updateTimelock a)) : newTimelock d w l = some a := by
  unfold newTimelock
  rw [h]

/-- **What a step does to the Governor.** -/
inductive GovernorChange (d : Wiring) (w : World) : Label → GembaGovernor → Prop where
  | same {l : Label} : GovernorChange d w l w.governor
  | propose {sender : Address} {calls : List Action} {description : Description} {g : GembaGovernor}
      (h : w.governor.propose d.governor w.view sender calls description = .ok g) :
      GovernorChange d w (.propose sender calls description) g
  | castVote {account : Address} {pid : ProposalId} {support : Nat} {g : GembaGovernor}
      (h : w.governor.castVote w.view account pid support = .ok g) :
      GovernorChange d w (.castVote account pid support) g
  | queue {sender : Address} {pid : ProposalId} {g : GembaGovernor} {t : Timelock}
      (h : w.governor.queue d.governor w.view pid = .ok (g, t)) :
      GovernorChange d w (.queue sender pid) g
  | execute {sender : Address} {value : Nat} {pid : ProposalId} {g : GembaGovernor}
      (h : w.governor.beginExecute d.governor w.view pid = .ok g) :
      GovernorChange d w (.execute sender value pid) g
  | cancel {sender : Address} {pid : ProposalId} {g : GembaGovernor} {t : Option Timelock}
      (h : w.governor.cancel d.governor w.view sender pid = .ok (g, t)) :
      GovernorChange d w (.cancel sender pid) g
  | configure {l : Label} {fn : GovernorFn} {sender : Address} {data : Bytes} {g g' : GembaGovernor}
      (hl : configCall d w l = some fn)
      (hg : w.governor.onlyGovernance d.governor sender data = .ok g)
      (h : g.configure w.block.number fn = .ok g') : GovernorChange d w l g'
  /-- A relayed call, or the end of an execution: only the bookkeeping. -/
  | bookkeeping {l : Label} {ids : ProposalId → Option Operation} {calls : List Bytes} :
      GovernorChange d w l { w.governor with timelockIds := ids, governanceCall := calls }

/-- The settings that only a configuration function may write. -/
structure SameSettings (g g' : GembaGovernor) : Prop where
  supermajorityNumerator : g'.supermajorityNumerator = g.supermajorityNumerator
  criticalQuorumNumerator : g'.criticalQuorumNumerator = g.criticalQuorumNumerator
  criticalSupermajorityNumerator :
    g'.criticalSupermajorityNumerator = g.criticalSupermajorityNumerator
  quorumNumeratorHistory : g'.quorumNumeratorHistory = g.quorumNumeratorHistory
  timelock : g'.timelock = g.timelock

/-- **The settings after a step**: what they were, or what a configuration function made of them. -/
theorem GovernorChange.settings {d : Wiring} {w : World} {l : Label} {g : GembaGovernor}
    (h : GovernorChange d w l g) : SameSettings w.governor g ∨
      ∃ fn g₀, configCall d w l = some fn ∧ SameSettings w.governor g₀ ∧
        g₀.configure w.block.number fn = .ok g := by
  cases h with
  | same => exact .inl ⟨rfl, rfl, rfl, rfl, rfl⟩
  | propose h =>
    obtain ⟨-, -, rfl⟩ := GembaGovernor.propose_spec h
    exact .inl ⟨rfl, rfl, rfl, rfl, rfl⟩
  | castVote h =>
    obtain ⟨-, p, rfl⟩ := GembaGovernor.castVote_spec h
    exact .inl ⟨rfl, rfl, rfl, rfl, rfl⟩
  | queue h =>
    obtain ⟨-, -, eta, rfl⟩ := GembaGovernor.queue_spec h
    exact .inl ⟨rfl, rfl, rfl, rfl, rfl⟩
  | execute h =>
    obtain ⟨calls, rfl⟩ := GembaGovernor.beginExecute_spec h
    exact .inl ⟨rfl, rfl, rfl, rfl, rfl⟩
  | cancel h =>
    obtain ⟨⟨ids, rfl⟩, -⟩ := GembaGovernor.cancel_spec h
    exact .inl ⟨rfl, rfl, rfl, rfl, rfl⟩
  | @configure _ fn _ _ g₀ _ hl hg h =>
    have hsame : SameSettings w.governor g₀ := by
      obtain ⟨-, calls, rfl⟩ := GembaGovernor.onlyGovernance_spec hg
      exact ⟨rfl, rfl, rfl, rfl, rfl⟩
    exact .inr ⟨fn, g₀, hl, hsame, h⟩
  | bookkeeping => exact .inl ⟨rfl, rfl, rfl, rfl, rfl⟩

namespace World

variable {d : Wiring} {w w' : World} {l : Label}

/-- What a call does to the Governor. -/
theorem Called.governor_change {w₀ : World} {sender target : Address} {value : Nat} {data : Bytes}
    (h : Called d w₀ sender target value data w')
    (hw₀ : w₀.governor = w.governor ∧ w₀.block = w.block)
    (hl : ∀ fn, target = d.governor → GovernorFn.decode data = some fn → configCall d w l = some fn) :
    GovernorChange d w l w'.governor := by
  obtain ⟨hgov, hblock⟩ := hw₀
  cases h with
  | other ht h =>
    rw [h.governor_eq, hgov]
    exact .same
  | plain hb =>
    show GovernorChange d w l w₀.governor
    rw [hgov]
    exact .same
  | calling ht =>
    show GovernorChange d w l w₀.governor
    rw [hgov]
    exact .same
  | configure ht hfn hg h =>
    rw [hgov] at hg
    rw [hblock] at h
    exact .configure (hl _ ht hfn) hg h
  | relay ht hg hb h =>
    rw [hgov] at hg
    obtain ⟨-, calls, rfl⟩ := GembaGovernor.onlyGovernance_spec hg
    have hrelay : w'.governor = { w.governor with governanceCall := calls } := by
      rcases h with h | rfl
      · exact h.governor_eq
      · rfl
    rw [hrelay]
    exact @GovernorChange.bookkeeping d w l w.governor.timelockIds calls

/-- **The Governor after a step.** -/
theorem Stepped.governor_change (h : Stepped d w l w') : GovernorChange d w l w'.governor := by
  cases h with
  | call ho h =>
    refine h.governor_change ⟨rfl, rfl⟩ ?_
    intro fn ht hfn
    show (if _ = d.governor then GovernorFn.decode _ else none) = some fn
    rw [if_pos ht, hfn]
  | propose ha h => exact .propose h
  | castVote ha h => exact .castVote h
  | queue ha h => exact .queue h
  | execute ha h ht hready hb => exact .execute h
  | cancel ha h => exact .cancel h
  | act hframes h =>
    refine h.governor_change ⟨rfl, rfl⟩ ?_
    intro fn ht hfn
    unfold configCall
    dsimp only
    rw [hframes]
    dsimp only
    rw [if_pos ht, hfn]
  | finishGoverning hframes =>
    obtain ⟨ids, calls, heq⟩ := w.governor.endExecute_spec d.governor _
    show GovernorChange d w _ (w.governor.endExecute d.governor _)
    rw [heq]
    exact .bookkeeping
  | _ => exact .same

/-- No step changes the total supply of an earlier block. -/
theorem OtherCall.supply {w₀ : World} {sender target : Address} {value : Nat} {data : Bytes}
    (h : OtherCall d w₀ sender target value data w') :
    GembaVotes.SupplyKept w₀.block.number w₀.token w'.token := by
  cases h with
  | token hsupply hb hframes => exact hsupply
  | _ => exact .of_eq rfl

theorem Called.supply {w₀ : World} {sender target : Address} {value : Nat} {data : Bytes}
    (h : Called d w₀ sender target value data w') :
    GembaVotes.SupplyKept w₀.block.number w₀.token w'.token := by
  cases h with
  | other ht h => exact h.supply
  | relay ht hg hb h =>
    rcases h with h | rfl
    · exact h.supply
    · exact .of_eq rfl
  | _ => exact .of_eq rfl

theorem Stepped.supply (h : Stepped d w l w') :
    GembaVotes.SupplyKept w.block.number w.token w'.token := by
  cases h with
  | call ho h => exact h.supply
  | act hframes h => exact h.supply
  | delegateBySig h => exact h
  | permit h => exact h
  | _ => exact .of_eq rfl

theorem Called.block_eq {w₀ : World} {sender target : Address} {value : Nat} {data : Bytes}
    (h : Called d w₀ sender target value data w') : w'.block = w₀.block := by
  cases h with
  | other ht h => exact h.block_eq
  | relay ht hg hb h =>
    rcases h with h | rfl
    · exact h.block_eq
    · rfl
  | _ => rfl

/-- The clock does not go back. -/
theorem Stepped.clock_le (h : Stepped d w l w') : w.block.number ≤ w'.block.number := by
  cases h with
  | block hframes hn ht => exact Nat.le_of_lt hn
  | call ho h => rw [h.block_eq]
  | act hframes h => rw [h.block_eq]
  | _ => exact Nat.le_refl _

end World
end Gemba.Governance
