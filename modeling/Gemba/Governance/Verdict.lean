/-
  Verdicts: what decides a proposal, and what can still change it afterwards.

  Two properties of runs of the DAO, from any construction of the Governor:

  1. **Finality** (`verdict_final`).  Once voting has ended, whether a proposal counts as succeeded or
     as defeated changes only by its own queueing, execution or cancellation, and a Standard proposal
     is held to the quorum published for its snapshot.  `_quorumReached` reads the latest quorum
     numerator and not the one at the snapshot, so this needs that no `updateQuorumNumerator` changes
     the numerator under a Standard proposal whose snapshot has passed (`QuorumSettled`).

  2. **The order of the tiers** (`critical_never_easier`).  Whatever passes at the Critical tier would
     have passed at the Standard one.  The constructor sets the order up; `updateQuorumNumerator` can
     move the Standard quorum above the fixed Critical one, so this needs that it does not
     (`QuorumInOrder`).

  Both conditions are on the executed `updateQuorumNumerator` alone.
-/
import Gemba.Governance.Deployment

namespace Gemba.Governance

open Gemba.Lib Gemba.Evm
open Rehearsal (env start start_deployed electorate alice bob propose carryOut setQuorum setDelay
  replacePauser)

/-! ## The order of the tiers -/

/-- Every executed `updateQuorumNumerator(n)` keeps `n` at or below the Critical quorum. -/
def QuorumInOrder (d : Wiring) (w : World) (l : Label) : Prop :=
  ∀ n ∈ newQuorum d w l, n ≤ w.governor.criticalQuorumNumerator

instance (d : Wiring) (w : World) (l : Label) : Decidable (QuorumInOrder d w l) :=
  inferInstanceAs (Decidable (∀ n ∈ newQuorum d w l, n ≤ w.governor.criticalQuorumNumerator))

section
variable {d : Wiring} {w₀ w w' : World} {l : Label} {as bs : List Label} {pid : ProposalId}

/-- The constants of the tiers never change. -/
theorem GovernorChange.constants {g : GembaGovernor} (h : GovernorChange d w l g) :
    g.supermajorityNumerator = w.governor.supermajorityNumerator ∧
      g.criticalQuorumNumerator = w.governor.criticalQuorumNumerator ∧
      g.criticalSupermajorityNumerator = w.governor.criticalSupermajorityNumerator := by
  rcases h.settings with hsame | ⟨fn, g₀, -, hsame, hg⟩
  · exact ⟨hsame.supermajorityNumerator, hsame.criticalQuorumNumerator,
      hsame.criticalSupermajorityNumerator⟩
  · have hre := GembaGovernor.configure_reconfigured hg
    exact ⟨hre.supermajorityNumerator.trans hsame.supermajorityNumerator,
      hre.criticalQuorumNumerator.trans hsame.criticalQuorumNumerator,
      hre.criticalSupermajorityNumerator.trans hsame.criticalSupermajorityNumerator⟩

/-- The quorum history is written by an executed `updateQuorumNumerator` only. -/
theorem GovernorChange.history {g : GembaGovernor} (h : GovernorChange d w l g) :
    g.quorumNumeratorHistory = w.governor.quorumNumeratorHistory ∨
      ∃ n, newQuorum d w l = some n ∧
        w.governor.quorumNumeratorHistory.push w.block.number n = some g.quorumNumeratorHistory := by
  rcases h.settings with hsame | ⟨fn, g₀, hl, hsame, hg⟩
  · exact .inl hsame.quorumNumeratorHistory
  · rcases GembaGovernor.configure_history hg with hkept | ⟨n, rfl, hpush⟩
    · exact .inl (hkept.trans hsame.quorumNumeratorHistory)
    · rw [hsame.quorumNumeratorHistory] at hpush
      exact .inr ⟨n, newQuorum_of_configCall hl, hpush⟩

/-- The order of the tiers is kept by a step that keeps the quorums in order. -/
theorem tiers_step (h : w.governor.Tiers ∧ w.governor.quorumNumerator
      ≤ w.governor.criticalQuorumNumerator) (hP : QuorumInOrder d w l)
    (hs : w.step d l = .ok w') :
    w'.governor.Tiers ∧ w'.governor.quorumNumerator ≤ w'.governor.criticalQuorumNumerator := by
  obtain ⟨htiers, hle⟩ := h
  have hchange := (World.step_inv hs).governor_change
  obtain ⟨hsuper, hquorum, hcritical⟩ := hchange.constants
  refine ⟨⟨?_, ?_, ?_⟩, ?_⟩
  · rw [hsuper, hcritical]
    exact htiers.supermajority
  · rw [hcritical]
    exact htiers.unanimous
  · rw [hquorum]
    exact htiers.quorum
  · rw [hquorum]
    rcases hchange.history with hsame | ⟨n, hn, hpush⟩
    · unfold GembaGovernor.quorumNumerator
      rw [hsame]
      exact hle
    · -- an executed `updateQuorumNumerator`: the condition is on its argument
      have hlatest : w'.governor.quorumNumerator = n := Trace.latest_push hpush
      rw [hlatest]
      exact hP n hn

/-- **Critical is never easier than Standard.**  Along every run whose executed
    `updateQuorumNumerator` calls stay at or below the Critical quorum, what passes at the Critical
    tier passes at the Standard one, for every tally and supply. -/
theorem critical_never_easier (hgen : Genesis w₀)
    (h : Run (World.step d) (QuorumInOrder d) w₀ as w) :
    ∀ supply t, w.governor.PassesAt true supply t → w.governor.PassesAt false supply t := by
  obtain ⟨args, hargs⟩ := hgen.governor
  obtain ⟨htiers, hle, -⟩ := GembaGovernor.construct_spec hargs
  have hinv := h.inv (fun w => w.governor.Tiers ∧ w.governor.quorumNumerator
    ≤ w.governor.criticalQuorumNumerator) ⟨htiers, hle⟩ (fun _ _ _ hI hP hs => tiers_step hI hP hs)
  intro supply t hpass
  exact hpass.standard hinv.1 hinv.2

/-- In any reachable state, the tiers are in order exactly when the quorums are. -/
theorem critical_never_easier_iff (hgen : Genesis w₀)
    (h : Run (World.step d) (fun _ _ => True) w₀ as w) :
    (∀ supply t, w.governor.PassesAt true supply t → w.governor.PassesAt false supply t) ↔
      w.governor.quorumNumerator ≤ w.governor.criticalQuorumNumerator := by
  obtain ⟨args, hargs⟩ := hgen.governor
  obtain ⟨htiers, -⟩ := GembaGovernor.construct_spec hargs
  apply GembaGovernor.critical_le_standard_iff
  refine h.inv (fun w => w.governor.Tiers) htiers ?_
  intro s a u hI _ hs
  obtain ⟨hsuper, hquorum, hcritical⟩ := (World.step_inv hs).governor_change.constants
  refine ⟨?_, ?_, ?_⟩
  · rw [hsuper, hcritical]
    exact hI.supermajority
  · rw [hcritical]
    exact hI.unanimous
  · rw [hquorum]
    exact hI.quorum

/-- Governance sets the Standard quorum to `n`: proposed and voted through by everyone, then queued
    and executed. -/
def quorumRun (n : Nat) : List Label :=
  electorate ++ [propose alice (setQuorum n), .block 4 1020, .castVote alice (setQuorum n) 1,
    .castVote bob (setQuorum n) 1, .block 86404 250000] ++ carryOut alice (setQuorum n) 86500 250300

/-- A run in which governance raises the Standard quorum from 40 to 45, below the Critical 51. -/
theorem critical_never_easier_at_45 :
    (runTo (World.step env.wiring) start (quorumRun 45)).governor.quorumNumerator = 45 ∧
      ∀ supply t, (runTo (World.step env.wiring) start (quorumRun 45)).governor.PassesAt true supply t →
        (runTo (World.step env.wiring) start (quorumRun 45)).governor.PassesAt false supply t :=
  ⟨by decide +kernel,
    critical_never_easier start_deployed.toGenesis
      (Run.of_runTo (by decide +kernel) (by decide +kernel))⟩

/-- **Critical can become the easier tier.**  Governance sets the Standard quorum to 100, which
    `updateQuorumNumerator` accepts; then 60 votes of 100, all of them For, pass at the Critical tier
    and not at the Standard one. -/
theorem critical_becomes_easier :
    Genesis start ∧
      Run (World.step env.wiring) (fun _ _ => True) start (quorumRun 100)
        (runTo (World.step env.wiring) start (quorumRun 100)) ∧
      (runTo (World.step env.wiring) start (quorumRun 100)).governor.PassesAt true 100 ⟨0, 60, 0⟩ ∧
      ¬ (runTo (World.step env.wiring) start (quorumRun 100)).governor.PassesAt false 100
        ⟨0, 60, 0⟩ := by
  refine ⟨start_deployed.toGenesis, Run.of_runTo ?_ (by decide +kernel), ⟨?_, ?_⟩, ?_⟩
  · exact allowedM_of_forall fun _ _ _ => trivial
  · decide +kernel
  · decide +kernel
  · rintro ⟨hquorum, -⟩
    revert hquorum
    decide +kernel

/-! ## Finality -/

/-- A proposal that `state` still judges by its votes. -/
structure Judged (g : GembaGovernor) (pid : ProposalId) : Prop where
  proposed : g.Proposed pid
  executed : (g.proposals pid).executed = false
  canceled : (g.proposals pid).canceled = false

/-- No executed `updateQuorumNumerator` changes the numerator while a Standard proposal is judged
    whose snapshot has passed. -/
def QuorumSettled (d : Wiring) (w : World) (l : Label) : Prop :=
  ∀ n ∈ newQuorum d w l, n ≠ w.governor.quorumNumerator →
    ∀ pid, Judged w.governor pid → w.governor.isCritical pid = false →
      w.block.number ≤ w.governor.proposalSnapshot pid

/-- A label that queues, executes or cancels a proposal. -/
def Concerns (pid : ProposalId) : Label → Prop
  | .queue _ q => q = pid
  | .execute _ _ q => q = pid
  | .cancel _ q => q = pid
  | _ => False

instance (pid : ProposalId) : DecidablePred (Concerns pid)
  | .queue _ q => inferInstanceAs (Decidable (q = pid))
  | .execute _ _ q => inferInstanceAs (Decidable (q = pid))
  | .cancel _ q => inferInstanceAs (Decidable (q = pid))
  | .block .. | .bank .. | .call .. | .propose .. | .castVote .. | .schedule ..
  | .cancelOperation .. | .executeOperation .. | .delegateBySig .. | .permit .. | .act | .finish
  | .rogue .. => inferInstanceAs (Decidable False)

/-- The quorum in force is the one published for the snapshot of every Standard proposal. -/
structure QuorumInv (w : World) : Prop where
  upto : w.governor.quorumNumeratorHistory.Upto w.block.number
  agrees : ∀ pid, Judged w.governor pid → w.governor.isCritical pid = false →
    w.governor.quorumNumeratorHistory.upperLookup (w.governor.proposalSnapshot pid)
      = w.governor.quorumNumerator

/-- What a step does to one proposal. -/
structure ProposalChange (w : World) (g : GembaGovernor) (l : Label) (pid : ProposalId) : Prop where
  /-- A proposal keeps its snapshot, its deadline and its tier. -/
  kept : w.governor.Proposed pid → g.proposalSnapshot pid = w.governor.proposalSnapshot pid ∧
    g.proposalDeadline pid = w.governor.proposalDeadline pid ∧
    g.isCritical pid = w.governor.isCritical pid
  /-- An execution or a cancellation is not undone. -/
  final : Judged g pid → w.governor.Proposed pid → Judged w.governor pid
  /-- A new proposal votes from now on at the earliest. -/
  new : g.Proposed pid → ¬ w.governor.Proposed pid → w.block.number ≤ g.proposalSnapshot pid
  /-- Only its own queueing, execution or cancellation changes a proposal. -/
  proposal : w.governor.Proposed pid → ¬ Concerns pid l → g.proposals pid = w.governor.proposals pid
  /-- Votes are cast up to the deadline. -/
  tally : w.governor.Proposed pid → w.governor.proposalDeadline pid < w.block.number →
    g.proposalVotes pid = w.governor.proposalVotes pid

/-- The proposal and its tier are the same, and its votes if it has ended. -/
theorem ProposalChange.of_same {g : GembaGovernor}
    (hp : g.proposals pid = w.governor.proposals pid)
    (hc : g.isCritical pid = w.governor.isCritical pid)
    (hv : w.governor.proposalDeadline pid < w.block.number →
      g.proposalVotes pid = w.governor.proposalVotes pid) : ProposalChange w g l pid := by
  have hsnap : g.proposalSnapshot pid = w.governor.proposalSnapshot pid := by
    unfold GembaGovernor.proposalSnapshot
    rw [hp]
  have hdead : g.proposalDeadline pid = w.governor.proposalDeadline pid := by
    unfold GembaGovernor.proposalDeadline
    rw [hp]
  refine ⟨fun _ => ⟨hsnap, hdead, hc⟩, ?_, ?_, fun _ _ => hp, fun _ => hv⟩
  · intro h hprop
    exact ⟨hprop, by rw [← hp]; exact h.executed, by rw [← hp]; exact h.canceled⟩
  · intro h hn
    unfold GembaGovernor.Proposed at h hn
    rw [hsnap] at h
    exact absurd h hn

/-- One proposal was queued, executed or cancelled. -/
theorem ProposalChange.of_set {g : GembaGovernor} {p : ProposalCore} {q : ProposalId}
    (hp : g.proposals = (w.governor.setProposal q p).proposals)
    (hc : g.isCritical = w.governor.isCritical)
    (hv : g.proposalVotes = w.governor.proposalVotes)
    (hstart : p.voteStart = (w.governor.proposals q).voteStart)
    (hduration : p.voteDuration = (w.governor.proposals q).voteDuration)
    (hexec : p.executed = false → (w.governor.proposals q).executed = false)
    (hcanc : p.canceled = false → (w.governor.proposals q).canceled = false)
    (hl : ¬ Concerns pid l → pid ≠ q) : ProposalChange w g l pid := by
  by_cases hq : pid = q
  · subst hq
    have hcore : g.proposals pid = p := by
      rw [hp]
      exact if_pos rfl
    have hsnap : g.proposalSnapshot pid = w.governor.proposalSnapshot pid := by
      unfold GembaGovernor.proposalSnapshot
      rw [hcore, hstart]
    have hdead : g.proposalDeadline pid = w.governor.proposalDeadline pid := by
      unfold GembaGovernor.proposalDeadline
      rw [hcore, hstart, hduration]
    refine ⟨fun _ => ⟨hsnap, hdead, by rw [hc]⟩, ?_, ?_, fun _ hn => absurd rfl (hl hn),
      fun _ _ => by rw [hv]⟩
    · intro h hprop
      refine ⟨hprop, hexec ?_, hcanc ?_⟩
      · rw [← hcore]
        exact h.executed
      · rw [← hcore]
        exact h.canceled
    · intro h hn
      unfold GembaGovernor.Proposed at h hn
      rw [hsnap] at h
      exact absurd h hn
  · have hcore : g.proposals pid = w.governor.proposals pid := by
      rw [hp]
      exact if_neg hq
    exact .of_same hcore (by rw [hc]) fun _ => by rw [hv]

theorem GovernorChange.proposal {g : GembaGovernor} (h : GovernorChange d w l g)
    (pid : ProposalId) : ProposalChange w g l pid := by
  cases h with
  | same => exact .of_same rfl rfl fun _ => rfl
  | propose h =>
    rename_i sender calls description
    obtain ⟨hnew, -, rfl⟩ := GembaGovernor.propose_spec h
    by_cases hq : pid = ⟨calls, description.hash⟩
    · -- the proposal made here did not exist before
      subst hq
      refine ⟨fun hp => absurd hp hnew, fun _ hp => absurd hp hnew, fun _ _ => ?_,
        fun hp => absurd hp hnew, fun hp => absurd hp hnew⟩
      show w.block.number ≤ (if _ = _ then _ else _ : ProposalCore).voteStart
      rw [if_pos rfl]
      exact Nat.le_add_right _ _
    · exact .of_same (if_neg hq) (if_neg hq) fun _ => rfl
  | castVote h =>
    rename_i account q support
    obtain ⟨hactive, p, rfl⟩ := GembaGovernor.castVote_spec h
    refine .of_same rfl rfl fun hended => ?_
    -- an open proposal has not reached its deadline
    have hne : pid ≠ q := by
      rintro rfl
      have hopen := GembaGovernor.deadline_of_active hactive
      have hopen : w.block.number ≤ w.governor.proposalDeadline pid := hopen
      omega
    exact if_neg hne
  | queue h =>
    obtain ⟨-, -, eta, rfl⟩ := GembaGovernor.queue_spec h
    exact .of_set rfl rfl rfl rfl rfl id id fun hn hq => hn hq.symm
  | execute h =>
    obtain ⟨calls, rfl⟩ := GembaGovernor.beginExecute_spec h
    refine .of_set rfl rfl rfl rfl rfl ?_ id fun hn hq => hn hq.symm
    intro hfalse
    nomatch hfalse
  | cancel h =>
    obtain ⟨⟨ids, rfl⟩, -⟩ := GembaGovernor.cancel_spec h
    refine .of_set rfl rfl rfl rfl rfl id ?_ fun hn hq => hn hq.symm
    intro hfalse
    nomatch hfalse
  | configure hl hg h =>
    obtain ⟨-, calls, rfl⟩ := GembaGovernor.onlyGovernance_spec hg
    have hre := GembaGovernor.configure_reconfigured h
    exact .of_same (congrFun hre.proposals pid) (congrFun hre.isCritical pid)
      fun _ => congrFun hre.proposalVotes pid
  | bookkeeping => exact .of_same rfl rfl fun _ => rfl

/-- **The step of the quorum invariant.** -/
theorem quorumInv_step (h : QuorumInv w) (hP : QuorumSettled d w l) (hs : w.step d l = .ok w') :
    QuorumInv w' := by
  have hstep := World.step_inv hs
  have hchange := hstep.governor_change
  have hclock := hstep.clock_le
  -- what a Standard proposal judged afterwards was before
  have hold : ∀ pid, Judged w'.governor pid → w'.governor.isCritical pid = false →
      w.governor.Proposed pid → Judged w.governor pid ∧ w.governor.isCritical pid = false ∧
        w'.governor.proposalSnapshot pid = w.governor.proposalSnapshot pid := by
    intro pid hj hstd hprop
    obtain ⟨hsnap, -, htier⟩ := (hchange.proposal pid).kept hprop
    exact ⟨(hchange.proposal pid).final hj hprop, by rw [← htier]; exact hstd, hsnap⟩
  rcases hchange.history with hsame | ⟨n, hn, hpush⟩
  · have hnum : w'.governor.quorumNumerator = w.governor.quorumNumerator := by
      unfold GembaGovernor.quorumNumerator
      rw [hsame]
    refine ⟨by rw [hsame]; exact h.upto.mono hclock, ?_⟩
    intro pid hj hstd
    rw [hsame, hnum]
    by_cases hprop : w.governor.Proposed pid
    · obtain ⟨hj₀, hstd₀, hsnap⟩ := hold pid hj hstd hprop
      rw [hsnap]
      exact h.agrees pid hj₀ hstd₀
    · -- proposed just now: its snapshot is not before the newest checkpoint
      exact h.upto.upperLookup_eq ((hchange.proposal pid).new hj.proposed hprop)
  · have hnum : w'.governor.quorumNumerator = n := Trace.latest_push hpush
    refine ⟨(h.upto.push hpush (Nat.le_refl _)).mono hclock, ?_⟩
    intro pid hj hstd
    rw [hnum]
    by_cases hprop : w.governor.Proposed pid
    · obtain ⟨hj₀, hstd₀, hsnap⟩ := hold pid hj hstd hprop
      rw [hsnap]
      by_cases hlate : w.block.number ≤ w.governor.proposalSnapshot pid
      · exact Trace.upperLookup_push_of_le hpush hlate
      · -- the snapshot has passed, so the condition makes the update change nothing
        have heq : n = w.governor.quorumNumerator := by
          by_contra hne
          exact hlate (hP n hn hne pid hj₀ hstd₀)
        rw [Trace.upperLookup_push_of_lt hpush (Nat.lt_of_not_le hlate), heq]
        exact h.agrees pid hj₀ hstd₀
    · exact Trace.upperLookup_push_of_le hpush
        ((hchange.proposal pid).new hj.proposed hprop)

/-- The supply of an earlier block reads the same after a step. -/
theorem pastTotalSupply_step (hs : World.Stepped d w l w') {timepoint : Nat}
    (h : timepoint < w.block.number) :
    w'.token.getPastTotalSupply w'.view.clock timepoint
      = w.token.getPastTotalSupply w.view.clock timepoint := by
  have hclock := hs.clock_le
  have hlookup := hs.supply timepoint h
  unfold GembaVotes.getPastTotalSupply GembaVotes.validateTimepoint
  rw [failIf_neg (show ¬ w'.view.clock ≤ timepoint from Nat.not_le.mpr (by
      show timepoint < w'.block.number
      omega)),
    failIf_neg (show ¬ w.view.clock ≤ timepoint from Nat.not_le.mpr h), ok_bind, ok_bind, hlookup]

/-- **A step that does not concern a proposal leaves its verdict alone.** -/
theorem sameVerdict_step (hP : QuorumSettled d w l) (hs : w.step d l = .ok w')
    (hprop : w.governor.Proposed pid) (hended : w.governor.proposalDeadline pid < w.block.number)
    (hl : ¬ Concerns pid l) :
    GembaGovernor.SameVerdict w.governor w.view w'.governor w'.view pid := by
  have hstep := World.step_inv hs
  have hchange := hstep.governor_change
  have hpid := hchange.proposal pid
  have hclock := hstep.clock_le
  obtain ⟨hsnap, -, htier⟩ := hpid.kept hprop
  obtain ⟨hsuper, hquorum, hcritical⟩ := hchange.constants
  have hle : w.governor.proposalSnapshot pid ≤ w.governor.proposalDeadline pid :=
    Nat.le_add_right _ _
  refine ⟨hpid.proposal hprop hl, congrArg _ (hpid.tally hprop hended), htier, ?_, ⟨hended, ?_⟩, ?_⟩
  · unfold GembaGovernor.supermajorityTier
    rw [hsuper, hcritical]
  · show w.governor.proposalDeadline pid < w'.block.number
    omega
  · intro hexec hcanc
    have htierQuorum : w'.governor.quorumTier (w.governor.isCritical pid)
        = w.governor.quorumTier (w.governor.isCritical pid) := by
      unfold GembaGovernor.quorumTier
      rw [hquorum]
      cases hcrit : w.governor.isCritical pid with
      | true => rfl
      | false =>
        show w'.governor.quorumNumerator = w.governor.quorumNumerator
        rcases hchange.history with hsame | ⟨n, hn, hpush⟩
        · unfold GembaGovernor.quorumNumerator
          rw [hsame]
        · -- the proposal is judged and its snapshot has passed
          have hnum : w'.governor.quorumNumerator = n := Trace.latest_push hpush
          rw [hnum]
          by_contra hne
          have hlate := hP n hn hne pid ⟨hprop, hexec, hcanc⟩ hcrit
          omega
    unfold GembaGovernor.appliedQuorum GembaGovernor.quorumThreshold
    rw [htier, hsnap]
    show (w'.token.getPastTotalSupply _ _ >>= _) = (w.token.getPastTotalSupply _ _ >>= _)
    rw [pastTotalSupply_step hstep (Nat.lt_of_le_of_lt hle hended), htierQuorum]

theorem GembaGovernor.SameVerdict.refl {g : GembaGovernor} {v : View}
    (h : g.proposalDeadline pid < v.clock) : GembaGovernor.SameVerdict g v g v pid :=
  ⟨rfl, rfl, rfl, rfl, ⟨h, h⟩, fun _ _ => rfl⟩

theorem GembaGovernor.SameVerdict.trans {g g' g'' : GembaGovernor} {v v' v'' : View}
    (h : GembaGovernor.SameVerdict g v g' v' pid) (h' : GembaGovernor.SameVerdict g' v' g'' v'' pid) :
    GembaGovernor.SameVerdict g v g'' v'' pid := by
  have hdead : g'.proposalDeadline pid = g.proposalDeadline pid := by
    unfold GembaGovernor.proposalDeadline
    rw [h.proposal]
  refine ⟨h'.proposal.trans h.proposal, h'.tally.trans h.tally, h'.tier.trans h.tier, ?_,
    ⟨h.ended.1, ?_⟩, ?_⟩
  · have hsuper := h'.supermajority
    rw [h.tier] at hsuper
    exact hsuper.trans h.supermajority
  · rw [← hdead]
    exact h'.ended.2
  · intro hexec hcanc
    have hquorum := h'.quorum (by rw [h.proposal]; exact hexec) (by rw [h.proposal]; exact hcanc)
    exact hquorum.trans (h.quorum hexec hcanc)

/-- The quorum invariant along every run that keeps the quorum settled. -/
theorem quorumInv_run (hgen : Genesis w₀) (h : Run (World.step d) (QuorumSettled d) w₀ as w) :
    QuorumInv w := by
  obtain ⟨args, hargs⟩ := hgen.governor
  obtain ⟨-, -, hupto, -, hnone⟩ := GembaGovernor.construct_spec hargs
  refine h.inv QuorumInv ⟨hupto, fun pid hj => absurd hj.proposed (hnone pid)⟩ ?_
  intro s a u hI hP hs
  exact quorumInv_step hI hP hs

/-- Along a run that does not concern it, a proposal that has ended keeps its verdict. -/
theorem sameVerdict_run (hprop : w.governor.Proposed pid)
    (hended : w.governor.proposalDeadline pid < w.block.number)
    (h : Run (World.step d) (fun w l => QuorumSettled d w l ∧ ¬ Concerns pid l) w bs w') :
    GembaGovernor.SameVerdict w.governor w.view w'.governor w'.view pid := by
  refine h.inv (fun u => GembaGovernor.SameVerdict w.governor w.view u.governor u.view pid)
    (.refl hended) ?_
  intro s a u hI hP hs
  have hprop' : s.governor.Proposed pid := by
    unfold GembaGovernor.Proposed GembaGovernor.proposalSnapshot
    rw [hI.proposal]
    exact hprop
  have hended' : s.governor.proposalDeadline pid < s.block.number := by
    unfold GembaGovernor.proposalDeadline
    rw [hI.proposal]
    exact hI.ended.2
  exact hI.trans (sameVerdict_step hP.1 hs hprop' hended' hP.2)

/-- In a settled state, `_quorumReached` applies the quorum published for the snapshot. -/
theorem appliedQuorum_eq (h : QuorumInv w) (hj : Judged w.governor pid)
    (hstd : w.governor.isCritical pid = false) :
    w.governor.appliedQuorum w.view pid
      = w.governor.quorum w.view (w.governor.proposalSnapshot pid) := by
  unfold GembaGovernor.appliedQuorum GembaGovernor.quorum GembaGovernor.quorumThreshold
    GembaGovernor.quorumTier
  rw [hstd, h.agrees pid hj hstd]
  rfl

/-- **Verdicts are final.**  From any construction, along every run that keeps the quorum settled:
    once a proposal's voting has ended, whatever happens that is not its own queueing, execution or
    cancellation, it counts as succeeded, or as defeated, exactly when it did; and every Standard
    proposal is held to the quorum published for its snapshot. -/
theorem verdict_final (hgen : Genesis w₀) (h : Run (World.step d) (QuorumSettled d) w₀ as w)
    (hprop : w.governor.Proposed pid) (hended : w.governor.proposalDeadline pid < w.block.number)
    (h' : Run (World.step d) (fun w l => QuorumSettled d w l ∧ ¬ Concerns pid l) w bs w') :
    (w'.governor.state w'.view pid = .ok .succeeded ↔
        w.governor.state w.view pid = .ok .succeeded) ∧
      (w'.governor.state w'.view pid = .ok .defeated ↔
        w.governor.state w.view pid = .ok .defeated) ∧
      ∀ q, Judged w'.governor q → w'.governor.isCritical q = false →
        w'.governor.appliedQuorum w'.view q
          = w'.governor.quorum w'.view (w'.governor.proposalSnapshot q) := by
  have hcore := GembaGovernor.coreState_congr (sameVerdict_run hprop hended h')
  have hinv : QuorumInv w' := by
    refine h'.inv QuorumInv (quorumInv_run hgen h) ?_
    intro s a u hI hP hs
    exact quorumInv_step hI hP.1 hs
  refine ⟨?_, ?_, fun q hj hstd => appliedQuorum_eq hinv hj hstd⟩
  · rw [GembaGovernor.state_eq_succeeded_iff, GembaGovernor.state_eq_succeeded_iff, hcore]
  · rw [GembaGovernor.state_eq_defeated_iff, GembaGovernor.state_eq_defeated_iff, hcore]

end

/-! ## The quorum of a proposal that has ended -/

/-- Alice's proposal has her 45% of the votes, above the Standard quorum of 40%; a second, Critical
    proposal has everyone's.  Voting on both has ended. -/
def endedRun (critical : ProposalId) : List Label :=
  electorate ++ [propose alice replacePauser, propose alice critical, .block 4 1020,
    .castVote alice replacePauser 1, .castVote alice critical 1, .castVote bob critical 1,
    .block 86404 250000]

/-- The chain at that point. -/
def ended (critical : ProposalId) : World :=
  runTo (World.step env.wiring) start (endedRun critical)

/-- A step that sets no quorum keeps it settled. -/
theorem quorumSettled_of_none {d : Wiring} {w : World} {l : Label} (h : newQuorum d w l = none) :
    QuorumSettled d w l := by
  intro n hn
  rw [h] at hn
  nomatch hn

/-- Carrying out a change of the voting delay leaves the verdict on Alice's proposal alone. -/
theorem verdict_final_setDelay :
    (ended (setDelay 5)).governor.state (ended (setDelay 5)).view replacePauser = .ok .succeeded ∧
      (runTo (World.step env.wiring) (ended (setDelay 5))
          (carryOut alice (setDelay 5) 86500 250300)).governor.state
        (runTo (World.step env.wiring) (ended (setDelay 5))
          (carryOut alice (setDelay 5) 86500 250300)).view replacePauser = .ok .succeeded := by
  have hrun : Run (World.step env.wiring) (fun w l => newQuorum env.wiring w l = none) start
      (endedRun (setDelay 5)) (ended (setDelay 5)) :=
    Run.of_runTo (by decide +kernel) (by decide +kernel)
  have hrun' : Run (World.step env.wiring)
      (fun w l => newQuorum env.wiring w l = none ∧ ¬ Concerns replacePauser l) (ended (setDelay 5))
      (carryOut alice (setDelay 5) 86500 250300) _ :=
    Run.of_runTo (by decide +kernel) (by decide +kernel)
  have hsucceeded : (ended (setDelay 5)).governor.state (ended (setDelay 5)).view replacePauser
      = .ok .succeeded := by decide +kernel
  have hprop : (ended (setDelay 5)).governor.Proposed replacePauser := by decide +kernel
  have hfinal := verdict_final start_deployed.toGenesis
    (hrun.mono fun _ _ h => quorumSettled_of_none h) hprop (by decide +kernel)
    (hrun'.mono fun _ _ h => ⟨quorumSettled_of_none h.1, h.2⟩)
  exact ⟨hsucceeded, hfinal.1.mpr hsucceeded⟩

/-- **A verdict can change after the fact.**  Alice's Standard proposal has succeeded with 45% of the
    votes at a quorum of 40%; governance then sets the quorum to 50, and the proposal is defeated,
    though nobody touched it and the quorum published for its snapshot is still 40%. -/
theorem verdict_overturned :
    Genesis start ∧
      Run (World.step env.wiring) (fun _ _ => True) start (endedRun (setQuorum 50))
        (ended (setQuorum 50)) ∧
      (ended (setQuorum 50)).governor.proposalDeadline replacePauser
        < (ended (setQuorum 50)).block.number ∧
      (ended (setQuorum 50)).governor.state (ended (setQuorum 50)).view replacePauser
        = .ok .succeeded ∧
      Run (World.step env.wiring) (fun _ l => ¬ Concerns replacePauser l) (ended (setQuorum 50))
        (carryOut alice (setQuorum 50) 86500 250300)
        (runTo (World.step env.wiring) (ended (setQuorum 50))
          (carryOut alice (setQuorum 50) 86500 250300)) ∧
      (runTo (World.step env.wiring) (ended (setQuorum 50))
          (carryOut alice (setQuorum 50) 86500 250300)).governor.state
        (runTo (World.step env.wiring) (ended (setQuorum 50))
          (carryOut alice (setQuorum 50) 86500 250300)).view replacePauser = .ok .defeated := by
  refine ⟨start_deployed.toGenesis, Run.of_runTo ?_ (by decide +kernel), by decide +kernel,
    by decide +kernel, Run.of_runTo (by decide +kernel) (by decide +kernel), by decide +kernel⟩
  exact allowedM_of_forall fun _ _ _ => trivial

end Gemba.Governance
