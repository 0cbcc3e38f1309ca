/-
  The iron rule: a change of the governance configuration is a Critical proposal.

  `propose` looks at each target when the proposal is made: one that touches the Governor or its
  Timelock is Critical.  The Governor stays where it is.  The Timelock does not: `updateTimelock`
  installs another one, and a proposal made before then was compared with the old one.  So a Standard
  proposal that calls a contract which becomes the executor later on changes the executor's
  configuration at the Standard bar (`minor_proposal_reconfigures`).

  An action lasts until its call returns, and what it calls may call on.  So a Standard proposal also
  reaches the executor through whoever else may configure it, or through an operation that was
  scheduled on it past the Governor.

  * `Acting`    — the proposal whose action is under way, the innermost one if there are several;
  * `IronTerms` — no executed `updateTimelock` installs a contract that a Standard proposal still to be
                  executed calls, and while one acts the executor is `Secluded`: nobody else holds a
                  role on it, and it executes nothing but proposals;
  * `IronInv`   — no Standard proposal alive calls the Governor or the Timelock of the moment, and what
                  a batch still has to call is among its operation's calls (`World.Batched`);
  * `iron_rule` — in every run on these terms a change of the configuration, at any point of an action,
                  is made within one of a Critical proposal.
-/
import Gemba.Governance.Verdict

namespace Gemba.Governance

open Gemba.Lib Gemba.Evm
open Rehearsal (env start start_deployed electorate alice bob propose carryOut setDelay)

/-! ## The stack -/

/-- A call under way that is neither a batch nor an execution of the Governor. -/
def Frame.Passing : Frame → Prop
  | .batch .. => False
  | .governing _ => False
  | .calling .. => True
  | .sending _ => True
  | .withdrawing => True

/-- A call that `s` made: its own frame, or one of what it called. -/
def Frame.From (s : Address) : Frame → Prop
  | .batch .. => False
  | .governing _ => False
  | .calling sender .. => sender = s
  | .sending _ => True
  | .withdrawing => True

theorem Frame.From.passing {s : Address} {f : Frame} (h : f.From s) : f.Passing := by
  cases f with
  | batch => exact h
  | governing => exact h
  | calling => exact trivial
  | sending => exact trivial
  | withdrawing => exact trivial

namespace World

variable {d : Wiring} {w w' w₀ : World} {l : Label} {sender target : Address} {value : Nat}
  {data : Bytes} {f : Frame}

theorem OtherCall.frames_from (h : OtherCall d w₀ sender target value data w')
    (hf : f ∈ w'.frames) : f ∈ w₀.frames ∨ f.From sender := by
  cases h with
  | token hsupply hb hframes =>
    rcases hframes with rfl | rfl
    · exact .inl hf
    · rcases List.mem_cons.mp hf with rfl | hf
      · exact .inr trivial
      · exact .inl hf
  | calling h =>
    rcases List.mem_cons.mp hf with rfl | hf
    · exact .inr rfl
    · exact .inl hf
  | configure ht hfn h => exact .inl hf
  | reserve hR hfn hb h => exact .inl hf
  | payment hR hfn hb h hfunds hb' hpaid =>
    rcases List.mem_cons.mp hf with rfl | hf
    · exact .inr trivial
    · exact .inl hf
  | quiet hb => exact .inl hf

/-- A call puts frames of its sender on the stack, and of the Governor if it relays. -/
theorem Called.frames_from (h : Called d w₀ sender target value data w') (hf : f ∈ w'.frames) :
    f ∈ w₀.frames ∨ f.From sender ∨
      (target = d.governor ∧ sender = w₀.governor.timelock ∧ f.From d.governor) := by
  cases h with
  | other ht h =>
    rcases h.frames_from hf with hf | hf
    · exact .inl hf
    · exact .inr (.inl hf)
  | plain hb => exact .inl hf
  | calling ht =>
    rcases List.mem_cons.mp hf with rfl | hf
    · exact .inr (.inl rfl)
    · exact .inl hf
  | configure ht hfn hg h => exact .inl hf
  | relay ht hg hb h =>
    have hsender := (GembaGovernor.onlyGovernance_spec hg).1
    rcases h with h | rfl
    · rcases h.frames_from hf with hf | hf
      · exact .inl hf
      · exact .inr (.inr ⟨ht, hsender, hf⟩)
    · rcases List.mem_cons.mp hf with rfl | hf
      · exact .inr (.inr ⟨ht, hsender, rfl⟩)
      · exact .inl hf

theorem Called.frames_mem (h : Called d w₀ sender target value data w') (hf : f ∈ w'.frames) :
    f ∈ w₀.frames ∨ f.Passing := by
  rcases h.frames_from hf with hf | hf | ⟨-, -, hf⟩
  · exact .inl hf
  · exact .inr hf.passing
  · exact .inr hf.passing

/-- The batches and executions a step puts on the stack. -/
inductive Entered (d : Wiring) (w : World) : Label → Frame → Prop where
  | act {a : Address} {op : Operation} {c : Action} {rest : List Action} {below : List Frame}
      (hframes : w.frames = .batch a op (c :: rest) :: below) : Entered d w .act (.batch a op rest)
  | executing {sender : Address} {value : Nat} {pid : ProposalId} {g : GembaGovernor}
      (h : w.governor.beginExecute d.governor w.view pid = .ok g) :
      Entered d w (.execute sender value pid) (.governing pid)
  | execute {sender : Address} {value : Nat} {pid : ProposalId} {a : Address}
      (ha : w.timelocks a ≠ none) :
      Entered d w (.execute sender value pid)
        (.batch a (GembaGovernor.operation d.governor pid) pid.calls)
  | operation {sender a : Address} {value : Nat} {op : Operation} (ha : w.timelocks a ≠ none) :
      Entered d w (.executeOperation sender a value op) (.batch a op op.calls)

/-- **The stack after a step.** -/
theorem Stepped.frames_mem (h : Stepped d w l w') (hf : f ∈ w'.frames) :
    f ∈ w.frames ∨ f.Passing ∨ Entered d w l f := by
  cases h with
  | block hframes hn ht => exact .inl hf
  | bank h => exact .inl hf
  | call ho h =>
    rcases h.frames_mem hf with hf | hf
    · exact .inl hf
    · exact .inr (.inl hf)
  | propose ha h => exact .inl (ha.mem hf)
  | castVote ha h => exact .inl (ha.mem hf)
  | queue ha h => exact .inl (ha.mem hf)
  | execute ha h ht hready hb =>
    rcases List.mem_cons.mp hf with rfl | hf
    · exact .inr (.inr (.execute (ht ▸ Option.some_ne_none _)))
    · rcases List.mem_cons.mp hf with rfl | hf
      · exact .inr (.inr (.executing h))
      · exact .inl (ha.mem hf)
  | cancel ha h => exact .inl (ha.mem hf)
  | schedule ha ht h => exact .inl (ha.mem hf)
  | cancelOperation ha ht h => exact .inl (ha.mem hf)
  | executeOperation ha ht hready hb =>
    rcases List.mem_cons.mp hf with rfl | hf
    · exact .inr (.inr (.operation (ht ▸ Option.some_ne_none _)))
    · exact .inl (ha.mem hf)
  | delegateBySig h => exact .inl hf
  | permit h => exact .inl hf
  | act hframes h =>
    rcases h.frames_mem hf with hf | hf
    · rcases List.mem_cons.mp hf with rfl | hf
      · exact .inr (.inr (.act hframes))
      · left
        rw [hframes]
        exact List.mem_cons_of_mem _ hf
    · exact .inr (.inl hf)
  | finishBatch hframes ht h =>
    left
    rw [hframes]
    exact List.mem_cons_of_mem _ hf
  | finishGoverning hframes =>
    left
    rw [hframes]
    exact List.mem_cons_of_mem _ hf
  | finishSending hframes hR =>
    left
    rw [hframes]
    exact List.mem_cons_of_mem _ hf
  | finishWithdrawing hframes =>
    left
    rw [hframes]
    exact List.mem_cons_of_mem _ hf
  | finishCalling hframes =>
    left
    rw [hframes]
    exact List.mem_cons_of_mem _ hf
  | rogue hR hb => exact .inl hf

/-! ## The Timelocks there are -/

/-- Writing a Timelock that is there makes none. -/
theorem setTimelock_none {a : Address} {t t' : Timelock} (ht : w.timelocks a = some t)
    (x : Address) : (w.setTimelock a t').timelocks x = none ↔ w.timelocks x = none := by
  show (if x = a then some t' else w.timelocks x) = none ↔ _
  by_cases hx : x = a
  · rw [if_pos hx, hx, ht]
    simp only [reduceCtorEq]
  · rw [if_neg hx]

theorem OtherCall.timelocks_none (h : OtherCall d w sender target value data w') (x : Address) :
    w'.timelocks x = none ↔ w.timelocks x = none := by
  cases h with
  | configure ht hfn h => exact setTimelock_none ht x
  | _ => exact Iff.rfl

theorem Called.timelocks_none (h : Called d w sender target value data w') (x : Address) :
    w'.timelocks x = none ↔ w.timelocks x = none := by
  cases h with
  | other ht h => exact h.timelocks_none x
  | relay ht hg hb h =>
    rcases h with h | rfl
    · exact h.timelocks_none x
    · exact Iff.rfl
  | _ => exact Iff.rfl

/-- No Timelock appears or goes. -/
theorem Stepped.timelocks_none (h : Stepped d w l w') (x : Address) :
    w'.timelocks x = none ↔ w.timelocks x = none := by
  cases h with
  | call ho h => exact h.timelocks_none x
  | act hframes h => exact h.timelocks_none x
  | queue ha h =>
    obtain ⟨-, ⟨t, ht, -⟩, -⟩ := GembaGovernor.queue_spec h
    exact setTimelock_none ht x
  | @cancel _ _ _ _ t ha h =>
    cases t with
    | none => exact Iff.rfl
    | some t₁ =>
      obtain ⟨t, -, ht, -⟩ := (GembaGovernor.cancel_spec h).2 t₁ rfl
      exact setTimelock_none ht x
  | schedule ha ht h => exact setTimelock_none ht x
  | cancelOperation ha ht h => exact setTimelock_none ht x
  | finishBatch hframes ht h => exact setTimelock_none ht x
  | _ => exact Iff.rfl

/-- A batch is one of a Timelock, and what it still has to call is among its operation's calls. -/
def Batched (w : World) : Prop :=
  ∀ a op rest, Frame.batch a op rest ∈ w.frames → w.timelocks a ≠ none ∧ ∀ c ∈ rest, c ∈ op.calls

theorem Stepped.batched (h : Stepped d w l w') (hw : Batched w) : Batched w' := by
  intro a op rest hf
  have hkept : w.timelocks a ≠ none → w'.timelocks a ≠ none := fun ha => (h.timelocks_none a).not.mpr ha
  rcases h.frames_mem hf with hf | hf | hf
  · obtain ⟨ha, hrest⟩ := hw a op rest hf
    exact ⟨hkept ha, hrest⟩
  · exact absurd hf id
  · cases hf with
    | @act _ _ c₀ _ below hframes =>
      obtain ⟨ha, hrest⟩ := hw a op (c₀ :: rest) (by rw [hframes]; exact List.mem_cons_self)
      exact ⟨hkept ha, fun c hc => hrest c (List.mem_cons_of_mem _ hc)⟩
    | execute ha => exact ⟨hkept ha, fun c hc => hc⟩
    | operation ha => exact ⟨hkept ha, fun c hc => hc⟩

end World

/-! ## Proposals that can still act -/

namespace World

variable {d : Wiring} {w w' w₀ : World} {l : Label} {as : List Label} {pid : ProposalId}

/-- The proposal is judged by its votes, or being executed. -/
structure Alive (w : World) (pid : ProposalId) : Prop where
  proposed : w.governor.Proposed pid
  acts : Judged w.governor pid ∨ .governing pid ∈ w.frames

/-- The Governor executes the proposal, or has queued it and it was not executed since. -/
structure InForce (w : World) (pid : ProposalId) : Prop where
  proposed : w.governor.Proposed pid
  acts : .governing pid ∈ w.frames ∨
    (Judged w.governor pid ∧ (w.governor.proposals pid).etaSeconds ≠ 0)

instance : Decidable (InForce w pid) :=
  decidable_of_iff (w.governor.Proposed pid ∧ (.governing pid ∈ w.frames ∨
    (((w.governor.proposals pid).executed = false ∧ (w.governor.proposals pid).canceled = false) ∧
      (w.governor.proposals pid).etaSeconds ≠ 0)))
    ⟨fun ⟨hp, h⟩ => ⟨hp, h.imp_right fun ⟨hj, heta⟩ => ⟨⟨hp, hj.1, hj.2⟩, heta⟩⟩,
      fun h => ⟨h.proposed, h.acts.imp_right fun ⟨hj, heta⟩ => ⟨⟨hj.executed, hj.canceled⟩, heta⟩⟩⟩

theorem InForce.alive (h : InForce w pid) : Alive w pid := by
  refine ⟨h.proposed, ?_⟩
  rcases h.acts with hframe | ⟨hjudged, -⟩
  · exact .inr hframe
  · exact .inl hjudged

end World

/-- A proposal that passed, or is queued, is judged by its votes. -/
theorem GembaGovernor.judged_of_state {g : GembaGovernor} {v : View} {pid : ProposalId}
    {s : ProposalState} (hstate : g.state v pid = .ok s) (hvotes : s = .succeeded ∨ s = .queued) :
    Judged g pid := by
  -- the states that do not come from the votes are final
  have hfinal : ∀ s', s' ≠ .succeeded → s' ≠ .queued → g.coreState v pid ≠ .ok s' := by
    intro s' hsucceeded hqueued hcore
    unfold state at hstate
    rw [hcore, ok_bind, if_pos hqueued] at hstate
    injection hstate with hstate
    subst hstate
    rcases hvotes with h | h
    · exact hsucceeded h
    · exact hqueued h
  have hexec : (g.proposals pid).executed = false := by
    cases hexec : (g.proposals pid).executed with
    | false => rfl
    | true => exact absurd (if_pos hexec) (hfinal .executed (by decide) (by decide))
  have hcanc : (g.proposals pid).canceled = false := by
    cases hcanc : (g.proposals pid).canceled with
    | false => rfl
    | true =>
      refine absurd ?_ (hfinal .canceled (by decide) (by decide))
      unfold coreState
      rw [hexec, if_neg (by decide), if_pos hcanc]
  refine ⟨?_, hexec, hcanc⟩
  intro hnone
  have hcore : g.coreState v pid = .error (err "GovernorNonexistentProposal") := by
    unfold coreState
    rw [hexec, hcanc, if_neg (by decide), if_neg (by decide), if_pos hnone]
  unfold state at hstate
  rw [hcore] at hstate
  nomatch hstate

/-- Only a proposal that is judged by its votes is executed. -/
theorem GembaGovernor.judged_of_beginExecute {g g' : GembaGovernor} {v : View} {self : Address}
    {pid : ProposalId} (h : g.beginExecute self v pid = .ok g') : Judged g pid := by
  obtain ⟨⟨⟩, hstate, -⟩ := bind_eq_ok.mp h
  obtain ⟨s, hs, hstate⟩ := validateState_eq_ok hstate
  refine judged_of_state hstate ?_
  rcases List.mem_cons.mp hs with hs | hs
  · exact .inl hs
  · exact .inr (List.mem_singleton.mp hs)

/-! ## The rule -/

/-- The configuration of the Governor is the same. -/
structure GembaGovernor.SameConfig (g g' : GembaGovernor) : Prop where
  votingDelay : g'.votingDelay = g.votingDelay
  votingPeriod : g'.votingPeriod = g.votingPeriod
  proposalThreshold : g'.proposalThreshold = g.proposalThreshold
  quorumNumeratorHistory : g'.quorumNumeratorHistory = g.quorumNumeratorHistory
  criticalTarget : g'.criticalTarget = g.criticalTarget
  timelock : g'.timelock = g.timelock

/-- The Governor and the Timelock that is its executor have the same configuration after a step. -/
structure ConfigKept (w w' : World) : Prop where
  governor : w.governor.SameConfig w'.governor
  executor : ∀ t, w.timelocks w.governor.timelock = some t →
    ∃ t', w'.timelocks w.governor.timelock = some t' ∧ t.SameConfig t'

/-- A batch that executes the proposal, on any Timelock, whether the Governor began it or anybody. -/
def Frame.Executes (d : Wiring) (w : World) (pid : ProposalId) (f : Frame) : Prop :=
  w.InForce pid ∧ ∃ a rest, f = .batch a (GembaGovernor.operation d.governor pid) rest

/-- **An action of the proposal is under way**: its batch is on the stack, and above it there is none
    of a proposal. -/
def Acting (d : Wiring) (w : World) (pid : ProposalId) : Prop :=
  ∃ above f below, w.frames = above ++ f :: below ∧ f.Executes d w pid ∧
    ∀ f' ∈ above, ∀ q, ¬ f'.Executes d w q

/-- No executed `updateTimelock` installs a contract that a Standard proposal alive calls. -/
def NoStaleTarget (d : Wiring) (w : World) (l : Label) : Prop :=
  ∀ a ∈ newTimelock d w l, ∀ pid, w.Alive pid → w.governor.isCritical pid = false →
    ∀ c ∈ pid.calls, c.target ≠ a

/-- **Nobody but the executor and the Governor has a say on the executor.**  It is a Timelock on which
    no other account or Timelock holds a role, and the operation it executes is a proposal. -/
structure Secluded (d : Wiring) (w : World) : Prop where
  roles : ∃ t, w.timelocks w.governor.timelock = some t ∧ ∀ a, a ≠ w.governor.timelock →
    (w.isOutside d a = true ∨ w.timelocks a ≠ none) → ∀ role, t.hasRole role a = false
  executes : ∀ op rest below, w.frames = .batch w.governor.timelock op rest :: below →
    ∃ pid, w.InForce pid ∧ op = GembaGovernor.operation d.governor pid

/-- An executor is secluded whose roles are its own, the Governor's or everyone's. -/
theorem Secluded.of_holders {d : Wiring} {w : World} {t : Timelock}
    (ht : w.timelocks w.governor.timelock = some t)
    (hheld : ∀ role a, t.hasRole role a = true → a = w.governor.timelock ∨ a = d.governor ∨ a = 0)
    (haddresses : w.timelocks d.governor = none ∧ w.timelocks 0 = none)
    (hexecutes : ∀ op rest below, w.frames = .batch w.governor.timelock op rest :: below →
      ∃ pid, w.InForce pid ∧ op = GembaGovernor.operation d.governor pid) : Secluded d w := by
  refine ⟨⟨t, ht, fun a hne ha role => ?_⟩, hexecutes⟩
  by_contra hrole
  rw [Bool.not_eq_false] at hrole
  have hzero : ¬ (w.isOutside d 0 = true ∨ w.timelocks 0 ≠ none) := by
    rintro (ho | hsome)
    · exact (of_decide_eq_true ho).1 rfl
    · exact hsome haddresses.2
  have hgovernor : ¬ (w.isOutside d d.governor = true ∨ w.timelocks d.governor ≠ none) := by
    rintro (ho | hsome)
    · exact (of_decide_eq_true ho).2.1 rfl
    · exact hsome haddresses.1
  rcases hheld role a hrole with rfl | rfl | rfl
  · exact hne rfl
  · exact hgovernor ha
  · exact hzero ha

/-- The terms on which the rule holds. -/
def IronTerms (d : Wiring) (w : World) (l : Label) : Prop :=
  NoStaleTarget d w l ∧ ∀ pid, Acting d w pid → w.governor.isCritical pid = false → Secluded d w

section
variable {d : Wiring} {w w' w₀ : World} {l : Label} {as : List Label} {pid : ProposalId}

/-- Only `propose` makes a proposal. -/
theorem GovernorChange.proposed {g : GembaGovernor} (h : GovernorChange d w l g) (hp : g.Proposed pid)
    (hnew : ¬ w.governor.Proposed pid) :
    g.isCritical pid = w.governor.classify d.governor pid.calls ∧
      g.timelock = w.governor.timelock := by
  -- a change of a proposal's flags keeps its start
  have hset : ∀ {q : ProposalId} {p : ProposalCore} {proposals : ProposalId → ProposalCore},
      proposals = (w.governor.setProposal q p).proposals →
      p.voteStart = (w.governor.proposals q).voteStart → (proposals pid).voteStart ≠ 0 → False := by
    intro q p proposals hproposals hstart hne
    apply hnew
    show (w.governor.proposals pid).voteStart ≠ 0
    by_cases hq : pid = q
    · have hcore : proposals pid = p := by
        rw [hproposals]
        exact if_pos hq
      rw [hq, ← hstart, ← hcore]
      exact hne
    · have hcore : proposals pid = w.governor.proposals pid := by
        rw [hproposals]
        exact if_neg hq
      rw [← hcore]
      exact hne
  cases h with
  | same => exact absurd hp hnew
  | propose h =>
    rename_i sender calls description
    obtain ⟨-, -, rfl⟩ := GembaGovernor.propose_spec h
    by_cases hq : pid = ⟨calls, description.hash⟩
    · subst hq
      exact ⟨if_pos rfl, rfl⟩
    · refine absurd ?_ hnew
      have hcore : (w.governor.setProposal ⟨calls, description.hash⟩
          { w.governor.proposals ⟨calls, description.hash⟩ with
            proposer := sender, voteStart := w.view.clock + w.governor.votingDelay
            voteDuration := w.governor.votingPeriod }).proposals pid = w.governor.proposals pid :=
        if_neg hq
      show (w.governor.proposals pid).voteStart ≠ 0
      rw [← hcore]
      exact hp
  | castVote h =>
    obtain ⟨-, p, rfl⟩ := GembaGovernor.castVote_spec h
    exact absurd hp hnew
  | queue h =>
    obtain ⟨-, -, eta, rfl⟩ := GembaGovernor.queue_spec h
    exact absurd hp (hset rfl rfl)
  | execute h =>
    obtain ⟨calls, rfl⟩ := GembaGovernor.beginExecute_spec h
    exact absurd hp (hset rfl rfl)
  | cancel h =>
    obtain ⟨⟨ids, rfl⟩, -⟩ := GembaGovernor.cancel_spec h
    exact absurd hp (hset rfl rfl)
  | configure hl hg h =>
    obtain ⟨-, calls, rfl⟩ := GembaGovernor.onlyGovernance_spec hg
    have hre := GembaGovernor.configure_reconfigured h
    unfold GembaGovernor.Proposed GembaGovernor.proposalSnapshot at hp
    rw [hre.proposals] at hp
    exact absurd hp hnew
  | bookkeeping => exact absurd hp hnew

/-- Only an executed `updateTimelock` replaces the Timelock. -/
theorem GovernorChange.timelock {g : GembaGovernor} (h : GovernorChange d w l g) :
    g.timelock = w.governor.timelock ∨ newTimelock d w l = some g.timelock := by
  rcases h.settings with hsame | ⟨fn, g₀, hl, hsame, hg⟩
  · exact .inl hsame.timelock
  · rcases GembaGovernor.configure_timelock hg with hkept | rfl
    · exact .inl (hkept.trans hsame.timelock)
    · exact .inr (newTimelock_of_configCall hl)

/-- **No Standard proposal alive calls the Governor or its Timelock.** -/
def IronInv (d : Wiring) (w : World) : Prop :=
  ∀ pid, w.Alive pid → w.governor.isCritical pid = false →
    ∀ c ∈ pid.calls, c.target ≠ d.governor ∧ c.target ≠ w.governor.timelock

/-- A proposal alive after a step that existed before was alive before. -/
theorem World.Stepped.alive (h : World.Stepped d w l w') (halive : w'.Alive pid)
    (hprop : w.governor.Proposed pid) : w.Alive pid := by
  refine ⟨hprop, ?_⟩
  rcases halive.acts with hj | hframe
  · exact .inl ((h.governor_change.proposal pid).final hj hprop)
  · rcases h.frames_mem hframe with hframe | hframe | hframe
    · exact .inr hframe
    · exact absurd hframe id
    · cases hframe with
      | executing hbegin => exact .inl (GembaGovernor.judged_of_beginExecute hbegin)

theorem ironInv_step (hinv : IronInv d w) (hP : NoStaleTarget d w l) (hs : w.step d l = .ok w') :
    IronInv d w' := by
  intro pid halive hstd c hc
  have hstep := World.step_inv hs
  have hchange := hstep.governor_change
  by_cases hprop : w.governor.Proposed pid
  · have halive₀ := hstep.alive halive hprop
    have hstd₀ : w.governor.isCritical pid = false := by
      rw [← ((hchange.proposal pid).kept hprop).2.2]
      exact hstd
    obtain ⟨hgovernor, htimelock⟩ := hinv pid halive₀ hstd₀ c hc
    refine ⟨hgovernor, ?_⟩
    rcases hchange.timelock with hsame | hnew
    · rw [hsame]
      exact htimelock
    · -- the new Timelock: the condition is about it
      exact hP _ hnew pid halive₀ hstd₀ c hc
  · obtain ⟨hcritical, htimelock⟩ := hchange.proposed halive.proposed hprop
    rw [hcritical] at hstd
    rw [htimelock]
    obtain ⟨hgovernor, hexecutor, -⟩ := GembaGovernor.classify_eq_false hstd c hc
    exact ⟨hgovernor, hexecutor⟩

/-! ## Who changes the configuration -/

theorem GembaGovernor.SameConfig.refl (g : GembaGovernor) : g.SameConfig g :=
  ⟨rfl, rfl, rfl, rfl, rfl, rfl⟩

/-- A step that runs no configuration function leaves the configuration of the Governor alone. -/
theorem GovernorChange.sameConfig {g : GembaGovernor} (h : GovernorChange d w l g)
    (hnone : configCall d w l = none) : w.governor.SameConfig g := by
  cases h with
  | same => exact .refl _
  | propose h =>
    obtain ⟨-, -, rfl⟩ := GembaGovernor.propose_spec h
    exact ⟨rfl, rfl, rfl, rfl, rfl, rfl⟩
  | castVote h =>
    obtain ⟨-, p, rfl⟩ := GembaGovernor.castVote_spec h
    exact ⟨rfl, rfl, rfl, rfl, rfl, rfl⟩
  | queue h =>
    obtain ⟨-, -, eta, rfl⟩ := GembaGovernor.queue_spec h
    exact ⟨rfl, rfl, rfl, rfl, rfl, rfl⟩
  | execute h =>
    obtain ⟨calls, rfl⟩ := GembaGovernor.beginExecute_spec h
    exact ⟨rfl, rfl, rfl, rfl, rfl, rfl⟩
  | cancel h =>
    obtain ⟨⟨ids, rfl⟩, -⟩ := GembaGovernor.cancel_spec h
    exact ⟨rfl, rfl, rfl, rfl, rfl, rfl⟩
  | configure hl => exact absurd (hnone.symm.trans hl) (Option.some_ne_none _).symm
  | bookkeeping => exact ⟨rfl, rfl, rfl, rfl, rfl, rfl⟩

/-- The call a step makes, and who makes it. -/
inductive Calls (d : Wiring) (w : World) : Label → Address → Action → Prop where
  | call {sender target : Address} {value : Nat} {data : Bytes} (ho : w.isOutside d sender = true) :
      Calls d w (.call sender target value data) sender ⟨target, value, data⟩
  | act {a : Address} {op : Operation} {c : Action} {rest : List Action} {below : List Frame}
      (hframes : w.frames = .batch a op (c :: rest) :: below) : Calls d w .act a c

/-- A call that cannot change the configuration: to somebody else, or by somebody else who holds no
    role on the executor. -/
def Harmless (d : Wiring) (w : World) (sender target : Address) : Prop :=
  (target ≠ d.governor ∧ target ≠ w.governor.timelock) ∨
    (sender ≠ w.governor.timelock ∧ ∀ t, w.timelocks w.governor.timelock = some t →
      ∀ role, t.hasRole role sender = false)

/-- Every Timelock keeps its configuration when one is written that keeps its own. -/
theorem World.setTimelock_config {a : Address} {t t' : Timelock} (ht : w.timelocks a = some t)
    (hsame : t.SameConfig t') (x : Address) (t₀ : Timelock) (h : w.timelocks x = some t₀) :
    ∃ t₁, (w.setTimelock a t').timelocks x = some t₁ ∧ t₀.SameConfig t₁ := by
  by_cases hx : x = a
  · subst hx
    obtain rfl := Option.some.inj (ht.symm.trans h)
    exact ⟨t', if_pos rfl, hsame⟩
  · exact ⟨t₀, (if_neg hx).trans h, Timelock.SameConfig.refl t₀⟩

theorem World.Called.configKept {w₀ : World} {sender target : Address} {value : Nat} {data : Bytes}
    (h : World.Called d w₀ sender target value data w')
    (hw₀ : w₀.governor = w.governor ∧ w₀.timelocks = w.timelocks)
    (hharmless : Harmless d w sender target) : ConfigKept w w' := by
  obtain ⟨hgov, htimelocks⟩ := hw₀
  -- the Governor takes such a call from nobody
  have hrefused : ∀ {g : GembaGovernor}, target = d.governor →
      w₀.governor.onlyGovernance d.governor sender data ≠ .ok g := by
    intro g ht hg
    have hsender := (GembaGovernor.onlyGovernance_spec hg).1
    rw [hgov] at hsender
    rcases hharmless with ⟨hne, -⟩ | ⟨hne, -⟩
    · exact hne ht
    · exact hne hsender
  have hkept : ∀ {u : World}, u.governor = w₀.governor → u.timelocks = w₀.timelocks →
      ConfigKept w u := by
    intro u hg ht
    refine ⟨?_, fun t hexecutor => ⟨t, ?_, Timelock.SameConfig.refl t⟩⟩
    · rw [hg, hgov]
      exact .refl _
    · rw [ht, htimelocks]
      exact hexecutor
  cases h with
  | other ht h =>
    cases h with
    | @configure t t' fn ht hfn h =>
      refine ⟨?_, fun t₀ hexecutor => ?_⟩
      · show w.governor.SameConfig w₀.governor
        rw [hgov]
        exact .refl _
      by_cases htarget : target = w.governor.timelock
      · rcases hharmless with ⟨-, hne⟩ | ⟨hsender, hroles⟩
        · exact absurd htarget hne
        rw [htimelocks, htarget] at ht
        have hsame := Timelock.configure_sameConfig h (htarget ▸ hsender) (hroles t ht)
        obtain rfl := Option.some.inj (ht.symm.trans hexecutor)
        exact ⟨t', if_pos htarget.symm, hsame⟩
      · refine ⟨t₀, ?_, Timelock.SameConfig.refl t₀⟩
        rw [← htimelocks] at hexecutor
        exact (if_neg (Ne.symm htarget)).trans hexecutor
    | _ => exact hkept rfl rfl
  | plain hb => exact hkept rfl rfl
  | calling ht => exact hkept rfl rfl
  | configure ht hfn hg h => exact absurd hg (hrefused ht)
  | relay ht hg hb h => exact absurd hg (hrefused ht)

/-- **A step changes the configuration only by a call.** -/
theorem World.Stepped.configKept (h : World.Stepped d w l w')
    (hcalls : ∀ sender c, Calls d w l sender c → Harmless d w sender c.target) : ConfigKept w w' := by
  have hchange := h.governor_change
  have hnothing : (∀ t, w.timelocks w.governor.timelock = some t →
      ∃ t', w'.timelocks w.governor.timelock = some t' ∧ t.SameConfig t') →
      configCall d w l = none → ConfigKept w w' :=
    fun hexecutor hnone => ⟨hchange.sameConfig hnone, hexecutor⟩
  have hwritten : ∀ {a : Address} {t t' : Timelock}, w.timelocks a = some t →
      w'.timelocks = (w.setTimelock a t').timelocks → t.SameConfig t' → configCall d w l = none →
        ConfigKept w w' := by
    intro a t t' ht hw' hsame hnone
    refine hnothing (fun t₀ h₀ => ?_) hnone
    rw [hw']
    exact setTimelock_config ht hsame _ t₀ h₀
  cases h with
  | call ho h => exact h.configKept ⟨rfl, rfl⟩ (hcalls _ _ (.call ho))
  | act hframes h => exact h.configKept ⟨rfl, rfl⟩ (hcalls _ _ (.act hframes))
  | queue ha h =>
    obtain ⟨-, ⟨t, ht, hsched⟩, -⟩ := GembaGovernor.queue_spec h
    obtain ⟨-, -, -, rfl⟩ := Timelock.schedule_spec hsched
    exact hwritten ht rfl ⟨rfl, rfl⟩ rfl
  | @cancel _ _ _ _ t₁ ha h =>
    cases t₁ with
    | none => exact hnothing (fun t ht => ⟨t, ht, Timelock.SameConfig.refl t⟩) rfl
    | some t₁ =>
      obtain ⟨t, op, ht, hcancel⟩ := (GembaGovernor.cancel_spec h).2 t₁ rfl
      obtain rfl := Timelock.cancel_spec hcancel
      exact hwritten ht rfl ⟨rfl, rfl⟩ rfl
  | schedule ha ht h =>
    obtain ⟨-, -, -, rfl⟩ := Timelock.schedule_spec h
    exact hwritten ht rfl ⟨rfl, rfl⟩ rfl
  | cancelOperation ha ht h =>
    obtain rfl := Timelock.cancel_spec h
    exact hwritten ht rfl ⟨rfl, rfl⟩ rfl
  | finishBatch hframes ht h =>
    obtain ⟨-, rfl⟩ := Timelock.afterCall_spec h
    exact hwritten ht rfl ⟨rfl, rfl⟩ rfl
  | _ => exact hnothing (fun t ht => ⟨t, ht, Timelock.SameConfig.refl t⟩) rfl

/-! ## The rule -/

/-- **Within an action of a Standard proposal nobody can change the configuration**, on a secluded
    executor. -/
theorem Secluded.harmless (h : Secluded d w) (hiron : IronInv d w) (hbatched : w.Batched)
    (hact : Acting d w pid) (hstd : w.governor.isCritical pid = false) {sender : Address} {c : Action}
    (hcall : Calls d w l sender c) : Harmless d w sender c.target := by
  obtain ⟨t, ht, hroles⟩ := h.roles
  have hothers : sender ≠ w.governor.timelock →
      (w.isOutside d sender = true ∨ w.timelocks sender ≠ none) → Harmless d w sender c.target := by
    refine fun hne hsender => .inr ⟨hne, fun t' ht' => ?_⟩
    obtain rfl := Option.some.inj (ht.symm.trans ht')
    exact hroles sender hne hsender
  cases hcall with
  | call ho =>
    refine hothers (fun hsender => ?_) (.inl ho)
    -- the executor is a Timelock, and no account outside
    obtain ⟨-, -, -, hnone, -⟩ := of_decide_eq_true ho
    rw [hsender, ht] at hnone
    nomatch hnone
  | @act _ op _ rest below hframes =>
    have htop : Frame.batch sender op (c :: rest) ∈ w.frames := by
      rw [hframes]
      exact List.mem_cons_self
    obtain ⟨htimelock, hmem⟩ := hbatched sender op (c :: rest) htop
    by_cases hsender : sender = w.governor.timelock
    · subst hsender
      obtain ⟨q, hq, hop⟩ := h.executes op (c :: rest) below hframes
      obtain ⟨above, f, below', hstack, ⟨hforce, a, rest', hf⟩, habove⟩ := hact
      -- the batch is that of the proposal acting: above it none is of a proposal, and this one is
      cases above with
      | nil =>
        have htop := List.cons.inj (hframes.symm.trans hstack)
        rw [hf] at htop
        injection htop.1 with _ hcalls
        rw [hcalls] at hmem
        exact .inl (hiron pid hforce.alive hstd c (hmem c List.mem_cons_self))
      | cons f' above =>
        have htop := (List.cons.inj (hframes.symm.trans hstack)).1
        refine absurd ?_ (habove f' List.mem_cons_self q)
        rw [← htop, hop]
        exact ⟨hq, _, _, rfl⟩
    · exact hothers hsender (.inr htimelock)

/-- **The iron rule.**  From any construction of the Governor, along every run on the terms above: a
    step that changes the configuration of the Governor, or of the Timelock that is its executor then,
    while an action of a proposal is under way, belongs to an action of a Critical proposal, which is
    held to the Critical quorum and supermajority.  It does not matter who makes the change: the
    proposal's batch itself, what it called, or what that called. -/
theorem iron_rule (hgen : Genesis w₀) (h : Run (World.step d) (IronTerms d) w₀ as w)
    (hact : Acting d w pid) (hterms : IronTerms d w l) (hs : w.step d l = .ok w')
    (hchanged : ¬ ConfigKept w w') :
    w.governor.isCritical pid = true ∧
      w.governor.quorumTier (w.governor.isCritical pid) = w.governor.criticalQuorumNumerator ∧
      w.governor.supermajorityTier (w.governor.isCritical pid)
        = w.governor.criticalSupermajorityNumerator := by
  have hinv : IronInv d w ∧ w.Batched := by
    refine h.inv (fun w => IronInv d w ∧ w.Batched) ⟨?_, ?_⟩ ?_
    · intro pid halive
      obtain ⟨args, hargs⟩ := hgen.governor
      obtain ⟨-, -, -, -, hnone⟩ := GembaGovernor.construct_spec hargs
      exact absurd halive.proposed (hnone pid)
    · intro a op rest hf
      rw [hgen.idle] at hf
      nomatch hf
    · rintro t a u ⟨hiron, hbatched⟩ hP hs
      exact ⟨ironInv_step hiron hP.1 hs, (World.step_inv hs).batched hbatched⟩
  have hcritical : w.governor.isCritical pid = true := by
    by_contra hstd
    rw [Bool.not_eq_true] at hstd
    have hsecluded := hterms.2 pid hact hstd
    refine hchanged ((World.step_inv hs).configKept fun sender c hcall => ?_)
    exact hsecluded.harmless hinv.1 hinv.2 hact hstd hcall
  rw [hcritical]
  exact ⟨rfl, rfl, rfl⟩

/-- A proposal whose execution has just begun is acting. -/
theorem acting_of_executing (a : Address) (hprop : w.governor.Proposed pid)
    (hframes : w.frames = [.batch a (GembaGovernor.operation d.governor pid) pid.calls,
      .governing pid]) : Acting d w pid := by
  refine ⟨[], _, _, hframes, ⟨⟨hprop, .inl ?_⟩, a, pid.calls, rfl⟩,
    fun f hf => absurd hf List.not_mem_nil⟩
  rw [hframes]
  exact List.mem_cons_of_mem _ List.mem_cons_self

/-- The executor's delay is part of its configuration. -/
theorem ConfigKept.minDelay (h : ConfigKept w w') {n : Nat}
    (hn : (w.timelocks w.governor.timelock).map Timelock.minDelay = some n) :
    (w'.timelocks w.governor.timelock).map Timelock.minDelay = some n := by
  obtain ⟨t, ht, rfl⟩ := Option.map_eq_some_iff.mp hn
  obtain ⟨t', ht', hsame⟩ := h.executor t ht
  rw [ht', ← hsame.minDelay]
  rfl

end

/-- The iron rule, over every run. -/
def IronRule : Prop :=
  ∀ {d : Wiring} {w₀ w w' : World} {as : List Label} {l : Label} {pid : ProposalId}, Genesis w₀ →
    Run (World.step d) (fun _ _ => True) w₀ as w → Acting d w pid → w.step d l = .ok w' →
      ¬ ConfigKept w w' → w.governor.isCritical pid = true

/-! ## A successor for the Timelock -/

namespace Rehearsal

def successorAddress : Address := 0x72

/-- A second Timelock, on which the Governor proposes. -/
def successor : Timelock := Timelock.construct successorAddress 300 [env.governor] [0] 0

/-- The chain right after the deployment, with the second Timelock on it. -/
def startWithSuccessor : World := start.setTimelock successorAddress successor

/-- A proposal to make the second Timelock the executor: Critical. -/
def migrate : ProposalId :=
  ⟨[⟨env.governor, 0, encodeCall (GovernorFn.updateTimelock successorAddress).sel
    [successorAddress.toNat]⟩], 4⟩

/-- A proposal to take the delay of the second Timelock away: Standard, while it is not the
    executor. -/
def dropDelay : ProposalId :=
  ⟨[⟨successorAddress, 0, encodeCall (TimelockFn.updateDelay 0).sel [0]⟩], 5⟩

/-- Everyone votes for another pauser and for a change of the voting delay.  The pauser is replaced, and
    the execution of the other proposal begins. -/
def changeDelay : List Label :=
  electorate ++ [propose alice replacePauser, propose alice (setDelay 5), .block 4 1020,
    .castVote alice replacePauser 1, .castVote bob replacePauser 1, .castVote alice (setDelay 5) 1,
    .castVote bob (setDelay 5) 1, .block 86404 250000] ++ carryOut alice replacePauser 86500 250300
    ++ [.queue alice (setDelay 5), .block 86600 250600, .execute alice 0 (setDelay 5)]

/-- Alice, with 45% of the votes, votes to take the delay away; everyone votes to migrate.  The
    migration is carried out first. -/
def migration : List Label :=
  electorate ++ [propose alice dropDelay, propose alice migrate, .block 4 1020,
    .castVote alice dropDelay 1, .castVote alice migrate 1, .castVote bob migrate 1,
    .block 86404 250000] ++ carryOut alice migrate 86500 250300
    ++ [.queue alice dropDelay, .block 86600 250600, .execute alice 0 dropDelay]

/-- What the rehearsal does not touch: the Timelocks there are, the executor, and who holds its roles. -/
structure Undisturbed (w : World) : Prop where
  executor : w.governor.timelock = env.timelock
  timelocks : ∀ a, w.timelocks a = none ↔ start.timelocks a = none
  holders : ∃ t, w.timelocks env.timelock = some t ∧
    ∀ role a, t.hasRole role a = true → a = env.timelock ∨ a = env.governor ∨ a = 0

/-- The batch on top, if there is one, is of one of the two proposals. -/
def Proposals (w : World) : Prop :=
  match w.frames with
  | .batch _ op _ :: _ => ∃ pid ∈ [replacePauser, setDelay 5],
      w.InForce pid ∧ op = GembaGovernor.operation env.governor pid
  | _ => True

instance (w : World) : Decidable (Proposals w) := by
  unfold Proposals
  split
  · exact inferInstanceAs (Decidable (∃ _ ∈ _, _))
  · exact .isTrue trivial

/-- The step calls neither the Governor nor the executor. -/
def callsElsewhere (w : World) : Label → Bool
  | .call _ target _ _ => target ≠ env.governor ∧ target ≠ env.timelock
  | .act => match w.frames with
    | .batch _ _ (c :: _) :: _ => c.target ≠ env.governor ∧ c.target ≠ env.timelock
    | _ => true
  | _ => true

/-- A step of the rehearsal. -/
def Orderly (w : World) (l : Label) : Prop :=
  newTimelock env.wiring w l = none ∧ Proposals w ∧ callsElsewhere w l = true

instance (w : World) (l : Label) : Decidable (Orderly w l) :=
  inferInstanceAs (Decidable (_ ∧ _ ∧ _ = true))

theorem undisturbed_start : Undisturbed start := by
  obtain ⟨t, ht, hheld⟩ := Environment.deploy_holders deploy_eq
  exact ⟨start_deployed.executor, fun _ => Iff.rfl, t, ht, hheld⟩

theorem Undisturbed.step {w w' : World} {l : Label} (h : Undisturbed w) (hP : Orderly w l)
    (hs : w.step env.wiring l = .ok w') : Undisturbed w' := by
  have hstep := World.step_inv hs
  obtain ⟨hnone, -, hcalled⟩ := hP
  have hkept : ConfigKept w w' := hstep.configKept fun sender c hcall => by
    refine .inl ?_
    rw [h.executor]
    cases hcall with
    | call ho => exact of_decide_eq_true hcalled
    | act hframes =>
      unfold callsElsewhere at hcalled
      dsimp only at hcalled
      rw [hframes] at hcalled
      exact of_decide_eq_true hcalled
  refine ⟨hkept.governor.timelock.trans h.executor, fun a => ?_, ?_⟩
  · exact (hstep.timelocks_none a).trans (h.timelocks a)
  · obtain ⟨t, ht, hheld⟩ := h.holders
    obtain ⟨t', ht', hsame⟩ := hkept.executor t (by rw [h.executor]; exact ht)
    rw [h.executor] at ht'
    refine ⟨t', ht', fun role a ha => hheld role a ?_⟩
    rw [← hsame.hasRole]
    exact ha

theorem Undisturbed.ironTerms {w : World} {l : Label} (h : Undisturbed w)
    (hnone : newTimelock env.wiring w l = none) (hP : Proposals w) : IronTerms env.wiring w l := by
  refine ⟨fun a ha => ?_, fun _ _ _ => ?_⟩
  · rw [hnone] at ha
    nomatch ha
  obtain ⟨t, ht, hheld⟩ := h.holders
  obtain ⟨-, -, -, hzero, hgovernor, -⟩ := start_deployed.addresses
  rw [← h.executor] at ht hheld
  refine .of_holders ht hheld ⟨(h.timelocks _).mpr hgovernor, (h.timelocks _).mpr hzero⟩ ?_
  intro op rest below hframes
  unfold Proposals at hP
  rw [hframes] at hP
  obtain ⟨pid, -, hforce, hop⟩ := hP
  exact ⟨pid, hforce, hop⟩

end Rehearsal

open Rehearsal in
theorem iron_rule_setDelay :
    (runTo (World.step env.wiring) start changeDelay).governor.isCritical (setDelay 5) = true := by
  have hrun : Run (World.step env.wiring) Orderly start changeDelay
      (runTo (World.step env.wiring) start changeDelay) :=
    Run.of_runTo (by decide +kernel) (by decide +kernel)
  have hrule := hrun.mono_inv Undisturbed (Q := IronTerms env.wiring) undisturbed_start
    (fun _ _ _ hw hP hs => hw.step hP hs) fun _ _ hw hP => hw.ironTerms hP.1 hP.2.1
  have hend : Undisturbed (runTo (World.step env.wiring) start changeDelay) :=
    hrun.inv Undisturbed undisturbed_start fun _ _ _ hw hP hs => hw.step hP hs
  have hact : Acting env.wiring (runTo (World.step env.wiring) start changeDelay) (setDelay 5) :=
    acting_of_executing env.timelock (by decide +kernel) (by decide +kernel)
  -- the call that comes next is the proposal's, to the Governor
  have hterms : IronTerms env.wiring (runTo (World.step env.wiring) start changeDelay) .act :=
    hend.ironTerms (by decide +kernel) (by decide +kernel)
  refine (iron_rule start_deployed.toGenesis hrule hact hterms (step_runTo (by decide +kernel)) ?_).1
  intro hkept
  exact absurd hkept.governor.votingDelay (by decide +kernel)

open Rehearsal in
/-- **A minor proposal reconfigures the executor.**  Alice's proposal to drop the delay of the second
    Timelock is Standard; by the time it acts, that Timelock is the executor. -/
theorem minor_proposal_reconfigures : ¬ IronRule := by
  intro hrule
  have hgen : Genesis startWithSuccessor :=
    ⟨start_deployed.toGenesis.governor, start_deployed.toGenesis.idle⟩
  have hrun : Run (World.step env.wiring) (fun _ _ => True) startWithSuccessor migration
      (runTo (World.step env.wiring) startWithSuccessor migration) :=
    Run.of_runTo (allowedM_of_forall fun _ _ _ => trivial) (by decide +kernel)
  have hact : Acting env.wiring (runTo (World.step env.wiring) startWithSuccessor migration)
      dropDelay :=
    acting_of_executing successorAddress (by decide +kernel) (by decide +kernel)
  have hcritical := hrule (l := .act) hgen hrun hact (step_runTo (by decide +kernel)) ?_
  · exact absurd hcritical (by decide +kernel)
  · intro hkept
    have hdelay := hkept.minDelay (n := 300) (by decide +kernel)
    exact absurd hdelay (by decide +kernel)

end Gemba.Governance
