/-
  What the deployed Timelock can be made to do while every executed proposal is Standard.

  The Timelock at `T` calls out in a batch, and every batch it runs is an operation that was scheduled
  on it.  Only the Governor schedules there, and only when a proposal is queued; so a batch is that of
  a proposal, a Standard one by assumption, and contains no call to the Governor or to the Timelock.
  Then nothing changes either of them: the Governor keeps its executor, and nobody gains a role.

  * `Minor`       — a call a Standard proposal may contain;
  * `Governed`    — the hold the Governor has on the Timelock;
  * `Authority`   — the invariant, and `Authority.step` that a step keeps it;
  * `Permitted`   — what is left of the calls a step can make.
-/
import Gemba.Governance.IronRule

namespace Gemba.Governance

open Gemba.Lib Gemba.Evm
open Gemba.Reserves (Reserve)

/-- Every proposal that the Timelock at `T` executes is Standard. -/
def StandardOnly (d : Wiring) (T : Address) (w : World) : Label → Prop
  | .execute _ _ pid => w.governor.isCritical pid = false
  | .executeOperation _ a _ op =>
    a = T → ∀ pid, op = GembaGovernor.operation d.governor pid → w.governor.isCritical pid = false
  | _ => True

/-- A call that a Standard proposal may contain. -/
structure Minor (d : Wiring) (T : Address) (c : Action) : Prop where
  governor : c.target ≠ d.governor
  timelock : c.target ≠ T
  upgrade : selector c.data ≠ SEL_UPGRADE_TO_AND_CALL
  release : selector c.data ≠ SEL_RELEASE

section
variable {d : Wiring} {T : Address} {w w' w₀ w₁ : World} {l : Label} {sender target : Address}
  {value : Nat} {data : Bytes}

/-! ## The hold on the Timelock -/

/-- **The Governor's hold on a Timelock at `T`.**  Only the Governor proposes, the Timelock
    administers itself, and its operations are proposals. -/
structure Governed (d : Wiring) (T : Address) (g : GembaGovernor) (t : Timelock) : Prop where
  proposer : ∀ a, t.hasRole PROPOSER_ROLE a = true → a = d.governor
  admin : ∀ a, t.hasRole DEFAULT_ADMIN_ROLE a = true → a = T
  operations : ∀ op, t.timestamps op ≠ 0 →
    ∃ pid, op = GembaGovernor.operation d.governor pid ∧ g.Proposed pid

namespace Governed

variable {g g' : GembaGovernor} {t t' : Timelock}

theorem mono (h : Governed d T g t) (hg : ∀ pid, g.Proposed pid → g'.Proposed pid) :
    Governed d T g' t := by
  refine ⟨h.proposer, h.admin, ?_⟩
  intro op hop
  obtain ⟨pid, hpid, hprop⟩ := h.operations op hop
  exact ⟨pid, hpid, hg pid hprop⟩

/-- Scheduling, cancelling and finishing an operation. -/
theorem setTimestamp (h : Governed d T g t) {op : Operation} {ts : Nat}
    (hop : ts ≠ 0 → ∃ pid, op = GembaGovernor.operation d.governor pid ∧ g.Proposed pid) :
    Governed d T g (t.setTimestamp op ts) := by
  refine ⟨h.proposer, h.admin, ?_⟩
  intro o ho
  by_cases heq : o = op
  · subst heq
    rw [Timelock.setTimestamp_same] at ho
    exact hop ho
  · rw [Timelock.setTimestamp_of_ne heq] at ho
    exact h.operations o ho

/-- Nobody but the Timelock itself gains anything by configuring it. -/
theorem configure (h : Governed d T g t) {fn : TimelockFn} (hne : sender ≠ T)
    (hconf : t.configure T sender fn = .ok t') : Governed d T g t' := by
  have hadmin : t.hasRole DEFAULT_ADMIN_ROLE sender = false :=
    Bool.eq_false_iff.mpr fun hrole => hne (h.admin sender hrole)
  refine ⟨?_, ?_, ?_⟩
  · intro a ha
    exact h.proposer a (Timelock.configure_hasRole hconf hadmin ha)
  · intro a ha
    exact h.admin a (Timelock.configure_hasRole hconf hadmin ha)
  · intro op hop
    rw [Timelock.configure_timestamps hconf] at hop
    exact h.operations op hop

end Governed

/-! ## Who calls -/

/-- An account that calls reserves from outside the Governor: not the zero address, the Governor or a
    reserve. -/
structure Caller (d : Wiring) (w₀ : World) (s : Address) : Prop where
  nonzero : s ≠ 0
  governor : s ≠ d.governor
  reserve : w₀.reserves s = none

/-- A frame whose call is made by a caller, and by the Timelock at `T` only within a Standard
    proposal. -/
def Frame.Entitled (d : Wiring) (T : Address) (w₀ : World) : Frame → Prop
  | .batch a _ rest => w₀.timelocks a ≠ none ∧ (a = T → ∀ c ∈ rest, Minor d T c)
  | .calling s _ _ _ => Caller d w₀ s
  | _ => True

/-- What a caller puts on the stack is entitled to be there. -/
theorem Frame.From.entitled {f : Frame} (h : f.From sender) (hcaller : Caller d w₀ sender) :
    f.Entitled d T w₀ := by
  cases f with
  | batch a op rest => exact absurd h id
  | governing pid => exact trivial
  | calling s target sel value =>
    obtain rfl : s = sender := h
    exact hcaller
  | sending a => exact trivial
  | withdrawing => exact trivial

/-- What a step may call. -/
structure Permitted (d : Wiring) (T : Address) (w₀ : World) (sender : Address) (c : Action) :
    Prop where
  caller : Caller d w₀ sender
  minor : sender = T → Minor d T c

/-- A Timelock of the start calls as any account does. -/
theorem Deployed.caller (h : Deployed d T w₀) {a : Address} (ha : w₀.timelocks a ≠ none) :
    Caller d w₀ a := by
  obtain ⟨-, -, -, hzero, hgovernor, -⟩ := h.addresses
  refine ⟨?_, ?_, ?_⟩
  · rintro rfl
    exact ha hzero
  · rintro rfl
    exact ha hgovernor
  · cases hR : w₀.reserves a with
    | none => rfl
    | some R => exact absurd (h.reserves a R hR).2.2.2 ha

/-- Every reserve of the start is still there, with code that is known. -/
def Known (w₀ w : World) : Prop :=
  ∀ r, w₀.reserves r ≠ none → ∃ R, w.reserves r = some R ∧ R.isUnknown = false

/-- An account outside calls, and is not the Timelock. -/
theorem caller_of_outside (hknown : Known w₀ w) (ho : w.isOutside d sender = true) :
    Caller d w₀ sender ∧ w.timelocks sender = none := by
  obtain ⟨hzero, hgovernor, -, htimelock, hreserve⟩ := of_decide_eq_true ho
  refine ⟨⟨hzero, hgovernor, ?_⟩, Option.isNone_iff_eq_none.mp htimelock⟩
  by_contra hR
  obtain ⟨R, hR, hcode⟩ := hknown sender hR
  rw [hR, Option.all_some, hcode] at hreserve
  nomatch hreserve

/-! ## The invariant -/

/-- **Authority.**  What holds while only Standard proposals are executed: the Governor executes
    through the Timelock at `T` and keeps its hold on it, no Standard proposal calls either, and what
    is on the stack is entitled to be there. -/
structure Authority (d : Wiring) (T : Address) (w₀ w : World) : Prop where
  executor : w.governor.timelock = T
  timelocks : ∀ a, w.timelocks a = none ↔ w₀.timelocks a = none
  governed : ∀ t, w.timelocks T = some t → Governed d T w.governor t
  standard : ∀ pid, w.governor.Proposed pid → w.governor.isCritical pid = false →
    ∀ c ∈ pid.calls, Minor d T c
  frames : ∀ f ∈ w.frames, f.Entitled d T w₀

theorem Authority.start (h : Deployed d T w₀) : Authority d T w₀ w₀ := by
  refine ⟨h.executor, fun _ => Iff.rfl, ?_, ?_, ?_⟩
  · intro t ht
    obtain ⟨t', ht', hproposer, hadmin, hnone⟩ := h.timelock
    obtain rfl := Option.some.inj (ht.symm.trans ht')
    exact ⟨hproposer, hadmin, fun op hop => absurd (hnone op) hop⟩
  · intro pid hprop
    obtain ⟨args, hargs⟩ := h.governor
    obtain ⟨-, -, -, -, hnone⟩ := GembaGovernor.construct_spec hargs
    exact absurd hprop (hnone pid)
  · intro f hf
    rw [h.idle] at hf
    nomatch hf

/-- The calls a step makes: a step that calls the Governor or the Timelock is not the Timelock's. -/
theorem World.Called.governor_kept (h : World.Called d w₁ sender target value data w')
    (hexecutor : w₁.governor.timelock = T) (hminor : sender = T → target ≠ d.governor) :
    w'.governor = w₁.governor := by
  have hnot : ∀ {g : GembaGovernor}, target = d.governor →
      w₁.governor.onlyGovernance d.governor sender data = .ok g → False := by
    intro g ht hg
    have hsender := (GembaGovernor.onlyGovernance_spec hg).1
    exact hminor (hsender.trans hexecutor) ht
  cases h with
  | other ht h => exact h.governor_eq
  | plain hb => rfl
  | calling ht => rfl
  | configure ht hfn hg h => exact absurd hg fun hg => hnot ht hg
  | relay ht hg hb h => exact absurd hg fun hg => hnot ht hg

/-- Writing a Timelock keeps the hold if what is written on the one at `T` does. -/
theorem World.setTimelock_governed {a : Address} {t t' : Timelock} {g : GembaGovernor}
    (ht : w.timelocks a = some t)
    (hwrite : a = T → Governed d T g t → Governed d T g t')
    (hgoverned : ∀ t, w.timelocks T = some t → Governed d T g t) :
    ∀ t₁, (w.setTimelock a t').timelocks T = some t₁ → Governed d T g t₁ := by
  intro t₁ ht₁
  by_cases ha : T = a
  · subst ha
    have ht₁ : t' = t₁ := Option.some.inj ((if_pos rfl).symm.trans ht₁)
    rw [← ht₁]
    exact hwrite rfl (hgoverned t ht)
  · exact hgoverned t₁ ((if_neg ha).symm.trans ht₁)

/-- The Timelock at `T` after a call. -/
theorem World.Called.governed (h : World.Called d w₁ sender target value data w')
    (hexecutor : w₁.governor.timelock = T) (hminor : sender = T → target ≠ d.governor ∧ target ≠ T)
    {g : GembaGovernor} (hgoverned : ∀ t, w₁.timelocks T = some t → Governed d T g t) :
    ∀ t, w'.timelocks T = some t → Governed d T g t := by
  cases h with
  | other ht h =>
    cases h with
    | configure ht' hfn h =>
      refine setTimelock_governed ht' ?_ hgoverned
      intro htarget hg
      subst htarget
      refine hg.configure ?_ h
      intro hs
      exact (hminor hs).2 rfl
    | _ => exact hgoverned
  | plain hb => exact hgoverned
  | calling ht => exact hgoverned
  | configure ht hfn hg h =>
    exact absurd ht (hminor ((GembaGovernor.onlyGovernance_spec hg).1.trans hexecutor)).1
  | relay ht hg hb h =>
    exact absurd ht (hminor ((GembaGovernor.onlyGovernance_spec hg).1.trans hexecutor)).1

namespace Authority

/-- A call from outside is not the Timelock's. -/
theorem permitted_call (h : Authority d T w₀ w) (hdep : Deployed d T w₀) (hknown : Known w₀ w)
    (ho : w.isOutside d sender = true) (c : Action) : Permitted d T w₀ sender c := by
  obtain ⟨hcaller, hnone⟩ := caller_of_outside hknown ho
  refine ⟨hcaller, ?_⟩
  rintro rfl
  obtain ⟨t, ht, -⟩ := hdep.timelock
  rw [(h.timelocks sender).mp hnone] at ht
  nomatch ht

/-- A batch calls as its Timelock, and at `T` what a Standard proposal may contain. -/
theorem permitted_act (h : Authority d T w₀ w) (hdep : Deployed d T w₀) {a : Address}
    {op : Operation} {c : Action} {rest : List Action} {below : List Frame}
    (hframes : w.frames = .batch a op (c :: rest) :: below) : Permitted d T w₀ a c := by
  have hentitled := h.frames (.batch a op (c :: rest)) (by rw [hframes]; exact List.mem_cons_self)
  obtain ⟨htimelock, hminor⟩ := hentitled
  exact ⟨hdep.caller htimelock, fun ha => hminor ha c List.mem_cons_self⟩

/-- The Governor keeps its executor. -/
theorem executor_step (h : Authority d T w₀ w) (hdep : Deployed d T w₀) (hknown : Known w₀ w)
    (hs : World.Stepped d w l w') : w'.governor.timelock = T := by
  have hchange := hs.governor_change
  cases hs with
  | @call sender target value data _ ho hcall =>
    have hperm := h.permitted_call hdep hknown ho ⟨target, value, data⟩
    rw [hcall.governor_kept h.executor fun hs => (hperm.minor hs).governor]
    exact h.executor
  | act hframes hcall =>
    have hperm := h.permitted_act hdep hframes
    rw [hcall.governor_kept h.executor fun hs => (hperm.minor hs).governor]
    exact h.executor
  | _ =>
    rcases hchange.timelock with hsame | hnew
    · exact hsame.trans h.executor
    · nomatch hnew

/-- The Governor keeps its hold on the Timelock. -/
theorem governed_step (h : Authority d T w₀ w) (hdep : Deployed d T w₀) (hknown : Known w₀ w)
    (hs : World.Stepped d w l w') : ∀ t, w'.timelocks T = some t → Governed d T w.governor t := by
  cases hs with
  | @call sender target value data _ ho hcall =>
    have hperm := h.permitted_call hdep hknown ho ⟨target, value, data⟩
    refine hcall.governed h.executor (fun hs => ?_) h.governed
    exact ⟨(hperm.minor hs).governor, (hperm.minor hs).timelock⟩
  | act hframes hcall =>
    have hperm := h.permitted_act hdep hframes
    refine hcall.governed h.executor (fun hs => ?_) h.governed
    exact ⟨(hperm.minor hs).governor, (hperm.minor hs).timelock⟩
  | @queue sender pid frames g t' ha hq =>
    obtain ⟨hstate, ⟨t, ht, hsched⟩, -⟩ := GembaGovernor.queue_spec hq
    obtain ⟨-, -, -, rfl⟩ := Timelock.schedule_spec hsched
    refine World.setTimelock_governed ht (fun _ hg => ?_) h.governed
    refine hg.setTimestamp fun _ => ⟨pid, rfl, ?_⟩
    exact (GembaGovernor.judged_of_state hstate (.inl rfl)).proposed
  | @cancel sender pid frames g t₁ ha hc =>
    cases t₁ with
    | none => exact h.governed
    | some t₁ =>
      obtain ⟨t, op, ht, hcancel⟩ := (GembaGovernor.cancel_spec hc).2 t₁ rfl
      obtain rfl := Timelock.cancel_spec hcancel
      exact World.setTimelock_governed ht (fun _ hg => hg.setTimestamp fun hne => absurd rfl hne)
        h.governed
  | @schedule sender a op delay frames t t' ha ht hsched =>
    obtain ⟨hrole, -, -, rfl⟩ := Timelock.schedule_spec hsched
    refine World.setTimelock_governed ht (fun _ hg => ?_) h.governed
    -- only the Governor may schedule, and it never calls the Timelock to do so
    have hsender := hg.proposer sender hrole
    rcases ha with ⟨ho, -⟩ | ⟨sel, -, hframes⟩
    · exact absurd hsender (caller_of_outside hknown ho).1.governor
    · have hentitled := h.frames (.calling sender a sel 0) (by rw [hframes]; exact List.mem_cons_self)
      exact absurd hsender hentitled.governor
  | cancelOperation ha ht hcancel =>
    obtain rfl := Timelock.cancel_spec hcancel
    exact World.setTimelock_governed ht (fun _ hg => hg.setTimestamp fun hne => absurd rfl hne)
      h.governed
  | finishBatch hframes ht hafter =>
    obtain ⟨hop, rfl⟩ := Timelock.afterCall_spec hafter
    exact World.setTimelock_governed ht (fun _ hg => hg.setTimestamp fun _ => hg.operations _ hop)
      h.governed
  | _ => exact h.governed

/-- A proposal keeps its calls to the tier it was given. -/
theorem standard_step (h : Authority d T w₀ w) (hs : World.Stepped d w l w') {pid : ProposalId}
    (hprop : w'.governor.Proposed pid) (hstd : w'.governor.isCritical pid = false) :
    ∀ c ∈ pid.calls, Minor d T c := by
  have hchange := hs.governor_change
  by_cases hold : w.governor.Proposed pid
  · refine h.standard pid hold ?_
    rw [← ((hchange.proposal pid).kept hold).2.2]
    exact hstd
  · obtain ⟨hcritical, -⟩ := hchange.proposed hprop hold
    rw [hcritical] at hstd
    intro c hc
    obtain ⟨hgovernor, htimelock, -, hupgrade, hrelease⟩ :=
      GembaGovernor.classify_eq_false hstd c hc
    rw [h.executor] at htimelock
    exact ⟨hgovernor, htimelock, hupgrade, hrelease⟩

/-- The calls of an operation that the Timelock begins are those of a Standard proposal. -/
theorem minor_of_ready (h : Authority d T w₀ w) {t : Timelock} (ht : w.timelocks T = some t)
    {op : Operation} (hready : t.operationState w.block.timestamp op = .ready)
    (hstd : ∀ pid, op = GembaGovernor.operation d.governor pid → w.governor.isCritical pid = false) :
    ∀ c ∈ op.calls, Minor d T c := by
  obtain ⟨pid, rfl, hprop⟩ := (h.governed t ht).operations op (Timelock.timestamps_of_ready hready)
  exact h.standard pid hprop (hstd pid rfl)

/-- What a step leaves on the stack is entitled to be there. -/
theorem frames_step (h : Authority d T w₀ w) (hdep : Deployed d T w₀) (hknown : Known w₀ w)
    (hP : StandardOnly d T w l) (hs : World.Stepped d w l w') :
    ∀ f ∈ w'.frames, f.Entitled d T w₀ := by
  intro f hf
  cases hs with
  | @call sender target value data _ ho hcall =>
    have hperm := h.permitted_call hdep hknown ho ⟨target, value, data⟩
    rcases hcall.frames_from hf with hf | hf | ⟨ht, hsender, -⟩
    · exact h.frames f hf
    · exact hf.entitled hperm.caller
    · exact absurd ht (hperm.minor (hsender.trans h.executor)).governor
  | @act a op c rest below _ hframes hcall =>
    have hperm := h.permitted_act hdep hframes
    rcases hcall.frames_from hf with hf | hf | ⟨ht, hsender, -⟩
    · rcases List.mem_cons.mp hf with rfl | hf
      · -- the batch, with one call less
        obtain ⟨htimelock, hminor⟩ := h.frames (.batch a op (c :: rest))
          (by rw [hframes]; exact List.mem_cons_self)
        exact ⟨htimelock, fun ha c' hc' => hminor ha c' (List.mem_cons_of_mem _ hc')⟩
      · refine h.frames f ?_
        rw [hframes]
        exact List.mem_cons_of_mem _ hf
    · exact hf.entitled hperm.caller
    · exact absurd ht (hperm.minor (hsender.trans h.executor)).governor
  | @execute sender value pid frames g t b ha hbegin ht hready hb =>
    obtain ⟨calls, rfl⟩ := GembaGovernor.beginExecute_spec hbegin
    rcases List.mem_cons.mp hf with rfl | hf
    · refine ⟨fun hnone => ?_, fun _ => ?_⟩
      · rw [(h.timelocks _).mpr hnone] at ht
        nomatch ht
      · exact h.standard pid (GembaGovernor.judged_of_beginExecute hbegin).proposed hP
    · rcases List.mem_cons.mp hf with rfl | hf
      · exact trivial
      · exact h.frames f (ha.mem hf)
  | @executeOperation sender a value op frames t b ha ht hready hb =>
    rcases List.mem_cons.mp hf with rfl | hf
    · refine ⟨fun hnone => ?_, fun hT => ?_⟩
      · rw [(h.timelocks _).mpr hnone] at ht
        nomatch ht
      · subst hT
        exact h.minor_of_ready ht hready (hP rfl)
    · exact h.frames f (ha.mem hf)
  | block hframes hn ht => exact h.frames f hf
  | bank hbank => exact h.frames f hf
  | propose ha hg => exact h.frames f (ha.mem hf)
  | castVote ha hg => exact h.frames f (ha.mem hf)
  | queue ha hg => exact h.frames f (ha.mem hf)
  | cancel ha hg => exact h.frames f (ha.mem hf)
  | schedule ha ht hg => exact h.frames f (ha.mem hf)
  | cancelOperation ha ht hg => exact h.frames f (ha.mem hf)
  | delegateBySig hg => exact h.frames f hf
  | permit hg => exact h.frames f hf
  | rogue hR hb => exact h.frames f hf
  | finishBatch hframes ht hg =>
    refine h.frames f ?_
    rw [hframes]
    exact List.mem_cons_of_mem _ hf
  | finishGoverning hframes =>
    refine h.frames f ?_
    rw [hframes]
    exact List.mem_cons_of_mem _ hf
  | finishSending hframes hR =>
    refine h.frames f ?_
    rw [hframes]
    exact List.mem_cons_of_mem _ hf
  | finishWithdrawing hframes =>
    refine h.frames f ?_
    rw [hframes]
    exact List.mem_cons_of_mem _ hf
  | finishCalling hframes =>
    refine h.frames f ?_
    rw [hframes]
    exact List.mem_cons_of_mem _ hf

/-- **A step keeps the authority where it is.** -/
theorem step (h : Authority d T w₀ w) (hdep : Deployed d T w₀) (hknown : Known w₀ w)
    (hP : StandardOnly d T w l) (hs : World.Stepped d w l w') : Authority d T w₀ w' := by
  refine ⟨h.executor_step hdep hknown hs, ?_, ?_, ?_, h.frames_step hdep hknown hP hs⟩
  · intro a
    exact (hs.timelocks_none a).trans (h.timelocks a)
  · intro t ht
    refine (h.governed_step hdep hknown hs t ht).mono fun pid hprop => ?_
    show w'.governor.proposalSnapshot pid ≠ 0
    rw [((hs.governor_change.proposal pid).kept hprop).1]
    exact hprop
  · intro pid hprop hstd
    exact h.standard_step hs hprop hstd

end Authority

end
end Gemba.Governance
