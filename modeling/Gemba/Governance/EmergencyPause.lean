/-
  `src/contracts/src/governance/EmergencyPause.sol` — the m-of-n guardian that can pause a target.

  Guardians confirm a pause or an unpause of a target; the confirmation that reaches the threshold
  executes it.  Confirmations are counted per id, the hash of target, operation, round and
  configuration epoch (the hash is taken to be injective, so the id is the tuple).  The round of an
  (target, operation) pair advances when it executes, the epoch when governance changes a guardian
  or the threshold: either way the old confirmations are left behind under an id that no longer
  comes up.

  `confirm` calls the target, which may call anything before it returns or reverts.  The machine
  keeps the calls under way on a stack, each with the contract's storage as it was when the call
  began; a call that reverts puts that storage back, its events included.  Any contract may open a
  call of its own (`enter`), so that what it does can also be undone as a whole.

  Every event is logged with the configuration in force when it was emitted, which is what
  "guardian at the moment of execution" refers to.

  The crux is `Sound.tally` with `Sound.live`: the number stored for an id is the number of addresses
  that confirmed it, and for an id of the running epoch all of them are guardians, because a change
  of guardians starts a new epoch.
-/
import Gemba.Lib.Counting
import Gemba.Lib.Runs
import Gemba.Evm.Basic

namespace Gemba.Governance

open Gemba.Lib Gemba.Evm
open Function (update)

/-- `Op`. -/
inductive Op where
  | pause
  | unpause
deriving DecidableEq, Repr

/-- What a confirmation is filed under: `keccak256(abi.encode(target, op, r, configEpoch))`. -/
structure ConfirmationId where
  target : Address
  op : Op
  round : Nat
  configEpoch : Nat
deriving DecidableEq, Repr

namespace EmergencyPause

/-- The events. -/
inductive Event where
  | guardianSet (guardian : Address) (enabled : Bool)
  | thresholdSet (threshold : Nat)
  | configEpochAdvanced (newEpoch : Nat)
  | confirmed (guardian target : Address) (op : Op) (round : Nat)
  | executed (target : Address) (op : Op) (round : Nat)
deriving DecidableEq, Repr

/-- What the guardians can do at a moment: who they are, how many it takes, since which change. -/
structure Config where
  isGuardian : Address → Bool
  threshold : Nat
  configEpoch : Nat

/-- An event, with the configuration it was emitted under. -/
structure Entry where
  event : Event
  config : Config

end EmergencyPause

/-- The storage of the contract, with the events it emitted, newest first. -/
structure EmergencyPause where
  governance : Address
  isGuardian : Address → Bool
  guardianCount : Nat
  threshold : Nat
  configEpoch : Nat
  round : Address → Op → Nat
  confirmations : ConfirmationId → Nat
  confirmedBy : ConfirmationId → Address → Bool
  /-- The status of `ReentrancyGuard`. -/
  entered : Bool
  log : List EmergencyPause.Entry

namespace EmergencyPause

def config (s : EmergencyPause) : Config := ⟨s.isGuardian, s.threshold, s.configEpoch⟩

/-- `emit e`. -/
def emit (s : EmergencyPause) (e : Event) : EmergencyPause :=
  { s with log := ⟨e, s.config⟩ :: s.log }

/-! ## Construction -/

/-- The storage before the constructor has written to it. -/
def blank (governance : Address) : EmergencyPause where
  governance := governance
  isGuardian := fun _ => false
  guardianCount := 0
  threshold := 0
  configEpoch := 0
  round := fun _ _ => 0
  confirmations := fun _ => 0
  confirmedBy := fun _ _ => false
  entered := false
  log := []

/-- The constructor's loop over `guardians_`; `count` is its local counter. -/
def addGuardians : EmergencyPause → Nat → List Address → Call (EmergencyPause × Nat)
  | s, count, [] => .ok (s, count)
  | s, count, g :: gs => do
    failIf (g = 0) (err "ZeroAddress")
    if s.isGuardian g then addGuardians s count gs
    else do
      let count ← add count 1
      addGuardians ({ s with isGuardian := update s.isGuardian g true }.emit (.guardianSet g true))
        count gs

/-- `constructor(governance_, guardians_, threshold_)`. -/
def construct (governance : Address) (guardians : List Address) (threshold : Nat) :
    Call EmergencyPause := do
  failIf (governance = 0) (err "ZeroAddress")
  let (s, count) ← addGuardians (blank governance) 0 guardians
  failIf (threshold = 0 ∨ count < threshold) (err "BadThreshold")
  .ok ({ s with guardianCount := count, threshold := threshold }.emit (.thresholdSet threshold))

/-! ## Functions -/

/-- `confirm(target, op)` up to the call of the target; the answer says whether it is called. -/
def confirm (s : EmergencyPause) (sender target : Address) (op : Op) :
    Call (EmergencyPause × Bool) := do
  failIf (s.entered = true) (err "ReentrancyGuardReentrantCall")
  failIf (s.isGuardian sender = false) (err "OnlyGuardian")
  failIf (target = 0) (err "ZeroAddress")
  let r := s.round target op
  let id : ConfirmationId := ⟨target, op, r, s.configEpoch⟩
  failIf (s.confirmedBy id sender = true) (err "AlreadyConfirmed")
  let c ← add (s.confirmations id) 1
  let s := { s with
    confirmedBy := update s.confirmedBy id (update (s.confirmedBy id) sender true)
    confirmations := update s.confirmations id c }
  let s := s.emit (.confirmed sender target op r)
  if s.threshold ≤ c then do
    -- next round before the external call: no replay
    let next ← add r 1
    let s := { s with round := update s.round target (update (s.round target) op next) }
    .ok ({ s.emit (.executed target op r) with entered := true }, true)
  else .ok (s, false)

/-- `onlyGovernance`. -/
def onlyGovernance (s : EmergencyPause) (sender : Address) : Call PUnit :=
  failIf (sender ≠ s.governance) (err "OnlyGovernance")

/-- `configEpoch++`, with its event. -/
def advanceEpoch (s : EmergencyPause) : Call EmergencyPause := do
  let next ← add s.configEpoch 1
  .ok ({ s with configEpoch := next }.emit (.configEpochAdvanced next))

/-- `setGuardian(guardian, enabled)`. -/
def setGuardian (s : EmergencyPause) (sender guardian : Address) (enabled : Bool) :
    Call EmergencyPause := do
  s.onlyGovernance sender
  failIf (guardian = 0) (err "ZeroAddress")
  if s.isGuardian guardian = enabled then .ok s
  else do
    let s := { s with isGuardian := update s.isGuardian guardian enabled }
    let count ← (if enabled then add s.guardianCount 1 else sub s.guardianCount 1 : Call Nat)
    failIf (enabled = false ∧ count < s.threshold) (err "BadThreshold")
    ({ s with guardianCount := count }.emit (.guardianSet guardian enabled)).advanceEpoch

/-- `setThreshold(newThreshold)`. -/
def setThreshold (s : EmergencyPause) (sender : Address) (newThreshold : Nat) :
    Call EmergencyPause := do
  s.onlyGovernance sender
  failIf (newThreshold = 0 ∨ s.guardianCount < newThreshold) (err "BadThreshold")
  ({ s with threshold := newThreshold }.emit (.thresholdSet newThreshold)).advanceEpoch

/-! ## The machine -/

/-- A call under way: the storage it began with, and whether it is `confirm` calling its target. -/
structure Frame where
  saved : EmergencyPause
  confirming : Bool

/-- The contract in the middle of whatever calls it. -/
structure World where
  contract : EmergencyPause
  frames : List Frame

/-- One thing that happens. -/
inductive Label where
  | confirm (sender target : Address) (op : Op)
  | setGuardian (sender guardian : Address) (enabled : Bool)
  | setThreshold (sender : Address) (newThreshold : Nat)
  /-- Another contract is called. -/
  | enter
  /-- The call on top returns. -/
  | finish
  /-- The call on top reverts. -/
  | revert
deriving DecidableEq, Repr

/-- One step of the machine. -/
def World.step (w : World) : Label → Call World
  | .confirm sender target op => do
    let (s, calls) ← w.contract.confirm sender target op
    .ok ⟨s, if calls then ⟨w.contract, true⟩ :: w.frames else w.frames⟩
  | .setGuardian sender guardian enabled => do
    let s ← w.contract.setGuardian sender guardian enabled
    .ok { w with contract := s }
  | .setThreshold sender newThreshold => do
    let s ← w.contract.setThreshold sender newThreshold
    .ok { w with contract := s }
  | .enter => .ok { w with frames := ⟨w.contract, false⟩ :: w.frames }
  | .finish =>
    match w.frames with
    | [] => .error .external
    | f :: fs => .ok ⟨{ w.contract with entered := w.contract.entered && !f.confirming }, fs⟩
  | .revert =>
    match w.frames with
    | [] => .error .external
    | f :: fs => .ok ⟨f.saved, fs⟩

/-- The state of a machine whose contract was just deployed. -/
def Genesis (w : World) : Prop :=
  ∃ governance guardians threshold,
    construct governance guardians threshold = .ok w.contract ∧ w.frames = []

/-! ## What the log says -/

/-- The entry records that `g` confirmed `id`. -/
def Entry.Confirms (e : Entry) (id : ConfirmationId) (g : Address) : Prop :=
  e.event = .confirmed g id.target id.op id.round ∧ e.config.configEpoch = id.configEpoch

/-- The entry records the execution of `id`. -/
def Entry.Executes (e : Entry) (id : ConfirmationId) : Prop :=
  e.event = .executed id.target id.op id.round ∧ e.config.configEpoch = id.configEpoch

/-- The entry records no execution. -/
def Entry.Quiet (e : Entry) : Prop := ∀ t op r, e.event ≠ .executed t op r

/-- If the entry records an execution, then at least threshold-many distinct guardians of that moment
    had confirmed it before, in `older`. -/
def Entry.BackedBy (e : Entry) (older : List Entry) : Prop :=
  ∀ id, e.Executes id → ∃ gs : List Address, gs.Nodup ∧ e.config.threshold ≤ gs.length ∧
    ∀ g ∈ gs, e.config.isGuardian g = true ∧ ∃ c ∈ older, c.Confirms id g

/-- Every execution in the log was backed when it happened. -/
def Backed (log : List Entry) : Prop := ∀ e older, e :: older <:+ log → e.BackedBy older

/-- No two executions in the log are of the same round of the same action. -/
def Once (log : List Entry) : Prop :=
  log.Pairwise fun x y => ∀ t op r, x.event = .executed t op r → y.event ≠ .executed t op r

section
variable {s s' : EmergencyPause} {e : Entry} {log : List Entry}

theorem Entry.Quiet.backedBy (he : e.Quiet) : e.BackedBy log := by
  intro id hid
  exact absurd hid.1 (he _ _ _)

theorem Backed.cons (h : Backed log) (he : e.BackedBy log) : Backed (e :: log) := by
  intro x older hx
  rcases List.suffix_cons_iff.mp hx with heq | hx
  · injection heq with hxe holder
    rw [hxe, holder]
    exact he
  · exact h x older hx

theorem Once.cons_quiet (h : Once log) (he : e.Quiet) : Once (e :: log) := by
  refine List.Pairwise.cons ?_ h
  intro y _ t op r hx
  exact absurd hx (he t op r)

/-! ## The invariant -/

/-- **What holds of the contract at every moment.** -/
structure Sound (s : EmergencyPause) : Prop where
  positive : 1 ≤ s.threshold
  satisfiable : s.threshold ≤ s.guardianCount
  guardians : Counts s.isGuardian s.guardianCount
  /-- The number stored for an id is the number of addresses that confirmed it. -/
  tally : ∀ id, Counts (s.confirmedBy id) (s.confirmations id)
  /-- Nobody confirmed under an epoch still to come. -/
  epochs : ∀ id g, s.confirmedBy id g = true → id.configEpoch ≤ s.configEpoch
  /-- Whoever confirmed under the running epoch is a guardian. -/
  live : ∀ id g, s.confirmedBy id g = true → id.configEpoch = s.configEpoch →
    s.isGuardian g = true
  logged : ∀ id g, s.confirmedBy id g = true → ∃ c ∈ s.log, c.Confirms id g
  /-- An executed round is over. -/
  rounds : ∀ e ∈ s.log, ∀ t op r, e.event = .executed t op r → r < s.round t op
  once : Once s.log
  backed : Backed s.log

/-- Whether `confirm` is under way does not matter. -/
theorem Sound.setEntered (h : Sound s) (b : Bool) : Sound { s with entered := b } :=
  ⟨h.positive, h.satisfiable, h.guardians, h.tally, h.epochs, h.live, h.logged, h.rounds, h.once,
    h.backed⟩

/-- A change of guardians or of the threshold, which starts a new epoch. -/
theorem Sound.reconfigure {x y : Entry} (h : Sound s) (hx : x.Quiet) (hy : y.Quiet)
    (hlog : s'.log = y :: x :: s.log) (hepoch : s'.configEpoch = s.configEpoch + 1)
    (hround : s'.round = s.round) (hby : s'.confirmedBy = s.confirmedBy)
    (hcount : s'.confirmations = s.confirmations) (hpos : 1 ≤ s'.threshold)
    (hsat : s'.threshold ≤ s'.guardianCount) (hg : Counts s'.isGuardian s'.guardianCount) :
    Sound s' := by
  refine ⟨hpos, hsat, hg, ?_, ?_, ?_, ?_, ?_, ?_, ?_⟩
  · intro id
    rw [hby, hcount]
    exact h.tally id
  · intro id g hid
    rw [hby] at hid
    have := h.epochs id g hid
    omega
  · -- no confirmation was given under the epoch that begins
    intro id g hid heq
    rw [hby] at hid
    have := h.epochs id g hid
    omega
  · intro id g hid
    rw [hby] at hid
    obtain ⟨c, hc, hcid⟩ := h.logged id g hid
    refine ⟨c, ?_, hcid⟩
    rw [hlog]
    exact List.mem_cons_of_mem _ (List.mem_cons_of_mem _ hc)
  · intro e he t op r hev
    rw [hlog, List.mem_cons, List.mem_cons] at he
    rw [hround]
    rcases he with rfl | rfl | he
    · exact absurd hev (hy t op r)
    · exact absurd hev (hx t op r)
    · exact h.rounds e he t op r hev
  · rw [hlog]
    exact (h.once.cons_quiet hx).cons_quiet hy
  · rw [hlog]
    exact (h.backed.cons hx.backedBy).cons hy.backedBy

/-! ## Each function keeps it -/

/-- The contract once a confirmation is counted. -/
def counted (s : EmergencyPause) (sender : Address) (id : ConfirmationId) : EmergencyPause :=
  { s.emit (.confirmed sender id.target id.op id.round) with
    confirmedBy := update s.confirmedBy id (update (s.confirmedBy id) sender true)
    confirmations := update s.confirmations id (s.confirmations id + 1) }

/-- The id that a confirmation of `op` on `target` is filed under now. -/
def currentId (s : EmergencyPause) (target : Address) (op : Op) : ConfirmationId :=
  ⟨target, op, s.round target op, s.configEpoch⟩

/-- The contract once an action is executed. -/
def advanced (s : EmergencyPause) (target : Address) (op : Op) : EmergencyPause :=
  { s.emit (.executed target op (s.round target op)) with
    round := update s.round target (update (s.round target) op (s.round target op + 1)) }

/-- **What a confirmation does.**  It is counted; if that reaches the threshold, the action executes
    and the target is called. -/
theorem confirm_spec {sender target : Address} {op : Op} {calls : Bool}
    (h : s.confirm sender target op = .ok (s', calls)) :
    s.isGuardian sender = true ∧ s.confirmedBy (s.currentId target op) sender = false ∧
      ((calls = false ∧ s' = s.counted sender (s.currentId target op)) ∨
        (calls = true ∧
          s.threshold ≤ (s.counted sender (s.currentId target op)).confirmations
            (s.currentId target op) ∧
          s' = { (s.counted sender (s.currentId target op)).advanced target op with
            entered := true })) := by
  unfold confirm at h
  obtain ⟨-, h⟩ := failIf_bind_eq_ok.mp h
  obtain ⟨⟨⟩, hguard, h⟩ := bind_eq_ok.mp h
  obtain ⟨-, h⟩ := failIf_bind_eq_ok.mp h
  obtain ⟨⟨⟩, hnew, h⟩ := bind_eq_ok.mp h
  obtain ⟨c, hc, h⟩ := bind_eq_ok.mp h
  obtain ⟨-, rfl⟩ := add_eq_ok.mp hc
  have hsender : s.isGuardian sender = true := by
    simpa using hguard
  have hfresh : s.confirmedBy (s.currentId target op) sender = false := by
    rw [failIf_eq_ok, Bool.not_eq_true] at hnew
    exact hnew
  refine ⟨hsender, hfresh, ?_⟩
  rcases ite_eq_ok.mp h with ⟨hle, h⟩ | ⟨-, h⟩
  · obtain ⟨next, hnext, h⟩ := bind_eq_ok.mp h
    obtain ⟨-, rfl⟩ := add_eq_ok.mp hnext
    injection h with h
    injection h with hs hcalls
    refine Or.inr ⟨hcalls.symm, ?_, hs.symm⟩
    show s.threshold ≤ update s.confirmations _ _ _
    rw [Function.update_self]
    exact hle
  · injection h with h
    injection h with hs hcalls
    exact Or.inl ⟨hcalls.symm, hs.symm⟩

/-- Counting a confirmation of a guardian who had not confirmed. -/
theorem Sound.counted (h : Sound s) {sender : Address} {id : ConfirmationId}
    (hepoch : id.configEpoch = s.configEpoch) (hguard : s.isGuardian sender = true)
    (hnew : s.confirmedBy id sender = false) : Sound (s.counted sender id) := by
  have hquiet : Entry.Quiet ⟨.confirmed sender id.target id.op id.round, s.config⟩ := by
    intro t op r he
    nomatch he
  -- whoever has confirmed afterwards had confirmed before, or is the sender confirming `id`
  have hby : ∀ i g, (s.counted sender id).confirmedBy i g = true →
      s.confirmedBy i g = true ∨ (i = id ∧ g = sender) := by
    intro i g hi
    by_cases hid : i = id
    · subst hid
      by_cases hg : g = sender
      · exact Or.inr ⟨rfl, hg⟩
      · left
        simpa [EmergencyPause.counted, hg] using hi
    · left
      simpa [EmergencyPause.counted, hid] using hi
  refine ⟨h.positive, h.satisfiable, h.guardians, ?_, ?_, ?_, ?_, ?_, ?_, ?_⟩
  · intro i
    by_cases hid : i = id
    · subst hid
      have hcount := (h.tally i).insert hnew
      simpa [EmergencyPause.counted] using hcount
    · have hcount := h.tally i
      simpa [EmergencyPause.counted, hid] using hcount
  · intro i g hi
    rcases hby i g hi with hi | ⟨rfl, -⟩
    · exact h.epochs i g hi
    · exact Nat.le_of_eq hepoch
  · intro i g hi heq
    rcases hby i g hi with hi | ⟨-, rfl⟩
    · exact h.live i g hi heq
    · exact hguard
  · intro i g hi
    rcases hby i g hi with hi | ⟨rfl, rfl⟩
    · obtain ⟨c, hc, hcid⟩ := h.logged i g hi
      exact ⟨c, List.mem_cons_of_mem _ hc, hcid⟩
    · exact ⟨_, List.mem_cons_self, rfl, hepoch.symm⟩
  · intro e he t op r hev
    rcases List.mem_cons.mp he with rfl | he
    · nomatch hev
    · exact h.rounds e he t op r hev
  · exact h.once.cons_quiet hquiet
  · exact h.backed.cons hquiet.backedBy

/-- **Executing an action that enough addresses confirmed.**  Its round had not been executed, since
    executed rounds are over, and the addresses counted for it are guardians, since they confirmed
    under the running epoch. -/
theorem Sound.advanced (h : Sound s) {target : Address} {op : Op}
    (hle : s.threshold ≤ s.confirmations (s.currentId target op)) :
    Sound (s.advanced target op) := by
  -- rounds only grow
  have hround : ∀ t o, s.round t o ≤ (s.advanced target op).round t o := by
    intro t o
    show s.round t o ≤ update s.round target _ t o
    by_cases ht : t = target
    · subst ht
      rw [Function.update_self]
      by_cases ho : o = op
      · subst ho
        rw [Function.update_self]
        omega
      · exact Nat.le_of_eq (Function.update_of_ne ho _ _).symm
    · have hsame := Function.update_of_ne ht
        (update (s.round target) op (s.round target op + 1)) s.round
      exact Nat.le_of_eq (congrFun hsame o).symm
  refine ⟨h.positive, h.satisfiable, h.guardians, h.tally, h.epochs, h.live, ?_, ?_, ?_, ?_⟩
  · intro i g hi
    obtain ⟨c, hc, hcid⟩ := h.logged i g hi
    exact ⟨c, List.mem_cons_of_mem _ hc, hcid⟩
  · intro e he t o r hev
    rcases List.mem_cons.mp he with rfl | he
    · injection hev with ht ho hr
      subst ht ho hr
      show s.round target op < update s.round target _ target op
      rw [Function.update_self, Function.update_self]
      omega
    · have hlt := h.rounds e he t o r hev
      have := hround t o
      omega
  · refine List.Pairwise.cons ?_ h.once
    intro y hy t o r hev hyev
    have hlt := h.rounds y hy t o r hyev
    injection hev with ht ho hr
    subst ht ho hr
    omega
  · refine h.backed.cons ?_
    intro id hid
    have heq : id = s.currentId target op := by
      obtain ⟨hev, hepoch⟩ := hid
      injection hev with ht ho hr
      cases id
      simp only at ht ho hr hepoch
      subst ht ho hr hepoch
      rfl
    subst heq
    obtain ⟨gs, hnodup, hmem, hlen⟩ := h.tally (s.currentId target op)
    refine ⟨gs, hnodup, ?_, ?_⟩
    · show s.threshold ≤ gs.length
      omega
    · intro g hg
      have hby := (hmem g).mp hg
      exact ⟨h.live _ g hby rfl, h.logged _ g hby⟩

theorem Sound.confirm (h : Sound s) {sender target : Address} {op : Op} {calls : Bool}
    (hc : s.confirm sender target op = .ok (s', calls)) : Sound s' := by
  obtain ⟨hguard, hnew, hcase⟩ := confirm_spec hc
  have hcounted : Sound (s.counted sender (s.currentId target op)) := h.counted rfl hguard hnew
  rcases hcase with ⟨-, rfl⟩ | ⟨-, hle, rfl⟩
  · exact hcounted
  · exact (Sound.advanced hcounted hle).setEntered true

theorem advanceEpoch_spec (h : s.advanceEpoch = .ok s') :
    s' = { s with configEpoch := s.configEpoch + 1 }.emit
      (.configEpochAdvanced (s.configEpoch + 1)) := by
  obtain ⟨next, hnext, h⟩ := bind_eq_ok.mp h
  obtain ⟨-, rfl⟩ := add_eq_ok.mp hnext
  injection h with h
  exact h.symm

theorem Sound.setGuardian (h : Sound s) {sender guardian : Address} {enabled : Bool}
    (hs : s.setGuardian sender guardian enabled = .ok s') : Sound s' := by
  obtain ⟨-, hs⟩ := failIf_bind_eq_ok.mp hs
  obtain ⟨-, hs⟩ := failIf_bind_eq_ok.mp hs
  rcases ite_eq_ok.mp hs with ⟨-, hs⟩ | ⟨hne, hs⟩
  · injection hs with hs
    exact hs ▸ h
  · obtain ⟨count, hcount, hs⟩ := bind_eq_ok.mp hs
    obtain ⟨⟨⟩, hbad, hs⟩ := bind_eq_ok.mp hs
    have hbad := failIf_eq_ok.mp hbad
    have hspec := advanceEpoch_spec hs
    have hquiet : ∀ c, Entry.Quiet ⟨.guardianSet guardian enabled, c⟩ := by
      intro c t op r he
      nomatch he
    have hquiet' : ∀ c n, Entry.Quiet ⟨.configEpochAdvanced n, c⟩ := by
      intro c n t op r he
      nomatch he
    cases enabled with
    | true =>
      obtain ⟨-, rfl⟩ := add_eq_ok.mp hcount
      have hold : s.isGuardian guardian = false := Bool.eq_false_iff.mpr hne
      have hsat := h.satisfiable
      subst hspec
      refine h.reconfigure (hquiet _) (hquiet' _ _) rfl rfl rfl rfl rfl h.positive ?_
        (h.guardians.insert hold)
      show s.threshold ≤ s.guardianCount + 1
      omega
    | false =>
      obtain ⟨-, rfl⟩ := sub_eq_ok.mp hcount
      have hold : s.isGuardian guardian = true := by simpa using hne
      subst hspec
      refine h.reconfigure (hquiet _) (hquiet' _ _) rfl rfl rfl rfl rfl h.positive ?_
        (h.guardians.erase hold)
      -- the check after the removal is what keeps the threshold within reach
      show s.threshold ≤ s.guardianCount - 1
      exact Nat.not_lt.mp fun hlt => hbad ⟨rfl, hlt⟩

theorem Sound.setThreshold (h : Sound s) {sender : Address} {newThreshold : Nat}
    (hs : s.setThreshold sender newThreshold = .ok s') : Sound s' := by
  obtain ⟨-, hs⟩ := failIf_bind_eq_ok.mp hs
  obtain ⟨⟨⟩, hbad, hs⟩ := bind_eq_ok.mp hs
  have hbad := failIf_eq_ok.mp hbad
  have hspec := advanceEpoch_spec hs
  subst hspec
  refine h.reconfigure ?_ ?_ rfl rfl rfl rfl rfl ?_ ?_ h.guardians
  · intro t op r he
    nomatch he
  · intro t op r he
    nomatch he
  · show 1 ≤ newThreshold
    omega
  · show newThreshold ≤ s.guardianCount
    omega

/-! ## The constructor establishes it -/

/-- What the constructor's loop keeps: the guardians are counted, and nothing else happened yet. -/
structure Adding (s : EmergencyPause) (count : Nat) : Prop where
  guardians : Counts s.isGuardian count
  confirmations : s.confirmations = fun _ => 0
  confirmedBy : s.confirmedBy = fun _ _ => false
  quiet : ∀ e ∈ s.log, e.Quiet

theorem Adding.addGuardians : ∀ {guardians : List Address} {s : EmergencyPause} {count n : Nat},
    Adding s count → addGuardians s count guardians = .ok (s', n) → Adding s' n
  | [], _, _, _, hI, h => by
    injection h with h
    injection h with hs hn
    exact hs ▸ hn ▸ hI
  | g :: gs, s, count, n, hI, h => by
    obtain ⟨-, h⟩ := failIf_bind_eq_ok.mp h
    rcases ite_eq_ok.mp h with ⟨-, h⟩ | ⟨hnew, h⟩
    · exact Adding.addGuardians hI h
    · obtain ⟨count', hcount, h⟩ := bind_eq_ok.mp h
      obtain ⟨-, rfl⟩ := add_eq_ok.mp hcount
      have hadded : Adding ({ s with isGuardian := update s.isGuardian g true }.emit
          (.guardianSet g true)) (count + 1) := by
        refine ⟨hI.guardians.insert (Bool.eq_false_iff.mpr hnew), hI.confirmations,
          hI.confirmedBy, ?_⟩
        intro e he t op r hev
        rcases List.mem_cons.mp he with rfl | he
        · nomatch hev
        · exact hI.quiet e he t op r hev
      exact Adding.addGuardians hadded h

theorem Sound.construct {governance : Address} {guardians : List Address} {threshold : Nat}
    (h : construct governance guardians threshold = .ok s) : Sound s := by
  obtain ⟨-, h⟩ := failIf_bind_eq_ok.mp h
  obtain ⟨⟨t, count⟩, hadd, h⟩ := bind_eq_ok.mp h
  obtain ⟨⟨⟩, hbad, h⟩ := bind_eq_ok.mp h
  have hbad := failIf_eq_ok.mp hbad
  injection h with h
  subst h
  have hI : Adding t count := by
    refine Adding.addGuardians ⟨Counts.empty, rfl, rfl, ?_⟩ hadd
    intro e he
    nomatch he
  have hquiet : ∀ e ∈ ({ t with guardianCount := count, threshold := threshold }.emit
      (.thresholdSet threshold)).log, e.Quiet := by
    intro e he t op r hev
    rcases List.mem_cons.mp he with rfl | he
    · nomatch hev
    · exact hI.quiet e he t op r hev
  have hnone : ∀ id g, t.confirmedBy id g = true → False := by
    intro id g hid
    rw [hI.confirmedBy] at hid
    nomatch hid
  refine ⟨?_, ?_, hI.guardians, ?_, ?_, ?_, ?_, ?_, ?_, ?_⟩
  · show 1 ≤ threshold
    omega
  · show threshold ≤ count
    omega
  · intro id
    show Counts (t.confirmedBy id) (t.confirmations id)
    rw [hI.confirmedBy, hI.confirmations]
    exact Counts.empty
  · intro id g hid
    exact (hnone id g hid).elim
  · intro id g hid
    exact (hnone id g hid).elim
  · intro id g hid
    exact (hnone id g hid).elim
  · intro e he t op r hev
    exact absurd hev (hquiet e he t op r)
  · refine List.Pairwise.imp_of_mem ?_ (List.pairwise_of_forall fun _ _ => trivial)
    intro x y hx _ _ t op r hev
    exact absurd hev (hquiet x hx t op r)
  · intro e older he
    exact (hquiet e (he.subset List.mem_cons_self)).backedBy

end

/-! ## Runs -/

section
variable {w w₀ w₁ w₂ w₃ w' : World} {l : Label} {as bs : List Label}

/-- The contract is sound now, and would be if any of the calls under way reverted. -/
structure World.Sound (w : World) : Prop where
  contract : w.contract.Sound
  saved : ∀ f ∈ w.frames, f.saved.Sound

theorem Genesis.sound (h : Genesis w) : w.Sound := by
  obtain ⟨_, _, _, hc, hf⟩ := h
  refine ⟨EmergencyPause.Sound.construct hc, ?_⟩
  intro f hmem
  rw [hf] at hmem
  nomatch hmem

theorem World.Sound.step (h : w.Sound) (hs : w.step l = .ok w') : w'.Sound := by
  have hpush : ∀ b, ∀ f ∈ (⟨w.contract, b⟩ : Frame) :: w.frames, f.saved.Sound := by
    intro b f hf
    rcases List.mem_cons.mp hf with rfl | hf
    · exact h.contract
    · exact h.saved f hf
  cases l with
  | confirm sender target op =>
    obtain ⟨⟨s, calls⟩, hc, hs⟩ := bind_eq_ok.mp hs
    injection hs with hs
    subst hs
    refine ⟨h.contract.confirm hc, ?_⟩
    cases calls with
    | true => exact hpush true
    | false => exact h.saved
  | setGuardian sender guardian enabled =>
    obtain ⟨s, hc, hs⟩ := bind_eq_ok.mp hs
    injection hs with hs
    subst hs
    exact ⟨h.contract.setGuardian hc, h.saved⟩
  | setThreshold sender newThreshold =>
    obtain ⟨s, hc, hs⟩ := bind_eq_ok.mp hs
    injection hs with hs
    subst hs
    exact ⟨h.contract.setThreshold hc, h.saved⟩
  | enter =>
    injection hs with hs
    subst hs
    exact ⟨h.contract, hpush false⟩
  | finish =>
    simp only [World.step] at hs
    split at hs
    · nomatch hs
    · rename_i f fs hf
      injection hs with hs
      subst hs
      refine ⟨h.contract.setEntered _, ?_⟩
      intro x hx
      exact h.saved x (hf ▸ List.mem_cons_of_mem f hx)
  | revert =>
    simp only [World.step] at hs
    split at hs
    · nomatch hs
    · rename_i f fs hf
      injection hs with hs
      subst hs
      refine ⟨h.saved f (hf ▸ List.mem_cons_self), ?_⟩
      intro x hx
      exact h.saved x (hf ▸ List.mem_cons_of_mem f hx)

theorem World.Sound.run (hgen : Genesis w₀) (h : Run World.step (fun _ _ => True) w₀ as w) :
    w.Sound :=
  h.inv World.Sound hgen.sound fun _ _ _ hI _ hs => hI.step hs

/-- A `confirm` that calls its target keeps the storage it began with. -/
theorem confirm_frames {sender target : Address} {op : Op}
    (hs : w.step (.confirm sender target op) = .ok w₁) :
    w₁.frames = w.frames ∨ w₁.frames = ⟨w.contract, true⟩ :: w.frames := by
  obtain ⟨⟨s, calls⟩, -, hs⟩ := bind_eq_ok.mp hs
  injection hs with hs
  subst hs
  cases calls with
  | true => exact Or.inr rfl
  | false => exact Or.inl rfl

/-- **The guardian is sound.**  In every state that `confirm`, `setGuardian` and `setThreshold` can
    reach, whatever the targets do in between:

    * the threshold is between 1 and the number of guardians, which is what `guardianCount` says;
    * each execution in the log comes after confirmations of the same target, operation, round and
      epoch by at least threshold-many distinct addresses, all of them guardians when it happened;
    * no confirmation is for two executions;
    * and a `confirm` whose call of the target reverts leaves everything as it was. -/
theorem guardian_sound (hgen : Genesis w₀) (h : Run World.step (fun _ _ => True) w₀ as w) :
    (1 ≤ w.contract.threshold ∧ w.contract.threshold ≤ w.contract.guardianCount ∧
        Counts w.contract.isGuardian w.contract.guardianCount) ∧
      (∀ e older id, e :: older <:+ w.contract.log → e.Executes id →
        ∃ gs : List Address, gs.Nodup ∧ e.config.threshold ≤ gs.length ∧
          ∀ g ∈ gs, e.config.isGuardian g = true ∧ ∃ c ∈ older, c.Confirms id g) ∧
      (w.contract.log.Pairwise fun x y => ∀ c id id' g g', Entry.Confirms c id g →
        Entry.Confirms c id' g' → x.Executes id → ¬ y.Executes id') ∧
      (∀ sender target op w₁ bs w₂ w₃, w.step (.confirm sender target op) = .ok w₁ →
        w₁.frames ≠ w.frames → Run World.step (fun _ _ => True) w₁ bs w₂ →
        w₂.frames = w₁.frames → w₂.step .revert = .ok w₃ → w₃ = w) := by
  have hsound := (World.Sound.run hgen h).contract
  refine ⟨⟨hsound.positive, hsound.satisfiable, hsound.guardians⟩, ?_, ?_, ?_⟩
  · intro e older id hmem hid
    exact hsound.backed e older hmem id hid
  · refine hsound.once.imp ?_
    -- a confirmation names one target, operation and round
    intro x y hxy c id id' g g' hc hc' hx hy
    have heq := hc.1.symm.trans hc'.1
    injection heq with _ ht ho hr
    have hyev := hy.1
    rw [← ht, ← ho, ← hr] at hyev
    exact hxy _ _ _ hx.1 hyev
  · intro sender target op w₁ bs w₂ w₃ hs hcall _ hframes hrev
    have hpushed : w₂.frames = ⟨w.contract, true⟩ :: w.frames := by
      rw [hframes]
      exact (confirm_frames hs).resolve_left hcall
    simp only [World.step, hpushed] at hrev
    injection hrev with hrev
    exact hrev.symm

/-- Three guardians of whom two have to agree, just deployed by governance at 9. -/
def twoOfThree : World := ⟨(construct 9 [1, 2, 3] 2).toOption.getD (blank 9), []⟩

/-- Two guardians pause the reserve at 7; while it is called, governance replaces a guardian. -/
def pauseRun : List Label :=
  [.confirm 1 7 .pause, .confirm 2 7 .pause, .enter, .setGuardian 9 4 true, .setGuardian 9 1 false,
    .finish, .finish]

theorem guardian_sound_paused :
    ∃ w, w = runTo World.step twoOfThree pauseRun ∧ w.contract.guardianCount = 3 ∧
      Counts w.contract.isGuardian 3 ∧
      ∃ e older, e :: older <:+ w.contract.log ∧ e.Executes ⟨7, .pause, 0, 0⟩ ∧
        ∃ gs : List Address, gs.Nodup ∧ e.config.threshold ≤ gs.length ∧
          ∀ g ∈ gs, e.config.isGuardian g = true ∧
            ∃ c ∈ older, c.Confirms ⟨7, .pause, 0, 0⟩ g := by
  have hgen : Genesis twoOfThree := ⟨9, [1, 2, 3], 2, rfl, rfl⟩
  have hrun : Run World.step (fun _ _ => True) twoOfThree pauseRun
      (runTo World.step twoOfThree pauseRun) :=
    Run.of_runTo (allowedM_of_forall fun _ _ _ => trivial) (by decide +kernel)
  obtain ⟨⟨-, -, hcount⟩, hexec, -⟩ := guardian_sound hgen hrun
  have hthree : (runTo World.step twoOfThree pauseRun).contract.guardianCount = 3 := by
    decide +kernel
  refine ⟨_, rfl, hthree, hthree ▸ hcount, ?_⟩
  -- the execution is the fifth newest event
  have hsuffix : ∀ e older, (runTo World.step twoOfThree pauseRun).contract.log.drop 4 = e :: older →
      e :: older <:+ (runTo World.step twoOfThree pauseRun).contract.log := by
    intro e older h
    exact h ▸ List.drop_suffix 4 _
  obtain ⟨e, older, hdrop, hid⟩ : ∃ e older,
      (runTo World.step twoOfThree pauseRun).contract.log.drop 4 = e :: older ∧
        e.Executes ⟨7, .pause, 0, 0⟩ := ⟨_, _, rfl, rfl, rfl⟩
  exact ⟨e, older, hsuffix e older hdrop, hid, hexec e older _ (hsuffix e older hdrop) hid⟩

end

end EmergencyPause
end Gemba.Governance
