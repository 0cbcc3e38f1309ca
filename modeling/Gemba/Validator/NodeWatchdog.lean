/-
  `node-watchdog.sh` over `watchdog-lib.sh`: restart a node that is stuck, but not forever.

  A run of the script reads the state file, probes the node, decides, and may issue the restart command
  once.  What it probes is an `Observation`; the state file and the commands issued so far are the
  state that a sequence of runs goes through.  Runs do not overlap (the script takes a lock), and
  `save_state` is taken to write the file whenever it is called.

  The height 0 is written when the node could not be asked for its height, and is read back as "no run
  before this one".  `restarts_capped` says when the cap holds nevertheless; `restart_cap_exceeded`
  shows both ways past it.
-/
import Mathlib.Order.Basic
import Gemba.Lib.Runs

namespace Gemba.Validator

open Gemba.Lib

/-- The settings of `node-watchdog.env` that the decision depends on. -/
structure Config where
  enableAutoRestart : Bool := true
  stuckBehindBlocks : Nat := 100
  restartCooldownSec : Nat := 900
  maxConsecutiveRestarts : Nat := 4
deriving DecidableEq, Repr

/-- What the state file says. -/
structure Saved where
  lastHeight : Nat
  lastRestart : Nat
  consecRestarts : Nat
deriving DecidableEq, Repr

/-- What an EVM RPC answers, where it does. -/
structure EvmRpc where
  height : Option Nat
  chainId : Option Nat
deriving DecidableEq, Repr

/-- What one run finds: the answers of the node, where it answers with a number, the public RPCs in the
    order they are tried, the time, and how the restart command would end. -/
structure Observation where
  nPeers : Option Nat
  latestBlockHeight : Option Nat
  localEvm : Option EvmRpc
  tips : List EvmRpc
  now : Nat
  restartSucceeds : Bool
deriving DecidableEq, Repr

/-- Why the node is taken to be stuck. -/
inductive Stuck where
  | rpcUnreachable
  | noPeers
  | heightFrozen (height : Nat)
  | behindTip (behind : Int)
deriving DecidableEq, Repr

/-! ## The library -/

/-- `wd_load_state`. -/
def wdLoadState (file : Option Saved) : Saved := file.getD ⟨0, 0, 0⟩

/-- `wd_gather_local`: the peers, or -1, and the height, or 0. -/
def wdGatherLocal (o : Observation) : Int × Nat :=
  (match o.nPeers with
    | some n => (n : Int)
    | none => -1,
   o.latestBlockHeight.getD 0)

/-- `wd_gather_tip`: how far the node is behind the first tip that answers.  A tip of another chain is
    passed over, if the node's own chain is known. -/
def wdGatherTip (o : Observation) : Option Int :=
  let mine := o.localEvm.bind EvmRpc.chainId
  let tip := o.tips.findSome? fun u => if mine ≠ none ∧ u.chainId ≠ mine then none else u.height
  match tip, o.localEvm.bind EvmRpc.height with
  | some t, some l => some (t - l)
  | _, _ => none

/-- `wd_freeze_check`: whether this is the first run, whether the node moved, and the file it saves. -/
def wdFreezeCheck (s : Saved) (height : Nat) : Bool × Bool × Saved :=
  let firstRun : Bool := s.lastHeight = 0
  let moved : Bool := !(!firstRun && decide (height = s.lastHeight))
  (firstRun, moved, { s with lastHeight := height })

/-- `wd_detect_stuck`. -/
def wdDetectStuck (cfg : Config) (peers : Int) (height : Nat) (behind : Option Int)
    (firstRun moved : Bool) : Option Stuck :=
  if peers = -1 then some .rpcUnreachable
  else if peers = 0 then some .noPeers
  else if firstRun = false ∧ moved = false then some (.heightFrozen height)
  else match behind with
    | some b => if b > cfg.stuckBehindBlocks ∧ moved = false then some (.behindTip b) else none
    | none => none

/-- `wd_restart_flow`: the file it leaves, and the time of the restart command if it issues one. -/
def wdRestartFlow (cfg : Config) (s file : Saved) (height : Nat) (o : Observation) :
    Saved × Option Nat :=
  if cfg.enableAutoRestart = false then (file, none)
  else if s.consecRestarts ≥ cfg.maxConsecutiveRestarts then (file, none)
  else if (o.now : Int) - s.lastRestart < cfg.restartCooldownSec then (file, none)
  -- the command is issued; only a success is written down
  else if o.restartSucceeds then (⟨height, o.now, s.consecRestarts + 1⟩, some o.now)
  else (file, some o.now)

/-- `wd_reset_restart_counter`. -/
def wdResetRestartCounter (s file : Saved) (height : Nat) : Saved :=
  if s.consecRestarts ≠ 0 then ⟨height, s.lastRestart, 0⟩ else file

/-- Whether a run finds the node stuck. -/
def detected (cfg : Config) (s : Saved) (o : Observation) : Option Stuck :=
  let (peers, height) := wdGatherLocal o
  let (firstRun, moved, _) := wdFreezeCheck s height
  wdDetectStuck cfg peers height (wdGatherTip o) firstRun moved

/-- `node-watchdog.sh`: the file it leaves, and the time of the restart command if it issues one. -/
def nodeWatchdog (cfg : Config) (file : Option Saved) (o : Observation) : Saved × Option Nat :=
  let s := wdLoadState file
  let (_, height) := wdGatherLocal o
  let (_, _, saved) := wdFreezeCheck s height
  match detected cfg s o with
  | none => (wdResetRestartCounter s saved height, none)
  | some _ => wdRestartFlow cfg s saved height o

/-! ## A sequence of runs -/

/-- The state file, and the times of the restart commands that were issued. -/
structure Watch where
  file : Option Saved
  issued : List Nat
deriving DecidableEq, Repr

/-- One run of the script. -/
def step (cfg : Config) (w : Watch) (o : Observation) : Except Unit Watch :=
  let (file, issued) := nodeWatchdog cfg w.file o
  .ok ⟨some file, w.issued ++ issued.toList⟩

/-- The node answers with the height `h`, or not at all. -/
def Observation.Frozen (h : Nat) (o : Observation) : Prop :=
  o.latestBlockHeight = none ∨ o.latestBlockHeight = some h

instance (h : Nat) : DecidablePred (Observation.Frozen h) :=
  fun _ => inferInstanceAs (Decidable (_ ∨ _))

/-- The cap and the cooldown. -/
def Capped (cfg : Config) (issued : List Nat) : Prop :=
  issued.length ≤ cfg.maxConsecutiveRestarts ∧
    issued.Pairwise fun t u => t + cfg.restartCooldownSec ≤ u

instance (cfg : Config) : DecidablePred (Capped cfg) := fun _ => inferInstanceAs (Decidable (_ ∧ _))

/-- A restart is due: the node is stuck, the budget is not used up, and the cooldown is over. -/
def Due (cfg : Config) (s : Saved) (o : Observation) : Prop :=
  cfg.enableAutoRestart = true ∧ detected cfg s o ≠ none ∧
    s.consecRestarts < cfg.maxConsecutiveRestarts ∧ s.lastRestart + cfg.restartCooldownSec ≤ o.now

/-- **What the cap rests on.**  A restart that is due succeeds; and once one was issued, a run that sees
    peers reads the height, and follows a run that read it. -/
def Regular (cfg : Config) (w : Watch) (o : Observation) : Prop :=
  (Due cfg (wdLoadState w.file) o → o.restartSucceeds = true) ∧
  (w.issued ≠ [] → 0 < (wdGatherLocal o).1 →
    (wdGatherLocal o).2 ≠ 0 ∧ (wdLoadState w.file).lastHeight ≠ 0)

instance (cfg : Config) (s : Saved) (o : Observation) : Decidable (Due cfg s o) :=
  inferInstanceAs (Decidable (_ ∧ _ ∧ _ ∧ _))

instance (cfg : Config) (w : Watch) (o : Observation) : Decidable (Regular cfg w o) :=
  inferInstanceAs (Decidable ((_ → _) ∧ (_ → _ → _ ∧ _)))

section
variable {cfg : Config} {s : Saved} {w w' : Watch} {o : Observation} {h : Nat}

/-- A healthy node has peers, and this run or the one before it read no height, or another one. -/
theorem detected_none (hd : detected cfg s o = none) : 0 < (wdGatherLocal o).1 ∧
    (s.lastHeight = 0 ∨ (wdGatherLocal o).2 ≠ s.lastHeight) := by
  have hd : wdDetectStuck cfg (wdGatherLocal o).1 (wdGatherLocal o).2 (wdGatherTip o)
      (decide (s.lastHeight = 0))
      (!(!decide (s.lastHeight = 0) && decide ((wdGatherLocal o).2 = s.lastHeight))) = none := hd
  unfold wdDetectStuck at hd
  split at hd
  · nomatch hd
  · rename_i hreach
    split at hd
    · nomatch hd
    · rename_i hpeers
      split at hd
      · nomatch hd
      · rename_i hfrozen
        constructor
        · have hge : -1 ≤ (wdGatherLocal o).1 := by
            unfold wdGatherLocal
            split <;> omega
          omega
        · by_contra hno
          rw [not_or, not_not] at hno
          refine hfrozen ⟨decide_eq_false hno.1, ?_⟩
          rw [decide_eq_false hno.1, decide_eq_true hno.2]
          rfl

/-- The restart flow issues nothing and leaves the file, or the budget and the cooldown let it. -/
theorem wdRestartFlow_cases {file saved : Saved} {height : Nat} {issued : Option Nat}
    (hr : wdRestartFlow cfg s file height o = (saved, issued)) :
    (issued = none ∧ saved = file) ∨
    ((cfg.enableAutoRestart = true ∧ s.consecRestarts < cfg.maxConsecutiveRestarts ∧
        s.lastRestart + cfg.restartCooldownSec ≤ o.now) ∧ issued = some o.now ∧
      saved = if o.restartSucceeds then ⟨height, o.now, s.consecRestarts + 1⟩ else file) := by
  unfold wdRestartFlow at hr
  split at hr
  · obtain ⟨rfl, rfl⟩ := Prod.mk.inj hr
    exact .inl ⟨rfl, rfl⟩
  · rename_i henabled
    split at hr
    · obtain ⟨rfl, rfl⟩ := Prod.mk.inj hr
      exact .inl ⟨rfl, rfl⟩
    · rename_i hbudget
      split at hr
      · obtain ⟨rfl, rfl⟩ := Prod.mk.inj hr
        exact .inl ⟨rfl, rfl⟩
      · rename_i hcool
        have hdue : cfg.enableAutoRestart = true ∧ s.consecRestarts < cfg.maxConsecutiveRestarts ∧
            s.lastRestart + cfg.restartCooldownSec ≤ o.now :=
          ⟨Bool.not_eq_false _ ▸ henabled, Nat.lt_of_not_ge hbudget, by omega⟩
        split at hr
        · rename_i hok
          obtain ⟨rfl, rfl⟩ := Prod.mk.inj hr
          exact .inr ⟨hdue, rfl, (if_pos hok).symm⟩
        · rename_i hfails
          obtain ⟨rfl, rfl⟩ := Prod.mk.inj hr
          exact .inr ⟨hdue, rfl, (if_neg hfails).symm⟩

/-- **One run.**  It issues nothing and leaves the budget alone; or the node is healthy and the budget
    is renewed; or a restart was due, and is written down if it succeeded. -/
theorem step_cases (hs : step cfg w o = .ok w') :
    ∃ file, w'.file = some file ∧ file.lastHeight = (wdGatherLocal o).2 ∧
      ((w'.issued = w.issued ∧ file.lastRestart = (wdLoadState w.file).lastRestart ∧
          (file.consecRestarts = (wdLoadState w.file).consecRestarts ∨
            detected cfg (wdLoadState w.file) o = none)) ∨
        (Due cfg (wdLoadState w.file) o ∧ w'.issued = w.issued ++ [o.now] ∧
          (o.restartSucceeds = true → file.lastRestart = o.now ∧
            file.consecRestarts = (wdLoadState w.file).consecRestarts + 1))) := by
  unfold step at hs
  generalize hr : nodeWatchdog cfg w.file o = r at hs
  obtain ⟨saved, issued⟩ := r
  obtain rfl := Except.ok.inj hs
  refine ⟨saved, rfl, ?_⟩
  show saved.lastHeight = _ ∧
    ((w.issued ++ issued.toList = _ ∧ _) ∨ (_ ∧ w.issued ++ issued.toList = _ ∧ _))
  unfold nodeWatchdog at hr
  generalize wdLoadState w.file = s at hr ⊢
  cases hd : detected cfg s o with
  | none =>
    have hreset : (wdResetRestartCounter s { s with lastHeight := (wdGatherLocal o).2 }
        (wdGatherLocal o).2, none) = (saved, issued) := by
      simp only [hd] at hr
      exact hr
    obtain ⟨rfl, rfl⟩ := Prod.mk.inj hreset
    unfold wdResetRestartCounter
    split
    · exact ⟨rfl, .inl ⟨List.append_nil _, rfl, .inr rfl⟩⟩
    · exact ⟨rfl, .inl ⟨List.append_nil _, rfl, .inr rfl⟩⟩
  | some stuck =>
    have hflow : wdRestartFlow cfg s { s with lastHeight := (wdGatherLocal o).2 }
        (wdGatherLocal o).2 o = (saved, issued) := by
      simp only [hd] at hr
      exact hr
    rcases wdRestartFlow_cases hflow with ⟨rfl, rfl⟩ | ⟨⟨henabled, hbudget, hcool⟩, rfl, hsaved⟩
    · exact ⟨rfl, .inl ⟨List.append_nil _, rfl, .inl rfl⟩⟩
    · refine ⟨?_, .inr ⟨⟨henabled, ?_, hbudget, hcool⟩, rfl, fun hok => ?_⟩⟩
      · rw [hsaved]
        split <;> rfl
      · rw [hd]
        exact Option.some_ne_none stuck
      · rw [hsaved, if_pos hok]
        exact ⟨rfl, rfl⟩

/-- The books of the watchdog: the counter counts the restarts issued, which keep their distance and
    are not after the last; and the height in the file is the node's, or 0. -/
structure Books (cfg : Config) (h : Nat) (w : Watch) : Prop where
  capped : Capped cfg w.issued
  counted : w.issued.length ≤ (wdLoadState w.file).consecRestarts
  past : ∀ t ∈ w.issued, t ≤ (wdLoadState w.file).lastRestart
  height : w.issued ≠ [] → (wdLoadState w.file).lastHeight = 0 ∨ (wdLoadState w.file).lastHeight = h

/-- A regular run of a node that is frozen renews no budget that was touched. -/
theorem Books.not_healthy (hb : Books cfg h w) (hf : o.Frozen h) (hr : Regular cfg w o)
    (hissued : w.issued ≠ []) : detected cfg (wdLoadState w.file) o ≠ none := by
  intro hd
  obtain ⟨hpeers, hmoved⟩ := detected_none hd
  obtain ⟨hread, hlast⟩ := hr.2 hissued hpeers
  have hsame : (wdGatherLocal o).2 = (wdLoadState w.file).lastHeight := by
    rw [(hb.height hissued).resolve_left hlast]
    rcases hf with hf | hf
    · refine absurd ?_ hread
      unfold wdGatherLocal
      rw [hf]
      rfl
    · unfold wdGatherLocal
      rw [hf]
      rfl
  rcases hmoved with h0 | hne
  · exact hlast h0
  · exact hne hsame

theorem Books.step (hb : Books cfg h w) (hf : o.Frozen h) (hr : Regular cfg w o)
    (hs : step cfg w o = .ok w') : Books cfg h w' := by
  obtain ⟨file, hfile, hheight, hcases⟩ := step_cases hs
  have hload : wdLoadState w'.file = file := by rw [hfile]; rfl
  have hseen : (wdGatherLocal o).2 = 0 ∨ (wdGatherLocal o).2 = h := by
    rcases hf with hf | hf
    · exact .inl (by unfold wdGatherLocal; rw [hf]; rfl)
    · exact .inr (by unfold wdGatherLocal; rw [hf]; rfl)
  have hlast : (wdLoadState w'.file).lastHeight = 0 ∨ (wdLoadState w'.file).lastHeight = h := by
    rw [hload, hheight]
    exact hseen
  rcases hcases with ⟨hissued, hrestart, hcount⟩ | ⟨hdue, hissued, hsaved⟩
  · refine ⟨?_, ?_, ?_, fun _ => hlast⟩
    · rw [hissued]
      exact hb.capped
    · rw [hissued, hload]
      by_cases hnone : w.issued = []
      · rw [hnone]
        exact Nat.zero_le _
      · rw [hcount.resolve_right (hb.not_healthy hf hr hnone)]
        exact hb.counted
    · intro t ht
      rw [hissued] at ht
      rw [hload, hrestart]
      exact hb.past t ht
  · obtain ⟨hnow, hcount⟩ := hsaved (hr.1 hdue)
    obtain ⟨-, -, hbudget, hcool⟩ := hdue
    have hlen : w'.issued.length = w.issued.length + 1 := by
      rw [hissued, List.length_append, List.length_singleton]
    have hcounted := hb.counted
    refine ⟨⟨by omega, ?_⟩, by rw [hload]; omega, ?_, fun _ => hlast⟩
    · rw [hissued, List.pairwise_append]
      refine ⟨hb.capped.2, List.pairwise_singleton _ _, fun t ht u hu => ?_⟩
      have hle := hb.past t ht
      rw [List.mem_singleton.mp hu]
      omega
    · intro t ht
      rw [hload, hnow]
      rw [hissued] at ht
      rcases List.mem_append.mp ht with ht | ht
      · have hle := hb.past t ht
        omega
      · exact Nat.le_of_eq (List.mem_singleton.mp ht)

end

/-- **The cap holds where the runs are regular.**  From any state file, in every sequence of runs in
    which the height never advances, every restart that is due succeeds, and, once one was issued, no
    run that sees peers fails to read the height or follows one that did, at most
    `MAX_CONSECUTIVE_RESTARTS` restarts are issued, any two of them `RESTART_COOLDOWN_SEC` apart. -/
theorem restarts_capped {cfg : Config} {h : Nat} {file : Option Saved} {os : List Observation}
    {w : Watch} (hrun : Run (step cfg) (fun w o => o.Frozen h ∧ Regular cfg w o) ⟨file, []⟩ os w) :
    Capped cfg w.issued := by
  have hstart : Books cfg h ⟨file, []⟩ :=
    ⟨⟨Nat.zero_le _, List.Pairwise.nil⟩, Nat.zero_le _, fun _ ht => absurd ht List.not_mem_nil,
      fun hne => absurd rfl hne⟩
  have hbooks : Books cfg h w := by
    refine Run.inv (Books cfg h) hstart ?_ hrun
    intro t o u hb hP hs
    exact hb.step hP.1 hP.2 hs
  exact hbooks.capped

/-- A run at the time `now` that finds `nPeers` and `height`. -/
def sees (nPeers height : Option Nat) (now : Nat) : Observation :=
  ⟨nPeers, height, none, [], now, true⟩

/-- A node at height 100 that loses its peers: four restarts, and no fifth. -/
def lonely : List Observation :=
  [sees (some 0) (some 100) 10000, sees (some 0) (some 100) 10300, sees (some 2) (some 100) 10600,
   sees (some 0) (some 100) 11000, sees none none 12000, sees (some 0) (some 100) 13000,
   sees (some 0) (some 100) 14000]

theorem restarts_capped_lonely :
    (runTo (step {}) ⟨none, []⟩ lonely).issued = [10000, 11000, 12000, 13000] ∧
    Capped {} (runTo (step {}) ⟨none, []⟩ lonely).issued := by
  have hrun : Run (step {}) (fun w o => o.Frozen 100 ∧ Regular {} w o) ⟨none, []⟩ lonely
      (runTo (step {}) ⟨none, []⟩ lonely) := Run.of_runTo (by decide +kernel) (by decide +kernel)
  exact ⟨by decide +kernel, restarts_capped hrun⟩

/-- A node at height 100 that can be asked every other time. -/
def flapping : List Observation :=
  [sees none none 10000, sees (some 3) (some 100) 10300, sees none none 11000,
   sees (some 3) (some 100) 11300, sees none none 12000, sees (some 3) (some 100) 12300,
   sees none none 13000, sees (some 3) (some 100) 13300, sees none none 14000]

/-- A node that is down, and a restart command that fails. -/
def failing : List Observation :=
  [{ sees none none 10000 with restartSucceeds := false },
   { sees none none 10300 with restartSucceeds := false }]

/-- **The cap does not hold of every sequence of runs.**  The node that can be asked every other time is
    restarted five times, four being the cap: each time its height is read after a run that could not
    read it, the node counts as healthy.  And a command that fails is issued again at once. -/
theorem restart_cap_exceeded :
    (∃ w, Run (step {}) (fun _ o => o.Frozen 100 ∧ o.restartSucceeds = true) ⟨none, []⟩ flapping w ∧
      w.issued = [10000, 11000, 12000, 13000, 14000] ∧ ¬ Capped {} w.issued) ∧
    ∃ w, Run (step {}) (fun _ o => o.Frozen 100) ⟨none, []⟩ failing w ∧
      w.issued = [10000, 10300] ∧ ¬ Capped {} w.issued := by
  refine ⟨⟨runTo (step {}) ⟨none, []⟩ flapping, ?_, by decide +kernel, by decide +kernel⟩,
    ⟨runTo (step {}) ⟨none, []⟩ failing, ?_, by decide +kernel, by decide +kernel⟩⟩
  · exact Run.of_runTo (by decide +kernel) (by decide +kernel)
  · exact Run.of_runTo (by decide +kernel) (by decide +kernel)

end Gemba.Validator
