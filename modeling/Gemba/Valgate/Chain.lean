/-
  The chain around `x/valgate`: blocks, transactions, and what each leaves in the daily counters.

  1. **The machine** (`step`).  A world is the valgate store, the staking state, the block time and a
     ghost log of the staking messages that took effect.  A step begins a block, runs a transaction
     (checked, simulated or delivered) or executes a governance `UpdateParams`.  A delivered
     transaction runs ante, messages and post-handler on a branch that is kept only if all succeed
     (baseapp); a precompile call that fails, and a frame that reverts, leave no trace (the EVM's
     journal).

  2. **One transaction** (`runMsgs_ran`, `runTx_delivered`).  Whatever the tree, the counters grow
     by exactly what the guard reads in the bonding messages that took effect, each once: those of
     the tree in the post-handler, those of the precompile as they run.

  3. **What the guard does not charge** (`guard_fails_closed_iff`).  The bonding messages that name
     their validator in hex, and no others.
-/
import Mathlib.Algebra.Order.BigOperators.Group.List
import Gemba.Lib.Runs
import Gemba.Valgate.Ante
import Gemba.Valgate.Genesis

namespace Gemba.Valgate

open Gemba.Lib Gemba.Sdk

variable {B : AddressCodec}

/-! ## Worlds -/

/-- The path a staking message took. -/
inductive Path where
  | cosmos
  | evm
deriving DecidableEq

/-- A staking message that took effect: when, which, for which validator, and the tokens that
    validator gained. -/
structure Effect where
  path : Path
  day : Nat
  msg : StakingMsg
  valoper : ValAddress
  added : Int
deriving DecidableEq

/-- The chain's state, with the log of what took effect. -/
structure World (S : Staking B) where
  ctx : Ctx
  staking : S.State
  log : List Effect

variable {S : Staking B}

/-- The current UTC day. -/
def World.day (w : World S) : Nat := w.ctx.blockTime.day

/-- The log entry of an accepted message, if it adds to a validator's tokens. -/
def effectOf (S : Staking B) (path : Path) (day : Nat) (s s' : S.State) (m : StakingMsg) :
    List Effect :=
  match m.increase? with
  | none => []
  | some (name, _) =>
    match B.stringToBytes name with
    | .error _ => []
    | .ok va => [⟨path, day, m, va, S.tokens s' va - S.tokens s va⟩]

/-- What happened to a message's state. -/
def World.after (w : World S) (path : Path) (m : StakingMsg) (kv : Store) (s' : S.State) : World S :=
  { ctx := { w.ctx with kv := kv }
    staking := s'
    log := w.log ++ effectOf S path w.day w.staking s' m }

/-! ## Execution -/

mutual

/-- One precompile call or frame.  A call that fails reverts alone (its caller may go on); a frame
    that reverts takes everything inside with it; a panic ends the transaction. -/
def runEvmOp (w : World S) : EvmOp → Outcome (World S)
  | .call m =>
    match CapEnforcing.handle S w.ctx w.staking m with
    | .ok (kv, s') => .ok (w.after .evm m kv s')
    | .error (.error _) => .ok w
    | .error (.panic msg) => .error (.panic msg)
  | .frame ops reverts => do
    let w' ← runEvmOps w ops
    if reverts then .ok w else .ok w'

/-- The calls of a frame, in order. -/
def runEvmOps (w : World S) : List EvmOp → Outcome (World S)
  | [] => .ok w
  | op :: ops => do
    let w ← runEvmOp w op
    runEvmOps w ops

end

mutual

/-- The handler of one message; `MsgExec` runs its messages in order, `MsgEthereumTx` never fails
    (an EVM failure reverts inside). -/
def runMsg (w : World S) : Msg → Outcome (World S)
  | .staking m => do
    let s' ← S.handle w.ctx.kv w.staking m
    .ok (w.after .cosmos m w.ctx.kv s')
  | .exec inner => runMsgs w inner
  | .execUndecodable err => .error (.error err)
  | .ethereumTx ops => runEvmOps w ops
  | .other _ => .ok w

/-- `runMsgs`: the messages in order, stopping at the first that fails. -/
def runMsgs (w : World S) : List Msg → Outcome (World S)
  | [] => .ok w
  | msg :: msgs => do
    let w ← runMsg w msg
    runMsgs w msgs

end

/-- How a transaction is run. -/
inductive ExecMode where
  | check
  | simulate
  | deliver
deriving DecidableEq

/-- A transaction, with what the parts of the application outside the model make of it: the answer
    of the rest of the ante chain, a failure of the messages (out of gas, a missing grant, a bank
    error), the answer of the rest of the post chain if there is one. -/
structure Tx where
  msgs : List Msg
  anteNext : Outcome Unit
  msgFault : Option Fault
  postNext : Option (Outcome Unit)

/-- The messages of a transaction, including what may make them fail. -/
def runTxMsgs (w : World S) (tx : Tx) : Outcome (World S) := do
  let w' ← runMsgs w tx.msgs
  match tx.msgFault with
  | none => .ok w'
  | some fault => .error fault

/-- `runTx`: the branch a transaction leaves.  The post-handler runs whether or not the messages
    succeeded, on the messages' branch; its error, like theirs, fails the transaction. -/
def runTx (mode : ExecMode) (w : World S) (tx : Tx) : Outcome (World S) := do
  let simulate := decide (mode = .simulate)
  anteHandle B w.ctx tx.msgs simulate tx.anteNext
  if mode = .check then .ok w
  else
    match runTxMsgs w tx with
    | .ok w' => do
      let kv ← postHandle B w'.ctx tx.msgs simulate true tx.postNext
      .ok { w' with ctx := { w'.ctx with kv := kv } }
    | .error fault => do
      let _ ← postHandle B w.ctx tx.msgs simulate false tx.postNext
      .error fault

/-- What can happen to the chain. -/
inductive Label (S : Staking B) where
  | beginBlock (t : BlockTime)
  | tx (mode : ExecMode) (tx : Tx)
  | updateParams (msg : MsgUpdateParams)
  /-- Anything else that changes the staking state: rewards, slashing, the end of an unbonding. -/
  | staking (s' : S.State)

/-- One step.  Only a delivered transaction that succeeded is committed; block time does not go
    back. -/
def step (authority : String) (w : World S) : Label S → Outcome (World S)
  | .beginBlock t => do
    failIf (t.unix < w.ctx.blockTime.unix) (.error "block time went back")
    .ok { w with ctx := { w.ctx with blockTime := t } }
  | .tx mode tx =>
    match mode, runTx mode w tx with
    | .deliver, .ok w' => .ok w'
    | _, _ => .ok w
  | .updateParams msg =>
    match updateParams authority w.ctx.kv msg with
    | .ok kv => .ok { w with ctx := { w.ctx with kv := kv } }
    | .error _ => .ok w
  | .staking s' => .ok { w with staking := s' }

/-! ## What one transaction does -/

/-- A well-formed log entry: its message added stake to the validator its string resolves to, a
    positive amount of it, and at most that amount of tokens. -/
structure Effect.Ok (B : AddressCodec) (e : Effect) : Prop where
  increases : ∃ name amount, e.msg.increase? = some (name, amount) ∧
    B.stringToBytes name = .ok e.valoper ∧ 0 < amount.val ∧ e.added ≤ amount.val

theorem StakingMsg.increase?_of_bond? {m : StakingMsg} {x : String × MathInt}
    (h : m.bond? = some x) : m.increase? = some x := by
  cases m with
  | delegate m => exact h
  | beginRedelegate m => exact h
  | createValidator m => nomatch h
  | undelegate m => nomatch h
  | cancelUnbondingDelegation m => nomatch h

/-- What an accepted message leaves in the log. -/
theorem effectOf_handle (hdoc : S.Documented) (path : Path) (day : Nat) {kv : Store}
    {s s' : S.State} {m : StakingMsg} (h : S.handle kv s m = .ok s') :
    match m.increase? with
    | none => effectOf S path day s s' m = []
    | some _ => ∃ e : Effect, effectOf S path day s s' m = [e] ∧ e.path = path ∧ e.day = day ∧
        e.msg = m ∧ e.Ok B := by
  have hbonded : ∀ name amount rel, m.increase? = some (name, amount) →
      (∀ x y : Int, rel x y → x ≤ y) → Bonded S s s' name amount rel →
      ∃ e : Effect, effectOf S path day s s' m = [e] ∧ e.path = path ∧ e.day = day ∧
        e.msg = m ∧ e.Ok B := by
    intro name amount rel hinc hrel hb
    obtain ⟨⟨va, hva, htokens⟩, a, ha, hpos⟩ := hb
    have hval : amount.val = a := by rw [MathInt.val, ha]; rfl
    refine ⟨⟨path, day, m, va, S.tokens s' va - S.tokens s va⟩, ?_, rfl, rfl, rfl, ⟨name, amount, hinc,
      hva, by omega, ?_⟩⟩
    · rw [effectOf, hinc]
      dsimp only
      rw [hva]
    · have := hrel _ _ htokens
      show S.tokens s' va - S.tokens s va ≤ amount.val
      omega
  cases m with
  | createValidator m => rfl
  | undelegate m => rfl
  | delegate m => exact hbonded _ _ _ rfl (fun _ _ h => Int.le_of_eq h) (hdoc.delegate _ _ _ h)
  | beginRedelegate m => exact hbonded _ _ _ rfl (fun _ _ h => h) (hdoc.beginRedelegate _ _ _ h)
  | cancelUnbondingDelegation m =>
    exact hbonded _ _ _ rfl (fun _ _ h => Int.le_of_eq h) (hdoc.cancelUnbondingDelegation _ _ _ h)

/-- What the guard reads for `v` in a staking message. -/
def StakingMsg.charge (B : AddressCodec) (m : StakingMsg) (v : ValAddress) : Int :=
  guardSum B m.bond?.toList v

/-- What the guard reads for `v` in a log entry. -/
def Effect.charge (B : AddressCodec) (e : Effect) (v : ValAddress) : Int := e.msg.charge B v

/-- What a log entry bonded to `v`. -/
def Effect.bonded (e : Effect) (v : ValAddress) : Int :=
  match e.msg.bond? with
  | some (_, amount) => if v = e.valoper then amount.val else 0
  | none => 0

/-- What the guard reads for `v` in the entries of one path. -/
def pathCharge (B : AddressCodec) (path : Path) (es : List Effect) (v : ValAddress) : Int :=
  (es.map fun e => if e.path = path then e.charge B v else 0).sum

@[simp] theorem pathCharge_nil (path : Path) (v : ValAddress) : pathCharge B path [] v = 0 := rfl

@[simp] theorem pathCharge_append (path : Path) (es fs : List Effect) (v : ValAddress) :
    pathCharge B path (es ++ fs) v = pathCharge B path es v + pathCharge B path fs v := by
  rw [pathCharge, List.map_append, List.sum_append]
  rfl

theorem pathCharge_singleton (path : Path) (e : Effect) (v : ValAddress) :
    pathCharge B path [e] v = if e.path = path then e.charge B v else 0 := by
  simp [pathCharge]

/-- Execution took `w` to `w'` and logged `new`: the precompile's messages were charged as they ran,
    the guard reads `tree` in the others, every entry is of today and satisfies `P`. -/
structure Ran (P : StakingMsg → Prop) (cap : Int) (w w' : World S) (new : List Effect)
    (tree : ValAddress → Int) : Prop where
  charged : Charged cap w.ctx.blockTime w.ctx.kv w'.ctx.kv (pathCharge B .evm new)
  time : w'.ctx.blockTime = w.ctx.blockTime
  log : w'.log = w.log ++ new
  cosmos : ∀ v, pathCharge B .cosmos new v = tree v
  entries : ∀ e ∈ new, e.Ok B ∧ e.day = w.day ∧ P e.msg

variable {P : StakingMsg → Prop} {cap : Int} {w w' w₁ w₂ w₃ : World S}

theorem Ran.refl : Ran P cap w w [] (fun _ => 0) where
  charged := Charged.refl
  time := rfl
  log := (List.append_nil _).symm
  cosmos _ := rfl
  entries _ h := nomatch h

theorem Ran.trans {new₁ new₂ : List Effect} {f g : ValAddress → Int}
    (h₁ : Ran P cap w₁ w₂ new₁ f) (h₂ : Ran P cap w₂ w₃ new₂ g) :
    Ran P cap w₁ w₃ (new₁ ++ new₂) (fun v => f v + g v) where
  charged := by
    have hsecond := h₂.charged
    rw [h₁.time] at hsecond
    exact (h₁.charged.trans hsecond).congr (fun v => (pathCharge_append _ _ _ v).symm)
  time := h₂.time.trans h₁.time
  log := by rw [h₂.log, h₁.log, List.append_assoc]
  cosmos v := by rw [pathCharge_append, h₁.cosmos, h₂.cosmos]
  entries e he := by
    rcases List.mem_append.mp he with he | he
    · exact h₁.entries e he
    · obtain ⟨hok, hday, hP⟩ := h₂.entries e he
      refine ⟨hok, ?_, hP⟩
      rw [hday, World.day, World.day, h₁.time]

theorem Ran.congr {new : List Effect} {f g : ValAddress → Int} (h : Ran P cap w w' new f)
    (hfg : ∀ v, f v = g v) : Ran P cap w w' new g where
  charged := h.charged
  time := h.time
  log := h.log
  cosmos v := (h.cosmos v).trans (hfg v)
  entries := h.entries

theorem Ran.dailyCap {new : List Effect} {f : ValAddress → Int} (h : Ran P cap w w' new f)
    (hcap : DailyCap w.ctx.kv cap) : DailyCap w'.ctx.kv cap :=
  h.charged.dailyCap hcap

/-- An accepted message, by path: nothing on the path it did not take. -/
theorem pathCharge_effectOf (hdoc : S.Documented) (path p : Path) (day : Nat) {kv : Store}
    {s s' : S.State} {m : StakingMsg} (h : S.handle kv s m = .ok s') (v : ValAddress) :
    pathCharge B p (effectOf S path day s s' m) v = if path = p then m.charge B v else 0 := by
  have heffect := effectOf_handle hdoc path day h
  cases hinc : m.increase? with
  | none =>
    rw [hinc] at heffect
    have hbond : m.bond? = none := by
      cases hb : m.bond? with
      | none => rfl
      | some x =>
        rw [StakingMsg.increase?_of_bond? hb] at hinc
        nomatch hinc
    rw [heffect, pathCharge_nil, StakingMsg.charge, hbond]
    split <;> rfl
  | some x =>
    rw [hinc] at heffect
    obtain ⟨e, he, hpath, -, hmsg, -⟩ := heffect
    rw [he, pathCharge_singleton, hpath, Effect.charge, hmsg]

/-- The entries of an accepted message. -/
theorem entries_effectOf (hdoc : S.Documented) (path : Path) (day : Nat) {kv : Store}
    {s s' : S.State} {m : StakingMsg} (h : S.handle kv s m = .ok s') :
    ∀ e ∈ effectOf S path day s s' m, e.Ok B ∧ e.day = day ∧ e.msg = m := by
  have heffect := effectOf_handle hdoc path day h
  intro e he
  cases hinc : m.increase? with
  | none =>
    rw [hinc] at heffect
    rw [heffect] at he
    nomatch he
  | some x =>
    rw [hinc] at heffect
    obtain ⟨e', he', -, hday, hmsg, hok⟩ := heffect
    rw [he', List.mem_singleton] at he
    subst he
    exact ⟨hok, hday, hmsg⟩

mutual

/-- The staking messages inside a precompile call or frame. -/
def EvmOp.stakingMsgs : EvmOp → List StakingMsg
  | .call m => [m]
  | .frame ops _ => evmStakingMsgs ops

def evmStakingMsgs : List EvmOp → List StakingMsg
  | [] => []
  | op :: ops => op.stakingMsgs ++ evmStakingMsgs ops

end

mutual

/-- The staking messages of a tree, on either path. -/
def Msg.stakingMsgs : Msg → List StakingMsg
  | .staking m => [m]
  | .exec inner => stakingMsgsOf inner
  | .execUndecodable _ => []
  | .ethereumTx ops => evmStakingMsgs ops
  | .other _ => []

def stakingMsgsOf : List Msg → List StakingMsg
  | [] => []
  | msg :: msgs => msg.stakingMsgs ++ stakingMsgsOf msgs

end

/-- A precompile call that went through was charged. -/
theorem call_ran (hdoc : S.Documented) (hcap : DailyCap w.ctx.kv cap) {m : StakingMsg} (hP : P m)
    {kv : Store} {s' : S.State} (h : CapEnforcing.handle S w.ctx w.staking m = .ok (kv, s')) :
    Ran P cap w (w.after .evm m kv s') (effectOf S .evm w.day w.staking s' m) (fun _ => 0) := by
  obtain ⟨hcharge, hhandle⟩ := CapEnforcing.handle_eq_ok.mp h
  refine ⟨?_, rfl, rfl, ?_, ?_⟩
  · have hsum : ∀ v, pathCharge B .evm (effectOf S .evm w.day w.staking s' m) v = m.charge B v :=
      fun v => pathCharge_effectOf hdoc .evm .evm w.day hhandle v
    cases hb : m.bond? with
    | none =>
      rw [hb] at hcharge
      rw [show kv = w.ctx.kv from hcharge]
      refine Charged.refl.congr (fun v => ?_)
      rw [hsum v, StakingMsg.charge, hb]
      rfl
    | some x =>
      rw [hb] at hcharge
      refine (chargeBond_charged hcap hcharge).congr (fun v => ?_)
      rw [hsum v, StakingMsg.charge, hb]
      exact (Int.add_zero _).symm
  · intro v
    exact pathCharge_effectOf hdoc .evm .cosmos w.day hhandle v
  · intro e he
    obtain ⟨hok, hday, hmsg⟩ := entries_effectOf hdoc .evm w.day hhandle e he
    exact ⟨hok, hday, hmsg ▸ hP⟩

mutual

/-- One precompile call or frame: charged, failed or reverted. -/
theorem runEvmOp_ran {w w' : World S} (hdoc : S.Documented)
    (hcap : DailyCap w.ctx.kv cap) {op : EvmOp}
    (hP : ∀ m ∈ op.stakingMsgs, P m) (h : runEvmOp w op = .ok w') :
    ∃ new, Ran P cap w w' new (fun _ => 0) := by
  cases op with
  | call m =>
    unfold runEvmOp at h
    split at h
    · rename_i kv s' hcall
      injection h with h
      subst h
      exact ⟨_, call_ran hdoc hcap (hP m (List.mem_singleton.mpr rfl)) hcall⟩
    · injection h with h
      subst h
      exact ⟨[], Ran.refl⟩
    · nomatch h
  | frame ops reverts =>
    rw [runEvmOp, bind_eq_ok] at h
    obtain ⟨w₁, h₁, h⟩ := h
    split at h
    · injection h with h
      subst h
      exact ⟨[], Ran.refl⟩
    · injection h with h
      subst h
      exact runEvmOps_ran hdoc hcap hP h₁

theorem runEvmOps_ran {w w' : World S} (hdoc : S.Documented)
    (hcap : DailyCap w.ctx.kv cap) {ops : List EvmOp}
    (hP : ∀ m ∈ evmStakingMsgs ops, P m) (h : runEvmOps w ops = .ok w') :
    ∃ new, Ran P cap w w' new (fun _ => 0) := by
  cases ops with
  | nil =>
    injection h with h
    subst h
    exact ⟨[], Ran.refl⟩
  | cons op ops =>
    rw [runEvmOps, bind_eq_ok] at h
    obtain ⟨w₁, h₁, h₂⟩ := h
    obtain ⟨new₁, hran₁⟩ :=
      runEvmOp_ran hdoc hcap (fun m hm => hP m (List.mem_append_left _ hm)) h₁
    obtain ⟨new₂, hran₂⟩ := runEvmOps_ran hdoc (hran₁.dailyCap hcap)
      (fun m hm => hP m (List.mem_append_right _ hm)) h₂
    exact ⟨_, hran₁.trans hran₂⟩

end

mutual

/-- One message: what the guard reads in its tree is in the log, uncharged. -/
theorem runMsg_ran {w w' : World S} (hdoc : S.Documented)
    (hcap : DailyCap w.ctx.kv cap) {msg : Msg}
    (hP : ∀ m ∈ msg.stakingMsgs, P m) (h : runMsg w msg = .ok w') :
    ∃ new, Ran P cap w w' new (guardSum B msg.bonds) := by
  cases msg with
  | staking m =>
    obtain ⟨s', hs, h⟩ := bind_eq_ok.mp h
    injection h with h
    subst h
    refine ⟨effectOf S .cosmos w.day w.staking s' m, ?_, rfl, rfl, ?_, ?_⟩
    · refine Charged.refl.congr (fun v => ?_)
      exact (pathCharge_effectOf hdoc .cosmos .evm w.day hs v).symm
    · intro v
      exact pathCharge_effectOf hdoc .cosmos .cosmos w.day hs v
    · intro e he
      obtain ⟨hok, hday, hmsg⟩ := entries_effectOf hdoc .cosmos w.day hs e he
      exact ⟨hok, hday, hmsg ▸ hP m (List.mem_singleton.mpr rfl)⟩
  | exec inner => exact runMsgs_ran hdoc hcap hP h
  | execUndecodable err => nomatch h
  | ethereumTx ops => exact runEvmOps_ran hdoc hcap hP h
  | other tag =>
    injection h with h
    subst h
    exact ⟨[], Ran.refl⟩

/-- **The messages of a transaction.**  The precompile's are charged as they run; the guard's
    reading of the tree is what the post-handler has still to charge. -/
theorem runMsgs_ran {w w' : World S} (hdoc : S.Documented)
    (hcap : DailyCap w.ctx.kv cap) {msgs : List Msg}
    (hP : ∀ m ∈ stakingMsgsOf msgs, P m) (h : runMsgs w msgs = .ok w') :
    ∃ new, Ran P cap w w' new (guardSum B (bondsOf msgs)) := by
  cases msgs with
  | nil =>
    injection h with h
    subst h
    exact ⟨[], Ran.refl⟩
  | cons msg msgs =>
    rw [runMsgs, bind_eq_ok] at h
    obtain ⟨w₁, h₁, h₂⟩ := h
    obtain ⟨new₁, hran₁⟩ :=
      runMsg_ran hdoc hcap (fun m hm => hP m (List.mem_append_left _ hm)) h₁
    obtain ⟨new₂, hran₂⟩ := runMsgs_ran hdoc (hran₁.dailyCap hcap)
      (fun m hm => hP m (List.mem_append_right _ hm)) h₂
    exact ⟨_, (hran₁.trans hran₂).congr (fun v => (guardSum_append _ _ v).symm)⟩

end

/-- What the guard reads for `v` in the log. -/
def chargeSum (B : AddressCodec) (es : List Effect) (v : ValAddress) : Int :=
  (es.map fun e => e.charge B v).sum

/-- What the log bonded to `v`. -/
def bondedSum (es : List Effect) (v : ValAddress) : Int := (es.map fun e => e.bonded v).sum

theorem chargeSum_eq_paths (es : List Effect) (v : ValAddress) :
    chargeSum B es v = pathCharge B .evm es v + pathCharge B .cosmos es v := by
  induction es with
  | nil => rfl
  | cons e es ih =>
    have hone : ∀ p, pathCharge B p (e :: es) v
        = (if e.path = p then e.charge B v else 0) + pathCharge B p es v := fun _ => List.sum_cons
    have hall : chargeSum B (e :: es) v = e.charge B v + chargeSum B es v := List.sum_cons
    rw [hone, hone, hall, ih]
    cases hp : e.path <;> simp <;> omega

/-- A committed transaction took `w` to `w'` and logged `new`. -/
structure Delivered (P : StakingMsg → Prop) (cap : Int) (w w' : World S) (new : List Effect) :
    Prop where
  charged : Charged cap w.ctx.blockTime w.ctx.kv w'.ctx.kv (chargeSum B new)
  time : w'.ctx.blockTime = w.ctx.blockTime
  log : w'.log = w.log ++ new
  entries : ∀ e ∈ new, e.Ok B ∧ e.day = w.day ∧ P e.msg

/-- **A delivered transaction charges every message that took effect once**: the precompile's while
    they run, the others in the post-handler. -/
theorem runTx_delivered (hdoc : S.Documented) (hcap : DailyCap w.ctx.kv cap) {tx : Tx}
    (hP : ∀ m ∈ stakingMsgsOf tx.msgs, P m) (h : runTx .deliver w tx = .ok w') :
    ∃ new, Delivered P cap w w' new := by
  obtain ⟨-, -, h⟩ := bind_eq_ok.mp h
  rw [if_neg (by decide)] at h
  cases hmsgs : runTxMsgs w tx with
  | error fault =>
    rw [hmsgs] at h
    obtain ⟨kv, -, h⟩ := bind_eq_ok.mp h
    nomatch h
  | ok w₁ =>
    rw [hmsgs] at h
    obtain ⟨kv, hpost, h⟩ := bind_eq_ok.mp h
    injection h with h
    subst h
    obtain ⟨w₂, hrun, hfault⟩ := bind_eq_ok.mp hmsgs
    have hw : w₂ = w₁ := by
      cases hf : tx.msgFault with
      | none =>
        rw [hf] at hfault
        injection hfault
      | some fault =>
        rw [hf] at hfault
        nomatch hfault
    subst hw
    obtain ⟨new, hran⟩ := runMsgs_ran hdoc hcap hP hrun
    have hcharged := postHandle_charged (hran.dailyCap hcap) hpost
    rw [hran.time] at hcharged
    refine ⟨new, ?_, hran.time, hran.log, hran.entries⟩
    refine (hran.charged.trans hcharged).congr (fun v => ?_)
    rw [chargeSum_eq_paths, hran.cosmos]

/-! ## What the guard does not charge -/

/-- A bonding message names its validator by a string that is no hex address. -/
def StakingMsg.NotHex (m : StakingMsg) : Prop :=
  ∀ name amount, m.bond? = some (name, amount) → ¬ isHexAddress name

/-- The bonding messages among well-formed entries. -/
theorem Effect.Ok.bond {e : Effect} (h : e.Ok B) {name : String} {amount : MathInt}
    (hbond : e.msg.bond? = some (name, amount)) :
    B.stringToBytes name = .ok e.valoper ∧ 0 < amount.val ∧ e.added ≤ amount.val := by
  obtain ⟨name', amount', hinc, hva, hpos, hadded⟩ := h.increases
  rw [StakingMsg.increase?_of_bond? hbond] at hinc
  injection hinc with hinc
  injection hinc with hn ha
  subst hn ha
  exact ⟨hva, hpos, hadded⟩

/-- The guard reads what a message named in bech32 bonds. -/
theorem Effect.charge_eq_bonded {e : Effect} (h : e.Ok B) (hnot : e.msg.NotHex) (v : ValAddress) :
    e.charge B v = e.bonded v := by
  rw [Effect.charge, Effect.bonded, StakingMsg.charge]
  cases hbond : e.msg.bond? with
  | none => rfl
  | some x =>
    obtain ⟨name, amount⟩ := x
    have hbech := B.bech32_of_not_hex _ _ (hnot name amount hbond) (h.bond hbond).1
    show guardSum B [(name, amount)] v = if v = e.valoper then amount.val else 0
    rw [guardSum_cons, guardSum_nil, Int.add_zero, guardShare_of_bech32 hbech]

/-- The guard never reads more than a message bonds. -/
theorem Effect.charge_le_bonded {e : Effect} (h : e.Ok B) (v : ValAddress) :
    e.charge B v ≤ e.bonded v := by
  by_cases hnot : e.msg.NotHex
  · exact Int.le_of_eq (Effect.charge_eq_bonded h hnot v)
  · rw [Effect.charge, Effect.bonded, StakingMsg.charge]
    cases hbond : e.msg.bond? with
    | none => exact Int.le_refl _
    | some x =>
      obtain ⟨name, amount⟩ := x
      have hhex : isHexAddress name := by
        by_contra hc
        refine hnot (fun name' amount' hb => ?_)
        rw [hbond] at hb
        injection hb with hb
        injection hb with hn
        rwa [← hn]
      obtain ⟨err, herr⟩ := B.fails_of_hex hhex
      have hpos := (h.bond hbond).2.1
      show guardSum B [(name, amount)] v ≤ if v = e.valoper then amount.val else 0
      rw [guardSum_cons, guardSum_nil, guardShare_of_error herr]
      split <;> omega

/-- It reads nothing of a message named in hex. -/
theorem Effect.charge_lt_bonded {e : Effect} (h : e.Ok B) (hhex : ¬ e.msg.NotHex) :
    e.charge B e.valoper < e.bonded e.valoper := by
  have hle := Effect.charge_le_bonded h e.valoper
  unfold StakingMsg.NotHex at hhex
  push Not at hhex
  obtain ⟨name, amount, hbond, hname⟩ := hhex
  obtain ⟨err, herr⟩ := B.fails_of_hex hname
  have hpos := (h.bond hbond).2.1
  rw [Effect.charge, Effect.bonded, StakingMsg.charge, hbond]
  show guardSum B [(name, amount)] e.valoper < if e.valoper = e.valoper then amount.val else 0
  rw [guardSum_cons, guardSum_nil, guardShare_of_error herr, if_pos rfl]
  omega

/-- The log is charged in full exactly when no bonding message in it was named in hex. -/
theorem chargeSum_eq_bondedSum_iff {es : List Effect} (hok : ∀ e ∈ es, e.Ok B) :
    (∀ v, chargeSum B es v = bondedSum es v) ↔ ∀ e ∈ es, e.msg.NotHex := by
  constructor
  · intro heq e he
    by_contra hhex
    have hlt : chargeSum B es e.valoper < bondedSum es e.valoper :=
      List.sum_lt_sum _ _ (fun i hi => Effect.charge_le_bonded (hok i hi) e.valoper)
        ⟨e, he, Effect.charge_lt_bonded (hok e he) hhex⟩
    have := heq e.valoper
    omega
  · intro hnot v
    rw [chargeSum, bondedSum]
    congr 1
    exact List.map_congr_left (fun e he => Effect.charge_eq_bonded (hok e he) (hnot e he) v)

/-- The guard fails closed on a string: if `ValAddressFromBech32` rejects it, so that nothing is
    charged, then the staking module cannot resolve it either and rejects the message. -/
def FailsClosed (B : AddressCodec) (name : String) : Prop :=
  ∀ e, B.valAddressFromBech32 name = .error e → ∃ e', B.stringToBytes name = .error e'

/-! ### A sample chain -/

/-- The store of the default genesis. -/
def sampleStore : Store := Store.set (fun _ => none) paramsKey defaultParams.marshal

/-- The default genesis, with one validator of 1,000 GMB. -/
def sampleWorld : World (tableStaking sampleCodec) where
  ctx := ⟨sampleStore, ⟨1700000000, sampleTime_valid⟩⟩
  staking := Table.put (fun _ => none) sampleAddress
    ⟨.int (1000 * oneGmb) thousandGmb_fits, .int (1000 * oneGmb) thousandGmb_fits⟩
  log := []

theorem sampleStore_dailyCap : DailyCap sampleStore (50 * oneGmb) :=
  ⟨by decide, defaultParams.wireImage, getParams_set _ _, rfl⟩

/-- A transaction nothing outside the model objects to. -/
def plainTx (msgs : List Msg) : Tx := ⟨msgs, .ok (), none, none⟩

/-- A delegation of `gmb` GMB to the validator called `name`. -/
def delegateTo (name : String) (gmb : Int) (h : (gmb * oneGmb).natAbs < 2 ^ 256) : StakingMsg :=
  .delegate ⟨"cosmos1delegator", name, ⟨"agmb", .int (gmb * oneGmb) h⟩⟩

/-- **Where the guard fails closed.**  On a string exactly when it is no hex address; and a delivered
    transaction charges each validator all that the transaction bonded to it, on either path, exactly
    when none of the messages that took effect named its validator in hex. -/
theorem guard_fails_closed_iff (hdoc : S.Documented) :
    (∀ name, FailsClosed B name ↔ ¬ isHexAddress name) ∧
    ∀ (w w' : World S) (tx : Tx) (cap : Int) (new : List Effect), DailyCap w.ctx.kv cap →
      runTx .deliver w tx = .ok w' → w'.log = w.log ++ new →
      ((∀ v, (dailyBondUsed w'.ctx v).val = (dailyBondUsed w.ctx v).val + bondedSum new v) ↔
        ∀ e ∈ new, e.msg.NotHex) := by
  refine ⟨fun name => ⟨?_, ?_⟩, ?_⟩
  · intro hclosed hhex
    obtain ⟨e, he⟩ := B.fails_of_hex hhex
    obtain ⟨e', he'⟩ := hclosed e he
    rw [B.hex name hhex] at he'
    nomatch he'
  · intro hhex e he
    cases hs : B.stringToBytes name with
    | error e' => exact ⟨e', rfl⟩
    | ok va =>
      rw [B.bech32_of_not_hex name va hhex hs] at he
      nomatch he
  · intro w w' tx cap new hcap hrun hlog
    obtain ⟨new', hdel⟩ := runTx_delivered (P := fun _ => True) hdoc hcap (fun _ _ => trivial) hrun
    have hnew : new' = new := List.append_cancel_left (hdel.log.symm.trans hlog)
    subst hnew
    rw [← chargeSum_eq_bondedSum_iff (B := B) (fun e he => (hdel.entries e he).1)]
    have htoday : ∀ v, (dailyBondUsed w'.ctx v).val
        = (dailyBondUsed w.ctx v).val + chargeSum B new' v := by
      intro v
      rw [dailyBondUsed, hdel.time]
      exact hdel.charged.today v
    constructor
    · intro heq v
      have h₁ := htoday v
      have h₂ := heq v
      omega
    · intro heq v
      rw [htoday v, heq v]

theorem twentyGmb_fits : (20 * oneGmb).natAbs < 2 ^ 256 := by decide

/-- A delegation in bech32 and one in hex, in one transaction. -/
def mixedTx : Tx :=
  plainTx [.staking (delegateTo sampleName 20 twentyGmb_fits),
    .staking (delegateTo sampleHex 30 (by decide))]

theorem guard_fails_closed_iff_sample :
    (FailsClosed sampleCodec sampleName ↔ ¬ isHexAddress sampleName) ∧
    ∃ w' : World (tableStaking sampleCodec), runTx .deliver sampleWorld mixedTx = .ok w' ∧
      ((∀ v, (dailyBondUsed w'.ctx v).val
          = (dailyBondUsed sampleWorld.ctx v).val + bondedSum w'.log v) ↔
        ∀ e ∈ w'.log, e.msg.NotHex) := by
  obtain ⟨hname, hrun⟩ := guard_fails_closed_iff (tableStaking_documented sampleCodec)
  have hok : succeeds (runTx .deliver sampleWorld mixedTx) := by decide +kernel
  obtain ⟨w', hw'⟩ := hok
  exact ⟨hname sampleName, w', hw', hrun _ _ _ _ _ sampleStore_dailyCap hw' rfl⟩

/-- **A hex string bypasses the cap.**  The codec resolves it although `ValAddressFromBech32` does
    not, and a delegation of 60 GMB under a cap of 50 goes through with the counter still at 0. -/
theorem hex_delegation_bypasses_cap :
    ¬ FailsClosed sampleCodec sampleHex ∧
    (runTx .deliver sampleWorld
        (plainTx [.staking (delegateTo sampleHex 60 (by decide))])).map
      (fun w' => ((dailyBondUsed w'.ctx sampleAddress).val, bondedSum w'.log sampleAddress,
        (tableStaking sampleCodec).tokens w'.staking sampleAddress
          - (tableStaking sampleCodec).tokens sampleWorld.staking sampleAddress))
      = .ok (0, 60 * oneGmb, 60 * oneGmb) := by
  refine ⟨?_, by decide +kernel⟩
  intro hclosed
  obtain ⟨e, he⟩ := hclosed (.error "decoding bech32 failed") (by decide +kernel)
  have hok : sampleCodec.stringToBytes sampleHex = .ok sampleAddress := by decide +kernel
  rw [hok] at he
  nomatch he

end Gemba.Valgate
