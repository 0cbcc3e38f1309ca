/-
  The DAO as a machine: the Governor, the vote token, the Timelocks and the reserves on one chain.

  A label is one thing that happens, and a run is any interleaving of them:

  * an account outside the system calls in;
  * the batch under execution makes its next call (`act`);
  * the call on top of the stack returns (`finish`);
  * the chain moves on (`block`, `bank`).

  What runs inside a call is on the stack of frames.  A call that hands control to other code (a
  recipient of native GMB, a target of a batch) does not say what that code does: whoever may act
  acts, in the labels that follow, which is how re-entrancy is covered.  A call that reverts leaves no
  trace and is not in the run.

  A proposal's calls are bytes.  Functions whose arguments are words are decoded and run.  The
  functions on proposals and operations take arrays, and are not decoded: a `calling` frame records
  that `sender` is calling such a function of `target`, and the label that performs it may then name
  `sender` as its caller, once.  Calldata that matches nothing is a view function, or makes the whole
  transaction revert.

  `step_governor`, `step_timelocks` and `step_reserves` say what a step can do to each contract.
-/
import Gemba.Lib.Runs
import Gemba.Reserves.Reserve
import Gemba.Governance.GembaGovernor

namespace Gemba.Governance

open Gemba.Lib Gemba.Evm
open Gemba.Reserves (Reserve Send Exit ReserveFn Payment BaseReserve)

/-- Where the Governor and its token are. -/
structure Wiring where
  governor : Address
  token : Address
deriving DecidableEq, Repr

/-- A call under way. -/
inductive Frame where
  /-- The Timelock at `timelock` executes `op`, and has `rest` still to call. -/
  | batch (timelock : Address) (op : Operation) (rest : List Action)
  /-- The Governor executes `pid`, below the batch. -/
  | governing (pid : ProposalId)
  /-- `sender` calls the function `sel` of `target` with `value`. -/
  | calling (sender target : Address) (sel value : Nat)
  /-- The reserve at `reserve` sends native GMB. -/
  | sending (reserve : Address)
  /-- The token pays a withdrawal out. -/
  | withdrawing
deriving DecidableEq, Repr

/-- Native GMB that left a reserve, for `caller`, with what it left behind. -/
structure Outflow where
  reserve : Address
  dst : Address
  amount : Nat
  caller : Address
  time : Nat
  left : Nat
  exit : Exit
deriving DecidableEq, Repr

/-- The state of the chain. -/
structure World where
  block : Block
  governor : GembaGovernor
  token : GembaVotes
  timelocks : Address → Option Timelock
  reserves : Address → Option Reserve
  /-- Native balances. -/
  balance : Address → Nat
  frames : List Frame
  /-- Every payment out of a reserve so far, newest first. -/
  outflows : List Outflow

/-- One thing that happens. -/
inductive Label where
  | block (number timestamp : Nat)
  /-- Native GMB moves outside the EVM: the balance of `a` becomes `amount`. -/
  | bank (a : Address) (amount : Nat)
  | call (sender target : Address) (value : Nat) (data : Bytes)
  | propose (sender : Address) (calls : List Action) (description : Description)
  | castVote (account : Address) (pid : ProposalId) (support : Nat)
  | queue (sender : Address) (pid : ProposalId)
  | execute (sender : Address) (value : Nat) (pid : ProposalId)
  | cancel (sender : Address) (pid : ProposalId)
  | schedule (sender timelock : Address) (op : Operation) (delay : Nat)
  | cancelOperation (sender timelock : Address) (op : Operation)
  | executeOperation (sender timelock : Address) (value : Nat) (op : Operation)
  | delegateBySig (signer delegatee : Address) (nonce expiry : Nat)
  | permit (owner spender : Address) (value deadline : Nat)
  /-- The batch on top makes its next call. -/
  | act
  /-- The call on top returns. -/
  | finish
  /-- An upgraded reserve does anything. -/
  | rogue (reserve : Address) (after : BaseReserve) (dst : Address) (amount : Nat)
deriving DecidableEq, Repr

namespace World

/-- What the Governor reads. -/
def view (w : World) : View := ⟨w.block, w.token, w.timelocks⟩

def setTimelock (w : World) (a : Address) (t : Timelock) : World :=
  { w with timelocks := fun x => if x = a then some t else w.timelocks x }

def setReserve (w : World) (a : Address) (R : Reserve) : World :=
  { w with reserves := fun x => if x = a then some R else w.reserves x }

def push (w : World) (f : Frame) : World := { w with frames := f :: w.frames }

/-- Move native GMB. -/
def pay (w : World) (src dst : Address) (amount : Nat) : Call World := do
  failIf (w.balance src < amount) noData
  let after := fun a => if a = src then w.balance a - amount else w.balance a
  .ok { w with balance := fun a => if a = dst then after a + amount else after a }

section
variable (d : Wiring)

/-- Whether `a` is an account whose code is not here: an account of a person, another contract, an
    upgraded reserve.  Nobody calls from the zero address. -/
def isOutside (w : World) (a : Address) : Bool :=
  a ≠ 0 ∧ a ≠ d.governor ∧ a ≠ d.token ∧ (w.timelocks a).isNone ∧ ((w.reserves a).all Reserve.isUnknown)

/-- `a` receives native GMB with empty calldata: the token has no `receive`, and the Governor takes
    none while a Timelock executes for it. -/
def accepts (w : World) (a : Address) : Call PUnit := do
  failIf (a = d.governor ∧ w.governor.timelock ≠ d.governor) (err "GovernorDisabledDeposit")
  failIf (a = d.token) noData

/-- `dst.call{value: amount}("")` from `src`. -/
def send (w : World) (src dst : Address) (amount : Nat) : Call World := do
  w.accepts d dst
  w.pay src dst amount

/-! ## Calls with calldata -/

/-- A call to the token. -/
def callToken (w : World) (sender : Address) (value : Nat) (data : Bytes) : Call World :=
  match VotesFn.decode data with
  | none => .ok w
  | some fn => do
    let w ← w.pay sender d.token value
    let (token, out) ← w.token.call w.block sender value fn
    let w := { w with token }
    match out with
    | none => .ok w
    | some s => do
      let w ← w.send d d.token s.dst s.amount
      .ok (w.push .withdrawing)

/-- A call to the Timelock `t` at `a`. -/
def callTimelock (w : World) (a : Address) (t : Timelock) (sender : Address) (value : Nat)
    (data : Bytes) : Call World :=
  match TimelockFn.decode data with
  | none => .ok (w.push (.calling sender a (selector data) value))
  | some fn => do
    failIf (value ≠ 0) noData
    let t ← t.configure a sender fn
    .ok (w.setTimelock a t)

/-- A call to the reserve `R` at `a`. -/
def callReserve (w : World) (a : Address) (R : Reserve) (sender : Address) (value : Nat)
    (data : Bytes) : Call World :=
  match ReserveFn.decode data with
  | none => .ok w
  | some fn => do
    let w ← w.pay sender a value
    let (R, out) ← R.call w.block sender value (w.balance a) fn
    let w := w.setReserve a R
    match out with
    | none => .ok w
    | some p => do
      let left := w.balance a - p.send.amount
      let w ← w.send d a p.send.dst p.send.amount
      .ok ({ w with outflows := ⟨a, p.send.dst, p.send.amount, sender, w.block.timestamp, left, p.exit⟩
                                :: w.outflows }.push (.sending a))

/-- A call to anything but the Governor. -/
def callOther (w : World) (sender target : Address) (value : Nat) (data : Bytes) : Call World :=
  if target = d.token then w.callToken d sender value data
  else
    match w.timelocks target with
    | some t => w.callTimelock target t sender value data
    | none =>
      match w.reserves target with
      | some R => w.callReserve d target R sender value data
      | none => w.pay sender target value

/-- The call `relay` makes, from the Governor.  Calling itself, the Governor is not its own executor,
    so what is restricted to the executor reverts. -/
def callRelayed (w : World) (c : Action) : Call World :=
  if c.data = [] then w.send d d.governor c.target c.value
  else if c.target = d.governor then do
    failIf ((GovernorFn.decode c.data).isSome ∨ (GovernorFn.decodeRelay c.data).isSome)
      (.custom "GovernorOnlyExecutor" [d.governor.toNat])
    .ok (w.push (.calling d.governor d.governor (selector c.data) c.value))
  else w.callOther d d.governor c.target c.value c.data

/-- A call to the Governor. -/
def callGovernor (w : World) (sender : Address) (value : Nat) (data : Bytes) : Call World :=
  match GovernorFn.decode data with
  | some fn => do
    failIf (value ≠ 0) noData
    let g ← w.governor.onlyGovernance d.governor sender data
    let g ← g.configure w.view.clock fn
    .ok { w with governor := g }
  | none =>
    match GovernorFn.decodeRelay data with
    | some c => do
      let w ← w.pay sender d.governor value
      let g ← w.governor.onlyGovernance d.governor sender data
      { w with governor := g }.callRelayed d c
    | none => .ok (w.push (.calling sender d.governor (selector data) value))

/-- `target.call{value: value}(data)` from `sender`. -/
def call (w : World) (sender target : Address) (value : Nat) (data : Bytes) : Call World :=
  if data = [] then w.send d sender target value
  else if target = d.governor then w.callGovernor d sender value data
  else w.callOther d sender target value data

/-! ## Functions on proposals and operations -/

/-- `sender` may call a function of `target` with selector in `sels`: an account outside, or a
    contract whose call is on top of the stack, which it then uses up. -/
def authorize (w : World) (sender target : Address) (sels : List Nat) (value : Nat) : Call World :=
  if w.isOutside d sender then .ok w
  else
    match w.frames with
    | .calling s t sel v :: rest =>
      if s = sender ∧ t = target ∧ sel ∈ sels ∧ v = value then .ok { w with frames := rest }
      else .error .external
    | _ => .error .external

/-- The start of `executeBatch` on the Timelock at `a`. -/
def beginBatch (w : World) (sender a : Address) (op : Operation) : Call World := do
  let t ← GembaGovernor.timelockAt w.view a
  t.beforeCall sender w.block.timestamp op
  .ok (w.push (.batch a op op.calls))

/-- `Governor.execute` up to the first call of the batch. -/
def execute (w : World) (sender : Address) (value : Nat) (pid : ProposalId) : Call World := do
  let w ← w.authorize d sender d.governor GovernorFn.executeSelectors value
  let w ← w.pay sender d.governor value
  let g ← w.governor.beginExecute d.governor w.view pid
  let w ← { w with governor := g }.pay d.governor g.timelock value
  (w.push (.governing pid)).beginBatch d.governor g.timelock (GembaGovernor.operation d.governor pid)

/-- The call on top of the stack returns. -/
def finish (w : World) : Call World :=
  match w.frames with
  | .batch a op [] :: rest => do
    let t ← GembaGovernor.timelockAt w.view a
    let t ← t.afterCall w.block.timestamp op
    .ok { w.setTimelock a t with frames := rest }
  | .governing pid :: rest =>
    .ok { w with governor := w.governor.endExecute d.governor pid, frames := rest }
  | .sending a :: rest =>
    match w.reserves a with
    | some R => .ok { w.setReserve a R.finishSend with frames := rest }
    | none => .error .external
  | .withdrawing :: rest => .ok { w with token := w.token.finishSend, frames := rest }
  | .calling .. :: rest => .ok { w with frames := rest }
  | _ => .error .external

/-- The batch on top makes its next call. -/
def act (w : World) : Call World :=
  match w.frames with
  | .batch a op (c :: rest) :: below =>
    { w with frames := .batch a op rest :: below }.call d a c.target c.value c.data
  | _ => .error .external

/-- The next block: only between transactions, and time does not go back. -/
def nextBlock (w : World) (number timestamp : Nat) : Call World := do
  failIf (w.frames ≠ []) .external
  failIf (number ≤ w.block.number ∨ 2 ^ 48 ≤ number ∨ timestamp < w.block.timestamp) .external
  .ok { w with block := ⟨number, timestamp⟩ }

/-- One step. -/
def step (w : World) : Label → Call World
  | .block number timestamp => w.nextBlock number timestamp
  | .bank a amount => do
    failIf (w.isOutside d a = false ∧ amount < w.balance a) .external
    .ok { w with balance := fun x => if x = a then amount else w.balance x }
  | .call sender target value data => do
    failIf (w.isOutside d sender = false) .external
    w.call d sender target value data
  | .propose sender calls description => do
    let w ← w.authorize d sender d.governor GovernorFn.proposeSelectors 0
    let g ← w.governor.propose d.governor w.view sender calls description
    .ok { w with governor := g }
  | .castVote account pid support => do
    let w ← w.authorize d account d.governor GovernorFn.voteSelectors 0
    let g ← w.governor.castVote w.view account pid support
    .ok { w with governor := g }
  | .queue sender pid => do
    let w ← w.authorize d sender d.governor GovernorFn.queueSelectors 0
    let (g, t) ← w.governor.queue d.governor w.view pid
    .ok ({ w with governor := g }.setTimelock w.governor.timelock t)
  | .execute sender value pid => w.execute d sender value pid
  | .cancel sender pid => do
    let w ← w.authorize d sender d.governor GovernorFn.cancelSelectors 0
    let (g, t) ← w.governor.cancel d.governor w.view sender pid
    match t with
    | none => .ok { w with governor := g }
    | some t => .ok ({ w with governor := g }.setTimelock w.governor.timelock t)
  | .schedule sender a op delay => do
    let w ← w.authorize d sender a TimelockFn.operationSelectors 0
    let t ← GembaGovernor.timelockAt w.view a
    let t ← t.schedule sender w.block.timestamp op delay
    .ok (w.setTimelock a t)
  | .cancelOperation sender a op => do
    let w ← w.authorize d sender a TimelockFn.operationSelectors 0
    let t ← GembaGovernor.timelockAt w.view a
    let t ← t.cancel sender w.block.timestamp op
    .ok (w.setTimelock a t)
  | .executeOperation sender a value op => do
    let w ← w.authorize d sender a TimelockFn.operationSelectors value
    let w ← w.pay sender a value
    w.beginBatch sender a op
  | .delegateBySig signer delegatee nonce expiry => do
    let token ← w.token.delegateBySig w.block signer delegatee nonce expiry
    .ok { w with token }
  | .permit owner spender value deadline => do
    let token ← w.token.permit w.block owner spender value deadline
    .ok { w with token }
  | .act => w.act d
  | .finish => w.finish d
  | .rogue a after dst amount =>
    match w.reserves a with
    | some (.unknown _) => do
      let left := w.balance a - amount
      let w ← w.pay a dst amount
      .ok { w.setReserve a (.unknown after) with
            outflows := ⟨a, dst, amount, a, w.block.timestamp, left, .unknown⟩ :: w.outflows }
    | _ => .error .external

end
end World
end Gemba.Governance
