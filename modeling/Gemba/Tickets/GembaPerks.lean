/-
  `GembaPerks`: bonuses in native GMB and perk tickets for the employees of an institution.

  `payBonusBatch` pays down a list and does not stop at an entry it cannot pay.  Each recipient is
  called with little gas; it may refuse, and before it accepts it may call the contract again.  With
  that gas it can send no native GMB, so its calls come without value; the guarded functions revert,
  and what is left is `receive`, `setMaxBonus` and the roles, for those who have them.

  What the batch is for is said without any of that in `settle`: an entry is paid or it is not, and the
  purse shrinks by what was paid.  `payEach_settles` is the refinement, by induction on the lists with
  the purse generalized; the rest (`payBonusBatch_settles`) is about the purse alone.

  The role events of `AccessControl` are left out of the log.
-/
import Mathlib.Algebra.Ring.Nat
import Gemba.Evm.AccessControl

namespace Gemba.Tickets

open Gemba.Lib Gemba.Evm

def DISTRIBUTOR_ROLE : Nat := 0xfbd454f36a7e1a388bd6fc3ab10d434aa4578f811acbbcf33afb1c697486313c

/-- The storage of the perks contract. -/
structure GembaPerks extends AccessControl where
  /-- The reentrancy guard is entered. -/
  entered : Bool
  ticketing : Address
  maxBonus : Nat

namespace GembaPerks

inductive Log where
  | bonusPaid (employee : Address) (amount : Nat) (by' : Address)
  | bonusFailed (employee : Address) (amount : Nat) (by' : Address)
  | maxBonusSet (maxBonus : Nat)
  | funded (src : Address) (amount : Nat)
deriving DecidableEq, Repr

/-- A call the contract makes to another one. -/
inductive Out where
  /-- `to.call{value: amount}("")`. -/
  | send (dst : Address) (amount : Nat)
  /-- `ticketing.issue(to, eventId, amount)`. -/
  | issue (dst : Address) (eventId amount : Nat)
deriving DecidableEq, Repr

/-- `constructor(admin, ticketing_, maxBonus_)`. -/
def construct (admin ticketing : Address) (maxBonus : Nat) : Call GembaPerks := do
  failIf (admin = 0 ∨ ticketing = 0) (err "ZeroAddress")
  .ok { toAccessControl := AccessControl.empty.setRole AccessControl.DEFAULT_ADMIN_ROLE admin true
        entered := false, ticketing, maxBonus }

def nonReentrant (p : GembaPerks) : Call PUnit :=
  failIf p.entered (err "ReentrancyGuardReentrantCall")

/-- `payBonus(employee, amount)`, up to the call of `_payBonus`. -/
def payBonus (p : GembaPerks) (sender employee : Address) (amount balance : Nat) :
    Call (GembaPerks × Out) := do
  p.onlyRole DISTRIBUTOR_ROLE sender
  p.nonReentrant
  failIf (employee = 0) (err "ZeroAddress")
  failIf (amount = 0) (err "ZeroAmount")
  failIf (amount > p.maxBonus) (err "AboveMaxBonus")
  failIf (balance < amount) (err "InsufficientBalance")
  .ok ({ p with entered := true }, .send employee amount)

/-- `payBonusBatch(employees, amounts)`, up to the loop. -/
def openBatch (p : GembaPerks) (sender : Address) (employees : List Address) (amounts : List Nat) :
    Call GembaPerks := do
  p.onlyRole DISTRIBUTOR_ROLE sender
  p.nonReentrant
  failIf (employees.length ≠ amounts.length) (err "LengthMismatch")
  .ok { p with entered := true }

/-- `grantPerk(employee, eventId)`, up to the call. -/
def grantPerk (p : GembaPerks) (sender employee : Address) (eventId : Nat) :
    Call (GembaPerks × Out) := do
  p.onlyRole DISTRIBUTOR_ROLE sender
  p.nonReentrant
  failIf (employee = 0) (err "ZeroAddress")
  .ok ({ p with entered := true }, .issue employee eventId 1)

/-- `setMaxBonus(newMax)`. -/
def setMaxBonus (p : GembaPerks) (sender : Address) (newMax : Nat) : Call GembaPerks := do
  p.onlyRole AccessControl.DEFAULT_ADMIN_ROLE sender
  .ok { p with maxBonus := newMax }

/-- `withdraw(to, amount)`, up to the call. -/
def withdraw (p : GembaPerks) (sender dst : Address) (amount balance : Nat) :
    Call (GembaPerks × Out) := do
  p.onlyRole AccessControl.DEFAULT_ADMIN_ROLE sender
  p.nonReentrant
  failIf (dst = 0) (err "ZeroAddress")
  failIf (amount = 0) (err "ZeroAmount")
  failIf (balance < amount) (err "InsufficientBalance")
  .ok ({ p with entered := true }, .send dst amount)

/-! ## A batch, and what its recipients do meanwhile -/

/-- The contract, its native balance, and its log. -/
structure World where
  perks : GembaPerks
  balance : Nat
  log : List Log

/-- The functions a recipient may call, without value. -/
inductive Fn where
  | payBonus (employee : Address) (amount : Nat)
  | payBonusBatch (employees : List Address) (amounts : List Nat)
  | grantPerk (employee : Address) (eventId : Nat)
  | setMaxBonus (newMax : Nat)
  | withdraw (dst : Address) (amount : Nat)
  | role (fn : RoleFn)
  | receive
deriving DecidableEq, Repr

/-- A call during a batch, up to the call it would make itself; the guard lets none get so far. -/
def World.reenter (w : World) (sender : Address) : Fn → Call World
  | .payBonus employee amount => do
    let (perks, _) ← w.perks.payBonus sender employee amount w.balance
    .ok { w with perks }
  | .payBonusBatch employees amounts => do
    let perks ← w.perks.openBatch sender employees amounts
    .ok { w with perks }
  | .grantPerk employee eventId => do
    let (perks, _) ← w.perks.grantPerk sender employee eventId
    .ok { w with perks }
  | .setMaxBonus newMax => do
    let perks ← w.perks.setMaxBonus sender newMax
    .ok { w with perks, log := w.log ++ [.maxBonusSet newMax] }
  | .withdraw dst amount => do
    let (perks, _) ← w.perks.withdraw sender dst amount w.balance
    .ok { w with perks }
  | .role fn => do
    let access ← w.perks.toAccessControl.change sender fn
    .ok { w with perks := { w.perks with toAccessControl := access } }
  | .receive => .ok { w with log := w.log ++ [.funded sender 0] }

/-- What a recipient does with a bonus: whether it takes it, and the calls it makes, each with its
    `msg.sender`.  A recipient that is no contract makes none. -/
structure Reply where
  succeeds : Bool
  calls : List (Address × Fn)

/-- A call made by a recipient; one that reverts leaves nothing. -/
def World.called (w : World) (c : Address × Fn) : World := (w.reenter c.1 c.2).toOption.getD w

/-- `payable(employee).call{value: amount, gas: BONUS_GAS_STIPEND}("")`, of the contract at `self`.
    What the contract sends to itself is `receive`d. -/
def World.callRecipient (self : Address) (w : World) (employee : Address) (amount : Nat)
    (reply : Reply) : Bool × World :=
  if reply.succeeds = false then (false, w)
  else if employee = self then (true, { w with log := w.log ++ [.funded self amount] })
  else (true, reply.calls.foldl World.called { w with balance := w.balance - amount })

/-- `_tryPayBonus(employee, amount)`. -/
def World.tryPayBonus (self sender : Address) (w : World) (employee : Address) (amount : Nat)
    (reply : Reply) : Bool × World :=
  if employee = 0 ∨ amount = 0 ∨ amount > w.perks.maxBonus ∨ w.balance < amount then
    (false, { w with log := w.log ++ [.bonusFailed employee amount sender] })
  else
    let (ok, w) := w.callRecipient self employee amount reply
    if ok = false then (false, { w with log := w.log ++ [.bonusFailed employee amount sender] })
    else (true, { w with log := w.log ++ [.bonusPaid employee amount sender] })

/-- The loop of `payBonusBatch`; the recipient of entry `i` replies `replies i`. -/
def World.payEach (self sender : Address) (w : World) :
    List Address → List Nat → (Nat → Reply) → World
  | employee :: employees, amount :: amounts, replies =>
    World.payEach self sender (w.tryPayBonus self sender employee amount (replies 0)).2 employees amounts
      fun i => replies (i + 1)
  | _, _, _ => w

/-- `payBonusBatch(employees, amounts)`. -/
def World.payBonusBatch (self sender : Address) (w : World) (employees : List Address)
    (amounts : List Nat) (replies : Nat → Reply) : Call World := do
  let perks ← w.perks.openBatch sender employees amounts
  let w := { w with perks }.payEach self sender employees amounts replies
  .ok { w with perks := { w.perks with entered := false } }

/-! ## What a batch is for -/

/-- An entry of a batch, with the reply of its recipient. -/
structure Entry where
  employee : Address
  amount : Nat
  reply : Reply

/-- The entries of a batch. -/
def entries : List Address → List Nat → (Nat → Reply) → List Entry
  | employee :: employees, amount :: amounts, replies =>
    ⟨employee, amount, replies 0⟩ :: entries employees amounts fun i => replies (i + 1)
  | _, _, _ => []

/-- What the outcome of an entry depends on: the balance left, and the storage with `maxBonus`. -/
structure Purse where
  balance : Nat
  perks : GembaPerks

/-- What the recipients' calls make of the storage. -/
def governed (p : GembaPerks) (calls : List (Address × Fn)) : GembaPerks :=
  (calls.foldl World.called ⟨p, 0, []⟩).perks

/-- **An entry is paid** iff it names somebody, its amount is within the maximum and the balance left,
    and its recipient takes it. -/
def Entry.Paid (x : Entry) (c : Purse) : Prop :=
  x.employee ≠ 0 ∧ 0 < x.amount ∧ x.amount ≤ c.perks.maxBonus ∧ x.amount ≤ c.balance ∧
    x.reply.succeeds = true

instance (x : Entry) (c : Purse) : Decidable (x.Paid c) := inferInstanceAs (Decidable (_ ∧ _))

/-- The purse after an entry. -/
def Entry.settle (self : Address) (c : Purse) (x : Entry) : Purse :=
  if x.Paid c then
    if x.employee = self then c
    else ⟨c.balance - x.amount, governed c.perks x.reply.calls⟩
  else c

/-- The purse after entries, left to right. -/
def settle (self : Address) (c : Purse) (xs : List Entry) : Purse := xs.foldl (Entry.settle self) c

/-- The entries, each with whether it is paid. -/
def outcomes (self : Address) : Purse → List Entry → List (Entry × Bool)
  | _, [] => []
  | c, x :: xs => (x, decide (x.Paid c)) :: outcomes self (x.settle self c) xs

/-- The event of an entry. -/
def outcomeLog (sender : Address) : Entry × Bool → Log
  | (x, true) => .bonusPaid x.employee x.amount sender
  | (x, false) => .bonusFailed x.employee x.amount sender

/-- What was paid to others than the contract. -/
def paidOut (self : Address) (outs : List (Entry × Bool)) : Nat :=
  ((outs.filter fun o => o.2 && decide (o.1.employee ≠ self)).map fun o => o.1.amount).sum

/-- The event is one of the two of an entry. -/
def Log.isBonus : Log → Bool
  | .bonusPaid _ _ _ => true
  | .bonusFailed _ _ _ => true
  | _ => false

/-- The purse a batch starts with. -/
def World.purse (w : World) : Purse := ⟨w.balance, { w.perks with entered := true }⟩

/-! ## What a recipient can do -/

section
variable {p : GembaPerks} {sender employee self : Address} {w : World} {amount : Nat} {reply : Reply}

/-- A guarded function does not get past its guard during a batch, whoever calls it. -/
theorem guarded_closed {α : Type} {role : Nat} {f : PUnit → Call α} {x : α}
    (hentered : p.entered = true) :
    (p.onlyRole role sender >>= fun _ => p.nonReentrant >>= f) ≠ .ok x := by
  intro h
  obtain ⟨-, h⟩ := failIf_bind_eq_ok.mp h
  obtain ⟨hopen, -⟩ := failIf_bind_eq_ok.mp h
  exact hopen hentered

/-- **What a call during a batch does**: it moves the storage without opening the guard, and adds to
    the log what is no bonus.  The balance it finds does not matter, and stays. -/
structure Reentered (p p' : GembaPerks) (extra : List Log) (calls : List (Address × Fn)) : Prop where
  entered : p'.entered = true
  log : extra.filter Log.isBonus = []
  maxBonus : (∀ c ∈ calls, ∀ newMax, c.2 ≠ .setMaxBonus newMax) → p'.maxBonus = p.maxBonus

theorem called_of_ok {w' : World} {c : Address × Fn} (h : w.reenter c.1 c.2 = .ok w') :
    w.called c = w' := by
  unfold World.called
  rw [h]
  rfl

/-- A call that reverts, whatever the balance and the log. -/
theorem called_reverts {c : Address × Fn} (hentered : p.entered = true)
    (h : ∀ balance log w', World.reenter ⟨p, balance, log⟩ c.1 c.2 ≠ .ok w') :
    ∃ p' extra, (∀ balance log, World.called ⟨p, balance, log⟩ c = ⟨p', balance, log ++ extra⟩) ∧
      Reentered p p' extra [c] := by
  refine ⟨p, [], fun balance log => ?_, hentered, rfl, fun _ => rfl⟩
  unfold World.called
  cases hcall : World.reenter ⟨p, balance, log⟩ c.1 c.2 with
  | ok w' => exact absurd hcall (h balance log w')
  | error e =>
    rw [List.append_nil]
    rfl

theorem called_spec (hentered : p.entered = true) (c : Address × Fn) :
    ∃ p' extra, (∀ balance log, World.called ⟨p, balance, log⟩ c = ⟨p', balance, log ++ extra⟩) ∧
      Reentered p p' extra [c] := by
  obtain ⟨sender, fn⟩ := c
  cases fn with
  | payBonus employee amount =>
    refine called_reverts hentered fun balance log w' h => ?_
    obtain ⟨_, hpast, -⟩ := bind_eq_ok.mp h
    exact guarded_closed hentered hpast
  | payBonusBatch employees amounts =>
    refine called_reverts hentered fun balance log w' h => ?_
    obtain ⟨_, hpast, -⟩ := bind_eq_ok.mp h
    exact guarded_closed hentered hpast
  | grantPerk employee eventId =>
    refine called_reverts hentered fun balance log w' h => ?_
    obtain ⟨_, hpast, -⟩ := bind_eq_ok.mp h
    exact guarded_closed hentered hpast
  | withdraw dst amount =>
    refine called_reverts hentered fun balance log w' h => ?_
    obtain ⟨_, hpast, -⟩ := bind_eq_ok.mp h
    exact guarded_closed hentered hpast
  | receive => exact ⟨p, [.funded sender 0], fun _ _ => rfl, hentered, rfl, fun _ => rfl⟩
  | setMaxBonus newMax =>
    cases hset : p.setMaxBonus sender newMax with
    | error e =>
      refine called_reverts hentered fun balance log w' h => ?_
      obtain ⟨_, hok, -⟩ := bind_eq_ok.mp h
      rw [hset] at hok
      nomatch hok
    | ok p' =>
      have hp' := hset
      obtain ⟨-, hp'⟩ := failIf_bind_eq_ok.mp hp'
      injection hp' with hp'
      subst hp'
      refine ⟨{ p with maxBonus := newMax }, [.maxBonusSet newMax],
        fun balance log => called_of_ok ?_, hentered, rfl, fun hkept => ?_⟩
      · exact bind_eq_ok.mpr ⟨_, hset, rfl⟩
      · exact absurd rfl (hkept _ List.mem_cons_self newMax)
  | role fn =>
    cases hrole : p.toAccessControl.change sender fn with
    | error e =>
      refine called_reverts hentered fun balance log w' h => ?_
      obtain ⟨_, hok, -⟩ := bind_eq_ok.mp h
      rw [hrole] at hok
      nomatch hok
    | ok access =>
      refine ⟨{ p with toAccessControl := access }, [], fun balance log => called_of_ok ?_, hentered, rfl,
        fun _ => rfl⟩
      rw [List.append_nil]
      exact bind_eq_ok.mpr ⟨_, hrole, rfl⟩

/-- **All the calls of a recipient.** -/
theorem calls_spec (hentered : p.entered = true) (calls : List (Address × Fn)) :
    ∃ p' extra, (∀ balance log,
        calls.foldl World.called ⟨p, balance, log⟩ = ⟨p', balance, log ++ extra⟩) ∧
      Reentered p p' extra calls := by
  induction calls generalizing p with
  | nil =>
    refine ⟨p, [], fun balance log => ?_, hentered, rfl, fun _ => rfl⟩
    rw [List.append_nil]
    rfl
  | cons c calls ih =>
    obtain ⟨p₁, extra₁, hone, hc⟩ := called_spec hentered c
    obtain ⟨p₂, extra₂, hrest, hcalls⟩ := ih hc.entered
    refine ⟨p₂, extra₁ ++ extra₂, fun balance log => ?_, hcalls.entered, ?_, fun hkept => ?_⟩
    · rw [List.foldl_cons, hone, hrest, List.append_assoc]
    · rw [List.filter_append, hc.log, hcalls.log]
      rfl
    · rw [hcalls.maxBonus fun d hd => hkept d (List.mem_cons_of_mem c hd),
        hc.maxBonus fun d hd => hkept d (by rw [List.mem_singleton.mp hd]; exact List.mem_cons_self)]

/-- The storage the calls leave, as the specification has it. -/
theorem governed_spec (hentered : p.entered = true) (calls : List (Address × Fn)) :
    ∃ extra, (∀ balance log,
        calls.foldl World.called ⟨p, balance, log⟩ = ⟨governed p calls, balance, log ++ extra⟩) ∧
      Reentered p (governed p calls) extra calls := by
  obtain ⟨p', extra, hcalls, hspec⟩ := calls_spec hentered calls
  have hgoverned : governed p calls = p' := by
    unfold governed
    rw [hcalls]
  rw [hgoverned]
  exact ⟨extra, hcalls, hspec⟩

end

/-! ## The refinement -/

section
variable {self sender : Address} {w : World} {c : Purse} {x : Entry} {xs : List Entry}

theorem settle_entered (h : c.perks.entered = true) (x : Entry) :
    (x.settle self c).perks.entered = true := by
  unfold Entry.settle
  split
  · split
    · exact h
    · obtain ⟨extra, -, hspec⟩ := governed_spec h x.reply.calls
      exact hspec.entered
  · exact h

/-- The world after entries is as the specification has it: what is left, and one event for each. -/
structure Settled (perks sender : Address) (w w' : World) (xs : List Entry) : Prop where
  purse : (⟨w'.balance, w'.perks⟩ : Purse) = settle perks ⟨w.balance, w.perks⟩ xs
  log : w'.log.filter Log.isBonus = w.log.filter Log.isBonus
    ++ (outcomes perks ⟨w.balance, w.perks⟩ xs).map (outcomeLog sender)

/-- **One entry refines its specification.** -/
theorem tryPayBonus_settles (hentered : w.perks.entered = true) (x : Entry) :
    Settled self sender w (w.tryPayBonus self sender x.employee x.amount x.reply).2 [x] := by
  suffices h : ∀ w', (w.tryPayBonus self sender x.employee x.amount x.reply).2 = w' →
      (⟨w'.balance, w'.perks⟩ : Purse) = x.settle self ⟨w.balance, w.perks⟩ ∧
      w'.log.filter Log.isBonus = w.log.filter Log.isBonus
        ++ [outcomeLog sender (x, decide (x.Paid ⟨w.balance, w.perks⟩))] from
    ⟨(h _ rfl).1, (h _ rfl).2⟩
  rintro w' rfl
  obtain ⟨p, balance, log⟩ := w
  dsimp only at hentered ⊢
  unfold World.tryPayBonus World.callRecipient
  dsimp only
  by_cases hbad : x.employee = 0 ∨ x.amount = 0 ∨ x.amount > p.maxBonus ∨ balance < x.amount
  -- the checks fail
  · have hno : ¬ x.Paid ⟨balance, p⟩ := by
      rintro ⟨hemployee, hamount, hmax, hbalance, -⟩
      dsimp only at hmax hbalance
      rcases hbad with h | h | h | h
      · exact hemployee h
      · omega
      · omega
      · omega
    rw [if_pos hbad, decide_eq_false hno]
    unfold Entry.settle
    rw [if_neg hno, List.filter_append]
    exact ⟨rfl, rfl⟩
  rw [if_neg hbad]
  by_cases hrefuses : x.reply.succeeds = false
  -- the recipient refuses, and what it did is undone
  · have hno : ¬ x.Paid ⟨balance, p⟩ := fun hpaid => by
      rw [hpaid.2.2.2.2] at hrefuses
      nomatch hrefuses
    rw [if_pos hrefuses, decide_eq_false hno]
    unfold Entry.settle
    rw [if_neg hno]
    dsimp only
    rw [if_pos rfl, List.filter_append]
    exact ⟨rfl, rfl⟩
  · have hpaid : x.Paid ⟨balance, p⟩ := by
      refine ⟨fun h => hbad (.inl h), ?_, ?_, ?_, by rwa [Bool.not_eq_false] at hrefuses⟩
      · omega
      · dsimp only
        omega
      · dsimp only
        omega
    rw [if_neg hrefuses, decide_eq_true hpaid]
    unfold Entry.settle
    rw [if_pos hpaid]
    by_cases hself : x.employee = self
    · rw [if_pos hself, if_pos hself]
      dsimp only
      rw [if_neg Bool.noConfusion, List.filter_append, List.filter_append]
      exact ⟨rfl, by rw [List.append_assoc]; rfl⟩
    · obtain ⟨extra, hcalls, hspec⟩ := governed_spec hentered x.reply.calls
      rw [if_neg hself, if_neg hself, hcalls]
      dsimp only
      rw [if_neg Bool.noConfusion, List.filter_append, List.filter_append, hspec.log, List.append_nil]
      exact ⟨rfl, rfl⟩

/-- An entry, and then the others. -/
theorem Settled.cons {w₁ w₂ : World} (hone : Settled self sender w w₁ [x])
    (hrest : Settled self sender w₁ w₂ xs) : Settled self sender w w₂ (x :: xs) := by
  have hpurse : (⟨w₁.balance, w₁.perks⟩ : Purse) = x.settle self ⟨w.balance, w.perks⟩ := hone.purse
  refine ⟨hrest.purse.trans ?_, hrest.log.trans ?_⟩
  · rw [hpurse]
    rfl
  · rw [hone.log, hpurse, List.append_assoc]
    rfl

/-- **The loop refines the fold.** -/
theorem payEach_settles {employees : List Address} {amounts : List Nat} {replies : Nat → Reply}
    (hentered : w.perks.entered = true) :
    Settled self sender w (w.payEach self sender employees amounts replies)
      (entries employees amounts replies) := by
  induction employees generalizing amounts replies w with
  | nil => exact ⟨rfl, (List.append_nil _).symm⟩
  | cons employee employees ih =>
    cases amounts with
    | nil => exact ⟨rfl, (List.append_nil _).symm⟩
    | cons amount amounts =>
      have hone : Settled self sender w (w.tryPayBonus self sender employee amount (replies 0)).2
          [⟨employee, amount, replies 0⟩] := tryPayBonus_settles hentered ⟨employee, amount, replies 0⟩
      refine hone.cons (ih ?_)
      have hstill : (Entry.settle self ⟨w.balance, w.perks⟩ ⟨employee, amount, replies 0⟩).perks.entered
          = true := settle_entered hentered ⟨employee, amount, replies 0⟩
      have hpurse : (⟨_, _⟩ : Purse) = Entry.settle self ⟨w.balance, w.perks⟩
        ⟨employee, amount, replies 0⟩ := hone.purse
      rw [← hpurse] at hstill
      exact hstill

/-! ## The purse -/

/-- What is paid to others leaves the balance, and nothing else does. -/
theorem settle_paidOut (self : Address) (c : Purse) (xs : List Entry) :
    (settle self c xs).balance + paidOut self (outcomes self c xs) = c.balance := by
  induction xs generalizing c with
  | nil => rfl
  | cons x xs ih =>
    have hrest := ih (x.settle self c)
    have hone : (x.settle self c).balance
        + (if x.Paid c ∧ x.employee ≠ self then x.amount else 0) = c.balance := by
      unfold Entry.settle
      by_cases hpaid : x.Paid c
      · rw [if_pos hpaid]
        by_cases hself : x.employee = self
        · rw [if_pos hself, if_neg fun h => h.2 hself]
          rfl
        · rw [if_neg hself, if_pos ⟨hpaid, hself⟩]
          have := hpaid.2.2.2.1
          dsimp only
          omega
      · rw [if_neg hpaid, if_neg fun h => hpaid h.1]
        rfl
    have hsplit : paidOut self (outcomes self c (x :: xs))
        = (if x.Paid c ∧ x.employee ≠ self then x.amount else 0)
          + paidOut self (outcomes self (x.settle self c) xs) := by
      unfold paidOut
      rw [outcomes, List.filter_cons]
      by_cases hout : x.Paid c ∧ x.employee ≠ self
      · rw [if_pos hout, if_pos (by rw [decide_eq_true hout.1, decide_eq_true hout.2]; rfl),
          List.map_cons, List.sum_cons]
      · rw [if_neg hout, Nat.zero_add, if_neg]
        rw [Bool.and_eq_true, decide_eq_true_eq, decide_eq_true_eq]
        exact hout
    show (settle self (x.settle self c) xs).balance + _ = _
    rw [hsplit]
    omega

theorem settle_append (c : Purse) (pre post : List Entry) :
    settle self c (pre ++ post) = settle self (settle self c pre) post := List.foldl_append

theorem outcomes_append (c : Purse) (pre post : List Entry) :
    outcomes self c (pre ++ post) = outcomes self c pre ++ outcomes self (settle self c pre) post := by
  induction pre generalizing c with
  | nil => rfl
  | cons x pre ih => exact congrArg _ (ih (x.settle self c))

theorem outcomes_entries (c : Purse) (xs : List Entry) : (outcomes self c xs).map Prod.fst = xs := by
  induction xs generalizing c with
  | nil => rfl
  | cons x xs ih => exact congrArg _ (ih (x.settle self c))

/-- **A failing entry might as well not be there.** -/
theorem failing_erased {pre post : List Entry} {c : Purse} (h : ¬ x.Paid (settle self c pre)) :
    settle self c (pre ++ [x]) = settle self c pre ∧
    outcomes self c (pre ++ post) = (outcomes self c (pre ++ x :: post)).eraseIdx pre.length := by
  have hsame : x.settle self (settle self c pre) = settle self c pre := if_neg h
  have hlen : (outcomes self c pre).length = pre.length := by
    rw [← List.length_map Prod.fst, outcomes_entries]
  constructor
  · rw [settle_append]
    exact hsame
  · rw [outcomes_append, outcomes_append, outcomes, hsame, ← hlen,
      List.eraseIdx_append_of_length_le (Nat.le_refl _), Nat.sub_self, List.eraseIdx_cons_zero]

/-- Where no recipient moves the maximum, it is the same for all the entries. -/
theorem settle_maxBonus (hentered : c.perks.entered = true)
    (hkept : ∀ x ∈ xs, ∀ call ∈ x.reply.calls, ∀ newMax, call.2 ≠ .setMaxBonus newMax) :
    (settle self c xs).perks.maxBonus = c.perks.maxBonus := by
  induction xs generalizing c with
  | nil => rfl
  | cons x xs ih =>
    have hone : (x.settle self c).perks.maxBonus = c.perks.maxBonus := by
      unfold Entry.settle
      split
      · split
        · rfl
        · obtain ⟨extra, -, hspec⟩ := governed_spec hentered x.reply.calls
          exact hspec.maxBonus (hkept x List.mem_cons_self)
      · rfl
    rw [← hone]
    exact ih (settle_entered hentered x) fun y hy => hkept y (List.mem_cons_of_mem x hy)

theorem entries_zip {employees : List Address} {amounts : List Nat} {replies : Nat → Reply} :
    (entries employees amounts replies).map (fun x => (x.employee, x.amount))
      = employees.zip amounts := by
  induction employees generalizing amounts replies with
  | nil => rfl
  | cons employee employees ih =>
    cases amounts with
    | nil => rfl
    | cons amount amounts => exact congrArg _ ih

/-- A distributor's batch goes through. -/
theorem payBonusBatch_eq {employees : List Address} {amounts : List Nat} (self : Address)
    (replies : Nat → Reply) (hrole : w.perks.hasRole DISTRIBUTOR_ROLE sender = true)
    (hopen : w.perks.entered = false) (hlength : employees.length = amounts.length) :
    ∃ w₁, World.payEach self sender { w with perks := { w.perks with entered := true } } employees amounts
        replies = w₁ ∧
      w.payBonusBatch self sender employees amounts replies
        = .ok { w₁ with perks := { w₁.perks with entered := false } } := by
  refine ⟨_, rfl, ?_⟩
  have hbatch : w.perks.openBatch sender employees amounts = .ok { w.perks with entered := true } := by
    unfold openBatch AccessControl.onlyRole nonReentrant
    rw [failIf_neg (by rw [hrole]; exact Bool.noConfusion), ok_bind,
      failIf_neg (by rw [hopen]; exact Bool.noConfusion), ok_bind,
      failIf_neg (not_not.mpr hlength), ok_bind]
  unfold World.payBonusBatch
  rw [hbatch, ok_bind]

/-- **`payBonusBatch` is the fold of its entries**, left to right: it goes through for a distributor
    with equally long lists, whatever the recipients do.  Each entry has exactly one event, the one that
    says whether it was paid; an entry that fails changes nothing and might as well not be there; the
    balance falls by what was paid to others; and the maximum is the same all along, unless a recipient
    that may set it does. -/
theorem payBonusBatch_settles (self : Address) {employees : List Address} {amounts : List Nat}
    (replies : Nat → Reply) (hrole : w.perks.hasRole DISTRIBUTOR_ROLE sender = true)
    (hopen : w.perks.entered = false) (hlength : employees.length = amounts.length) :
    ∃ (w' : World) (xs : List Entry) (outs : List (Entry × Bool)),
      w.payBonusBatch self sender employees amounts replies = .ok w' ∧
      xs = entries employees amounts replies ∧ outs = outcomes self w.purse xs ∧
      xs.map (fun x => (x.employee, x.amount)) = employees.zip amounts ∧
      w'.balance = (settle self w.purse xs).balance ∧
      w'.perks = { (settle self w.purse xs).perks with entered := false } ∧
      outs.map Prod.fst = xs ∧
      w'.log.filter Log.isBonus = w.log.filter Log.isBonus ++ outs.map (outcomeLog sender) ∧
      w'.balance + paidOut self outs = w.balance ∧
      (∀ pre x post, xs = pre ++ x :: post → ¬ x.Paid (settle self w.purse pre) →
        settle self w.purse (pre ++ [x]) = settle self w.purse pre ∧
        outcomes self w.purse (pre ++ post) = outs.eraseIdx pre.length) ∧
      ((∀ x ∈ xs, ∀ call ∈ x.reply.calls, ∀ newMax, call.2 ≠ .setMaxBonus newMax) →
        ∀ pre post, xs = pre ++ post →
          (settle self w.purse pre).perks.maxBonus = w.perks.maxBonus) := by
  obtain ⟨w₁, hloop, hbatch⟩ := payBonusBatch_eq self replies hrole hopen hlength
  have hsettled : Settled self sender { w with perks := { w.perks with entered := true } } w₁
      (entries employees amounts replies) := hloop ▸ payEach_settles rfl
  have hpurse := hsettled.purse
  have hsum := settle_paidOut self w.purse (entries employees amounts replies)
  refine ⟨_, _, _, hbatch, rfl, rfl, entries_zip, congrArg Purse.balance hpurse,
    congrArg (fun c : Purse => { c.perks with entered := false }) hpurse, outcomes_entries _ _,
    hsettled.log, ?_, ?_, ?_⟩
  · show _ + _ = w.purse.balance
    rw [← hsum]
    exact congrArg (· + _) (congrArg Purse.balance hpurse)
  · rintro pre x post hxs hfails
    rw [hxs]
    exact failing_erased hfails
  · rintro hkept pre post hxs
    refine settle_maxBonus (c := w.purse) rfl fun x hx => hkept x ?_
    rw [hxs]
    exact List.mem_append_left post hx

/-- The contract at 9 with 100, for the distributor 2 and the admin 1. -/
def sampleWorld : World where
  perks :=
    { hasRole := fun role account =>
        decide (role = 0 ∧ account = 1 ∨ role = DISTRIBUTOR_ROLE ∧ account = 2)
      entered := false, ticketing := 8, maxBonus := 50 }
  balance := 100
  log := []

/-- The second recipient refuses; the third is the admin, who lowers the maximum. -/
def sampleReplies : Nat → Reply
  | 1 => ⟨false, []⟩
  | 2 => ⟨true, [(1, .setMaxBonus 10), (1, .withdraw 1 5)]⟩
  | _ => ⟨true, []⟩

theorem payBonusBatch_settles_sample : ∃ w' outs,
    sampleWorld.payBonusBatch 9 2 [5, 6, 1, 5, 9] [40, 10, 20, 11, 7] sampleReplies = .ok w' ∧
    w'.balance = 40 ∧ w'.log.filter Log.isBonus = outs.map (outcomeLog 2) ∧
    w'.balance + paidOut 9 outs = 100 := by
  have hrole : sampleWorld.perks.hasRole DISTRIBUTOR_ROLE 2 = true := by decide
  have hlength : ([5, 6, 1, 5, 9] : List Address).length = [40, 10, 20, 11, 7].length := rfl
  obtain ⟨w', xs, outs, hbatch, rfl, rfl, -, hbalance, -, -, hlog, hsum, -, -⟩ :=
    payBonusBatch_settles 9 sampleReplies hrole rfl hlength
  refine ⟨w', _, hbatch, ?_, hlog, hsum⟩
  rw [hbalance]
  decide +kernel

end

end GembaPerks
end Gemba.Tickets
