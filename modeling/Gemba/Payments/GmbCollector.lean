/-
  `GmbCollector`: native GMB paid for an order, once.

  `pay` marks the order, counts it and forwards `msg.value` to the recipient; the forward is a call out,
  and the recipient may call anything before it returns.  The collector is stepped as a contract that
  calls out.  Beside its storage and balance the world keeps the payments whose forward succeeded; a
  payment whose forward has not returned yet is what its call is waiting for.

  `keccak256` is a parameter, and the order ids of a run lie in a set on which it is injective.
-/
import Mathlib.Data.Set.Card
import Mathlib.Tactic.FinCases
import Gemba.Lib.Bytes
import Gemba.Lib.Reentrancy
import Gemba.Evm.Guarded

namespace Gemba.Payments

open Gemba.Lib Gemba.Evm

/-- A `bytes32`. -/
abbrev Hash := BitVec 256

/-- The storage of the collector. -/
structure GmbCollector extends Guarded where
  recipient : Address
  paymentCount : Nat
  paidOrders : Hash → Bool

/-- A payment, as its event reports it. -/
structure Payment where
  paymentId : Nat
  recipient : Address
  customer : Address
  amount : Nat
  orderId : Bytes
deriving DecidableEq, Repr

namespace GmbCollector

/-- `constructor(owner_, recipient_)`. -/
def construct (owner recipient : Address) : Call GmbCollector := do
  let guarded ← Guarded.construct owner
  failIf (recipient = 0) (err "ZeroAddress")
  .ok { toGuarded := guarded, recipient, paymentCount := 0, paidOrders := fun _ => false }

/-- `pay(orderId)`, up to the forward, with the payment it forwards. -/
def pay (keccak256 : Bytes → Hash) (c : GmbCollector) (sender : Address) (value : Nat)
    (orderId : Bytes) : Call (GmbCollector × Payment) := do
  c.whenNotPaused
  c.nonReentrant
  failIf (value = 0) (err "ZeroAmount")
  failIf (orderId.length = 0) (err "EmptyOrderId")
  let h := keccak256 orderId
  failIf (c.paidOrders h) (err "OrderAlreadyPaid")
  let id ← add c.paymentCount 1
  .ok ({ c with entered := true, paymentCount := id,
                paidOrders := fun x => if x = h then true else c.paidOrders x },
    ⟨id, c.recipient, sender, value, orderId⟩)

/-- `isOrderPaid(orderId)`. -/
def isOrderPaid (keccak256 : Bytes → Hash) (c : GmbCollector) (orderId : Bytes) : Bool :=
  c.paidOrders (keccak256 orderId)

/-- `setRecipient(newRecipient)`. -/
def setRecipient (c : GmbCollector) (sender newRecipient : Address) : Call GmbCollector := do
  c.onlyOwner sender
  failIf (newRecipient = 0) (err "ZeroAddress")
  .ok { c with recipient := newRecipient }

end GmbCollector

/-! ## The collector as a contract -/

/-- The collector, what it holds, and the payments that were forwarded. -/
structure World where
  collector : GmbCollector
  balance : Nat
  forwarded : List Payment

/-- A call to the collector, or native GMB sent to it. -/
inductive Message where
  | pay (sender : Address) (value : Nat) (orderId : Bytes)
  | setRecipient (sender newRecipient : Address)
  | admin (sender : Address) (fn : AdminFn)
  /-- `receive`, and `fallback` with or without value. -/
  | direct (amount : Nat)
deriving DecidableEq

section
variable (keccak256 : Bytes → Hash) (self : Address)

/-- A message, up to the forward.  `msg.value` arrives with the call. -/
def enter (w : World) : Message → Call (World × Option Payment)
  | .pay sender value orderId => do
    let (collector, payment) ← w.collector.pay keccak256 sender value orderId
    -- `Address.sendValue`
    failIf (w.balance + value < payment.amount)
      (.custom "InsufficientBalance" [w.balance + value, payment.amount])
    .ok ({ w with collector, balance := w.balance + value - payment.amount }, some payment)
  | .setRecipient sender newRecipient => do
    let collector ← w.collector.setRecipient sender newRecipient
    .ok ({ w with collector }, none)
  | .admin sender fn => do
    let guarded ← w.collector.admin sender fn
    .ok ({ w with collector := { w.collector with toGuarded := guarded } }, none)
  | .direct _ => .error (err "DirectPaymentNotAllowed")

/-- The recipient returned.  The collector itself takes no native GMB, so a forward to it fails. -/
def resume (w : World) (payment : Payment) (ok : Bool) : Call (World × Option Payment) := do
  failIf (!ok ∨ payment.recipient = self) (err "FailedCall")
  .ok ({ w with collector := { w.collector with entered := false },
                forwarded := w.forwarded ++ [payment] }, none)

/-- The collector as a contract that calls out; nothing of it depends on the time. -/
def contract : Contract Revert World Payment Message Bool PUnit :=
  ⟨enter keccak256, resume self, fun w _ => .ok w⟩

end

abbrev State := Machine World Payment
abbrev Step := Event Message Bool PUnit

/-- The order ids that are paid lie in `ids`. -/
def PaysWithin (ids : Set Bytes) : Message → Prop
  | .pay _ _ orderId => orderId ∈ ids
  | _ => True

/-! ## The invariant -/

section
variable {keccak256 : Bytes → Hash} {self : Address} {ids : Set Bytes} {balance : Nat}

/-- **The books**: the payments, forwarded or waiting for it, are of different orders, the orders that
    are marked are theirs, the count is their number, and the collector kept nothing. -/
structure Books (keccak256 : Bytes → Hash) (ids : Set Bytes) (balance : Nat) (waiting : List Payment)
    (w : World) : Prop where
  nodup : ((w.forwarded ++ waiting).map Payment.orderId).Nodup
  within : ∀ k ∈ w.forwarded ++ waiting, k.orderId ∈ ids ∧ k.orderId ≠ []
  marked : ∀ h, w.collector.paidOrders h = true ↔
    ∃ k ∈ w.forwarded ++ waiting, keccak256 k.orderId = h
  count : w.collector.paymentCount = w.forwarded.length + waiting.length
  balance : w.balance = balance

/-- What `pay` does, up to the forward. -/
structure Paid (keccak256 : Bytes → Hash) (c c' : GmbCollector) (sender : Address) (value : Nat)
    (orderId : Bytes) (k : Payment) : Prop where
  fresh : c.paidOrders (keccak256 orderId) = false
  nonempty : orderId ≠ []
  payment : k = ⟨c.paymentCount + 1, c.recipient, sender, value, orderId⟩
  count : c'.paymentCount = c.paymentCount + 1
  marked : ∀ h, c'.paidOrders h = true ↔ h = keccak256 orderId ∨ c.paidOrders h = true

theorem pay_spec {c c' : GmbCollector} {sender : Address} {value : Nat} {orderId : Bytes}
    {k : Payment} (h : c.pay keccak256 sender value orderId = .ok (c', k)) :
    Paid keccak256 c c' sender value orderId k := by
  obtain ⟨-, h⟩ := failIf_bind_eq_ok.mp h
  obtain ⟨-, h⟩ := failIf_bind_eq_ok.mp h
  obtain ⟨-, h⟩ := failIf_bind_eq_ok.mp h
  obtain ⟨⟨⟩, hempty, h⟩ := bind_eq_ok.mp h
  obtain ⟨⟨⟩, hfresh, h⟩ := bind_eq_ok.mp h
  obtain ⟨id, hid, h⟩ := bind_eq_ok.mp h
  obtain ⟨-, rfl⟩ := add_eq_ok.mp hid
  rw [failIf_eq_ok] at hempty hfresh
  obtain ⟨rfl, rfl⟩ := ok_pair h
  refine ⟨Bool.eq_false_iff.mpr hfresh, fun he => hempty (by rw [he]; rfl), rfl, rfl, fun x => ?_⟩
  show (if x = keccak256 orderId then true else c.paidOrders x) = true ↔ _
  by_cases hx : x = keccak256 orderId
  · rw [if_pos hx]
    exact ⟨fun _ => .inl hx, fun _ => rfl⟩
  · rw [if_neg hx]
    exact ⟨.inr, fun h => h.resolve_left hx⟩

/-- A message that is not a payment leaves the books alone. -/
theorem Books.other {ks : List Payment} {w : World} {c : GmbCollector}
    (h : Books keccak256 ids balance ks w) (hcount : c.paymentCount = w.collector.paymentCount)
    (hpaid : c.paidOrders = w.collector.paidOrders) :
    Books keccak256 ids balance ks { w with collector := c } := by
  refine ⟨h.nodup, h.within, ?_, hcount.trans h.count, h.balance⟩
  show ∀ x, c.paidOrders x = true ↔ _
  rw [hpaid]
  exact h.marked

/-- **A payment enters**: its order was not among the paid ones. -/
theorem Books.pay {ks : List Payment} {w : World} {c : GmbCollector} {sender : Address} {value : Nat}
    {orderId : Bytes} {k : Payment} (h : Books keccak256 ids balance ks w) (hid : orderId ∈ ids)
    (hp : Paid keccak256 w.collector c sender value orderId k) :
    Books keccak256 ids balance (k :: ks)
      { w with collector := c, balance := w.balance + value - k.amount } := by
  have hk := hp.payment
  have hnew : ∀ j, j ∈ w.forwarded ++ k :: ks ↔ j = k ∨ j ∈ w.forwarded ++ ks := by
    intro j
    rw [List.mem_append, List.mem_cons, List.mem_append]
    exact or_left_comm
  refine ⟨?_, ?_, ?_, ?_, ?_⟩
  · show ((w.forwarded ++ k :: ks).map Payment.orderId).Nodup
    rw [List.map_append, List.map_cons, List.nodup_middle, List.nodup_cons, ← List.map_append]
    refine ⟨fun hmem => ?_, h.nodup⟩
    obtain ⟨j, hj, hjk⟩ := List.mem_map.mp hmem
    have hmarked := (h.marked (keccak256 orderId)).mpr ⟨j, hj, by rw [hjk, hk]⟩
    rw [hp.fresh] at hmarked
    nomatch hmarked
  · intro j hj
    rcases (hnew j).mp hj with rfl | hj
    · rw [hk]
      exact ⟨hid, hp.nonempty⟩
    · exact h.within j hj
  · intro x
    show c.paidOrders x = true ↔ _
    rw [hp.marked, h.marked]
    constructor
    · rintro (rfl | ⟨j, hj, hx⟩)
      · exact ⟨k, (hnew k).mpr (.inl rfl), by rw [hk]⟩
      · exact ⟨j, (hnew j).mpr (.inr hj), hx⟩
    · rintro ⟨j, hj, hx⟩
      rcases (hnew j).mp hj with rfl | hj
      · rw [hk] at hx
        exact .inl hx.symm
      · exact .inr ⟨j, hj, hx⟩
  · show c.paymentCount = w.forwarded.length + (k :: ks).length
    rw [hp.count, h.count, List.length_cons]
    omega
  · show w.balance + value - k.amount = balance
    rw [hk, ← h.balance]
    exact Nat.add_sub_cancel _ _

/-- The forward succeeded: the payment changes sides. -/
theorem Books.forward {ks : List Payment} {w : World} {k : Payment}
    (h : Books keccak256 ids balance (k :: ks) w) :
    Books keccak256 ids balance ks
      { w with collector := { w.collector with entered := false },
               forwarded := w.forwarded ++ [k] } := by
  have hsame : w.forwarded ++ [k] ++ ks = w.forwarded ++ k :: ks := by
    rw [List.append_assoc]
    rfl
  refine ⟨?_, ?_, ?_, ?_, h.balance⟩
  · show ((w.forwarded ++ [k] ++ ks).map Payment.orderId).Nodup
    rw [hsame]
    exact h.nodup
  · show ∀ j ∈ w.forwarded ++ [k] ++ ks, _
    rw [hsame]
    exact h.within
  · show ∀ x, w.collector.paidOrders x = true ↔ ∃ j ∈ w.forwarded ++ [k] ++ ks, _
    rw [hsame]
    exact h.marked
  · show w.collector.paymentCount = (w.forwarded ++ [k]).length + ks.length
    rw [h.count, List.length_append, List.length_cons, List.length_singleton]
    omega

theorem books_kept : (contract keccak256 self).Keeps (fun _ => PaysWithin ids) (fun _ => True)
    (Books keccak256 ids balance) where
  enter := by
    intro ks w x w' k h hx henter
    cases x with
    | pay sender value orderId =>
      obtain ⟨⟨c, payment⟩, hpay, henter⟩ := bind_eq_ok.mp henter
      obtain ⟨-, henter⟩ := failIf_bind_eq_ok.mp henter
      obtain ⟨rfl, rfl⟩ := ok_pair henter
      exact h.pay hx (pay_spec hpay)
    | setRecipient sender newRecipient =>
      obtain ⟨c, hset, henter⟩ := bind_eq_ok.mp henter
      obtain ⟨-, hset⟩ := failIf_bind_eq_ok.mp hset
      obtain ⟨-, hset⟩ := failIf_bind_eq_ok.mp hset
      injection hset with hset
      injection henter with henter
      injection henter with hw hk
      subst hset hw hk
      exact h.other rfl rfl
    | admin sender fn =>
      obtain ⟨g, -, henter⟩ := bind_eq_ok.mp henter
      obtain ⟨rfl, rfl⟩ := ok_pair henter
      exact h.other rfl rfl
    | direct amount => nomatch henter
  resume := by
    intro ks w k ok w' k' h hresume
    obtain ⟨-, hresume⟩ := failIf_bind_eq_ok.mp hresume
    obtain ⟨rfl, rfl⟩ := ok_pair hresume
    exact h.forward
  between := by
    intro w _ w' h _ hbetween
    injection hbetween with hbetween
    subst hbetween
    exact h

/-- **The orders that are paid are as many as the payments**, where the hash tells them apart. -/
theorem Books.distinct {ks : List Payment} {w : World} (h : Books keccak256 ids balance ks w)
    (hinj : Set.InjOn keccak256 ids) :
    {orderId | orderId ∈ ids ∧ w.collector.isOrderPaid keccak256 orderId = true}.ncard
      = w.collector.paymentCount := by
  have hset : {orderId | orderId ∈ ids ∧ w.collector.isOrderPaid keccak256 orderId = true}
      = (((w.forwarded ++ ks).map Payment.orderId).toFinset : Set Bytes) := by
    ext orderId
    rw [Set.mem_ofPred_eq, List.coe_toFinset, Set.mem_ofPred_eq, List.mem_map]
    constructor
    · rintro ⟨hid, hpaid⟩
      obtain ⟨k, hk, hhash⟩ := (h.marked _).mp hpaid
      exact ⟨k, hk, hinj (h.within k hk).1 hid hhash⟩
    · rintro ⟨k, hk, rfl⟩
      exact ⟨(h.within k hk).1, (h.marked _).mpr ⟨k, hk, rfl⟩⟩
  rw [hset, Set.ncard_coe_finset, List.toFinset_card_of_nodup h.nodup, List.length_map,
    List.length_append, h.count]

/-! ## Runs -/

/-- A payment stops at its forward, to the recipient of the moment, of all that was sent along. -/
theorem pay_waits {m t : State} {sender : Address} {value : Nat} {orderId : Bytes}
    (h : (contract keccak256 self).step m (.call (.pay sender value orderId)) = .ok t) :
    ∃ paymentId, t.frames = ⟨m.store, some ⟨paymentId, m.store.collector.recipient, sender, value,
      orderId⟩⟩ :: m.frames ∧ t.store.balance = m.store.balance := by
  cases Contract.step_happened h with
  | call henter =>
    obtain ⟨⟨c, payment⟩, -, henter⟩ := bind_eq_ok.mp henter
    obtain ⟨-, henter⟩ := failIf_bind_eq_ok.mp henter
    injection henter with henter
    injection henter with _ hk
    nomatch hk
  | wait henter =>
    obtain ⟨⟨c, payment⟩, hpay, henter⟩ := bind_eq_ok.mp henter
    obtain ⟨-, henter⟩ := failIf_bind_eq_ok.mp henter
    injection henter with henter
    injection henter with hw hk
    injection hk with hk
    have hpayment := (pay_spec hpay).payment
    subst hk hw
    refine ⟨m.store.collector.paymentCount + 1, by rw [hpayment], ?_⟩
    show m.store.balance + value - payment.amount = m.store.balance
    rw [hpayment]
    exact Nat.add_sub_cancel _ _

/-- A forward that succeeds is recorded as it was made, and to anybody but the collector. -/
theorem forward_recorded {m u : State}
    (h : (contract keccak256 self).step m (.answer true) = .ok u) :
    ∃ before k fs, m.frames = ⟨before, some k⟩ :: fs ∧ u.frames = fs ∧ k.recipient ≠ self ∧
      u.store.forwarded = m.store.forwarded ++ [k] ∧ u.store.balance = m.store.balance := by
  cases Contract.step_happened h with
  | done hm hresume =>
    obtain ⟨hok, hresume⟩ := failIf_bind_eq_ok.mp hresume
    rw [not_or] at hok
    obtain ⟨rfl, -⟩ := ok_pair hresume
    exact ⟨_, _, _, hm, rfl, hok.2, rfl, rfl⟩
  | again hm hresume =>
    obtain ⟨-, hresume⟩ := failIf_bind_eq_ok.mp hresume
    injection hresume with hresume
    injection hresume with _ hk
    nomatch hk

/-- A failed forward reverts the payment itself: the collector does not go on. -/
theorem forward_failed {m u : State} : (contract keccak256 self).step m (.answer false) ≠ .ok u := by
  refine Contract.answer_refused fun s k r hresume => ?_
  obtain ⟨hok, -⟩ := failIf_bind_eq_ok.mp hresume
  exact hok (.inl rfl)

/-- **Orders are paid once**, in every run from deployment over order ids that `keccak256` tells apart,
    at every point of it.  No order id is paid twice, or empty; the count is the number of order ids
    that are marked, and of the forwards that succeeded or have not returned; every payment forwards
    what was sent along to the recipient of the moment, and leaves the balance of the collector as it
    was; and one whose forward fails can only revert, which leaves everything as it was before it,
    whatever its recipient did meanwhile. -/
theorem orders_paid_once {owner recipient : Address} {c : GmbCollector}
    (hinj : Set.InjOn keccak256 ids) (hdeploy : GmbCollector.construct owner recipient = .ok c)
    {es : List Step} {m : State}
    (hrun : Run (contract keccak256 self).step
      (fun t e => e.Among (fun _ => PaysWithin ids) (fun _ => True) t.store)
      ⟨⟨c, balance, []⟩, []⟩ es m) :
    (((m.store.forwarded ++ pending m.frames).map Payment.orderId).Nodup ∧
      ∀ k ∈ m.store.forwarded ++ pending m.frames, k.orderId ≠ []) ∧
    ({orderId | orderId ∈ ids ∧ m.store.collector.isOrderPaid keccak256 orderId = true}.ncard
        = m.store.collector.paymentCount ∧
      m.store.collector.paymentCount = m.store.forwarded.length + (pending m.frames).length) ∧
    m.store.balance = balance ∧
    (∀ u, (contract keccak256 self).step m (.answer true) = .ok u →
      ∃ before k fs, m.frames = ⟨before, some k⟩ :: fs ∧ u.frames = fs ∧ k.recipient ≠ self ∧
        u.store.forwarded = m.store.forwarded ++ [k] ∧ u.store.balance = m.store.balance) ∧
    ∀ sender value orderId t,
      (contract keccak256 self).step m (.call (.pay sender value orderId)) = .ok t →
      (∃ paymentId, t.frames = ⟨m.store, some ⟨paymentId, m.store.collector.recipient, sender, value,
        orderId⟩⟩ :: m.frames ∧ t.store.balance = m.store.balance) ∧
      ∀ during u v,
        Run (contract keccak256 self).step (fun s _ => m.frames.length < s.frames.length) t during u →
        u.frames.length = m.frames.length + 1 →
        (contract keccak256 self).step u (.answer false) ≠ .ok v ∧
          ((contract keccak256 self).step u .revert = .ok v → v = m) := by
  have hstart : Books keccak256 ids balance [] ⟨c, balance, []⟩ := by
    obtain ⟨g, -, hdeploy⟩ := bind_eq_ok.mp hdeploy
    obtain ⟨-, hdeploy⟩ := failIf_bind_eq_ok.mp hdeploy
    injection hdeploy with hdeploy
    subst hdeploy
    refine ⟨List.nodup_nil, fun k hk => absurd hk List.not_mem_nil, fun x => ?_, rfl, rfl⟩
    constructor
    · intro h
      nomatch h
    · rintro ⟨k, hk, -⟩
      nomatch hk
  have h : Books keccak256 ids balance (pending m.frames) m.store := books_kept.run hstart hrun
  refine ⟨⟨h.nodup, fun k hk => (h.within k hk).2⟩, ⟨h.distinct hinj, h.count⟩, h.balance,
    fun u hu => forward_recorded hu, ?_⟩
  intro sender value orderId t hcall
  refine ⟨pay_waits hcall, fun during u v hduring hu => ⟨forward_failed, fun hrevert => ?_⟩⟩
  obtain ⟨_, hframes, -⟩ := pay_waits hcall
  have hopen : m.frames.length < t.frames.length := by
    rw [hframes]
    exact Nat.lt_succ_self _
  exact reverted hcall hopen (fun _ _ h => h) hduring hu hrevert

end

/-! ## A run -/

/-- Two order ids, `ord-1` and `ord-2`. -/
def ord1 : Bytes := [0x6f, 0x72, 0x64, 0x2d, 0x31]
def ord2 : Bytes := [0x6f, 0x72, 0x64, 0x2d, 0x32]

/-- `keccak256` on the two order ids. -/
def sampleKeccak (orderId : Bytes) : Hash :=
  if orderId = ord1 then 0xad6de6e2b7aef867c9dd7a5ebaff2b5868c20df4f0e01b189f50ad84221b76fa
  else if orderId = ord2 then 0xed3db67b747bb441b1c4e6565b4cbece2b45af6f4d77ab4bec59e198a23a5f20
  else 0

theorem sampleKeccak_injOn : Set.InjOn sampleKeccak {ord1, ord2} := by
  have hne : sampleKeccak ord1 ≠ sampleKeccak ord2 := by decide +kernel
  rintro a (rfl | rfl) b (rfl | rfl) hab
  · rfl
  · exact absurd hab hne
  · exact absurd hab.symm hne
  · rfl

/-- The collector of owner 1 and recipient 2, as deployed. -/
def sampleCollector : GmbCollector := (GmbCollector.construct 1 2).toOption.getD
  ⟨⟨0, 0, false, false⟩, 0, 0, fun _ => false⟩

/-- An order paid while the recipient changes, one whose forward fails, and the same order again. -/
def sampleSteps : List Step :=
  [.call (.pay 3 100 ord1), .attempt, .call (.setRecipient 1 5), .settle, .answer true,
   .call (.pay 4 7 ord2), .call (.admin 1 .pause), .revert, .call (.pay 4 8 ord2), .answer true]

/-- The machine after the two payments. -/
def sampleEnd : State := runTo (contract sampleKeccak 9).step ⟨⟨sampleCollector, 0, []⟩, []⟩ sampleSteps

theorem orders_paid_once_sample :
    sampleEnd.store.forwarded = [⟨1, 2, 3, 100, ord1⟩, ⟨2, 5, 4, 8, ord2⟩] ∧
    {orderId | orderId ∈ ({ord1, ord2} : Set Bytes) ∧
      sampleEnd.store.collector.isOrderPaid sampleKeccak orderId = true}.ncard
        = sampleEnd.store.collector.paymentCount := by
  have hdeploy : GmbCollector.construct 1 2 = .ok sampleCollector := rfl
  have hrun : Run (contract sampleKeccak 9).step
      (fun t e => e.Among (fun _ => PaysWithin {ord1, ord2}) (fun _ => True) t.store)
      ⟨⟨sampleCollector, 0, []⟩, []⟩ sampleSteps sampleEnd := by
    refine Run.of_runTo (allowedM_of_forall ?_) (by decide +kernel)
    have hids : ord1 ∈ ({ord1, ord2} : Set Bytes) ∧ ord2 ∈ ({ord1, ord2} : Set Bytes) :=
      ⟨.inl rfl, .inr rfl⟩
    intro e he t
    fin_cases he <;> first | exact trivial | exact hids.1 | exact hids.2
  exact ⟨by decide +kernel, (orders_paid_once sampleKeccak_injOn hdeploy hrun).2.1.1⟩

end Gemba.Payments
