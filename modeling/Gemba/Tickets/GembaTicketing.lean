/-
  `GembaTicketing`: event tickets as ERC-1155 tokens, sold for native GMB.

  Every mint and every transfer asks its receiver whether it accepts, and `withdrawProceeds` sends native
  GMB; in all of them the contract called may call anything before it returns, and only some of the
  functions are guarded.  The world keeps, beside the storage and the native balance, three counters that
  the contract does not have: redemptions of each event, GMB paid through `buy`, and GMB withdrawn.

  `Books` ties the contract's own counters to them; since every function moves both before it calls out,
  no call that waits has anything to add.
-/
import Gemba.Lib.Reentrancy
import Gemba.Evm.AccessControl
import Gemba.Evm.Erc1155

namespace Gemba.Tickets

open Gemba.Lib Gemba.Evm

def ORGANIZER_ROLE : Nat := 0x4d2e7a1e3f5dd6e203f087b15756ccf0e4ccd947fe1b639a38540089a1e47f63
def REDEEMER_ROLE : Nat := 0x44ac9762eec3a11893fefb11d028bb3102560094137c3ed4518712475b2577cc

structure EventInfo where
  maxSupply : Nat
  minted : Nat
  /-- In native GMB for each ticket; 0 is not for sale. -/
  price : Nat
  exists' : Bool
  active : Bool
deriving DecidableEq, Repr

/-- The storage of the ticketing contract. -/
structure GembaTicketing extends Erc1155, AccessControl where
  /-- The reentrancy guard is entered. -/
  entered : Bool
  events : Nat → EventInfo
  proceeds : Nat

namespace GembaTicketing

/-- `constructor(admin)`. -/
def construct (admin : Address) : Call GembaTicketing := do
  failIf (admin = 0) (err "ZeroAddress")
  .ok { toErc1155 := .empty
        toAccessControl := AccessControl.empty.setRole AccessControl.DEFAULT_ADMIN_ROLE admin true
        entered := false
        events := fun _ => ⟨0, 0, 0, false, false⟩
        proceeds := 0 }

/-- Write one event. -/
def setEvent (t : GembaTicketing) (eventId : Nat) (e : EventInfo) : GembaTicketing :=
  { t with events := fun id => if id = eventId then e else t.events id }

def nonReentrant (t : GembaTicketing) : Call PUnit :=
  failIf t.entered (err "ReentrancyGuardReentrantCall")

/-- `createEvent(eventId, maxSupply, price)`. -/
def createEvent (t : GembaTicketing) (sender : Address) (eventId maxSupply price : Nat) :
    Call GembaTicketing := do
  t.onlyRole ORGANIZER_ROLE sender
  failIf (t.events eventId).exists' (err "EventExists")
  failIf (maxSupply = 0) (err "ZeroAmount")
  .ok (t.setEvent eventId ⟨maxSupply, 0, price, true, true⟩)

/-- `setEventActive(eventId, active)`. -/
def setEventActive (t : GembaTicketing) (sender : Address) (eventId : Nat) (active : Bool) :
    Call GembaTicketing := do
  t.onlyRole ORGANIZER_ROLE sender
  failIf (!(t.events eventId).exists') (err "NoSuchEvent")
  .ok (t.setEvent eventId { t.events eventId with active })

/-- `_mintChecked(to, eventId, amount)`, up to the acceptance check of `_mint`. -/
def mintChecked (t : GembaTicketing) (dst : Address) (eventId amount : Nat) :
    Call GembaTicketing := do
  failIf (dst = 0) (err "ZeroAddress")
  failIf (amount = 0) (err "ZeroAmount")
  let e := t.events eventId
  failIf (!e.exists') (err "NoSuchEvent")
  let minted ← add e.minted amount
  failIf (minted > e.maxSupply) (err "ExceedsSupply")
  let t := t.setEvent eventId { e with minted }
  let tokens ← t.mint dst eventId amount
  .ok { t with toErc1155 := tokens }

/-- `issue(to, eventId, amount)`. -/
def issue (t : GembaTicketing) (sender dst : Address) (eventId amount : Nat) :
    Call GembaTicketing := do
  t.onlyRole ORGANIZER_ROLE sender
  t.nonReentrant
  { t with entered := true }.mintChecked dst eventId amount

/-- `buy(eventId, amount)`. -/
def buy (t : GembaTicketing) (sender : Address) (value eventId amount : Nat) :
    Call GembaTicketing := do
  t.nonReentrant
  let e := t.events eventId
  failIf (!e.exists') (err "NoSuchEvent")
  failIf (!e.active) (err "EventInactive")
  failIf (amount = 0) (err "ZeroAmount")
  failIf (e.price = 0) (err "NotForSale")
  let cost ← mul e.price amount
  failIf (value ≠ cost) (err "WrongPayment")
  let proceeds ← add t.proceeds cost
  { t with entered := true, proceeds }.mintChecked sender eventId amount

/-- `_redeem(holder, eventId, by)`. -/
def redeem' (t : GembaTicketing) (holder : Address) (eventId : Nat) : Call GembaTicketing := do
  failIf (t.balances eventId holder = 0) (err "NotTicketHolder")
  let tokens ← t.burn holder eventId 1
  .ok { t with toErc1155 := tokens }

/-- `redeem(eventId)`. -/
def redeem (t : GembaTicketing) (sender : Address) (eventId : Nat) : Call GembaTicketing :=
  t.redeem' sender eventId

/-- `redeemFrom(holder, eventId)`. -/
def redeemFrom (t : GembaTicketing) (sender holder : Address) (eventId : Nat) :
    Call GembaTicketing := do
  t.onlyRole REDEEMER_ROLE sender
  t.redeem' holder eventId

/-- `withdrawProceeds(to, amount)`, up to the call. -/
def withdrawProceeds (t : GembaTicketing) (sender dst : Address) (amount : Nat) :
    Call GembaTicketing := do
  t.onlyRole AccessControl.DEFAULT_ADMIN_ROLE sender
  t.nonReentrant
  failIf (dst = 0) (err "ZeroAddress")
  failIf (amount = 0) (err "ZeroAmount")
  failIf (amount > t.proceeds) (err "InsufficientBalance")
  .ok { t with entered := true, proceeds := t.proceeds - amount }

end GembaTicketing

/-! ## The ticketing contract as a contract that calls out -/

/-- The contract, its native balance, and what happened to it so far. -/
structure World where
  ticketing : GembaTicketing
  balance : Nat
  redeemed : Nat → Nat
  sold : Nat
  withdrawn : Nat

/-- A call to the contract, or native GMB sent to it. -/
inductive Message where
  | createEvent (sender : Address) (eventId maxSupply price : Nat)
  | setEventActive (sender : Address) (eventId : Nat) (active : Bool)
  | issue (sender dst : Address) (eventId amount : Nat)
  | buy (sender : Address) (value eventId amount : Nat)
  | redeem (sender : Address) (eventId : Nat)
  | redeemFrom (sender holder : Address) (eventId : Nat)
  | withdrawProceeds (sender dst : Address) (amount : Nat)
  | safeTransferFrom (sender src dst : Address) (id value : Nat)
  | safeBatchTransferFrom (sender src dst : Address) (ids values : List Nat)
  | setApprovalForAll (sender operator : Address) (approved : Bool)
  | role (sender : Address) (fn : RoleFn)
  /-- `receive`, and `fallback` with or without value. -/
  | direct (amount : Nat)
  /-- Native GMB that arrives without a call. -/
  | forced (amount : Nat)
deriving DecidableEq

/-- What a call is waiting for. -/
inductive Waiting where
  /-- The receiver of tickets, after a mint or after a transfer. -/
  | accepting (receiver : Address) (minted : Bool)
  /-- The receiver of proceeds. -/
  | paying (receiver : Address)
deriving DecidableEq

namespace World

/-- The storage changes, and nothing else. -/
def set (w : World) (ticketing : GembaTicketing) : World := { w with ticketing }

/-- A ticket of `eventId` was redeemed. -/
def redeemOne (w : World) (ticketing : GembaTicketing) (eventId : Nat) : World :=
  { w with ticketing
           redeemed := fun id => if id = eventId then w.redeemed id + 1 else w.redeemed id }

end World

/-- A message, up to the call out.  `msg.value` arrives with the call. -/
def enter (w : World) : Message → Call (World × Option Waiting)
  | .createEvent sender eventId maxSupply price => do
    let t ← w.ticketing.createEvent sender eventId maxSupply price
    .ok (w.set t, none)
  | .setEventActive sender eventId active => do
    let t ← w.ticketing.setEventActive sender eventId active
    .ok (w.set t, none)
  | .issue sender dst eventId amount => do
    let t ← w.ticketing.issue sender dst eventId amount
    .ok (w.set t, some (.accepting dst true))
  | .buy sender value eventId amount => do
    let t ← w.ticketing.buy sender value eventId amount
    .ok ({ w with ticketing := t, balance := w.balance + value, sold := w.sold + value },
      some (.accepting sender true))
  | .redeem sender eventId => do
    let t ← w.ticketing.redeem sender eventId
    .ok (w.redeemOne t eventId, none)
  | .redeemFrom sender holder eventId => do
    let t ← w.ticketing.redeemFrom sender holder eventId
    .ok (w.redeemOne t eventId, none)
  | .withdrawProceeds sender dst amount => do
    let t ← w.ticketing.withdrawProceeds sender dst amount
    -- the call takes the amount along, or fails
    failIf (w.balance < amount) (err "NativeSendFailed")
    .ok ({ w with ticketing := t, balance := w.balance - amount, withdrawn := w.withdrawn + amount },
      some (.paying dst))
  | .safeTransferFrom sender src dst id value => do
    let tokens ← w.ticketing.safeTransferFrom sender src dst id value
    .ok (w.set { w.ticketing with toErc1155 := tokens }, some (.accepting dst false))
  | .safeBatchTransferFrom sender src dst ids values => do
    let tokens ← w.ticketing.safeBatchTransferFrom sender src dst ids values
    .ok (w.set { w.ticketing with toErc1155 := tokens }, some (.accepting dst false))
  | .setApprovalForAll sender operator approved => do
    let tokens ← w.ticketing.setApprovalForAll sender operator approved
    .ok (w.set { w.ticketing with toErc1155 := tokens }, none)
  | .role sender fn => do
    let roles ← w.ticketing.change sender fn
    .ok (w.set { w.ticketing with toAccessControl := roles }, none)
  | .direct _ => .error (err "DirectPaymentNotAllowed")
  | .forced amount => .ok ({ w with balance := w.balance + amount }, none)

/-- The account called returned.  The contract itself takes neither tickets nor native GMB; after a
    mint and after a payment the guard is left. -/
def resume (self : Address) (w : World) : Waiting → Bool → Call (World × Option Waiting)
  | .accepting receiver minted, ok => do
    failIf (!ok ∨ receiver = self) (.custom "ERC1155InvalidReceiver" [receiver.toNat])
    .ok (w.set { w.ticketing with entered := !minted && w.ticketing.entered }, none)
  | .paying receiver, ok => do
    failIf (!ok ∨ receiver = self) (err "NativeSendFailed")
    .ok (w.set { w.ticketing with entered := false }, none)

/-- The ticketing contract at the address `self`; nothing of it depends on the time. -/
def contract (self : Address) : Contract Revert World Waiting Message Bool PUnit :=
  ⟨enter, resume self, fun w _ => .ok w⟩

abbrev State := Machine World Waiting
abbrev Step := Event Message Bool PUnit

/-! ## The invariant -/

/-- **The books.**  Of every event the tickets held and the tickets redeemed are those minted, which the
    supply bounds; what was sold is still there or was withdrawn, and the contract has it. -/
structure Books (w : World) : Prop where
  unmade : ∀ id, (w.ticketing.events id).exists' = false → (w.ticketing.events id).minted = 0
  capped : ∀ id, (w.ticketing.events id).minted ≤ (w.ticketing.events id).maxSupply
  tickets : ∀ id, w.ticketing.supply id + w.redeemed id = (w.ticketing.events id).minted
  money : w.ticketing.proceeds + w.withdrawn = w.sold
  solvent : w.ticketing.proceeds ≤ w.balance

section
variable {w : World} {t t' : GembaTicketing} {sender dst : Address} {eventId amount value : Nat}

/-- What a mint does: it raises the count of one event and the tickets held of it alike. -/
structure Minted (t t' : GembaTicketing) (eventId amount : Nat) : Prop where
  proceeds : t'.proceeds = t.proceeds
  supply : ∀ id, t'.supply id = t.supply id + if id = eventId then amount else 0
  minted : ∀ id, (t'.events id).minted = (t.events id).minted + if id = eventId then amount else 0
  maxSupply : ∀ id, (t'.events id).maxSupply = (t.events id).maxSupply
  exists' : ∀ id, (t'.events id).exists' = (t.events id).exists'
  known : (t.events eventId).exists' = true
  capped : (t'.events eventId).minted ≤ (t.events eventId).maxSupply

theorem mintChecked_spec (h : t.mintChecked dst eventId amount = .ok t') :
    Minted t t' eventId amount := by
  obtain ⟨-, h⟩ := failIf_bind_eq_ok.mp h
  obtain ⟨-, h⟩ := failIf_bind_eq_ok.mp h
  obtain ⟨hknown, h⟩ := failIf_bind_eq_ok.mp h
  obtain ⟨minted, hadd, h⟩ := bind_eq_ok.mp h
  obtain ⟨-, rfl⟩ := add_eq_ok.mp hadd
  obtain ⟨hcap, h⟩ := failIf_bind_eq_ok.mp h
  obtain ⟨tokens, hmint, h⟩ := bind_eq_ok.mp h
  obtain rfl := Except.ok.inj h
  have hevent : ∀ id, (t.setEvent eventId
      { t.events eventId with minted := (t.events eventId).minted + amount }).events id
        = if id = eventId then { t.events id with minted := (t.events id).minted + amount }
          else t.events id := by
    intro id
    by_cases hid : id = eventId
    · rw [hid, if_pos rfl]
      exact if_pos rfl
    · rw [if_neg hid]
      exact if_neg hid
  refine ⟨rfl, fun id => Erc1155.mint_supply hmint, ?_, ?_, ?_, ?_, ?_⟩
  · intro id
    show ((t.setEvent eventId _).events id).minted = _
    rw [hevent]
    split <;> rfl
  · intro id
    show ((t.setEvent eventId _).events id).maxSupply = _
    rw [hevent]
    split <;> rfl
  · intro id
    show ((t.setEvent eventId _).events id).exists' = _
    rw [hevent]
    split <;> rfl
  · exact Bool.not_eq_false _ ▸ fun hno => hknown (by rw [hno]; rfl)
  · show ((t.setEvent eventId _).events eventId).minted ≤ _
    rw [hevent, if_pos rfl]
    exact not_lt.mp hcap

theorem issue_spec (h : t.issue sender dst eventId amount = .ok t') :
    Minted t t' eventId amount := by
  obtain ⟨-, h⟩ := failIf_bind_eq_ok.mp h
  obtain ⟨-, h⟩ := failIf_bind_eq_ok.mp h
  have hm := mintChecked_spec h
  exact ⟨hm.proceeds, hm.supply, hm.minted, hm.maxSupply, hm.exists', hm.known, hm.capped⟩

/-- A sale mints, and the proceeds grow by what was sent along. -/
theorem buy_spec (h : t.buy sender value eventId amount = .ok t') :
    Minted { t with proceeds := t.proceeds + value } t' eventId amount := by
  obtain ⟨-, h⟩ := failIf_bind_eq_ok.mp h
  obtain ⟨-, h⟩ := failIf_bind_eq_ok.mp h
  obtain ⟨-, h⟩ := failIf_bind_eq_ok.mp h
  obtain ⟨-, h⟩ := failIf_bind_eq_ok.mp h
  obtain ⟨-, h⟩ := failIf_bind_eq_ok.mp h
  obtain ⟨cost, -, h⟩ := bind_eq_ok.mp h
  obtain ⟨hcost, h⟩ := failIf_bind_eq_ok.mp h
  obtain ⟨proceeds, hadd, h⟩ := bind_eq_ok.mp h
  obtain ⟨-, rfl⟩ := add_eq_ok.mp hadd
  obtain rfl := not_not.mp hcost
  have hm := mintChecked_spec h
  exact ⟨hm.proceeds, hm.supply, hm.minted, hm.maxSupply, hm.exists', hm.known, hm.capped⟩

theorem createEvent_spec {maxSupply price : Nat}
    (h : t.createEvent sender eventId maxSupply price = .ok t') :
    (t.events eventId).exists' = false ∧ t' = t.setEvent eventId ⟨maxSupply, 0, price, true, true⟩ := by
  obtain ⟨-, h⟩ := failIf_bind_eq_ok.mp h
  obtain ⟨hnew, h⟩ := failIf_bind_eq_ok.mp h
  obtain ⟨-, h⟩ := failIf_bind_eq_ok.mp h
  exact ⟨Bool.eq_false_iff.mpr hnew, (Except.ok.inj h).symm⟩

theorem setEventActive_spec {active : Bool} (h : t.setEventActive sender eventId active = .ok t') :
    (t.events eventId).exists' = true ∧ t' = t.setEvent eventId { t.events eventId with active } := by
  obtain ⟨-, h⟩ := failIf_bind_eq_ok.mp h
  obtain ⟨hknown, h⟩ := failIf_bind_eq_ok.mp h
  refine ⟨?_, (Except.ok.inj h).symm⟩
  exact Bool.not_eq_false _ ▸ fun hno => hknown (by rw [hno]; rfl)

theorem withdrawProceeds_spec (h : t.withdrawProceeds sender dst amount = .ok t') :
    amount ≤ t.proceeds ∧ t' = { t with entered := true, proceeds := t.proceeds - amount } := by
  obtain ⟨-, h⟩ := failIf_bind_eq_ok.mp h
  obtain ⟨-, h⟩ := failIf_bind_eq_ok.mp h
  obtain ⟨-, h⟩ := failIf_bind_eq_ok.mp h
  obtain ⟨-, h⟩ := failIf_bind_eq_ok.mp h
  obtain ⟨hfunds, h⟩ := failIf_bind_eq_ok.mp h
  exact ⟨not_lt.mp hfunds, (Except.ok.inj h).symm⟩

/-- A mint keeps the books of the tickets. -/
theorem Minted.books (hm : Minted t t' eventId amount)
    (hunmade : ∀ id, (t.events id).exists' = false → (t.events id).minted = 0)
    (hcapped : ∀ id, (t.events id).minted ≤ (t.events id).maxSupply) (redeemed : Nat → Nat)
    (htickets : ∀ id, t.supply id + redeemed id = (t.events id).minted) :
    (∀ id, (t'.events id).exists' = false → (t'.events id).minted = 0) ∧
    (∀ id, (t'.events id).minted ≤ (t'.events id).maxSupply) ∧
    ∀ id, t'.supply id + redeemed id = (t'.events id).minted := by
  refine ⟨fun id hno => ?_, fun id => ?_, fun id => ?_⟩
  · rw [hm.exists'] at hno
    rw [hm.minted, hunmade id hno]
    by_cases hid : id = eventId
    · rw [hid, hm.known] at hno
      nomatch hno
    · rw [if_neg hid]
  · by_cases hid : id = eventId
    · rw [hid, hm.maxSupply]
      exact hm.capped
    · rw [hm.minted, hm.maxSupply, if_neg hid]
      exact hcapped id
  · have hold := htickets id
    rw [hm.supply, hm.minted]
    omega

/-- A mint that comes with `value` of native GMB. -/
theorem Books.mint (h : Books w) (hm : Minted t t' eventId amount)
    (hevents : t.events = w.ticketing.events) (hbalances : t.balances = w.ticketing.balances)
    (hproceeds : t.proceeds = w.ticketing.proceeds + value) :
    Books { w with ticketing := t', balance := w.balance + value, sold := w.sold + value } := by
  have hsupply : ∀ id, t.supply id = w.ticketing.supply id := Erc1155.supply_congr hbalances
  obtain ⟨hunmade, hcapped, htickets⟩ := hm.books (by rw [hevents]; exact h.unmade)
    (by rw [hevents]; exact h.capped) w.redeemed
    (fun id => by rw [hevents, hsupply]; exact h.tickets id)
  refine ⟨hunmade, hcapped, htickets, ?_, ?_⟩
  · have hmoney := h.money
    show t'.proceeds + w.withdrawn = w.sold + value
    rw [hm.proceeds, hproceeds]
    omega
  · have hsolvent := h.solvent
    show t'.proceeds ≤ w.balance + value
    rw [hm.proceeds, hproceeds]
    omega

/-- A redemption takes a ticket from its holder. -/
theorem Books.redeem (h : Books w) (hr : w.ticketing.redeem' dst eventId = .ok t') :
    Books (w.redeemOne t' eventId) := by
  obtain ⟨-, hr⟩ := failIf_bind_eq_ok.mp hr
  obtain ⟨tokens, hburn, hr⟩ := bind_eq_ok.mp hr
  obtain rfl := Except.ok.inj hr
  refine ⟨h.unmade, h.capped, fun id => ?_, h.money, h.solvent⟩
  have hsupply := Erc1155.burn_supply (j := id) hburn
  have hold := h.tickets id
  show tokens.supply id + (if id = eventId then w.redeemed id + 1 else w.redeemed id)
    = (w.ticketing.events id).minted
  split
  · rename_i hid
    rw [if_pos hid] at hsupply
    omega
  · rename_i hid
    rw [if_neg hid] at hsupply
    omega

/-- The tokens change hands, and nothing else changes. -/
theorem Books.tokens {tokens : Erc1155} (h : Books w)
    (hsupply : ∀ id, tokens.supply id = w.ticketing.supply id) :
    Books (w.set { w.ticketing with toErc1155 := tokens }) := by
  refine ⟨h.unmade, h.capped, fun id => ?_, h.money, h.solvent⟩
  show tokens.supply id + w.redeemed id = (w.ticketing.events id).minted
  rw [hsupply]
  exact h.tickets id

/-- An event is written, with the count of tickets it had. -/
theorem Books.setEvent {e : EventInfo} (h : Books w)
    (hminted : e.minted = (w.ticketing.events eventId).minted) (hcapped : e.minted ≤ e.maxSupply)
    (hexists : e.exists' = true) : Books (w.set (w.ticketing.setEvent eventId e)) := by
  have hcases : ∀ id, (w.ticketing.setEvent eventId e).events id = w.ticketing.events id ∨
      id = eventId ∧ (w.ticketing.setEvent eventId e).events id = e := by
    intro id
    by_cases hid : id = eventId
    · exact .inr ⟨hid, if_pos hid⟩
    · exact .inl (if_neg hid)
  refine ⟨fun id hno => ?_, fun id => ?_, fun id => ?_, h.money, h.solvent⟩
  · rcases hcases id with hev | ⟨-, hev⟩
    · have hold := h.unmade id
      rw [← hev] at hold
      exact hold hno
    · have hno : ((w.ticketing.setEvent eventId e).events id).exists' = false := hno
      rw [hev, hexists] at hno
      nomatch hno
  · show ((w.ticketing.setEvent eventId e).events id).minted ≤
      ((w.ticketing.setEvent eventId e).events id).maxSupply
    rcases hcases id with hev | ⟨-, hev⟩
    · rw [hev]
      exact h.capped id
    · rw [hev]
      exact hcapped
  · show w.ticketing.supply id + w.redeemed id = ((w.ticketing.setEvent eventId e).events id).minted
    rw [h.tickets id]
    rcases hcases id with hev | ⟨rfl, hev⟩
    · rw [hev]
    · rw [hev, hminted]

end

theorem books_kept (self : Address) :
    (contract self).Keeps (fun _ _ => True) (fun _ => True) (fun _ => Books) where
  enter := by
    intro ks w x w' k h _ henter
    cases x with
    | createEvent sender eventId maxSupply price =>
      obtain ⟨t, hcreate, henter⟩ := bind_eq_ok.mp henter
      obtain ⟨hnew, rfl⟩ := createEvent_spec hcreate
      obtain ⟨rfl, -⟩ := ok_pair henter
      -- it did not exist, so no ticket of it was ever minted
      exact h.setEvent (h.unmade eventId hnew).symm (Nat.zero_le _) rfl
    | setEventActive sender eventId active =>
      obtain ⟨t, hset, henter⟩ := bind_eq_ok.mp henter
      obtain ⟨hknown, rfl⟩ := setEventActive_spec hset
      obtain ⟨rfl, -⟩ := ok_pair henter
      exact h.setEvent rfl (h.capped eventId) hknown
    | issue sender dst eventId amount =>
      obtain ⟨t, hissue, henter⟩ := bind_eq_ok.mp henter
      obtain ⟨rfl, -⟩ := ok_pair henter
      exact h.mint (issue_spec hissue) rfl rfl (Nat.add_zero _).symm
    | buy sender value eventId amount =>
      obtain ⟨t, hbuy, henter⟩ := bind_eq_ok.mp henter
      obtain ⟨rfl, -⟩ := ok_pair henter
      exact h.mint (buy_spec hbuy) rfl rfl rfl
    | redeem sender eventId =>
      obtain ⟨t, hredeem, henter⟩ := bind_eq_ok.mp henter
      obtain ⟨rfl, -⟩ := ok_pair henter
      exact h.redeem hredeem
    | redeemFrom sender holder eventId =>
      obtain ⟨t, hredeem, henter⟩ := bind_eq_ok.mp henter
      obtain ⟨-, hredeem⟩ := failIf_bind_eq_ok.mp hredeem
      obtain ⟨rfl, -⟩ := ok_pair henter
      exact h.redeem hredeem
    | withdrawProceeds sender dst amount =>
      obtain ⟨t, hw, henter⟩ := bind_eq_ok.mp henter
      obtain ⟨hfunds, rfl⟩ := withdrawProceeds_spec hw
      obtain ⟨-, henter⟩ := failIf_bind_eq_ok.mp henter
      obtain ⟨rfl, -⟩ := ok_pair henter
      refine ⟨h.unmade, h.capped, h.tickets, ?_, ?_⟩
      · have hmoney := h.money
        show w.ticketing.proceeds - amount + (w.withdrawn + amount) = w.sold
        omega
      · have hsolvent := h.solvent
        show w.ticketing.proceeds - amount ≤ w.balance - amount
        omega
    | safeTransferFrom sender src dst id value =>
      obtain ⟨tokens, htransfer, henter⟩ := bind_eq_ok.mp henter
      obtain ⟨rfl, -⟩ := ok_pair henter
      exact h.tokens fun id => Erc1155.safeBatchTransferFrom_supply htransfer
    | safeBatchTransferFrom sender src dst ids values =>
      obtain ⟨tokens, htransfer, henter⟩ := bind_eq_ok.mp henter
      obtain ⟨rfl, -⟩ := ok_pair henter
      exact h.tokens fun id => Erc1155.safeBatchTransferFrom_supply htransfer
    | setApprovalForAll sender operator approved =>
      obtain ⟨tokens, hset, henter⟩ := bind_eq_ok.mp henter
      obtain ⟨rfl, -⟩ := ok_pair henter
      exact h.tokens fun id => Erc1155.setApprovalForAll_supply hset
    | role sender fn =>
      obtain ⟨roles, -, henter⟩ := bind_eq_ok.mp henter
      obtain ⟨rfl, -⟩ := ok_pair henter
      exact ⟨h.unmade, h.capped, h.tickets, h.money, h.solvent⟩
    | direct amount => nomatch henter
    | forced amount =>
      obtain ⟨rfl, -⟩ := ok_pair henter
      exact ⟨h.unmade, h.capped, h.tickets, h.money, h.solvent.trans (Nat.le_add_right _ _)⟩
  resume := by
    intro ks w k ok w' k' h hresume
    cases k with
    | accepting receiver minted =>
      obtain ⟨-, hresume⟩ := failIf_bind_eq_ok.mp hresume
      obtain ⟨rfl, -⟩ := ok_pair hresume
      exact ⟨h.unmade, h.capped, h.tickets, h.money, h.solvent⟩
    | paying receiver =>
      obtain ⟨-, hresume⟩ := failIf_bind_eq_ok.mp hresume
      obtain ⟨rfl, -⟩ := ok_pair hresume
      exact ⟨h.unmade, h.capped, h.tickets, h.money, h.solvent⟩
  between := by
    intro w _ w' h _ hbetween
    injection hbetween with hbetween
    subst hbetween
    exact h

/-! ## Runs -/

/-- A receiver that refuses reverts the function that called it. -/
theorem refused_stops {self : Address} {m v : State} :
    (contract self).step m (.answer false) ≠ .ok v := by
  refine Contract.answer_refused fun s k r hresume => ?_
  cases k with
  | accepting receiver minted =>
    obtain ⟨hok, -⟩ := failIf_bind_eq_ok.mp hresume
    exact hok (.inl rfl)
  | paying receiver =>
    obtain ⟨hok, -⟩ := failIf_bind_eq_ok.mp hresume
    exact hok (.inl rfl)

/-- **Tickets and money are conserved**, in every run from deployment, at every point of it: of every
    event no more is minted than its supply, and what is held is what was minted less what was
    redeemed; the proceeds are what was paid through `buy` less what was withdrawn, and the contract
    has them.  Where a receiver does not accept, or takes no native GMB, the function that called it
    can only revert. -/
theorem tickets_conserved {self admin : Address} {t : GembaTicketing} {balance : Nat}
    {es : List Step} {m : State} (hdeploy : GembaTicketing.construct admin = .ok t)
    (hrun : Run (contract self).step (fun _ _ => True) ⟨⟨t, balance, fun _ => 0, 0, 0⟩, []⟩ es m) :
    (∀ id, (m.store.ticketing.events id).minted ≤ (m.store.ticketing.events id).maxSupply ∧
      m.store.redeemed id ≤ (m.store.ticketing.events id).minted ∧
      ∑ a, m.store.ticketing.balances id a
        = (m.store.ticketing.events id).minted - m.store.redeemed id) ∧
    m.store.withdrawn ≤ m.store.sold ∧
    m.store.ticketing.proceeds = m.store.sold - m.store.withdrawn ∧
    m.store.ticketing.proceeds ≤ m.store.balance ∧
    ∀ v, (contract self).step m (.answer false) ≠ .ok v := by
  have hstart : Books ⟨t, balance, fun _ => 0, 0, 0⟩ := by
    obtain ⟨-, hdeploy⟩ := failIf_bind_eq_ok.mp hdeploy
    obtain rfl := Except.ok.inj hdeploy
    have htickets : ∀ id, Erc1155.empty.supply id + 0 = 0 := fun id => by rw [Erc1155.supply_empty]
    exact ⟨fun _ _ => rfl, fun _ => Nat.le_refl _, htickets, rfl, Nat.zero_le _⟩
  have h : Books m.store := (books_kept self).run_all hstart hrun
  refine ⟨fun id => ⟨h.capped id, ?_, ?_⟩, ?_, ?_, h.solvent, fun v => refused_stops⟩
  · rw [← h.tickets id]
    exact Nat.le_add_left _ _
  · rw [← Erc1155.supply_eq]
    exact Nat.eq_sub_of_add_eq (h.tickets id)
  · rw [← h.money]
    exact Nat.le_add_left _ _
  · exact Nat.eq_sub_of_add_eq h.money

/-- The contract of admin 1. -/
def sampleTicketing : GembaTicketing := (GembaTicketing.construct 1).toOption.getD
  ⟨.empty, .empty, false, fun _ => ⟨0, 0, 0, false, false⟩, 0⟩

/-- An event; a sale whose buyer redeems and passes a ticket on before it accepts; a withdrawal. -/
def sampleSteps : List Step :=
  [.call (.role 1 (.grantRole ORGANIZER_ROLE 2)), .call (.role 1 (.grantRole REDEEMER_ROLE 3)),
   .call (.createEvent 2 5 10 4), .call (.buy 6 12 5 3), .call (.redeem 6 5),
   .call (.safeTransferFrom 6 6 7 5 1), .answer true, .answer true, .call (.issue 2 7 5 4), .answer true,
   .call (.redeemFrom 3 7 5), .call (.withdrawProceeds 1 1 8), .call (.forced 3), .answer true]

/-- The machine after the sample. -/
def sampleEnd : State :=
  runTo (contract 9).step ⟨⟨sampleTicketing, 0, fun _ => 0, 0, 0⟩, []⟩ sampleSteps

theorem tickets_conserved_sample :
    (sampleEnd.store.ticketing.events 5).minted = 7 ∧ sampleEnd.store.redeemed 5 = 2 ∧
    ∑ a, sampleEnd.store.ticketing.balances 5 a
      = (sampleEnd.store.ticketing.events 5).minted - sampleEnd.store.redeemed 5 ∧
    sampleEnd.store.ticketing.proceeds = sampleEnd.store.sold - sampleEnd.store.withdrawn := by
  have hrun : Run (contract 9).step (fun _ _ => True) ⟨⟨sampleTicketing, 0, fun _ => 0, 0, 0⟩, []⟩
      sampleSteps sampleEnd :=
    Run.of_runTo (allowedM_of_forall fun _ _ _ => trivial) (by decide +kernel)
  have hdeploy : GembaTicketing.construct 1 = .ok sampleTicketing := rfl
  obtain ⟨htickets, -, hmoney, -⟩ := tickets_conserved hdeploy hrun
  exact ⟨by decide +kernel, by decide +kernel, (htickets 5).2.2, hmoney⟩

end Gemba.Tickets
