/-
  The backend, the network and the chain together.

  The server is one process that handles requests one event at a time; between two events a webhook
  handler may wait for the node, which may answer, fail or never answer, and the process may die with
  whatever it had in memory.  A dispense transaction that reached the network lives on without it: it
  is included once the signer's nonce comes up, at any time or never, and takes effect if the
  dispenser lets it.

  A label is one event; `step` refuses the ones that cannot happen.  Two fields of `World` are kept for
  the theorems only: the orders created, and those of which a webhook of their payment was answered
  2xx.

  * `Outstanding` — the dispenses of an order that took effect or still can;
  * `Stepped`     — what an event does, in eight shapes, which the invariants are proved over.
-/
import Mathlib.Order.Nat
import Gemba.Lib.Runs
import Gemba.Purchase.Server
import Gemba.Purchase.GembaPayDispenser

namespace Gemba.Purchase

open Gemba.Lib Gemba.Evm Gemba.Js

/-- The memory of the process. -/
structure Process (F : Type) where
  orders : Orders F
  /-- The set of the orders being dispensed. -/
  inflight : List String
  /-- The webhook handlers waiting for the node. -/
  handlers : List Handler

structure World (F : Type) where
  /-- What the store file parses to, if it does. -/
  file : Option (Orders F)
  /-- The running process, if it is up. -/
  process : Option (Process F)
  /-- The transactions broadcast and not yet included. -/
  network : List Tx
  /-- The next nonce of the signer on chain. -/
  nonce : Nat
  dispenser : GembaPayDispenser
  /-- The dispenses that took effect, with their events. -/
  effects : List (Tx × Dispensed)
  /-- Every order as it was created. -/
  created : Orders F
  /-- The orders of which a webhook that matches was answered 2xx. -/
  acked : List String

/-- One event. -/
inductive Label (F : Type) where
  /-- `POST /create`, drawing the random id `hex`. -/
  | create (body : Value F) (hex : String) (saved : Save)
  /-- `POST /webhook`. -/
  | webhook (req : Request)
  /-- The node told a handler a nonce and a gas price, and got the signed transaction. -/
  | broadcast (h : Handler) (nonce gasPrice : Nat)
  /-- The receipt reached the handler. -/
  | receipt (h : Handler) (saved : Save)
  /-- Anything a handler awaits throws. -/
  | fail (h : Handler)
  /-- A block includes a transaction, whose buyer takes the send or not. -/
  | included (tx : Tx) (accepts : Bool)
  /-- The network forgets a transaction. -/
  | drop (tx : Tx)
  /-- Anything else on the chain: the signer's other transactions, the dispenser's other calls. -/
  | chain (nonce : Nat) (dispenser : GembaPayDispenser)
  /-- The process dies. -/
  | crash
  /-- The process starts, and can read the file or not. -/
  | restart (readable : Bool)

section
variable {F : Type} (env : Platform F) (cfg : Config F)

/-- The order whose payment a webhook confirms: one that was created, with a matching amount and
    currency. -/
def paid (created : Orders F) (req : Request) : List String :=
  match notice env cfg req with
  | .error _ => []
  | .ok n =>
    match created n.key with
    | none => []
    | some o => if succeeds (checkPaid env n o.eur) then [n.key] else []

/-- The order whose payment was acknowledged: the webhook that confirms it is answered 2xx. -/
def acknowledged (created : Orders F) (req : Request) (a : Answer) : List String :=
  if 200 ≤ a.status ∧ a.status < 300 then paid env cfg created req else []

namespace Process

variable (p : Process F)

/-- The order `id` is created. -/
def add (id : String) (o : Order F) : Process F :=
  { p with orders := fun k => if k = id then some o else p.orders k }

/-- `inflight.add(orderId)`, and the handler goes on. -/
def start (h : Handler) : Process F :=
  { p with inflight := h.orderId :: p.inflight, handlers := h :: p.handlers }

/-- The handler signed `tx` and waits for its receipt. -/
def sent (h : Handler) (tx : Tx) : Process F :=
  { p with handlers := { h with stage := .waiting tx } :: p.handlers.erase h }

/-- `o.status = 'fulfilled'`. -/
def fulfil (id : String) : Process F :=
  { p with orders := fun k =>
      if k = id then (p.orders k).map fun o => { o with status := .fulfilled } else p.orders k }

/-- `inflight.delete(orderId)`, and the handler is done. -/
def finish (h : Handler) : Process F :=
  { p with
    inflight := p.inflight.filter (· ≠ h.orderId)
    handlers := p.handlers.erase h }

variable {id k : String} {o : Order F}

theorem add_orders_self : (p.add id o).orders id = some o := if_pos rfl

theorem add_orders_of_ne (h : k ≠ id) : (p.add id o).orders k = p.orders k := if_neg h

theorem fulfil_orders_self :
    (p.fulfil id).orders id = (p.orders id).map fun o => { o with status := .fulfilled } :=
  if_pos rfl

theorem fulfil_orders_of_ne (h : k ≠ id) : (p.fulfil id).orders k = p.orders k := if_neg h

variable {p} {h : Handler} {tx : Tx}

/-- The handler of another order is not the one that goes. -/
theorem handler_erase (hother : h.orderId ≠ id) (hk : ∃ k ∈ p.handlers, k.orderId = id) :
    ∃ k ∈ p.handlers.erase h, k.orderId = id := by
  obtain ⟨k, hk, hkid⟩ := hk
  refine ⟨k, (List.mem_erase_of_ne ?_).mpr hk, hkid⟩
  rintro rfl
  exact hother hkid

/-- A handler that has signed is still of its order. -/
theorem handler_sent (hk : ∃ k ∈ p.handlers, k.orderId = id) :
    ∃ k ∈ (p.sent h tx).handlers, k.orderId = id := by
  by_cases hid : h.orderId = id
  · exact ⟨_, List.mem_cons_self, hid⟩
  · obtain ⟨k, hk, hkid⟩ := handler_erase hid hk
    exact ⟨k, List.mem_cons_of_mem _ hk, hkid⟩

end Process

namespace World

/-- The transaction a handler signs. -/
def signed (h : Handler) (nonce gasPrice : Nat) : Tx :=
  { nonce, gasPrice, dst := h.dst, amount := h.amount, ref := env.keccakId h.orderId,
    orderId := h.orderId }

@[simp] theorem signed_orderId {env : Platform F} {h : Handler} {nonce gasPrice : Nat} :
    (signed env h nonce gasPrice).orderId = h.orderId := rfl

/-- One event. -/
def step (w : World F) : Label F → Except Unit (World F)
  | .create body hex saved => do
    let p ← orThrow w.process ()
    let id := "gmb_" ++ hex
    -- twelve random bytes are not drawn twice
    failIf ((w.created id).isSome = true) ()
    match create env cfg body with
    | .error _ => .ok w
    | .ok o =>
      let p := p.add id o
      .ok { w with
        process := some p
        file := save w.file p.orders saved
        created := fun k => if k = id then some o else w.created k }
  | .webhook req => do
    let p ← orThrow w.process ()
    match webhook env cfg p.orders p.inflight req with
    | .error a => .ok { w with acked := acknowledged env cfg w.created req a ++ w.acked }
    | .ok h => .ok { w with process := some (p.start h) }
  | .broadcast h nonce gasPrice => do
    let p ← orThrow w.process ()
    failIf (h ∉ p.handlers ∨ h.stage ≠ .preparing) ()
    let tx := signed env h nonce gasPrice
    .ok { w with process := some (p.sent h tx), network := tx :: w.network }
  | .receipt h saved => do
    let p ← orThrow w.process ()
    failIf (h ∉ p.handlers ∨ ¬ ∃ e ∈ w.effects, h.stage = .waiting e.1) ()
    let p := p.fulfil h.orderId
    -- a `save` that throws is answered 500
    .ok { w with
      process := some (p.finish h)
      file := save w.file p.orders saved
      acked := if saved = .written then h.orderId :: w.acked else w.acked }
  | .fail h => do
    let p ← orThrow w.process ()
    failIf (h ∉ p.handlers) ()
    .ok { w with process := some (p.finish h) }
  | .included tx accepts => do
    failIf (tx ∉ w.network ∨ tx.nonce ≠ w.nonce) ()
    let w := { w with network := w.network.erase tx, nonce := w.nonce + 1 }
    match w.dispenser.dispense cfg.signer tx.dst tx.amount tx.ref accepts with
    | .error _ => .ok w
    | .ok (dispenser, event) => .ok { w with dispenser, effects := (tx, event) :: w.effects }
  | .drop tx => .ok { w with network := w.network.erase tx }
  | .chain nonce dispenser => do
    failIf (nonce < w.nonce) ()
    .ok { w with nonce, dispenser }
  | .crash => do
    failIf (w.process.isNone = true) ()
    .ok { w with process := none }
  | .restart readable => do
    failIf (w.process.isSome = true) ()
    let orders := if readable = true then load env w.file else fun _ => none
    .ok { w with process := some { orders, inflight := [], handlers := [] } }

/-- The server was never started. -/
structure Genesis (w : World F) : Prop where
  file : w.file = none
  process : w.process = none
  network : w.network = []
  effects : w.effects = []
  created : w.created = fun _ => none
  acked : w.acked = []

end World
end

/-! ## The shapes of a step -/

namespace World

variable {F : Type} {env : Platform F} {cfg : Config F} {w w' : World F} {l : Label F}

/-- **What an event does.** -/
inductive Stepped (env : Platform F) (cfg : Config F) (w : World F) : Label F → World F → Prop where
  /-- An order is new in memory, and in the file if the save succeeds. -/
  | create {p : Process F} {o : Order F} {body : Value F} {hex : String} {saved : Save}
      (hup : w.process = some p) (hnew : w.created ("gmb_" ++ hex) = none)
      (hpending : o.status = .pending) :
      Stepped env cfg w (.create body hex saved)
        { w with
          process := some (p.add ("gmb_" ++ hex) o)
          file := save w.file (p.add ("gmb_" ++ hex) o).orders saved
          created := fun k => if k = "gmb_" ++ hex then some o else w.created k }
  /-- A webhook is answered at once. -/
  | answer {p : Process F} {req : Request} {a : Answer} (hup : w.process = some p)
      (hanswer : webhook env cfg p.orders p.inflight req = .error a) :
      Stepped env cfg w (.webhook req)
        { w with acked := acknowledged env cfg w.created req a ++ w.acked }
  /-- A webhook starts a dispense. -/
  | start {p : Process F} {req : Request} {h : Handler} (hup : w.process = some p)
      (hstart : webhook env cfg p.orders p.inflight req = .ok h) :
      Stepped env cfg w (.webhook req) { w with process := some (p.start h) }
  /-- A handler broadcasts its transaction. -/
  | broadcast {p : Process F} {h : Handler} {nonce gasPrice : Nat} (hup : w.process = some p)
      (hmem : h ∈ p.handlers) (hstage : h.stage = .preparing) :
      Stepped env cfg w (.broadcast h nonce gasPrice)
        { w with
          process := some (p.sent h (signed env h nonce gasPrice))
          network := signed env h nonce gasPrice :: w.network }
  /-- A handler gets its receipt. -/
  | receipt {p : Process F} {h : Handler} {saved : Save} {e : Tx × Dispensed}
      (hup : w.process = some p) (hmem : h ∈ p.handlers) (heffect : e ∈ w.effects)
      (hstage : h.stage = .waiting e.1) :
      Stepped env cfg w (.receipt h saved)
        { w with
          process := some ((p.fulfil h.orderId).finish h)
          file := save w.file (p.fulfil h.orderId).orders saved
          acked := if saved = .written then h.orderId :: w.acked else w.acked }
  /-- A handler fails. -/
  | fail {p : Process F} {h : Handler} (hup : w.process = some p) (hmem : h ∈ p.handlers) :
      Stepped env cfg w (.fail h) { w with process := some (p.finish h) }
  /-- A dispense takes effect. -/
  | effect {tx : Tx} {accepts : Bool} {dispenser : GembaPayDispenser} {event : Dispensed}
      (hmem : tx ∈ w.network) (hnonce : tx.nonce = w.nonce) :
      Stepped env cfg w (.included tx accepts)
        { w with
          network := w.network.erase tx
          nonce := w.nonce + 1
          dispenser
          effects := (tx, event) :: w.effects }
  /-- The chain moves on, and the network may forget. -/
  | chain {l : Label F} {network : List Tx} {nonce : Nat} {dispenser : GembaPayDispenser}
      (hnetwork : network.Sublist w.network) (hnonce : w.nonce ≤ nonce) :
      Stepped env cfg w l { w with network, nonce, dispenser }
  | crash {p : Process F} (hup : w.process = some p) :
      Stepped env cfg w .crash { w with process := none }
  | restart {readable : Bool} (hdown : w.process = none) :
      Stepped env cfg w (.restart readable)
        { w with
          process := some ⟨if readable = true then load env w.file else fun _ => none, [], []⟩ }

/-- What is so of the process that runs. -/
theorem forall_process {P : Process F → Prop} {p : Process F} (hup : w.process = some p) (hp : P p) :
    ∀ q, w.process = some q → P q := by
  intro q hq
  rw [hup] at hq
  injection hq with hq
  rwa [← hq]

theorem step_inv (h : step env cfg w l = .ok w') : Stepped env cfg w l w' := by
  cases l with
  | create body hex saved =>
    obtain ⟨p, hup, h⟩ := bind_eq_ok.mp h
    obtain ⟨⟨⟩, hnew, h⟩ := bind_eq_ok.mp h
    rw [orThrow_eq_ok] at hup
    rw [failIf_eq_ok, Option.not_isSome_iff_eq_none] at hnew
    split at h
    · injection h with h
      subst h
      exact .chain (List.Sublist.refl _) le_rfl
    · rename_i o ho
      injection h with h
      subst h
      exact .create hup hnew (create_eq_ok ho)
  | webhook req =>
    obtain ⟨p, hup, h⟩ := bind_eq_ok.mp h
    rw [orThrow_eq_ok] at hup
    split at h
    · rename_i a hanswer
      injection h with h
      subst h
      exact .answer hup hanswer
    · rename_i k hstart
      injection h with h
      subst h
      exact .start hup hstart
  | broadcast k nonce gasPrice =>
    obtain ⟨p, hup, h⟩ := bind_eq_ok.mp h
    obtain ⟨⟨⟩, hk, h⟩ := bind_eq_ok.mp h
    rw [orThrow_eq_ok] at hup
    rw [failIf_eq_ok, not_or, not_not, not_not] at hk
    injection h with h
    subst h
    exact .broadcast hup hk.1 hk.2
  | receipt k saved =>
    obtain ⟨p, hup, h⟩ := bind_eq_ok.mp h
    obtain ⟨⟨⟩, hk, h⟩ := bind_eq_ok.mp h
    rw [orThrow_eq_ok] at hup
    rw [failIf_eq_ok, not_or, not_not, not_not] at hk
    obtain ⟨hmem, e, heffect, hstage⟩ := hk
    injection h with h
    subst h
    exact .receipt hup hmem heffect hstage
  | fail k =>
    obtain ⟨p, hup, h⟩ := bind_eq_ok.mp h
    obtain ⟨⟨⟩, hk, h⟩ := bind_eq_ok.mp h
    rw [orThrow_eq_ok] at hup
    rw [failIf_eq_ok, not_not] at hk
    injection h with h
    subst h
    exact .fail hup hk
  | included tx accepts =>
    obtain ⟨htx, h⟩ := failIf_bind_eq_ok.mp h
    rw [not_or, not_not, not_not] at htx
    dsimp only at h
    split at h
    · injection h with h
      subst h
      exact .chain List.erase_sublist (Nat.le_succ _)
    · injection h with h
      subst h
      exact .effect htx.1 htx.2
  | drop tx =>
    injection h with h
    subst h
    exact .chain List.erase_sublist le_rfl
  | chain nonce dispenser =>
    obtain ⟨hnonce, h⟩ := failIf_bind_eq_ok.mp h
    rw [not_lt] at hnonce
    injection h with h
    subst h
    exact .chain (List.Sublist.refl _) hnonce
  | crash =>
    obtain ⟨hup, h⟩ := failIf_bind_eq_ok.mp h
    rw [Option.isNone_iff_eq_none] at hup
    obtain ⟨p, hup⟩ := Option.ne_none_iff_exists'.mp hup
    injection h with h
    subst h
    exact .crash hup
  | restart readable =>
    obtain ⟨hdown, h⟩ := failIf_bind_eq_ok.mp h
    rw [Option.not_isSome_iff_eq_none] at hdown
    injection h with h
    subst h
    exact .restart hdown

/-! ## The dispenses of an order -/

/-- How many dispenses of the order took effect. -/
def dispensed (w : World F) (id : String) : Nat := w.effects.countP (fun e => e.1.orderId = id)

/-- How many dispenses of the order took effect, or are broadcast under a nonce that can still come
    up. -/
def outstanding (w : World F) (id : String) : Nat :=
  w.dispensed id + w.network.countP (fun tx => tx.orderId = id ∧ w.nonce ≤ tx.nonce)

variable {id : String}

/-- A broadcast adds one, to its own order. -/
theorem outstanding_broadcast (w : World F) (tx : Tx) (process : Option (Process F)) (id : String) :
    outstanding { w with process, network := tx :: w.network } id
      ≤ w.outstanding id + if tx.orderId = id then 1 else 0 := by
  show w.effects.countP _ + (tx :: w.network).countP (fun tx => tx.orderId = id ∧ w.nonce ≤ tx.nonce)
    ≤ w.effects.countP _ + w.network.countP _ + _
  rw [List.countP_cons]
  by_cases htx : tx.orderId = id
  · rw [if_pos htx]
    split <;> omega
  · rw [if_neg htx, if_neg (fun h => htx (of_decide_eq_true h).1)]
    omega

/-- Time adds none. -/
theorem outstanding_chain {network : List Tx} {nonce : Nat} {dispenser : GembaPayDispenser}
    (hnetwork : network.Sublist w.network) (hnonce : w.nonce ≤ nonce) :
    outstanding { w with network, nonce, dispenser } id ≤ w.outstanding id := by
  apply Nat.add_le_add_left
  refine le_trans (List.countP_mono_left ?_) hnetwork.countP_le
  intro tx _ htx
  obtain ⟨hid, hle⟩ := of_decide_eq_true htx
  exact decide_eq_true ⟨hid, le_trans hnonce hle⟩

/-- A transaction that takes effect was outstanding before. -/
theorem outstanding_effect {tx : Tx} {event : Dispensed} {dispenser : GembaPayDispenser}
    (hmem : tx ∈ w.network) (hnonce : tx.nonce = w.nonce) :
    outstanding { w with
      network := w.network.erase tx
      nonce := w.nonce + 1
      dispenser
      effects := (tx, event) :: w.effects } id ≤ w.outstanding id := by
  have hlater : (w.network.erase tx).countP (fun tx => tx.orderId = id ∧ w.nonce + 1 ≤ tx.nonce)
      ≤ (w.network.erase tx).countP (fun tx => tx.orderId = id ∧ w.nonce ≤ tx.nonce) := by
    apply List.countP_mono_left
    intro tx _ htx
    obtain ⟨hid, hle⟩ := of_decide_eq_true htx
    exact decide_eq_true ⟨hid, by omega⟩
  have hnetwork := (List.perm_cons_erase hmem).countP_eq
    (fun tx => decide (tx.orderId = id ∧ w.nonce ≤ tx.nonce))
  rw [List.countP_cons] at hnetwork
  show ((tx, event) :: w.effects).countP (fun e => e.1.orderId = id)
      + (w.network.erase tx).countP (fun tx => tx.orderId = id ∧ w.nonce + 1 ≤ tx.nonce)
    ≤ w.effects.countP _ + w.network.countP (fun tx => tx.orderId = id ∧ w.nonce ≤ tx.nonce)
  rw [List.countP_cons]
  by_cases htx : tx.orderId = id
  · rw [if_pos (decide_eq_true ⟨htx, by omega⟩)] at hnetwork
    rw [if_pos (decide_eq_true htx)]
    omega
  · rw [if_neg (fun h => htx (of_decide_eq_true h).1)] at hnetwork
    rw [if_neg (fun h => htx (of_decide_eq_true h))]
    omega

end World

/-! ## A sale of ten GMB

  The libraries by what they return on the values of this sale; its numbers are whole euros and whole
  GMB. -/

namespace Sample

def buyer : Address := 0xb0b
def buyerText : String := "0x0000000000000000000000000000000000000b0b"
def orderHex : String := "000102030405060708090a0b"
def orderId : String := "gmb_000102030405060708090a0b"

/-- The webhook's body, as the gateway signs it. -/
def raw : List UInt8 :=
  ("\x7b\"event\":\"payment.completed\",\"payment\":\x7b\"orderId\":" ++
    "\"gmb_000102030405060708090a0b\",\"amount\":10,\"currency\":\"EUR\"\x7d\x7d").toUTF8.data.toList

def signature : String := "174242fddba99f39069023597806627016e616c582a4561f57e6315bb7cc98c7"

def env : Platform Rat where
  nan := 0
  zero := 0
  one := 1
  hundredths n := n / 100
  sub a b := a - b
  mul a b := a * b
  div a b := a / b
  abs a := if a < 0 then -a else a
  round a := (a + 1 / 2).floor
  gt a b := decide (b < a)
  le a b := decide (a ≤ b)
  isFinite _ := true
  truthy a := decide (a ≠ 0)
  parseNumber _ := 0
  printNumber a := if a = 10 then "10" else ""
  toUpperCase s := s
  trim s := s
  parseJson r := if r = raw then
      some (.obj [("event", .str "payment.completed"),
        ("payment", .obj [("orderId", .str orderId), ("amount", .num 10), ("currency", .str "EUR")])])
    else none
  hmac key r := if key = "whsec" ∧ r = raw then signature else ""
  isAddress s := if s = buyerText then some buyer else none
  parseEther s := if s = "10" then some (10 * 10 ^ 18) else none
  keccakId _ := 0xe6dcd86e34ca55ad3f231038e5ddcd0fd25b47dad45032b67836114bf5d1c377

def cfg : Config Rat where
  whsec := "whsec"
  signer := 0x51
  pricePerGmbEur := 1
  minGmb := 10
  maxGmb := 10000

def start : World Rat where
  file := none
  process := none
  network := []
  nonce := 0
  dispenser := ⟨0x51, false, 100 * 10 ^ 18⟩
  effects := []
  created := fun _ => none
  acked := []

theorem start_genesis : World.Genesis start := ⟨rfl, rfl, rfl, rfl, rfl, rfl⟩

/-- The order. -/
def ordered : Label Rat :=
  .create (.obj [("evmAddress", .str buyerText), ("gmbAmount", .num 10)]) orderHex .written

/-- The webhook of its payment. -/
def completed : Request := ⟨some signature, none, raw⟩

/-- The handler of such a webhook. -/
def handler : Handler := ⟨orderId, buyer, 10 * 10 ^ 18, .preparing⟩

/-- The transaction it signs with a nonce. -/
def dispenseTx (nonce : Nat) : Tx := World.signed env handler nonce 1

/-- The handler, once it has signed. -/
def waiting (nonce : Nat) : Handler := { handler with stage := .waiting (dispenseTx nonce) }

end Sample
end Gemba.Purchase
