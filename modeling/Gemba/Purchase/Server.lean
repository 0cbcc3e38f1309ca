/-
  The purchase backend: orders, webhooks and dispenses.

  A buyer creates an order, pays it at the payment gateway, and the gateway posts a signed
  `payment.completed` webhook; the handler looks the order up and dispenses its GMB on chain.  The
  functions here are what a handler does between two awaits, on the memory of the process: `create`
  up to the gateway's request, and `webhook` up to the dispense.  What they decide is an `Except`: a
  handler that answers at once returns its answer as an error, one that goes on returns what it goes
  on with.  An exception anywhere is answered 500.

  The two maps of the process are the orders and the set of orders being dispensed.  The orders are
  also in the store file, which a start reads: a file that is missing or does not parse is an empty
  store.
-/
import Gemba.Lib.Outcome
import Gemba.Evm.Basic
import Gemba.Js.Value

namespace Gemba.Purchase

open Gemba.Lib Gemba.Evm Gemba.Js

/-- The language and the libraries the server runs on. -/
structure Platform (F : Type) extends Runtime F where
  /-- `crypto.createHmac('sha256', key).update(raw).digest('hex')`. -/
  hmac : String → List UInt8 → String
  /-- `isAddress`, and the address meant. -/
  isAddress : String → Option Address
  /-- `parseEther`, `none` when it throws or the result is no `uint256`. -/
  parseEther : String → Option Nat
  /-- `id`, the `keccak256` of a string. -/
  keccakId : String → BitVec 256

/-- What the handlers read of `cfg`. -/
structure Config (F : Type) where
  whsec : String
  /-- The account of `ownerPk`. -/
  signer : Address
  pricePerGmbEur : F
  minGmb : F
  maxGmb : F

inductive Status where
  | pending
  | fulfilled
deriving DecidableEq, Repr

/-- An order of the store. -/
structure Order (F : Type) where
  evmAddress : String
  gmbAmount : Value F
  eur : Value F
  status : Status

/-- The orders by their id. -/
abbrev Orders (F : Type) := String → Option (Order F)

/-- A dispense transaction the server signed. -/
structure Tx where
  nonce : Nat
  gasPrice : Nat
  dst : Address
  amount : Nat
  ref : BitVec 256
  /-- The order it is for, which the chain sees as `ref` only. -/
  orderId : String
deriving DecidableEq, Repr

/-- Where a webhook handler is in `dispenseGmb`. -/
inductive Stage where
  /-- Asking the node for what the transaction needs. -/
  | preparing
  /-- Waiting for the transaction's receipt. -/
  | waiting (tx : Tx)
deriving DecidableEq, Repr

/-- A webhook handler that is dispensing. -/
structure Handler where
  orderId : String
  dst : Address
  amount : Nat
  stage : Stage
deriving DecidableEq, Repr

/-! ## The store -/

/-- How a `save` went. -/
inductive Save where
  | written
  /-- It threw before it touched the file. -/
  | failed
  /-- It threw, or the process died, with the file truncated. -/
  | torn
deriving DecidableEq, Repr

/-- `save(s)`, on what the file parses to. -/
def save {F : Type} (file : Option (Orders F)) (orders : Orders F) : Save → Option (Orders F)
  | .written => some orders
  | .failed => file
  | .torn => none

/-- `load()`. -/
def load {F : Type} (env : Platform F) (file : Option (Orders F)) : Orders F := fun id =>
  match file with
  | none => none
  | some orders => (orders id).map fun o =>
      { o with gmbAmount := o.gmbAmount.stored env.toRuntime, eur := o.eur.stored env.toRuntime }

/-- A save leaves the orders saved or those of the file. -/
theorem save_eq_some {F : Type} {file : Option (Orders F)} {orders orders' : Orders F} {saved : Save}
    (h : save file orders saved = some orders') : orders' = orders ∨ file = some orders' := by
  cases saved with
  | written =>
    injection h with h
    exact .inl h.symm
  | failed => exact .inr h
  | torn => nomatch h

/-- An order that was loaded is one of the file, with its status. -/
theorem load_eq_some {F : Type} {env : Platform F} {file : Option (Orders F)} {id : String}
    {o : Order F} (h : load env file id = some o) :
    ∃ orders o', file = some orders ∧ orders id = some o' ∧ o'.status = o.status := by
  cases hfile : file with
  | none =>
    rw [hfile] at h
    nomatch h
  | some orders =>
    rw [hfile] at h
    obtain ⟨o', ho', h⟩ := Option.map_eq_some_iff.mp h
    exact ⟨orders, o', rfl, ho', by rw [← h]⟩

/-! ## `POST /create` -/

/-- An answer that is an error. -/
structure Refusal where
  status : Nat
  error : String
deriving DecidableEq, Repr

section
variable {F : Type} (env : Platform F) (cfg : Config F)

/-- `POST /create` up to the new order. -/
def create (body : Value F) : Except Refusal (Order F) := do
  let failed : Refusal := ⟨500, "create_failed"⟩
  let evmAddress ← orThrow (body.get "evmAddress") failed
  let evmAddress ← orThrow ((evmAddress.or env.toRuntime (.str "")).text env.toRuntime) failed
  let evmAddress := env.trim evmAddress
  let gmbAmount ← orThrow (body.get "gmbAmount") failed
  let gmb ← orThrow (gmbAmount.number env.toRuntime) failed
  failIf (env.isAddress evmAddress = none) ⟨400, "invalid_evm_address"⟩
  failIf (¬ (env.le cfg.minGmb gmb = true ∧ env.le gmb cfg.maxGmb = true)) ⟨400, "invalid_amount"⟩
  let hundred := env.hundredths 10000
  let eur := env.div (env.round (env.mul (env.mul gmb cfg.pricePerGmbEur) hundred)) hundred
  .ok { evmAddress, gmbAmount := .num gmb, eur := .num eur, status := .pending }

/-! ## `POST /webhook` -/

/-- What a webhook is answered. -/
inductive Answer where
  | badSignature
  | ignored
  | unknown
  | already
  | currencyMismatch
  | amountMismatch
  /-- The order was dispensed. -/
  | ok
  | failed
deriving DecidableEq, Repr

/-- The status code. -/
def Answer.status : Answer → Nat
  | .badSignature => 401
  | .ignored => 200
  | .unknown => 200
  | .already => 200
  | .currencyMismatch => 400
  | .amountMismatch => 400
  | .ok => 200
  | .failed => 500

/-- A webhook request. -/
structure Request where
  /-- `x-gembapay-signature`. -/
  signature : Option String
  /-- `x-gembapay-event`. -/
  event : Option String
  raw : List UInt8
deriving DecidableEq, Repr

/-- What a webhook of a completed payment says. -/
structure Notice (F : Type) where
  orderId : Value F
  /-- `orderId` as a property name. -/
  key : String
  payment : Value F
  body : Value F

/-- The signature check.  `timingSafeEqual` throws on buffers of two lengths. -/
def checkSignature (req : Request) : Except Answer PUnit := do
  let sig := req.signature.getD ""
  let expected := env.hmac cfg.whsec req.raw
  failIf (sig.length ≠ expected.length) .badSignature
  failIf (sig.utf8ByteSize ≠ expected.utf8ByteSize) .failed
  failIf (sig ≠ expected) .badSignature

/-- A webhook as far as the order it names. -/
def notice (req : Request) : Except Answer (Notice F) := do
  checkSignature env cfg req
  let body ← orThrow (env.parseJson req.raw) .failed
  let event ← orThrow (body.get "event") .failed
  let payment ← orThrow (body.get "payment") .failed
  let event := event.or env.toRuntime (req.event.elim .undefined .str)
  let payment := payment.or env.toRuntime (.obj [])
  failIf (event.isStr "payment.completed" = false) .ignored
  let orderId ← orThrow (payment.get "orderId") .failed
  let key ← orThrow (orderId.text env.toRuntime) .failed
  .ok ⟨orderId, key, payment, body⟩

/-- The currency and the amount paid, against the order's `eur`.  Fields the webhook does not carry
    are not checked. -/
def checkPaid (n : Notice F) (eur : Value F) : Except Answer PUnit := do
  let currency ← orThrow (n.payment.get "currency") .failed
  let currency' ← orThrow (n.body.get "currency") .failed
  let currency := (currency.or env.toRuntime currency').or env.toRuntime (.str "")
  let paidCcy ← orThrow (currency.text env.toRuntime) .failed
  let paidCcy := env.toUpperCase paidCcy
  let amount ← orThrow (n.payment.get "amount") .failed
  let amount' ← orThrow (n.body.get "amount") .failed
  let paidAmt ← orThrow ((amount.coalesce amount').number env.toRuntime) .failed
  failIf (paidCcy ≠ "" ∧ paidCcy ≠ "EUR") .currencyMismatch
  let eur ← orThrow (eur.number env.toRuntime) .failed
  failIf (env.isFinite paidAmt = true ∧ env.gt (env.abs (env.sub paidAmt eur)) (env.hundredths 1) = true)
    .amountMismatch

/-- What `orders[orderId]` finds: an order, or a property every object inherits. -/
inductive Found (F : Type) where
  | own (o : Order F)
  | inherited

/-- `orders[orderId]`. -/
def lookup (orders : Orders F) (key : String) : Except Answer (Found F) :=
  match orders key with
  | some o => .ok (.own o)
  | none => if key ∈ objectPrototype then .ok .inherited else .error .unknown

/-- `o.status === 'fulfilled'`. -/
def Found.fulfilled : Found F → Bool
  | .own o => o.status = .fulfilled
  | .inherited => false

/-- `o.eur`. -/
def Found.eur : Found F → Value F
  | .own o => o.eur
  | .inherited => .undefined

/-- `inflight.has(orderId)`: only strings are ever in the set. -/
def isInflight (inflight : List String) : Value F → Bool
  | .str id => id ∈ inflight
  | _ => false

/-- `dispenseGmb` up to its first request to the node.  It throws on an id that is no string, and on
    an inherited property, which has no amount. -/
def prepare (orderId : Value F) (found : Found F) : Except Answer Handler :=
  match orderId, found with
  | .str id, .own o => do
    let gmbAmount ← orThrow (o.gmbAmount.text env.toRuntime) .failed
    let amount ← orThrow (env.parseEther gmbAmount) .failed
    let dst ← orThrow (env.isAddress o.evmAddress) .failed
    .ok { orderId := id, dst, amount, stage := .preparing }
  | _, _ => .error .failed

/-- `POST /webhook` up to the first request to the node. -/
def webhook (orders : Orders F) (inflight : List String) (req : Request) :
    Except Answer Handler := do
  let n ← notice env cfg req
  let o ← lookup orders n.key
  failIf (o.fulfilled = true ∨ isInflight inflight n.orderId = true) .already
  checkPaid env n o.eur
  prepare env n.orderId o

end

/-! ## What a new order is, and what a dispense starts from -/

section
variable {F : Type} {env : Platform F} {cfg : Config F} {orders : Orders F} {inflight : List String}
  {req : Request} {k : Handler} {n : Notice F} {key : String} {o : Order F}

theorem create_eq_ok {body : Value F} (h : create env cfg body = .ok o) : o.status = .pending := by
  obtain ⟨evmAddress, -, h⟩ := bind_eq_ok.mp h
  obtain ⟨evmAddress, -, h⟩ := bind_eq_ok.mp h
  obtain ⟨gmbAmount, -, h⟩ := bind_eq_ok.mp h
  obtain ⟨gmb, -, h⟩ := bind_eq_ok.mp h
  obtain ⟨-, h⟩ := failIf_bind_eq_ok.mp h
  obtain ⟨-, h⟩ := failIf_bind_eq_ok.mp h
  injection h with h
  rw [← h]

theorem lookup_eq_own : lookup orders key = .ok (.own o) ↔ orders key = some o := by
  unfold lookup
  cases horder : orders key with
  | some o' =>
    show Except.ok (Found.own o') = .ok (.own o) ↔ some o' = some o
    constructor
    · intro h
      injection h with h
      injection h with h
      rw [h]
    · intro h
      injection h with h
      rw [h]
  | none =>
    constructor
    · intro h
      dsimp only at h
      rcases ite_eq_ok.mp h with ⟨-, h⟩ | ⟨-, h⟩
      · nomatch h
      · nomatch h
    · intro h
      nomatch h

/-- The name of a string is the string. -/
theorem notice_key {id : String} (h : notice env cfg req = .ok n) (hid : n.orderId = .str id) :
    n.key = id := by
  obtain ⟨⟨⟩, -, h⟩ := bind_eq_ok.mp h
  obtain ⟨body, -, h⟩ := bind_eq_ok.mp h
  obtain ⟨event, -, h⟩ := bind_eq_ok.mp h
  obtain ⟨payment, -, h⟩ := bind_eq_ok.mp h
  obtain ⟨-, h⟩ := failIf_bind_eq_ok.mp h
  obtain ⟨orderId, -, h⟩ := bind_eq_ok.mp h
  obtain ⟨key, hkey, h⟩ := bind_eq_ok.mp h
  injection h with h
  subst h
  dsimp only at hid
  subst hid
  rw [orThrow_eq_ok] at hkey
  injection hkey with hkey
  exact hkey.symm

/-- A dispense is prepared for an order of the store under the string that names it. -/
theorem prepare_eq_ok {orderId : Value F} {found : Found F}
    (h : prepare env orderId found = .ok k) :
    orderId = .str k.orderId ∧ k.stage = .preparing ∧ ∃ o, found = .own o := by
  cases orderId with
  | str id =>
    cases found with
    | own o =>
      obtain ⟨gmbAmount, -, h⟩ := bind_eq_ok.mp h
      obtain ⟨amount, -, h⟩ := bind_eq_ok.mp h
      obtain ⟨dst, -, h⟩ := bind_eq_ok.mp h
      injection h with h
      subst h
      exact ⟨rfl, rfl, o, rfl⟩
    | inherited => nomatch h
  | undefined => nomatch h
  | null => nomatch h
  | bool _ => nomatch h
  | num _ => nomatch h
  | arr _ => nomatch h
  | obj _ => nomatch h

/-- **A webhook starts a dispense** only for an order it finds pending and not being dispensed. -/
theorem webhook_eq_ok (h : webhook env cfg orders inflight req = .ok k) :
    k.stage = .preparing ∧ k.orderId ∉ inflight ∧
      ∃ o, orders k.orderId = some o ∧ o.status = .pending := by
  obtain ⟨n, hn, h⟩ := bind_eq_ok.mp h
  obtain ⟨found, hfound, h⟩ := bind_eq_ok.mp h
  obtain ⟨⟨⟩, hopen, h⟩ := bind_eq_ok.mp h
  obtain ⟨⟨⟩, -, h⟩ := bind_eq_ok.mp h
  rw [failIf_eq_ok, not_or] at hopen
  obtain ⟨hid, hstage, o, rfl⟩ := prepare_eq_ok h
  have hkey : n.key = k.orderId := notice_key hn hid
  rw [hkey, lookup_eq_own] at hfound
  refine ⟨hstage, ?_, o, hfound, ?_⟩
  · intro hmem
    apply hopen.2
    rw [hid]
    exact decide_eq_true hmem
  · cases hstatus : o.status with
    | pending => rfl
    | fulfilled => exact absurd (decide_eq_true hstatus) hopen.1

/-- A payment that does not match is not answered 2xx. -/
theorem checkPaid_eq_error {eur : Value F} {a : Answer} (h : checkPaid env n eur = .error a) :
    300 ≤ a.status := by
  rcases bind_eq_error.mp h with h | ⟨currency, -, h⟩
  · rw [orThrow_eq_error h]
    decide
  rcases bind_eq_error.mp h with h | ⟨currency', -, h⟩
  · rw [orThrow_eq_error h]
    decide
  rcases bind_eq_error.mp h with h | ⟨paidCcy, -, h⟩
  · rw [orThrow_eq_error h]
    decide
  rcases bind_eq_error.mp h with h | ⟨amount, -, h⟩
  · rw [orThrow_eq_error h]
    decide
  rcases bind_eq_error.mp h with h | ⟨amount', -, h⟩
  · rw [orThrow_eq_error h]
    decide
  rcases bind_eq_error.mp h with h | ⟨paidAmt, -, h⟩
  · rw [orThrow_eq_error h]
    decide
  rcases bind_eq_error.mp h with h | ⟨⟨⟩, -, h⟩
  · rw [(failIf_eq_error h).2]
    decide
  rcases bind_eq_error.mp h with h | ⟨eur, -, h⟩
  · rw [orThrow_eq_error h]
    decide
  rw [(failIf_eq_error h).2]
  decide

/-- Neither is an exception of `dispenseGmb`. -/
theorem prepare_eq_error {orderId : Value F} {found : Found F} {a : Answer}
    (h : prepare env orderId found = .error a) : 300 ≤ a.status := by
  have hfailed : a = .failed := by
    unfold prepare at h
    split at h
    · rcases bind_eq_error.mp h with h | ⟨gmbAmount, -, h⟩
      · exact orThrow_eq_error h
      rcases bind_eq_error.mp h with h | ⟨amount, -, h⟩
      · exact orThrow_eq_error h
      rcases bind_eq_error.mp h with h | ⟨dst, -, h⟩
      · exact orThrow_eq_error h
      nomatch h
    · injection h with h
      exact h.symm
  rw [hfailed]
  decide

/-- **A completed payment answered 2xx at once** is one of an order the store does not have, or has as
    fulfilled, or that is being dispensed. -/
theorem webhook_eq_error {a : Answer} (h : webhook env cfg orders inflight req = .error a)
    (hn : notice env cfg req = .ok n) (ha : a.status < 300) :
    orders n.key = none ∨ (∃ o, orders n.key = some o ∧ o.status = .fulfilled) ∨ n.key ∈ inflight := by
  rcases bind_eq_error.mp h with h | ⟨n', hn', h⟩
  · rw [hn] at h
    nomatch h
  rw [hn] at hn'
  injection hn' with hn'
  subst hn'
  cases horder : orders n.key with
  | none => exact .inl rfl
  | some o =>
    rw [lookup_eq_own.mpr horder, ok_bind] at h
    rcases bind_eq_error.mp h with h | ⟨⟨⟩, -, h⟩
    · rcases (failIf_eq_error h).1 with hfulfilled | hinflight
      · exact .inr (.inl ⟨o, rfl, of_decide_eq_true hfulfilled⟩)
      · -- only a string is in flight
        cases horderId : n.orderId with
        | str id =>
          rw [horderId] at hinflight
          rw [notice_key hn horderId]
          exact .inr (.inr (of_decide_eq_true hinflight))
        | _ =>
          rw [horderId] at hinflight
          nomatch hinflight
    · rcases bind_eq_error.mp h with h | ⟨⟨⟩, -, h⟩
      · have := checkPaid_eq_error h
        omega
      · have := prepare_eq_error h
        omega

end
end Gemba.Purchase
