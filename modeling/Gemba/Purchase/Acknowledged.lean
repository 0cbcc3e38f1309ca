/-
  What an answer to the gateway is worth.

  A gateway that is answered 2xx delivers the webhook no more, so from then on the order is in the
  server's hands.  Three kinds of answer are 2xx while nothing is dispensed by it: `already`, of an
  order that is fulfilled or being dispensed, and `unknown`, of one the server does not have.  Being
  dispensed is no promise: the handler that dispenses may fail, or die with the process, after the
  second webhook was sent home (`acknowledged_undelivered`).  And an order the store has lost is paid
  all the same.

  So the acknowledged orders are dispensed as long as the dispense they were acknowledged for is not
  given up before it took effect, and no payment of an order the store has lost is acknowledged
  (`acknowledged_fulfilled`).  In between, an acknowledged order is dispensed or has a handler.
-/
import Gemba.Purchase.Fulfilment

namespace Gemba.Purchase

open Gemba.Lib Gemba.Evm Gemba.Js

namespace World

section
variable {F : Type} {env : Platform F} {cfg : Config F} {w w' w₀ : World F} {l : Label F}
  {as : List (Label F)} {id : String}

/-- A dispense of the order took effect. -/
abbrev Effective (w : World F) (id : String) : Prop := 0 < w.dispensed id

theorem effective_of_mem {e : Tx × Dispensed} (hmem : e ∈ w.effects) (hid : e.1.orderId = id) :
    w.Effective id :=
  List.countP_pos_iff.mpr ⟨e, hmem, decide_eq_true hid⟩

/-- No acknowledged order is given up before its dispense took effect: its handler neither fails nor
    dies, and its payment is not acknowledged when the server does not have it. -/
def Honoured (env : Platform F) (cfg : Config F) (w : World F) : Label F → Prop
  | .webhook req => ∀ p ∈ w.process, ∀ id ∈ paid env cfg w.created req,
      (p.orders id).isNone = true → w.Effective id
  | .fail h => h.orderId ∈ w.acked → w.Effective h.orderId
  | .crash => ∀ p ∈ w.process, ∀ h ∈ p.handlers, h.orderId ∈ w.acked → w.Effective h.orderId
  | _ => True

instance : DecidablePred (Honoured env cfg w)
  | .webhook _ => inferInstanceAs (Decidable (∀ _ ∈ _, _))
  | .fail _ => inferInstanceAs (Decidable (_ → _))
  | .crash => inferInstanceAs (Decidable (∀ _ ∈ _, _))
  | .create _ _ _ => .isTrue trivial
  | .broadcast _ _ _ => .isTrue trivial
  | .receipt _ _ => .isTrue trivial
  | .included _ _ => .isTrue trivial
  | .drop _ => .isTrue trivial
  | .chain _ _ => .isTrue trivial
  | .restart _ => .isTrue trivial

/-- The order of a webhook that confirms a payment is the one its notice names. -/
theorem mem_paid {created : Orders F} {req : Request} (h : id ∈ paid env cfg created req) :
    ∃ n, notice env cfg req = .ok n ∧ n.key = id := by
  unfold paid at h
  split at h
  · nomatch h
  · rename_i n hn
    split at h
    · nomatch h
    · split at h
      · exact ⟨n, hn, (List.mem_singleton.mp h).symm⟩
      · nomatch h

/-! ## The invariant -/

/-- The orders marked fulfilled were dispensed. -/
def Truthful (w : World F) (orders : Orders F) : Prop :=
  ∀ id o, orders id = some o → o.status = .fulfilled → w.Effective id

/-- What the memory of a process says is so. -/
structure Honest (w : World F) (p : Process F) : Prop where
  orders : w.Truthful p.orders
  /-- An order in flight has a handler. -/
  inflight : ∀ id ∈ p.inflight, ∃ h ∈ p.handlers, h.orderId = id
  /-- A handler waits for a transaction of its order. -/
  waiting : ∀ h ∈ p.handlers, ∀ tx, h.stage = .waiting tx → tx.orderId = h.orderId

/-- The order is being dispensed. -/
def InHand (w : World F) (id : String) : Prop :=
  ∃ p, w.process = some p ∧ ∃ h ∈ p.handlers, h.orderId = id

/-- **An acknowledged order is dispensed or being dispensed.** -/
structure Accounted (w : World F) : Prop where
  acked : ∀ id ∈ w.acked, w.Effective id ∨ w.InHand id
  process : ∀ p, w.process = some p → w.Honest p
  file : ∀ orders, w.file = some orders → w.Truthful orders

theorem Genesis.accounted (h : Genesis w) : Accounted w := by
  refine ⟨?_, ?_, ?_⟩
  · intro id hid
    rw [h.acked] at hid
    nomatch hid
  · intro p hup
    rw [h.process] at hup
    nomatch hup
  · intro orders hfile
    rw [h.file] at hfile
    nomatch hfile

theorem Honest.later {p : Process F} (hp : w.Honest p)
    (heffects : ∀ id, w.Effective id → w'.Effective id) : w'.Honest p :=
  ⟨fun id o ho hstatus => heffects id (hp.orders id o ho hstatus), hp.inflight, hp.waiting⟩

/-- The effects only grow, so what was so stays so. -/
theorem Accounted.later (hw : Accounted w) (hprocess : w'.process = w.process)
    (hfile : w'.file = w.file) (hacked : w'.acked = w.acked)
    (heffects : ∀ id, w.Effective id → w'.Effective id) : Accounted w' := by
  refine ⟨?_, ?_, ?_⟩
  · intro id hid
    rw [hacked] at hid
    rcases hw.acked id hid with heff | ⟨p, hup, hhand⟩
    · exact .inl (heffects id heff)
    · exact .inr ⟨p, hprocess.trans hup, hhand⟩
  · intro p hup
    rw [hprocess] at hup
    exact (hw.process p hup).later heffects
  · intro orders horders
    rw [hfile] at horders
    exact fun id o ho hstatus => heffects id (hw.file orders horders id o ho hstatus)

theorem Truthful.save {file : Option (Orders F)} {orders orders' : Orders F} {saved : Save}
    (hfile : ∀ orders, file = some orders → w.Truthful orders) (horders : w.Truthful orders)
    (h : Purchase.save file orders saved = some orders') : w.Truthful orders' := by
  rcases save_eq_some h with rfl | h
  · exact horders
  · exact hfile orders' h

/-- An order stays in hand while the process keeps a handler of it. -/
theorem InHand.keep {p q : Process F} (hhand : w.InHand id) (hup : w.process = some p)
    (hup' : w'.process = some q)
    (hkept : (∃ h ∈ p.handlers, h.orderId = id) → ∃ h ∈ q.handlers, h.orderId = id) :
    w'.InHand id := by
  obtain ⟨p', hp', hhandler⟩ := hhand
  rw [hup] at hp'
  injection hp' with hp'
  subst hp'
  exact ⟨q, hup', hkept hhandler⟩

/-- A handler of another order stays in hand when `h` is done. -/
theorem InHand.finish {p q : Process F} {h : Handler} (hhand : w.InHand id) (hup : w.process = some p)
    (hother : h.orderId ≠ id) (hup' : w'.process = some q) (hq : q.handlers = p.handlers.erase h) :
    w'.InHand id := by
  refine hhand.keep hup hup' ?_
  rw [hq]
  exact Process.handler_erase hother

/-- A new order is pending. -/
theorem Truthful.add {p : Process F} {o : Order F} (horders : w.Truthful p.orders)
    (hpending : o.status = .pending) : w.Truthful (p.add id o).orders := by
  intro k o' ho' hstatus
  by_cases hk : k = id
  · rw [hk, p.add_orders_self] at ho'
    injection ho' with ho'
    rw [← ho', hpending] at hstatus
    nomatch hstatus
  · rw [p.add_orders_of_ne hk] at ho'
    exact horders k o' ho' hstatus

theorem Truthful.fulfil {p : Process F} (horders : w.Truthful p.orders) (heff : w.Effective id) :
    w.Truthful (p.fulfil id).orders := by
  intro k o ho hstatus
  by_cases hk : k = id
  · rw [hk]
    exact heff
  · rw [p.fulfil_orders_of_ne hk] at ho
    exact horders k o ho hstatus

theorem Honest.start {p : Process F} {h : Handler} (hp : w.Honest p) (hstage : h.stage = .preparing) :
    w.Honest (p.start h) := by
  refine ⟨hp.orders, ?_, ?_⟩
  · intro id hid
    rcases List.mem_cons.mp hid with rfl | hid
    · exact ⟨h, List.mem_cons_self, rfl⟩
    · obtain ⟨k, hk, hkid⟩ := hp.inflight id hid
      exact ⟨k, List.mem_cons_of_mem _ hk, hkid⟩
  · intro k hk tx hwaiting
    rcases List.mem_cons.mp hk with rfl | hk
    · rw [hstage] at hwaiting
      nomatch hwaiting
    · exact hp.waiting k hk tx hwaiting

theorem Honest.sent {p : Process F} {h : Handler} {tx : Tx} (hp : w.Honest p)
    (htx : tx.orderId = h.orderId) : w.Honest (p.sent h tx) := by
  refine ⟨hp.orders, fun id hid => Process.handler_sent (hp.inflight id hid), ?_⟩
  intro k hk tx' hwaiting
  rcases List.mem_cons.mp hk with rfl | hk
  · injection hwaiting with hwaiting
    rw [← hwaiting]
    exact htx
  · exact hp.waiting k (List.mem_of_mem_erase hk) tx' hwaiting

/-- What is left of a process when `h` is done is honest if its orders are. -/
theorem Honest.finish {p q : Process F} {h : Handler} (hp : w.Honest p) (horders : w.Truthful q.orders)
    (hinflight : q.inflight = p.inflight.filter (· ≠ h.orderId))
    (hhandlers : q.handlers = p.handlers.erase h) : w.Honest q := by
  refine ⟨horders, ?_, ?_⟩
  · intro id hid
    rw [hinflight] at hid
    obtain ⟨hid, hother⟩ := List.mem_filter.mp hid
    rw [hhandlers]
    exact Process.handler_erase (Ne.symm (of_decide_eq_true hother)) (hp.inflight id hid)
  · intro k hk
    rw [hhandlers] at hk
    exact hp.waiting k (List.mem_of_mem_erase hk)

/-- **Every event keeps the account** that gives up no acknowledged order. -/
theorem Stepped.accounted (h : Stepped env cfg w l w') (hw : Accounted w)
    (hP : Honoured env cfg w l) : Accounted w' := by
  cases h with
  | @create p o body hex saved hup hnew hpending =>
    have hp := hw.process p hup
    have horders : w.Truthful (p.add ("gmb_" ++ hex) o).orders := hp.orders.add hpending
    refine ⟨?_, ?_, ?_⟩
    · intro id hid
      rcases hw.acked id hid with heff | hhand
      · exact .inl heff
      · exact .inr (hhand.keep hup rfl (fun hhandler => hhandler))
    · exact forall_process rfl ⟨horders, hp.inflight, hp.waiting⟩
    · intro orders hfile
      exact Truthful.save hw.file horders hfile
  | @answer p req a hup hanswer =>
    refine ⟨?_, fun q hq => (hw.process q hq).later (fun _ heff => heff), hw.file⟩
    intro id hid
    rcases List.mem_append.mp hid with hid | hid
    · have hp := hw.process p hup
      unfold acknowledged at hid
      split at hid
      · rename_i h2xx
        obtain ⟨n, hn, rfl⟩ := mem_paid hid
        rcases webhook_eq_error hanswer hn h2xx.2 with hnone | ⟨o, ho, hstatus⟩ | hinflight
        · exact .inl (hP p hup n.key hid (by rw [hnone]; rfl))
        · exact .inl (hp.orders n.key o ho hstatus)
        · exact .inr ⟨p, hup, hp.inflight n.key hinflight⟩
      · nomatch hid
    · exact hw.acked id hid
  | @start p req h hup hstart =>
    obtain ⟨hstage, -⟩ := webhook_eq_ok hstart
    have hp' := (hw.process p hup).start hstage
    refine ⟨?_, forall_process rfl (hp'.later (fun _ heff => heff)), hw.file⟩
    intro id hid
    rcases hw.acked id hid with heff | hhand
    · exact .inl heff
    · refine .inr (hhand.keep hup rfl ?_)
      rintro ⟨k, hk, hkid⟩
      exact ⟨k, List.mem_cons_of_mem _ hk, hkid⟩
  | @broadcast p h nonce gasPrice hup hmem hstage =>
    have hp' : w.Honest (p.sent h (signed env h nonce gasPrice)) := (hw.process p hup).sent rfl
    refine ⟨?_, forall_process rfl (hp'.later (fun _ heff => heff)), hw.file⟩
    intro id hid
    rcases hw.acked id hid with heff | hhand
    · exact .inl heff
    · exact .inr (hhand.keep hup rfl Process.handler_sent)
  | @receipt p h saved e hup hmem heffect hstage =>
    have hp := hw.process p hup
    have heff : w.Effective h.orderId := effective_of_mem heffect (hp.waiting h hmem e.1 hstage)
    have horders : w.Truthful (p.fulfil h.orderId).orders := hp.orders.fulfil heff
    refine ⟨?_, ?_, ?_⟩
    · intro id hid
      by_cases hother : h.orderId = id
      · subst hother
        exact .inl heff
      · have hold : id ∈ w.acked := by
          dsimp only at hid
          split at hid
          · rcases List.mem_cons.mp hid with hid | hid
            · exact absurd hid.symm hother
            · exact hid
          · exact hid
        rcases hw.acked id hold with heff' | hhand
        · exact .inl heff'
        · exact .inr (hhand.finish hup hother rfl rfl)
    · have hp' := hp.finish (q := (p.fulfil h.orderId).finish h) horders rfl rfl
      exact forall_process rfl (hp'.later (fun _ heff => heff))
    · intro orders hfile
      exact Truthful.save hw.file horders hfile
  | @fail p h hup hmem =>
    have hp := hw.process p hup
    have hp' := hp.finish (q := p.finish h) hp.orders rfl rfl
    refine ⟨?_, forall_process rfl (hp'.later (fun _ heff => heff)), hw.file⟩
    intro id hid
    by_cases hother : h.orderId = id
    · subst hother
      exact .inl (hP hid)
    · rcases hw.acked id hid with heff | hhand
      · exact .inl heff
      · exact .inr (hhand.finish hup hother rfl rfl)
  | @effect tx accepts dispenser event hmem hnonce =>
    refine hw.later rfl rfl rfl ?_
    intro id heff
    exact lt_of_lt_of_le heff ((List.sublist_cons_self (tx, event) w.effects).countP_le)
  | chain hnetwork hnonce => exact hw.later rfl rfl rfl (fun _ heff => heff)
  | @crash p hup =>
    refine ⟨?_, ?_, hw.file⟩
    · intro id hid
      rcases hw.acked id hid with heff | ⟨q, hq, h, hmem, hid'⟩
      · exact .inl heff
      · subst hid'
        exact .inl (hP q hq h hmem hid)
    · intro q hq
      nomatch hq
  | restart hdown =>
    refine ⟨?_, ?_, hw.file⟩
    · intro id hid
      rcases hw.acked id hid with heff | ⟨q, hq, -⟩
      · exact .inl heff
      · rw [hdown] at hq
        nomatch hq
    · refine forall_process rfl ⟨?_, ?_, ?_⟩
      · intro id o ho hstatus
        dsimp only at ho
        split at ho
        · obtain ⟨orders, o', hfile, ho', hsame⟩ := load_eq_some ho
          exact hw.file orders hfile id o' ho' (hsame.trans hstatus)
        · nomatch ho
      · intro id hid
        nomatch hid
      · intro h hmem
        nomatch hmem

/-- No webhook is being processed. -/
def Idle (w : World F) : Prop := ∀ p ∈ w.process, p.handlers = []

instance : Decidable (Idle w) := inferInstanceAs (Decidable (∀ _ ∈ _, _))

/-- **Acknowledged implies fulfilled**: in every run in which no acknowledged order is given up before
    its dispense took effect, and in every state in which no webhook is being processed. -/
theorem acknowledged_fulfilled (h₀ : Genesis w₀)
    (h : Run (step env cfg) (Honoured env cfg) w₀ as w) (hidle : Idle w) (hack : id ∈ w.acked) :
    w.Effective id := by
  have hw : Accounted w := by
    refine Run.inv Accounted h₀.accounted ?_ h
    intro t a u ht hP hs
    exact (step_inv hs).accounted ht hP
  rcases hw.acked id hack with heff | ⟨p, hup, k, hk, -⟩
  · exact heff
  · rw [hidle p hup] at hk
    nomatch hk

end

/-- Acknowledged implies fulfilled, whatever happens. -/
def AcknowledgedFulfilled : Prop :=
  ∀ {F : Type} {env : Platform F} {cfg : Config F} {w₀ w : World F} {as : List (Label F)} {id : String},
    Genesis w₀ → Run (step env cfg) (fun _ _ => True) w₀ as w → Idle w → id ∈ w.acked →
      w.Effective id

/-! ## The sale, delivered twice -/

namespace Sample

open Purchase.Sample

/-- The second webhook comes while the first is being processed. -/
def delivered : List (Label Rat) :=
  [.restart true, ordered, .webhook completed, .broadcast handler 0 1, .webhook completed,
    .included (dispenseTx 0) true, .receipt (waiting 0) .written, .webhook completed, .crash,
    .restart true, .webhook completed]

/-- The same, and the node does not answer the first. -/
def forsaken : List (Label Rat) :=
  [.restart true, ordered, .webhook completed, .webhook completed, .fail handler]

end Sample

open Purchase.Sample Sample in
theorem acknowledged_fulfilled_sample :
    (runTo (step env cfg) start delivered).Effective orderId := by
  -- one evaluation of the run settles all that is asked of it
  have hdelivered : allowedM (step env cfg) (Honoured env cfg) start delivered ∧
      succeeds (runM (step env cfg) start delivered) ∧
      Idle (runTo (step env cfg) start delivered) ∧
      orderId ∈ (runTo (step env cfg) start delivered).acked := by decide +kernel
  obtain ⟨hallowed, hruns, hidle, hack⟩ := hdelivered
  exact acknowledged_fulfilled start_genesis (Run.of_runTo hallowed hruns) hidle hack

open Purchase.Sample Sample in
theorem acknowledged_undelivered : ¬ AcknowledgedFulfilled := by
  intro hfulfilled
  have hforsaken : succeeds (runM (step env cfg) start forsaken) ∧
      Idle (runTo (step env cfg) start forsaken) ∧
      orderId ∈ (runTo (step env cfg) start forsaken).acked ∧
      ¬ (runTo (step env cfg) start forsaken).Effective orderId := by decide +kernel
  obtain ⟨hruns, hidle, hack, hnot⟩ := hforsaken
  have hrun : Run (step env cfg) (fun _ _ => True) start forsaken
      (runTo (step env cfg) start forsaken) :=
    Run.of_runTo (allowedM_of_forall fun _ _ _ => trivial) hruns
  exact hnot (hfulfilled start_genesis hrun hidle hack)

end World
end Gemba.Purchase
