/-
  How often an order is dispensed.

  Two guards stand before a dispense: the order's status, which is written when the receipt is there,
  and the set of orders being dispensed, which a handler leaves when it fails and which dies with the
  process.  Neither knows of a transaction whose handler is gone: one that was broadcast before
  `tx.wait` threw, or before the process died, is on its way all the same, and the next webhook of the
  order finds it pending and dispenses again (`dispensed_twice`).

  Two faults lead there, and no other: a handler that fails, and a start that reads the order as
  pending, while a dispense of it is outstanding.  Without them every order is dispensed at most once
  (`dispensed_once_without_loss`).

  * `Once` — for each order at most one dispense took effect or still can; a handler that has not signed
             yet is the only one of its order, and its order has none.  Kept as long as no webhook
             starts a dispense of an order that has one outstanding (`NoRepeat`);
  * `Seen` — the server has every outstanding dispense in sight, its order in flight or not pending.
             Kept as long as no such fault happens (`NoLoss`), and then the guards see to `NoRepeat`.
-/
import Gemba.Purchase.Fulfilment

namespace Gemba.Purchase

open Gemba.Lib Gemba.Evm Gemba.Js

namespace Process

variable {F : Type} {p : Process F} {h k : Handler} {tx : Tx}

/-- The handlers are of different orders, and these are in flight. -/
structure Tracked (p : Process F) : Prop where
  nodup : (p.handlers.map Handler.orderId).Nodup
  inflight : ∀ h ∈ p.handlers, h.orderId ∈ p.inflight

theorem Tracked.others (hp : p.Tracked) (hmem : h ∈ p.handlers) (hk : k ∈ p.handlers.erase h) :
    k.orderId ≠ h.orderId := by
  have hnodup := ((List.perm_cons_erase hmem).map Handler.orderId).nodup_iff.mp hp.nodup
  rw [List.map_cons, List.nodup_cons] at hnodup
  intro heq
  apply hnodup.1
  rw [← heq]
  exact List.mem_map_of_mem hk

theorem Tracked.start (hp : p.Tracked) (hnew : h.orderId ∉ p.inflight) : (p.start h).Tracked := by
  constructor
  · show (h.orderId :: p.handlers.map Handler.orderId).Nodup
    refine List.nodup_cons.mpr ⟨?_, hp.nodup⟩
    intro hmem
    obtain ⟨k, hk, heq⟩ := List.mem_map.mp hmem
    apply hnew
    rw [← heq]
    exact hp.inflight k hk
  · intro k hk
    rcases List.mem_cons.mp hk with rfl | hk
    · exact List.mem_cons_self
    · exact List.mem_cons_of_mem _ (hp.inflight k hk)

theorem Tracked.sent (hp : p.Tracked) (hmem : h ∈ p.handlers) : (p.sent h tx).Tracked := by
  constructor
  · show (h.orderId :: (p.handlers.erase h).map Handler.orderId).Nodup
    exact ((List.perm_cons_erase hmem).map Handler.orderId).nodup_iff.mp hp.nodup
  · intro k hk
    rcases List.mem_cons.mp hk with rfl | hk
    · exact hp.inflight h hmem
    · exact hp.inflight k (List.mem_of_mem_erase hk)

theorem Tracked.finish (hp : p.Tracked) (hmem : h ∈ p.handlers) : (p.finish h).Tracked := by
  constructor
  · exact (List.erase_sublist.map Handler.orderId).nodup hp.nodup
  · intro k hk
    have hother := hp.others hmem hk
    refine List.mem_filter.mpr ⟨hp.inflight k (List.mem_of_mem_erase hk), ?_⟩
    exact decide_eq_true hother

end Process

namespace World

section
variable {F : Type} {env : Platform F} {cfg : Config F} {w w' w₀ : World F} {l : Label F}
  {as : List (Label F)}

/-- The handler a webhook starts. -/
def starts (env : Platform F) (cfg : Config F) (w : World F) (req : Request) : Option Handler := do
  let p ← w.process
  (webhook env cfg p.orders p.inflight req).toOption

/-- A webhook starts no dispense of an order that has one outstanding. -/
def NoRepeat (env : Platform F) (cfg : Config F) (w : World F) : Label F → Prop
  | .webhook req => ∀ h ∈ starts env cfg w req, w.outstanding h.orderId = 0
  | _ => True

theorem mem_starts {p : Process F} {req : Request} {h : Handler} (hup : w.process = some p)
    (hstart : webhook env cfg p.orders p.inflight req = .ok h) : h ∈ starts env cfg w req := by
  show starts env cfg w req = some h
  unfold starts
  rw [hup]
  exact toOption_eq_some.mpr hstart

/-- The memory of a process, if there is one. -/
structure Undispensed (w : World F) (p : Process F) : Prop where
  tracked : p.Tracked
  /-- A handler that has not signed yet is of an order with no dispense outstanding. -/
  preparing : ∀ h ∈ p.handlers, h.stage = .preparing → w.outstanding h.orderId = 0

/-- **No order has two dispenses outstanding.** -/
structure Once (w : World F) : Prop where
  process : ∀ p, w.process = some p → w.Undispensed p
  once : ∀ id, w.outstanding id ≤ 1

theorem Genesis.once (h : Genesis w) : Once w := by
  constructor
  · intro p hup
    rw [h.process] at hup
    nomatch hup
  · intro id
    unfold outstanding dispensed
    rw [h.effects, h.network]
    exact Nat.zero_le _

/-- What the chain does leaves the process as it was, with no more outstanding. -/
theorem Once.later (hw : Once w) (hprocess : w'.process = w.process)
    (hle : ∀ id, w'.outstanding id ≤ w.outstanding id) : Once w' := by
  constructor
  · intro p hup
    rw [hprocess] at hup
    have hp := hw.process p hup
    refine ⟨hp.tracked, ?_⟩
    intro h hmem hstage
    have := hle h.orderId
    rw [hp.preparing h hmem hstage] at this
    exact Nat.le_zero.mp this
  · intro id
    exact le_trans (hle id) (hw.once id)

/-- What the process does by itself leaves the chain as it was. -/
theorem Once.memory {p : Process F} (hw : Once w) (hprocess : w'.process = some p)
    (houtstanding : w'.outstanding = w.outstanding) (hp : w'.Undispensed p) : Once w' := by
  refine ⟨forall_process hprocess hp, fun id => ?_⟩
  rw [houtstanding]
  exact hw.once id

/-- **Every event keeps it**, if no webhook repeats a dispense. -/
theorem Stepped.once (h : Stepped env cfg w l w') (hw : Once w) (hP : NoRepeat env cfg w l) :
    Once w' := by
  cases h with
  | create hup hnew hpending =>
    have hp := hw.process _ hup
    exact hw.memory rfl rfl ⟨⟨hp.tracked.nodup, hp.tracked.inflight⟩, hp.preparing⟩
  | answer hup hanswer => exact hw.later rfl (fun _ => le_rfl)
  | @start p req h hup hstart =>
    have hp := hw.process _ hup
    obtain ⟨-, hnew, -⟩ := webhook_eq_ok hstart
    refine hw.memory rfl rfl ⟨hp.tracked.start hnew, ?_⟩
    intro k hk hstage
    rcases List.mem_cons.mp hk with rfl | hk
    · exact hP k (mem_starts hup hstart)
    · exact hp.preparing k hk hstage
  | @broadcast p h nonce gasPrice hup hmem hstage =>
    have hp := hw.process _ hup
    have hnone := hp.preparing h hmem hstage
    have hadd := outstanding_broadcast w (signed env h nonce gasPrice)
      (some (p.sent h (signed env h nonce gasPrice)))
    constructor
    · refine forall_process rfl ⟨hp.tracked.sent hmem, ?_⟩
      intro k hk hkstage
      -- the handler that signed waits now; the others are of other orders
      rcases List.mem_cons.mp hk with rfl | hk
      · nomatch hkstage
      · have hother := hp.tracked.others hmem hk
        have hle := hadd k.orderId
        rw [signed_orderId, if_neg (Ne.symm hother),
          hp.preparing k (List.mem_of_mem_erase hk) hkstage] at hle
        exact Nat.le_zero.mp hle
    · intro id
      have hle := hadd id
      have hone := hw.once id
      by_cases hid : h.orderId = id
      · subst hid
        rw [signed_orderId, hnone, if_pos rfl] at hle
        exact hle
      · rw [signed_orderId, if_neg hid] at hle
        omega
  | @receipt p h saved e hup hmem heffect hstage =>
    have hp := hw.process _ hup
    refine hw.memory rfl rfl ⟨?_, ?_⟩
    · exact Process.Tracked.finish (p := p.fulfil h.orderId) ⟨hp.tracked.nodup, hp.tracked.inflight⟩
        hmem
    · intro k hk hkstage
      exact hp.preparing k (List.mem_of_mem_erase hk) hkstage
  | fail hup hmem =>
    have hp := hw.process _ hup
    refine hw.memory rfl rfl ⟨hp.tracked.finish hmem, ?_⟩
    intro k hk hkstage
    exact hp.preparing k (List.mem_of_mem_erase hk) hkstage
  | effect hmem hnonce => exact hw.later rfl (fun _ => outstanding_effect hmem hnonce)
  | chain hnetwork hnonce => exact hw.later rfl (fun _ => outstanding_chain hnetwork hnonce)
  | crash hup =>
    constructor
    · intro p hp
      nomatch hp
    · exact hw.once
  | restart hdown =>
    refine hw.memory rfl rfl ⟨⟨List.nodup_nil, ?_⟩, ?_⟩
    · intro h hmem
      nomatch hmem
    · intro h hmem
      nomatch hmem

theorem Once.dispensed_le (hw : Once w) (id : String) : w.dispensed id ≤ 1 := by
  have := hw.once id
  unfold outstanding at this
  omega

/-! ## The faults that lead there

  A dispense is repeated only after the server lost sight of one: its handler failed, or the process
  started on a store that has its order pending.  A run in which neither happens to an order with a
  dispense outstanding repeats none. -/

/-- The event loses sight of no dispense that is outstanding. -/
def NoLoss (env : Platform F) (w : World F) : Label F → Prop
  | .fail h => w.outstanding h.orderId = 0
  | .restart readable => readable = true →
      ∀ id o, 0 < w.outstanding id → load env w.file id = some o → o.status = .fulfilled
  | _ => True

/-- The orders of which something was broadcast. -/
def dispensing (w : World F) : List String :=
  w.effects.map (fun e => e.1.orderId) ++ w.network.map Tx.orderId

theorem mem_dispensing {id : String} (h : 0 < w.outstanding id) : id ∈ w.dispensing := by
  unfold outstanding dispensed at h
  rcases Nat.eq_zero_or_pos (w.effects.countP fun e => e.1.orderId = id) with hzero | hpos
  · rw [hzero, Nat.zero_add] at h
    obtain ⟨tx, htx, hid⟩ := List.countP_pos_iff.mp h
    refine List.mem_append_right _ (List.mem_map.mpr ⟨tx, htx, ?_⟩)
    exact (of_decide_eq_true hid).1
  · obtain ⟨e, he, hid⟩ := List.countP_pos_iff.mp hpos
    exact List.mem_append_left _ (List.mem_map.mpr ⟨e, he, of_decide_eq_true hid⟩)

instance : DecidablePred (NoLoss env w)
  | .fail _ => inferInstanceAs (Decidable (_ = 0))
  | .restart readable => decidable_of_iff (readable = true → ∀ id ∈ w.dispensing,
      ∀ o ∈ load env w.file id, 0 < w.outstanding id → o.status = .fulfilled)
      ⟨fun h hr id o hpos ho => h hr id (mem_dispensing hpos) o ho hpos,
        fun h hr id _ o ho hpos => h hr id o hpos ho⟩
  | .create _ _ _ => .isTrue trivial
  | .webhook _ => .isTrue trivial
  | .broadcast _ _ _ => .isTrue trivial
  | .receipt _ _ => .isTrue trivial
  | .included _ _ => .isTrue trivial
  | .drop _ => .isTrue trivial
  | .chain _ _ => .isTrue trivial
  | .crash => .isTrue trivial

/-- Only orders that were created are known anywhere. -/
structure Known (w : World F) : Prop where
  orders : ∀ p, w.process = some p → ∀ id, (p.orders id).isSome = true → (w.created id).isSome = true
  handlers : ∀ p, w.process = some p → ∀ h ∈ p.handlers, (w.created h.orderId).isSome = true
  file : ∀ orders, w.file = some orders →
    ∀ id, (orders id).isSome = true → (w.created id).isSome = true
  outstanding : ∀ id, 0 < w.outstanding id → (w.created id).isSome = true

/-- **The server sees every dispense that is outstanding**: its order is in flight, or not pending. -/
def Seen (w : World F) : Prop :=
  ∀ p, w.process = some p → ∀ id, 0 < w.outstanding id →
    (∃ h ∈ p.handlers, h.orderId = id) ∨ ∀ o, p.orders id = some o → o.status = .fulfilled

theorem Seen.noRepeat (hseen : Seen w) (hw : Once w) (l : Label F) : NoRepeat env cfg w l := by
  cases l with
  | webhook req =>
    intro h hstart
    unfold starts at hstart
    obtain ⟨p, hup, hstart⟩ := Option.bind_eq_some_iff.mp hstart
    rw [toOption_eq_some] at hstart
    obtain ⟨-, hnew, o, ho, hpending⟩ := webhook_eq_ok hstart
    by_contra hne
    rcases hseen p hup h.orderId (Nat.pos_of_ne_zero hne) with ⟨k, hk, heq⟩ | hfulfilled
    · apply hnew
      rw [← heq]
      exact (hw.process p hup).tracked.inflight k hk
    · rw [hfulfilled o ho] at hpending
      nomatch hpending
  | _ => trivial

theorem Genesis.known (h : Genesis w) : Known w := by
  have hprocess : ∀ p, w.process ≠ some p := by
    intro p hup
    rw [h.process] at hup
    nomatch hup
  refine ⟨fun p hup => absurd hup (hprocess p), fun p hup => absurd hup (hprocess p), ?_, ?_⟩
  · intro orders hfile
    rw [h.file] at hfile
    nomatch hfile
  · intro id hpos
    unfold outstanding dispensed at hpos
    rw [h.effects, h.network] at hpos
    nomatch hpos

theorem Stepped.known (h : Stepped env cfg w l w') (hw : Known w) : Known w' := by
  cases h with
  | @create p o body hex saved hup hnew hpending =>
    have hgrow : ∀ k, (w.created k).isSome = true →
        (if k = "gmb_" ++ hex then some o else w.created k).isSome = true := by
      intro k hk
      split
      · rfl
      · exact hk
    have horders : ∀ k, ((p.add ("gmb_" ++ hex) o).orders k).isSome = true →
        (if k = "gmb_" ++ hex then some o else w.created k).isSome = true := by
      intro k hk
      by_cases hnewId : k = "gmb_" ++ hex
      · rw [if_pos hnewId]
        rfl
      · rw [p.add_orders_of_ne hnewId] at hk
        exact hgrow k (hw.orders p hup k hk)
    refine ⟨forall_process rfl horders, ?_, ?_, fun k hpos => hgrow k (hw.outstanding k hpos)⟩
    · exact forall_process rfl fun h hmem => hgrow _ (hw.handlers p hup h hmem)
    · intro orders hfile k hk
      rcases save_eq_some hfile with rfl | hfile
      · exact horders k hk
      · exact hgrow k (hw.file orders hfile k hk)
  | answer hup hanswer => exact ⟨hw.orders, hw.handlers, hw.file, hw.outstanding⟩
  | @start p req h hup hstart =>
    obtain ⟨-, -, o, ho, -⟩ := webhook_eq_ok hstart
    refine ⟨forall_process rfl (hw.orders p hup), forall_process rfl ?_, hw.file, hw.outstanding⟩
    intro k hk
    rcases List.mem_cons.mp hk with rfl | hk
    · exact hw.orders p hup k.orderId (by rw [ho]; rfl)
    · exact hw.handlers p hup k hk
  | @broadcast p h nonce gasPrice hup hmem hstage =>
    refine ⟨forall_process rfl (hw.orders p hup), forall_process rfl ?_, hw.file, ?_⟩
    · intro k hk
      rcases List.mem_cons.mp hk with rfl | hk
      · exact hw.handlers p hup h hmem
      · exact hw.handlers p hup k (List.mem_of_mem_erase hk)
    · intro id hpos
      have hle := outstanding_broadcast w (signed env h nonce gasPrice)
        (some (p.sent h (signed env h nonce gasPrice))) id
      by_cases hid : h.orderId = id
      · rw [← hid]
        exact hw.handlers p hup h hmem
      · rw [signed_orderId, if_neg hid] at hle
        exact hw.outstanding id (lt_of_lt_of_le hpos hle)
  | @receipt p h saved e hup hmem heffect hstage =>
    have horders : ∀ k, ((p.fulfil h.orderId).orders k).isSome = true →
        (w.created k).isSome = true := by
      intro k hk
      apply hw.orders p hup k
      by_cases hid : k = h.orderId
      · rwa [hid, p.fulfil_orders_self, Option.isSome_map, ← hid] at hk
      · rwa [p.fulfil_orders_of_ne hid] at hk
    refine ⟨forall_process rfl horders, forall_process rfl ?_, ?_, hw.outstanding⟩
    · intro k hk
      exact hw.handlers p hup k (List.mem_of_mem_erase hk)
    · intro orders hfile k hk
      rcases save_eq_some hfile with rfl | hfile
      · exact horders k hk
      · exact hw.file orders hfile k hk
  | @fail p h hup hmem =>
    refine ⟨forall_process rfl (hw.orders p hup), forall_process rfl ?_, hw.file, hw.outstanding⟩
    intro k hk
    exact hw.handlers p hup k (List.mem_of_mem_erase hk)
  | effect hmem hnonce =>
    refine ⟨hw.orders, hw.handlers, hw.file, ?_⟩
    intro id hpos
    exact hw.outstanding id (lt_of_lt_of_le hpos (outstanding_effect hmem hnonce))
  | chain hnetwork hnonce =>
    refine ⟨hw.orders, hw.handlers, hw.file, ?_⟩
    intro id hpos
    exact hw.outstanding id (lt_of_lt_of_le hpos (outstanding_chain hnetwork hnonce))
  | crash hup =>
    refine ⟨?_, ?_, hw.file, hw.outstanding⟩
    · intro p hp
      nomatch hp
    · intro p hp
      nomatch hp
  | restart hdown =>
    refine ⟨forall_process rfl ?_, forall_process rfl ?_, hw.file, hw.outstanding⟩
    · intro id hid
      dsimp only at hid
      split at hid
      · obtain ⟨o, ho⟩ := Option.isSome_iff_exists.mp hid
        obtain ⟨orders, o', hfile, ho', -⟩ := load_eq_some ho
        exact hw.file orders hfile id (by rw [ho']; rfl)
      · nomatch hid
    · intro h hmem
      nomatch hmem

/-- **Every event keeps the dispenses in sight** that loses sight of none. -/
theorem Stepped.seen (h : Stepped env cfg w l w') (hw : Known w) (hseen : Seen w)
    (hP : NoLoss env w l) : Seen w' := by
  cases h with
  | @create p o body hex saved hup hnew hpending =>
    refine forall_process rfl fun id hpos => ?_
    -- a new order has no dispense
    have hold : id ≠ "gmb_" ++ hex := by
      intro hid
      have hcreated := hw.outstanding id hpos
      rw [hid, hnew] at hcreated
      nomatch hcreated
    rcases hseen p hup id hpos with hflight | hfulfilled
    · exact .inl hflight
    · refine .inr fun o' ho' => hfulfilled o' ?_
      rwa [p.add_orders_of_ne hold] at ho'
  | answer hup hanswer => exact hseen
  | @start p req h hup hstart =>
    refine forall_process rfl fun id hpos => ?_
    rcases hseen p hup id hpos with ⟨k, hk, hid⟩ | hfulfilled
    · exact .inl ⟨k, List.mem_cons_of_mem _ hk, hid⟩
    · exact .inr hfulfilled
  | @broadcast p h nonce gasPrice hup hmem hstage =>
    refine forall_process rfl fun id hpos => ?_
    by_cases hid : h.orderId = id
    · exact .inl ⟨_, List.mem_cons_self, hid⟩
    · have hle := outstanding_broadcast w (signed env h nonce gasPrice)
        (some (p.sent h (signed env h nonce gasPrice))) id
      rw [signed_orderId, if_neg hid] at hle
      rcases hseen p hup id (lt_of_lt_of_le hpos hle) with hflight | hfulfilled
      · exact .inl (Process.handler_sent hflight)
      · exact .inr hfulfilled
  | @receipt p h saved e hup hmem heffect hstage =>
    refine forall_process rfl fun id hpos => ?_
    by_cases hid : id = h.orderId
    · refine .inr fun o ho => ?_
      rw [hid] at ho
      change (p.fulfil h.orderId).orders h.orderId = some o at ho
      rw [p.fulfil_orders_self] at ho
      obtain ⟨o', -, rfl⟩ := Option.map_eq_some_iff.mp ho
      rfl
    · rcases hseen p hup id hpos with hflight | hfulfilled
      · exact .inl (Process.handler_erase (Ne.symm hid) hflight)
      · refine .inr fun o ho => hfulfilled o ?_
        exact (p.fulfil_orders_of_ne hid).symm.trans ho
  | @fail p h hup hmem =>
    refine forall_process rfl fun id hpos => ?_
    have hother : h.orderId ≠ id := by
      rintro rfl
      exact Nat.pos_iff_ne_zero.mp hpos hP
    rcases hseen p hup id hpos with hflight | hfulfilled
    · exact .inl (Process.handler_erase hother hflight)
    · exact .inr hfulfilled
  | effect hmem hnonce =>
    intro p hup id hpos
    exact hseen p hup id (lt_of_lt_of_le hpos (outstanding_effect hmem hnonce))
  | chain hnetwork hnonce =>
    intro p hup id hpos
    exact hseen p hup id (lt_of_lt_of_le hpos (outstanding_chain hnetwork hnonce))
  | crash hup =>
    intro p hp
    nomatch hp
  | restart hdown =>
    refine forall_process rfl fun id hpos => .inr fun o ho => ?_
    dsimp only at ho
    split at ho
    · rename_i hreadable
      exact hP hreadable id o hpos ho
    · nomatch ho

/-- **Every order is dispensed at most once**, in every run in which no handler fails, and no start
    reads an order as pending, while a dispense of it is outstanding. -/
theorem dispensed_once_without_loss (h₀ : Genesis w₀)
    (h : Run (step env cfg) (fun w l => NoLoss env w l) w₀ as w) (id : String) :
    w.dispensed id ≤ 1 := by
  have hw : Once w ∧ Known w ∧ Seen w := by
    refine Run.inv (fun w => Once w ∧ Known w ∧ Seen w) ⟨h₀.once, h₀.known, ?_⟩ ?_ h
    · intro p hup
      rw [h₀.process] at hup
      nomatch hup
    · rintro t a u ⟨honce, hknown, hseen⟩ hP hs
      have hstep := step_inv hs
      exact ⟨hstep.once honce (hseen.noRepeat honce a), hstep.known hknown,
        hstep.seen hknown hseen hP⟩
  exact hw.1.dispensed_le id

end

/-- Every order is dispensed at most once, whatever happens. -/
def DispensedAtMostOnce : Prop :=
  ∀ {F : Type} {env : Platform F} {cfg : Config F} {w₀ w : World F} {as : List (Label F)},
    Genesis w₀ → Run (step env cfg) (fun _ _ => True) w₀ as w →
      ∀ id, (w.created id).isSome = true → w.dispensed id ≤ 1

/-! ## The sale, and a node that fails once -/

namespace Sample

open Purchase.Sample

/-- The node fails before anything is signed; the sale then goes as it should, with the webhook
    delivered again and again, and the process is restarted. -/
def sale : List (Label Rat) :=
  [.restart true, ordered, .webhook completed, .fail handler, .webhook completed, .webhook completed,
    .broadcast handler 0 1, .included (dispenseTx 0) true, .receipt (waiting 0) .written,
    .webhook completed, .crash, .restart true, .webhook completed]

/-- `tx.wait` throws after the transaction was broadcast, the webhook is answered 500, and the gateway
    delivers it again. -/
def retried : List (Label Rat) :=
  [.restart true, ordered, .webhook completed, .broadcast handler 0 1, .fail (waiting 0),
    .webhook completed, .broadcast handler 1 1, .included (dispenseTx 0) true,
    .included (dispenseTx 1) true]

end Sample

open Purchase.Sample Sample in
theorem dispensed_once_without_loss_sample :
    (runTo (step env cfg) start sale).dispensed orderId ≤ 1 := by
  -- one evaluation of the run settles all that is asked of it
  have hsale : allowedM (step env cfg) (fun w l => NoLoss env w l) start sale ∧
      succeeds (runM (step env cfg) start sale) := by decide +kernel
  exact dispensed_once_without_loss start_genesis (Run.of_runTo hsale.1 hsale.2) orderId

open Purchase.Sample Sample in
theorem dispensed_twice : ¬ DispensedAtMostOnce := by
  intro honce
  have hretried : succeeds (runM (step env cfg) start retried) ∧
      ((runTo (step env cfg) start retried).created orderId).isSome = true ∧
      (runTo (step env cfg) start retried).dispensed orderId = 2 := by decide +kernel
  obtain ⟨hruns, hcreated, htwice⟩ := hretried
  have hrun : Run (step env cfg) (fun _ _ => True) start retried (runTo (step env cfg) start retried) :=
    Run.of_runTo (allowedM_of_forall fun _ _ _ => trivial) hruns
  have hle := honce start_genesis hrun orderId hcreated
  omega

end World
end Gemba.Purchase
