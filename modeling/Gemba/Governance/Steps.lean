/-
  What a step of the DAO can do.

  Every invariant of the machine is about one or two of its components, and each step touches few.
  Instead of unfolding `step` for each of them, this module inverts it once:

  * `Authorized`     — who may call a function on proposals or operations, and the stack after it;
  * `OtherCall`      — a call to the token, a Timelock, a reserve or an unknown account;
  * `Called`         — any call with calldata, the Governor's included;
  * `Stepped`        — a step, label by label, with its guards and its result.

  `step_inv` is the inversion; the invariants are case analyses on `Stepped`.
-/
import Gemba.Governance.Dao

namespace Gemba.Governance

open Gemba.Lib Gemba.Evm
open Gemba.Reserves (Reserve Send Exit ReserveFn Payment BaseReserve)

namespace World

/-! ## Native GMB -/

/-- Only the accounts of `srcs` may have lost native GMB. -/
def Gains (srcs : List Address) (b b' : Address → Nat) : Prop := ∀ a, a ∉ srcs → b a ≤ b' a

theorem Gains.refl (b : Address → Nat) (srcs : List Address) : Gains srcs b b :=
  fun _ _ => Nat.le_refl _

theorem Gains.trans {srcs : List Address} {b b' b'' : Address → Nat} (h : Gains srcs b b')
    (h' : Gains srcs b' b'') : Gains srcs b b'' :=
  fun a ha => Nat.le_trans (h a ha) (h' a ha)

theorem Gains.mono {srcs srcs' : List Address} {b b' : Address → Nat} (h : Gains srcs b b')
    (hs : ∀ a, a ∈ srcs → a ∈ srcs') : Gains srcs' b b' :=
  fun a ha => h a fun hm => ha (hs a hm)

section
variable {d : Wiring} {w w' : World} {src dst sender target : Address} {amount value : Nat}

/-- A payment moves balances only, out of `src` only, and by no more than `amount`. -/
theorem pay_spec (h : w.pay src dst amount = .ok w') :
    ∃ b, w' = { w with balance := b } ∧ amount ≤ w.balance src ∧ Gains [src] w.balance b ∧
      w.balance src ≤ b src + amount := by
  obtain ⟨hfunds, h⟩ := failIf_bind_eq_ok.mp h
  injection h with h
  refine ⟨_, h.symm, by omega, ?_, ?_⟩
  · intro a ha
    have hne : a ≠ src := fun heq => ha (heq ▸ List.mem_cons_self)
    dsimp only
    rw [if_neg hne]
    by_cases hdst : a = dst
    · rw [if_pos hdst]
      omega
    · rw [if_neg hdst]
  · dsimp only
    rw [if_pos rfl]
    by_cases hdst : src = dst
    · rw [if_pos hdst]
      omega
    · rw [if_neg hdst]
      omega

theorem send_spec (h : w.send d src dst amount = .ok w') :
    ∃ b, w' = { w with balance := b } ∧ amount ≤ w.balance src ∧ Gains [src] w.balance b ∧
      w.balance src ≤ b src + amount := by
  obtain ⟨⟨⟩, -, h⟩ := bind_eq_ok.mp h
  exact pay_spec h

/-! ## Who may call -/

/-- `sender` may make the call, and `frames` is the stack then. -/
def Authorized (d : Wiring) (w : World) (sender target : Address) (sels : List Nat) (value : Nat)
    (frames : List Frame) : Prop :=
  (w.isOutside d sender = true ∧ frames = w.frames) ∨
    ∃ sel ∈ sels, w.frames = .calling sender target sel value :: frames

theorem authorize_spec {sels : List Nat} (h : w.authorize d sender target sels value = .ok w') :
    ∃ frames, Authorized d w sender target sels value frames ∧ w' = { w with frames } := by
  unfold authorize at h
  by_cases hout : w.isOutside d sender = true
  · rw [if_pos hout] at h
    injection h with h
    subst h
    exact ⟨w.frames, .inl ⟨hout, rfl⟩, rfl⟩
  · rw [if_neg hout] at h
    split at h
    · rename_i s t sel v rest hframes
      by_cases hsame : s = sender ∧ t = target ∧ sel ∈ sels ∧ v = value
      · rw [if_pos hsame] at h
        injection h with h
        obtain ⟨rfl, rfl, hsel, rfl⟩ := hsame
        exact ⟨rest, .inr ⟨sel, hsel, hframes⟩, h.symm⟩
      · rw [if_neg hsame] at h
        nomatch h
    · nomatch h

/-- The stack an authorized call leaves is the one it found, without its own frame. -/
theorem Authorized.mem {sels : List Nat} {frames : List Frame} {f : Frame}
    (h : Authorized d w sender target sels value frames) (hf : f ∈ frames) : f ∈ w.frames := by
  rcases h with ⟨-, rfl⟩ | ⟨sel, -, hframes⟩
  · exact hf
  · rw [hframes]
    exact List.mem_cons_of_mem _ hf

/-! ## Calls to everything but the Governor -/

/-- **A call to the token, a Timelock, a reserve or an unknown account.** -/
inductive OtherCall (d : Wiring) (w : World) (sender target : Address) (value : Nat) (data : Bytes) :
    World → Prop where
  /-- The token: only its storage, balances and the stack. -/
  | token {token : GembaVotes} {b : Address → Nat} {frames : List Frame}
      (hsupply : GembaVotes.SupplyKept w.block.number w.token token)
      (hb : Gains [sender, d.token] w.balance b)
      (hframes : frames = w.frames ∨ frames = .withdrawing :: w.frames) :
      OtherCall d w sender target value data { w with token, balance := b, frames }
  /-- An operation function of a Timelock, performed by a later label. -/
  | calling (h : (w.timelocks target).isSome) :
      OtherCall d w sender target value data
        (w.push (.calling sender target (selector data) value))
  /-- The configuration of a Timelock. -/
  | configure {t t' : Timelock} {fn : TimelockFn} (ht : w.timelocks target = some t)
      (hfn : TimelockFn.decode data = some fn) (h : t.configure target sender fn = .ok t') :
      OtherCall d w sender target value data (w.setTimelock target t')
  /-- A reserve, without a payment. -/
  | reserve {R R' : Reserve} {fn : ReserveFn} {b : Address → Nat} (hR : w.reserves target = some R)
      (hfn : ReserveFn.decode data = some fn) (hb : Gains [sender] w.balance b)
      (h : R.call w.block sender value (b target) fn = .ok (R', none)) :
      OtherCall d w sender target value data { w.setReserve target R' with balance := b }
  /-- A reserve that pays out. -/
  | payment {R R' : Reserve} {fn : ReserveFn} {b b' : Address → Nat} {p : Payment}
      (hR : w.reserves target = some R) (hfn : ReserveFn.decode data = some fn)
      (hb : Gains [sender] w.balance b)
      (h : R.call w.block sender value (b target) fn = .ok (R', some p))
      (hfunds : p.send.amount ≤ b target) (hb' : Gains [target] b b')
      (hpaid : b target ≤ b' target + p.send.amount) :
      OtherCall d w sender target value data
        { w.setReserve target R' with
          balance := b'
          frames := .sending target :: w.frames
          outflows := ⟨target, p.send.dst, p.send.amount, sender, w.block.timestamp,
            b target - p.send.amount, p.exit⟩ :: w.outflows }
  /-- An account whose code is not here, or a function that only reads. -/
  | quiet {b : Address → Nat} (hb : Gains [sender] w.balance b) :
      OtherCall d w sender target value data { w with balance := b }

theorem callToken_spec {data : Bytes} (h : w.callToken d sender value data = .ok w') :
    OtherCall d w sender target value data w' := by
  unfold callToken at h
  split at h
  · injection h with h
    subst h
    exact .quiet (Gains.refl _ _)
  · rename_i fn _
    obtain ⟨w₁, hpay, h⟩ := bind_eq_ok.mp h
    obtain ⟨b, rfl, -, hb, -⟩ := pay_spec hpay
    obtain ⟨⟨token, out⟩, hcall, h⟩ := bind_eq_ok.mp h
    have hsupply := GembaVotes.call_supply hcall
    have hb₁ : Gains [sender, d.token] w.balance b := by
      apply hb.mono
      intro a ha
      exact List.mem_cons.mpr (.inl (List.mem_singleton.mp ha))
    cases out with
    | none =>
      injection h with h
      subst h
      exact .token hsupply hb₁ (.inl rfl)
    | some s =>
      obtain ⟨w₂, hsend, h⟩ := bind_eq_ok.mp h
      obtain ⟨b', rfl, -, hb', -⟩ := send_spec hsend
      injection h with h
      subst h
      refine .token hsupply (hb₁.trans (hb'.mono ?_)) (.inr rfl)
      intro a ha
      exact List.mem_cons_of_mem _ ha

theorem callTimelock_spec {t : Timelock} {data : Bytes} (ht : w.timelocks target = some t)
    (h : w.callTimelock target t sender value data = .ok w') :
    OtherCall d w sender target value data w' := by
  unfold callTimelock at h
  split at h
  · injection h with h
    subst h
    exact .calling (by rw [ht]; rfl)
  · rename_i fn hfn
    obtain ⟨-, h⟩ := failIf_bind_eq_ok.mp h
    obtain ⟨t', hconf, h⟩ := bind_eq_ok.mp h
    injection h with h
    subst h
    exact .configure ht hfn hconf

theorem callReserve_spec {R : Reserve} {data : Bytes} (hR : w.reserves target = some R)
    (h : w.callReserve d target R sender value data = .ok w') :
    OtherCall d w sender target value data w' := by
  unfold callReserve at h
  split at h
  · injection h with h
    subst h
    exact .quiet (Gains.refl _ _)
  · rename_i fn hfn
    obtain ⟨w₁, hpay, h⟩ := bind_eq_ok.mp h
    obtain ⟨b, rfl, -, hb, -⟩ := pay_spec hpay
    obtain ⟨⟨R', out⟩, hcall, h⟩ := bind_eq_ok.mp h
    cases out with
    | none =>
      injection h with h
      subst h
      exact .reserve hR hfn hb hcall
    | some p =>
      obtain ⟨w₂, hsend, h⟩ := bind_eq_ok.mp h
      obtain ⟨b', rfl, hfunds, hb', hpaid⟩ := send_spec hsend
      injection h with h
      subst h
      exact .payment hR hfn hb hcall hfunds hb' hpaid

theorem callOther_spec {data : Bytes} (h : w.callOther d sender target value data = .ok w') :
    OtherCall d w sender target value data w' := by
  unfold callOther at h
  by_cases htok : target = d.token
  · rw [if_pos htok] at h
    exact callToken_spec h
  · rw [if_neg htok] at h
    split at h
    · rename_i t ht
      exact callTimelock_spec ht h
    · split at h
      · rename_i R hR
        exact callReserve_spec hR h
      · obtain ⟨b, rfl, -, hb, -⟩ := pay_spec h
        exact .quiet hb

/-- The Governor's storage is its own. -/
theorem OtherCall.governor_eq {data : Bytes} (h : OtherCall d w sender target value data w') :
    w'.governor = w.governor := by
  cases h <;> rfl

theorem OtherCall.block_eq {data : Bytes} (h : OtherCall d w sender target value data w') :
    w'.block = w.block := by
  cases h <;> rfl

/-! ## Calls -/

/-- **A call with calldata.** -/
inductive Called (d : Wiring) (w : World) (sender target : Address) (value : Nat) (data : Bytes) :
    World → Prop where
  | other {w' : World} (ht : target ≠ d.governor) (h : OtherCall d w sender target value data w') :
      Called d w sender target value data w'
  /-- Native GMB and no calldata. -/
  | plain {b : Address → Nat} (hb : Gains [sender] w.balance b) :
      Called d w sender target value data { w with balance := b }
  /-- A function of the Governor on proposals, performed by a later label. -/
  | calling (ht : target = d.governor) :
      Called d w sender target value data (w.push (.calling sender target (selector data) value))
  /-- The Governor's configuration. -/
  | configure {g g' : GembaGovernor} {fn : GovernorFn} (ht : target = d.governor)
      (hfn : GovernorFn.decode data = some fn)
      (hg : w.governor.onlyGovernance d.governor sender data = .ok g)
      (h : g.configure w.block.number fn = .ok g') :
      Called d w sender target value data { w with governor := g' }
  /-- A call the Governor relays. -/
  | relay {g : GembaGovernor} {b : Address → Nat} {c : Action} {w' : World} (ht : target = d.governor)
      (hg : w.governor.onlyGovernance d.governor sender data = .ok g)
      (hb : Gains [sender] w.balance b)
      (h : OtherCall d { w with governor := g, balance := b } d.governor c.target c.value c.data w' ∨
        w' = { w with governor := g, balance := b }.push
          (.calling d.governor d.governor (selector c.data) c.value)) :
      Called d w sender target value data w'

theorem callRelayed_spec {c : Action} (h : w.callRelayed d c = .ok w') :
    OtherCall d w d.governor c.target c.value c.data w' ∨
      w' = w.push (.calling d.governor d.governor (selector c.data) c.value) := by
  unfold callRelayed at h
  by_cases hdata : c.data = []
  · rw [if_pos hdata] at h
    obtain ⟨b, rfl, -, hb, -⟩ := send_spec h
    exact .inl (.quiet hb)
  · rw [if_neg hdata] at h
    by_cases hself : c.target = d.governor
    · rw [if_pos hself] at h
      obtain ⟨-, h⟩ := failIf_bind_eq_ok.mp h
      injection h with h
      exact .inr h.symm
    · rw [if_neg hself] at h
      exact .inl (callOther_spec h)

theorem callGovernor_spec {data : Bytes} (h : w.callGovernor d sender value data = .ok w') :
    Called d w sender d.governor value data w' := by
  unfold callGovernor at h
  split at h
  · rename_i fn hfn
    obtain ⟨-, h⟩ := failIf_bind_eq_ok.mp h
    obtain ⟨g, hg, h⟩ := bind_eq_ok.mp h
    obtain ⟨g', hconf, h⟩ := bind_eq_ok.mp h
    injection h with h
    subst h
    exact .configure rfl hfn hg hconf
  · split at h
    · rename_i c _
      obtain ⟨w₁, hpay, h⟩ := bind_eq_ok.mp h
      obtain ⟨b, rfl, -, hb, -⟩ := pay_spec hpay
      obtain ⟨g, hg, h⟩ := bind_eq_ok.mp h
      exact .relay rfl hg hb (callRelayed_spec h)
    · injection h with h
      subst h
      exact .calling rfl

theorem call_spec {data : Bytes} (h : w.call d sender target value data = .ok w') :
    Called d w sender target value data w' := by
  unfold call at h
  by_cases hdata : data = []
  · rw [if_pos hdata] at h
    obtain ⟨b, rfl, -, hb, -⟩ := send_spec h
    exact .plain hb
  · rw [if_neg hdata] at h
    by_cases hgov : target = d.governor
    · rw [if_pos hgov] at h
      subst hgov
      exact callGovernor_spec h
    · rw [if_neg hgov] at h
      exact .other hgov (callOther_spec h)

/-! ## Steps -/

/-- **A step, label by label.** -/
inductive Stepped (d : Wiring) (w : World) : Label → World → Prop where
  | block {number timestamp : Nat} (hframes : w.frames = []) (hn : w.block.number < number)
      (ht : w.block.timestamp ≤ timestamp) :
      Stepped d w (.block number timestamp) { w with block := ⟨number, timestamp⟩ }
  | bank {a : Address} {amount : Nat} (h : w.isOutside d a = true ∨ w.balance a ≤ amount) :
      Stepped d w (.bank a amount)
        { w with balance := fun x => if x = a then amount else w.balance x }
  | call {sender target : Address} {value : Nat} {data : Bytes} {w' : World}
      (ho : w.isOutside d sender = true) (h : Called d w sender target value data w') :
      Stepped d w (.call sender target value data) w'
  | propose {sender : Address} {calls : List Action} {description : Description}
      {frames : List Frame} {g : GembaGovernor}
      (ha : Authorized d w sender d.governor GovernorFn.proposeSelectors 0 frames)
      (h : w.governor.propose d.governor w.view sender calls description = .ok g) :
      Stepped d w (.propose sender calls description) { w with governor := g, frames }
  | castVote {account : Address} {pid : ProposalId} {support : Nat} {frames : List Frame}
      {g : GembaGovernor} (ha : Authorized d w account d.governor GovernorFn.voteSelectors 0 frames)
      (h : w.governor.castVote w.view account pid support = .ok g) :
      Stepped d w (.castVote account pid support) { w with governor := g, frames }
  | queue {sender : Address} {pid : ProposalId} {frames : List Frame} {g : GembaGovernor}
      {t : Timelock} (ha : Authorized d w sender d.governor GovernorFn.queueSelectors 0 frames)
      (h : w.governor.queue d.governor w.view pid = .ok (g, t)) :
      Stepped d w (.queue sender pid)
        { w.setTimelock w.governor.timelock t with governor := g, frames }
  | execute {sender : Address} {value : Nat} {pid : ProposalId} {frames : List Frame}
      {g : GembaGovernor} {t : Timelock} {b : Address → Nat}
      (ha : Authorized d w sender d.governor GovernorFn.executeSelectors value frames)
      (h : w.governor.beginExecute d.governor w.view pid = .ok g)
      (ht : w.timelocks g.timelock = some t)
      (hready : t.operationState w.block.timestamp (GembaGovernor.operation d.governor pid) = .ready)
      (hb : Gains [sender, d.governor] w.balance b) :
      Stepped d w (.execute sender value pid)
        { w with
          governor := g
          balance := b
          frames := .batch g.timelock (GembaGovernor.operation d.governor pid) pid.calls
            :: .governing pid :: frames }
  | cancel {sender : Address} {pid : ProposalId} {frames : List Frame} {g : GembaGovernor}
      {t : Option Timelock}
      (ha : Authorized d w sender d.governor GovernorFn.cancelSelectors 0 frames)
      (h : w.governor.cancel d.governor w.view sender pid = .ok (g, t)) :
      Stepped d w (.cancel sender pid)
        { w with
          governor := g
          frames
          timelocks := match t with
            | none => w.timelocks
            | some t => (w.setTimelock w.governor.timelock t).timelocks }
  | schedule {sender a : Address} {op : Operation} {delay : Nat} {frames : List Frame}
      {t t' : Timelock} (ha : Authorized d w sender a TimelockFn.operationSelectors 0 frames)
      (ht : w.timelocks a = some t) (h : t.schedule sender w.block.timestamp op delay = .ok t') :
      Stepped d w (.schedule sender a op delay) { w.setTimelock a t' with frames }
  | cancelOperation {sender a : Address} {op : Operation} {frames : List Frame} {t t' : Timelock}
      (ha : Authorized d w sender a TimelockFn.operationSelectors 0 frames)
      (ht : w.timelocks a = some t) (h : t.cancel sender w.block.timestamp op = .ok t') :
      Stepped d w (.cancelOperation sender a op) { w.setTimelock a t' with frames }
  | executeOperation {sender a : Address} {value : Nat} {op : Operation} {frames : List Frame}
      {t : Timelock} {b : Address → Nat}
      (ha : Authorized d w sender a TimelockFn.operationSelectors value frames)
      (ht : w.timelocks a = some t) (hready : t.operationState w.block.timestamp op = .ready)
      (hb : Gains [sender] w.balance b) :
      Stepped d w (.executeOperation sender a value op)
        { w with balance := b, frames := .batch a op op.calls :: frames }
  | delegateBySig {signer delegatee : Address} {nonce expiry : Nat} {token : GembaVotes}
      (h : GembaVotes.SupplyKept w.block.number w.token token) :
      Stepped d w (.delegateBySig signer delegatee nonce expiry) { w with token }
  | permit {owner spender : Address} {value deadline : Nat} {token : GembaVotes}
      (h : GembaVotes.SupplyKept w.block.number w.token token) :
      Stepped d w (.permit owner spender value deadline) { w with token }
  | act {a : Address} {op : Operation} {c : Action} {rest : List Action} {below : List Frame}
      {w' : World} (hframes : w.frames = .batch a op (c :: rest) :: below)
      (h : Called d { w with frames := .batch a op rest :: below } a c.target c.value c.data w') :
      Stepped d w .act w'
  | finishBatch {a : Address} {op : Operation} {rest : List Frame} {t t' : Timelock}
      (hframes : w.frames = .batch a op [] :: rest) (ht : w.timelocks a = some t)
      (h : t.afterCall w.block.timestamp op = .ok t') :
      Stepped d w .finish { w.setTimelock a t' with frames := rest }
  | finishGoverning {pid : ProposalId} {rest : List Frame}
      (hframes : w.frames = .governing pid :: rest) :
      Stepped d w .finish
        { w with governor := w.governor.endExecute d.governor pid, frames := rest }
  | finishSending {a : Address} {rest : List Frame} {R : Reserve}
      (hframes : w.frames = .sending a :: rest) (hR : w.reserves a = some R) :
      Stepped d w .finish { w.setReserve a R.finishSend with frames := rest }
  | finishWithdrawing {rest : List Frame} (hframes : w.frames = .withdrawing :: rest) :
      Stepped d w .finish { w with token := w.token.finishSend, frames := rest }
  | finishCalling {sender target : Address} {sel value : Nat} {rest : List Frame}
      (hframes : w.frames = .calling sender target sel value :: rest) :
      Stepped d w .finish { w with frames := rest }
  | rogue {a : Address} {before after : BaseReserve} {dst : Address} {amount : Nat}
      {b : Address → Nat} (hR : w.reserves a = some (.unknown before))
      (hb : Gains [a] w.balance b) :
      Stepped d w (.rogue a after dst amount)
        { w.setReserve a (.unknown after) with
          balance := b
          outflows := ⟨a, dst, amount, a, w.block.timestamp, w.balance a - amount, .unknown⟩
            :: w.outflows }

theorem timelockAt_eq_ok {v : View} {a : Address} {t : Timelock} :
    GembaGovernor.timelockAt v a = .ok t ↔ v.timelocks a = some t := by
  unfold GembaGovernor.timelockAt
  cases v.timelocks a with
  | none => simp
  | some t' => simp

theorem beginBatch_spec {a : Address} {op : Operation} (h : w.beginBatch sender a op = .ok w') :
    ∃ t, w.timelocks a = some t ∧ t.operationState w.block.timestamp op = .ready ∧
      w' = w.push (.batch a op op.calls) := by
  obtain ⟨t, ht, h⟩ := bind_eq_ok.mp h
  obtain ⟨⟨⟩, hready, h⟩ := bind_eq_ok.mp h
  injection h with h
  exact ⟨t, timelockAt_eq_ok.mp ht, Timelock.beforeCall_spec hready, h.symm⟩

theorem execute_inv {pid : ProposalId} (h : w.execute d sender value pid = .ok w') :
    Stepped d w (.execute sender value pid) w' := by
  obtain ⟨w₁, hauth, h⟩ := bind_eq_ok.mp h
  obtain ⟨frames, ha, rfl⟩ := authorize_spec hauth
  obtain ⟨w₂, hpay, h⟩ := bind_eq_ok.mp h
  obtain ⟨b, rfl, -, hb, -⟩ := pay_spec hpay
  obtain ⟨g, hg, h⟩ := bind_eq_ok.mp h
  obtain ⟨w₃, hpay', h⟩ := bind_eq_ok.mp h
  obtain ⟨b', rfl, -, hb', -⟩ := pay_spec hpay'
  obtain ⟨t, ht, hready, rfl⟩ := beginBatch_spec h
  refine .execute ha hg ht hready ((hb.mono ?_).trans (hb'.mono ?_))
  · intro x hx
    exact List.mem_cons.mpr (.inl (List.mem_singleton.mp hx))
  · intro x hx
    exact List.mem_cons_of_mem _ hx

theorem finish_inv (h : w.finish d = .ok w') : Stepped d w .finish w' := by
  unfold finish at h
  split at h
  · rename_i a op rest hframes
    obtain ⟨t, ht, h⟩ := bind_eq_ok.mp h
    obtain ⟨t', hafter, h⟩ := bind_eq_ok.mp h
    injection h with h
    subst h
    exact .finishBatch hframes (timelockAt_eq_ok.mp ht) hafter
  · rename_i pid rest hframes
    injection h with h
    subst h
    exact .finishGoverning hframes
  · rename_i a rest hframes
    split at h
    · rename_i R hR
      injection h with h
      subst h
      exact .finishSending hframes hR
    · nomatch h
  · rename_i rest hframes
    injection h with h
    subst h
    exact .finishWithdrawing hframes
  · rename_i hframes
    injection h with h
    subst h
    exact .finishCalling hframes
  · nomatch h

theorem act_inv (h : w.act d = .ok w') : Stepped d w .act w' := by
  unfold act at h
  split at h
  · rename_i a op c rest below hframes
    exact .act hframes (call_spec h)
  · nomatch h

/-- **The inversion of a step.** -/
theorem step_inv {l : Label} (h : w.step d l = .ok w') : Stepped d w l w' := by
  cases l with
  | block number timestamp =>
    obtain ⟨⟨⟩, hframes, h⟩ := bind_eq_ok.mp h
    obtain ⟨⟨⟩, hblock, h⟩ := bind_eq_ok.mp h
    rw [failIf_eq_ok] at hframes hblock
    injection h with h
    subst h
    exact .block (not_not.mp hframes) (by omega) (by omega)
  | bank a amount =>
    obtain ⟨hbank, h⟩ := failIf_bind_eq_ok.mp h
    injection h with h
    subst h
    refine .bank ?_
    cases hout : w.isOutside d a with
    | true => exact .inl rfl
    | false => exact .inr (Nat.le_of_not_lt fun hlt => hbank ⟨hout, hlt⟩)
  | call sender target value data =>
    obtain ⟨hout, h⟩ := failIf_bind_eq_ok.mp h
    rw [Bool.not_eq_false] at hout
    exact .call hout (call_spec h)
  | propose sender calls description =>
    obtain ⟨w₁, hauth, h⟩ := bind_eq_ok.mp h
    obtain ⟨frames, ha, rfl⟩ := authorize_spec hauth
    obtain ⟨g, hg, h⟩ := bind_eq_ok.mp h
    injection h with h
    subst h
    exact .propose ha hg
  | castVote account pid support =>
    obtain ⟨w₁, hauth, h⟩ := bind_eq_ok.mp h
    obtain ⟨frames, ha, rfl⟩ := authorize_spec hauth
    obtain ⟨g, hg, h⟩ := bind_eq_ok.mp h
    injection h with h
    subst h
    exact .castVote ha hg
  | queue sender pid =>
    obtain ⟨w₁, hauth, h⟩ := bind_eq_ok.mp h
    obtain ⟨frames, ha, rfl⟩ := authorize_spec hauth
    obtain ⟨⟨g, t⟩, hg, h⟩ := bind_eq_ok.mp h
    injection h with h
    subst h
    exact .queue ha hg
  | execute sender value pid => exact execute_inv h
  | cancel sender pid =>
    obtain ⟨w₁, hauth, h⟩ := bind_eq_ok.mp h
    obtain ⟨frames, ha, rfl⟩ := authorize_spec hauth
    obtain ⟨⟨g, t⟩, hg, h⟩ := bind_eq_ok.mp h
    cases t with
    | none =>
      injection h with h
      subst h
      exact .cancel ha hg
    | some t =>
      injection h with h
      subst h
      exact .cancel ha hg
  | schedule sender a op delay =>
    obtain ⟨w₁, hauth, h⟩ := bind_eq_ok.mp h
    obtain ⟨frames, ha, rfl⟩ := authorize_spec hauth
    obtain ⟨t, ht, h⟩ := bind_eq_ok.mp h
    obtain ⟨t', hsched, h⟩ := bind_eq_ok.mp h
    injection h with h
    subst h
    exact .schedule ha (timelockAt_eq_ok.mp ht) hsched
  | cancelOperation sender a op =>
    obtain ⟨w₁, hauth, h⟩ := bind_eq_ok.mp h
    obtain ⟨frames, ha, rfl⟩ := authorize_spec hauth
    obtain ⟨t, ht, h⟩ := bind_eq_ok.mp h
    obtain ⟨t', hcancel, h⟩ := bind_eq_ok.mp h
    injection h with h
    subst h
    exact .cancelOperation ha (timelockAt_eq_ok.mp ht) hcancel
  | executeOperation sender a value op =>
    obtain ⟨w₁, hauth, h⟩ := bind_eq_ok.mp h
    obtain ⟨frames, ha, rfl⟩ := authorize_spec hauth
    obtain ⟨w₂, hpay, h⟩ := bind_eq_ok.mp h
    obtain ⟨b, rfl, -, hb, -⟩ := pay_spec hpay
    obtain ⟨t, ht, hready, rfl⟩ := beginBatch_spec h
    exact .executeOperation ha ht hready hb
  | delegateBySig signer delegatee nonce expiry =>
    obtain ⟨token, htoken, h⟩ := bind_eq_ok.mp h
    injection h with h
    subst h
    exact .delegateBySig (GembaVotes.delegateBySig_supply htoken)
  | permit owner spender value deadline =>
    obtain ⟨token, htoken, h⟩ := bind_eq_ok.mp h
    injection h with h
    subst h
    exact .permit (GembaVotes.permit_supply htoken)
  | act => exact act_inv h
  | finish => exact finish_inv h
  | rogue a after dst amount =>
    dsimp only [step] at h
    split at h
    · rename_i before hR
      obtain ⟨w₁, hpay, h⟩ := bind_eq_ok.mp h
      obtain ⟨b, rfl, -, hb, -⟩ := pay_spec hpay
      injection h with h
      subst h
      exact .rogue hR hb
    · nomatch h

end
end World
end Gemba.Governance
