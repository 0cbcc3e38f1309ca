/-
  The Critical bar and the treasury.

  A proposal that releases funds or replaces a reserve's code is Critical by its selector.  The
  reserves have other owner's functions, and a proposal that calls one is Standard: handing a reserve
  to another owner at the Standard bar, after which the new owner releases everything
  (`treasury_drained`).

  The bar protects the treasury along every run of Standard proposals in which the Timelock makes no
  such call: none that `loosens` what a reserve was at the start (`treasury_protected`).  The Timelock
  is then the owner of every reserve, it does nothing but what Standard proposals contain
  (`Authority`), and all that leaves a reserve is in its `Books`.
-/
import Gemba.Governance.Authority
import Gemba.Governance.Limits

namespace Gemba.Governance

open Gemba.Lib Gemba.Evm
open Gemba.Reserves (Reserve Send Exit ReserveFn Payment BaseReserve PublicReserve GembaDripFaucet)
open Rehearsal (env start start_deployed electorate alice bob propose carryOut)

/-! ## What is protected -/

/-- What a reserve paid out, newest first. -/
def World.paymentsOf (w : World) (r : Address) : List Outflow := w.outflows.filter (·.reserve = r)

def paid (outs : List Outflow) : Nat := (outs.map Outflow.amount).sum

/-- **The treasury is protected**: every reserve has the code and the owner it started with, what left
    it is among its payments, and these are within the limits it started with. -/
structure Protected (w₀ w : World) : Prop where
  terms : ∀ r R₀, w₀.reserves r = some R₀ → ∃ R, w.reserves r = some R ∧ R₀.base.Kept R.base
  funds : ∀ r R₀, w₀.reserves r = some R₀ → w₀.balance r ≤ w.balance r + paid (w.paymentsOf r)
  payments : ∀ r R₀, w₀.reserves r = some R₀ → PaidWithin R₀ (w.paymentsOf r)

/-- The call that the batch of the Timelock at `T` makes next. -/
def nextCall (T : Address) (w : World) : Label → Option Action
  | .act =>
    match w.frames with
    | .batch a _ (c :: _) :: _ => if a = T then some c else none
    | _ => none
  | _ => none

/-- The Timelock at `T` loosens nothing of what the reserves were at the start. -/
def KeepsTerms (T : Address) (w₀ w : World) (l : Label) : Prop :=
  ∀ c ∈ nextCall T w l, ∀ R₀ ∈ w₀.reserves c.target, ∀ R ∈ w.reserves c.target,
    ∀ fn ∈ ReserveFn.decode c.data, loosens w.block.timestamp R₀ R fn = false

section
variable {d : Wiring} {T : Address} {w w' w₀ w₁ : World} {l : Label} {as : List Label}
  {sender target r : Address} {value : Nat} {data : Bytes} {R R₀ : Reserve}

/-! ## Payments -/

theorem paymentsOf_cons_same {o : Outflow} {outs : List Outflow} (h : o.reserve = r)
    (hw : w'.outflows = o :: outs) (hw₁ : w₁.outflows = outs) :
    w'.paymentsOf r = o :: w₁.paymentsOf r := by
  unfold World.paymentsOf
  rw [hw, hw₁]
  exact List.filter_cons_of_pos (decide_eq_true h)

theorem paymentsOf_cons_ne {o : Outflow} {outs : List Outflow} (h : o.reserve ≠ r)
    (hw : w'.outflows = o :: outs) (hw₁ : w₁.outflows = outs) :
    w'.paymentsOf r = w₁.paymentsOf r := by
  unfold World.paymentsOf
  rw [hw, hw₁]
  exact List.filter_cons_of_neg (by simpa using h)

/-- A Standard proposal calls no function that is Critical by its selector. -/
theorem Minor.isCriticalFn_eq {c : Action} {fn : ReserveFn} (h : Minor d T c)
    (hfn : ReserveFn.decode c.data = some fn) : isCriticalFn fn = false := by
  have hsel := dispatch_sel hfn
  cases fn with
  | release dst amount => exact absurd hsel.symm h.release
  | upgradeToAndCall newImplementation => exact absurd hsel.symm h.upgrade
  | _ => rfl

/-! ## What a step does to a reserve -/

/-- **A reserve `R` after a step**: it is as it was, its recipient returned, or it was called, by the
    Timelock only to no looser terms than those of `R₀`. -/
inductive Visited (T r : Address) (R₀ R : Reserve) (w w' : World) : Prop where
  | passing (hR : w'.reserves r = some R) (ho : w'.paymentsOf r = w.paymentsOf r)
      (hb : w.balance r ≤ w'.balance r)
  | returned (hR : w'.reserves r = some R.finishSend) (ho : w'.paymentsOf r = w.paymentsOf r)
      (hb : w.balance r ≤ w'.balance r)
  | called {sender : Address} {value balance : Nat} {R' : Reserve} {fn : ReserveFn}
      {out : Option Payment} (hsender : sender ≠ 0)
      (howner : sender = T →
        isCriticalFn fn = false ∧ loosens w.block.timestamp R₀ R fn = false)
      (h : R.call w.block sender value balance fn = .ok (R', out))
      (hR : w'.reserves r = some R')
      (ho : w'.paymentsOf r = Books.record w.block sender r balance (w.paymentsOf r) out)
      (hb : w.balance r + paid (w.paymentsOf r) ≤ w'.balance r + paid (w'.paymentsOf r))

theorem Visited.funds (h : Visited T r R₀ R w w') :
    w.balance r + paid (w.paymentsOf r) ≤ w'.balance r + paid (w'.paymentsOf r) := by
  cases h with
  | passing hR ho hb =>
    rw [ho]
    omega
  | returned hR ho hb =>
    rw [ho]
    omega
  | called hsender howner h hR ho hb => exact hb

/-- The stack is no part of it. -/
theorem Visited.of_frames {frames : List Frame} (h : Visited T r R₀ R { w with frames } w') :
    Visited T r R₀ R w w' := by
  cases h with
  | passing hR ho hb => exact .passing hR ho hb
  | returned hR ho hb => exact .returned hR ho hb
  | called hsender howner h hR ho hb => exact .called hsender howner h hR ho hb

/-- A call to the token, a Timelock, a reserve or an unknown account. -/
theorem World.OtherCall.visited (h : World.OtherCall d w₁ sender target value data w')
    (hR : w₁.reserves r = some R) (hsender : sender ≠ 0) (hne : r ≠ sender) (htoken : r ≠ d.token)
    (howner : sender = T → target = r → ∀ fn, ReserveFn.decode data = some fn →
      isCriticalFn fn = false ∧ loosens w₁.block.timestamp R₀ R fn = false) :
    Visited T r R₀ R w₁ w' := by
  have hself : r ∉ [sender] := fun hm => hne (List.mem_singleton.mp hm)
  cases h with
  | token hsupply hb hframes =>
    refine .passing hR rfl (hb r fun hm => ?_)
    rcases List.mem_cons.mp hm with hm | hm
    · exact hne hm
    · exact htoken (List.mem_singleton.mp hm)
  | calling h => exact .passing hR rfl (Nat.le_refl _)
  | configure ht hfn h => exact .passing hR rfl (Nat.le_refl _)
  | @reserve R₁ R' fn b hR₁ hfn hb h =>
    by_cases htarget : target = r
    · subst htarget
      obtain rfl := Option.some.inj (hR.symm.trans hR₁)
      exact .called hsender (fun hs => howner hs rfl fn hfn) h (if_pos rfl) rfl
        (Nat.add_le_add_right (hb target hself) _)
    · exact .passing ((if_neg (Ne.symm htarget)).trans hR) rfl (hb r hself)
  | @payment R₁ R' fn b b' p hR₁ hfn hb h hfunds hb' hpaid =>
    by_cases htarget : target = r
    · subst htarget
      obtain rfl := Option.some.inj (hR.symm.trans hR₁)
      have hpayments : ({ w₁.setReserve target R' with
          balance := b'
          frames := .sending target :: w₁.frames
          outflows := ⟨target, p.send.dst, p.send.amount, sender, w₁.block.timestamp,
            b target - p.send.amount, p.exit⟩ :: w₁.outflows } : World).paymentsOf target
          = ⟨target, p.send.dst, p.send.amount, sender, w₁.block.timestamp,
            b target - p.send.amount, p.exit⟩ :: w₁.paymentsOf target :=
        paymentsOf_cons_same rfl rfl rfl
      refine .called hsender (fun hs => howner hs rfl fn hfn) h (if_pos rfl) hpayments ?_
      rw [hpayments]
      have hgain := hb target hself
      show w₁.balance target + paid (w₁.paymentsOf target) ≤
        b' target + (p.send.amount + paid (w₁.paymentsOf target))
      omega
    · refine .passing ((if_neg (Ne.symm htarget)).trans hR) (paymentsOf_cons_ne htarget rfl rfl) ?_
      refine Nat.le_trans (hb r hself) (hb' r fun hm => ?_)
      exact htarget (List.mem_singleton.mp hm).symm
  | quiet hb => exact .passing hR rfl (hb r hself)

/-- A call that is permitted. -/
theorem World.Called.visited (h : World.Called d w₁ sender target value data w')
    (hexecutor : w₁.governor.timelock = T) (hminor : sender = T → target ≠ d.governor)
    (hR : w₁.reserves r = some R) (hsender : sender ≠ 0) (hne : r ≠ sender) (htoken : r ≠ d.token)
    (howner : sender = T → target = r → ∀ fn, ReserveFn.decode data = some fn →
      isCriticalFn fn = false ∧ loosens w₁.block.timestamp R₀ R fn = false) :
    Visited T r R₀ R w₁ w' := by
  cases h with
  | other ht h => exact h.visited hR hsender hne htoken howner
  | plain hb => exact .passing hR rfl (hb r fun hm => hne (List.mem_singleton.mp hm))
  | calling ht => exact .passing hR rfl (Nat.le_refl _)
  | configure ht hfn hg h =>
    exact absurd ht (hminor ((GembaGovernor.onlyGovernance_spec hg).1.trans hexecutor))
  | relay ht hg hb h =>
    exact absurd ht (hminor ((GembaGovernor.onlyGovernance_spec hg).1.trans hexecutor))

/-! ## The invariant -/

/-- **The invariant of the treasury**: the Timelock acts for Standard proposals only, and every reserve
    has its books in order and its funds accounted for. -/
structure Guarded (d : Wiring) (T : Address) (w₀ w : World) : Prop where
  authority : Authority d T w₀ w
  books : ∀ r R₀, w₀.reserves r = some R₀ →
    ∃ R, w.reserves r = some R ∧ Books w.block.timestamp R₀ R (w.paymentsOf r)
  funds : ∀ r R₀, w₀.reserves r = some R₀ → w₀.balance r ≤ w.balance r + paid (w.paymentsOf r)
  time : 0 < w.block.timestamp

/-- A reserve has nothing in its books when it starts. -/
theorem Initialized.books {owner : Address} {clock : Nat} (h : Initialized owner clock R) :
    Books clock R R [] ∧ R.base.owner = owner := by
  cases h with
  | plain h =>
    obtain ⟨-, h⟩ := failIf_bind_eq_ok.mp h
    injection h with h
    subst h
    exact ⟨.plain ⟨rfl, rfl⟩, rfl⟩
  | @publicReserve impl pauser granter perGrantCap epochCap epochLength now p hnow h =>
    obtain ⟨⟨⟩, hepoch, h⟩ := bind_eq_ok.mp h
    obtain ⟨r, hr, h⟩ := bind_eq_ok.mp h
    obtain ⟨-, hr⟩ := failIf_bind_eq_ok.mp hr
    rw [failIf_eq_ok] at hepoch
    injection hr with hr
    injection h with h
    subst hr h
    refine ⟨.publicReserve ⟨rfl, rfl⟩ ⟨.inl rfl, Nat.le_refl _, fun hne => ?_⟩ ⟨?_, ?_, ?_⟩ ?_, rfl⟩
    · exact ⟨hne, Nat.le_refl _, Nat.le_refl _⟩
    · intro o ho
      nomatch ho
    · intro _ s
      exact Nat.zero_le _
    · intro _ s s' hs
      nomatch hs
    · intro hne
      refine ⟨?_, hnow, Nat.le_refl _, fun s hs => nomatch hs⟩
      exact Nat.pos_of_ne_zero fun hzero => hepoch ⟨hne, hzero⟩
  | dripFaucet h =>
    obtain ⟨r, hr, h⟩ := bind_eq_ok.mp h
    obtain ⟨-, h⟩ := failIf_bind_eq_ok.mp h
    obtain ⟨-, hr⟩ := failIf_bind_eq_ok.mp hr
    injection hr with hr
    injection h with h
    subst hr h
    refine ⟨.dripFaucet ⟨rfl, rfl⟩ ⟨Nat.le_refl _, Nat.le_refl _, Nat.le_refl _⟩ ⟨?_, .nil⟩ ?_, rfl⟩
    · intro o ho
      nomatch ho
    · intro o ho
      nomatch ho

theorem Deployed.guarded (h : Deployed d T w₀) : Guarded d T w₀ w₀ := by
  have hnone : ∀ r, w₀.paymentsOf r = [] := by
    intro r
    unfold World.paymentsOf
    rw [h.untouched]
    rfl
  refine ⟨.start h, ?_, ?_, h.started⟩
  · intro r R₀ hR
    rw [hnone]
    exact ⟨R₀, hR, (h.reserves r R₀ hR).1.books.1⟩
  · intro r R₀ hR
    exact Nat.le_add_right _ _

/-- Time does not go back. -/
theorem World.Stepped.time_le (h : World.Stepped d w l w') :
    w.block.timestamp ≤ w'.block.timestamp := by
  cases h with
  | block hframes hn ht => exact ht
  | call ho h => rw [h.block_eq]
  | act hframes h => rw [h.block_eq]
  | _ => exact Nat.le_refl _

namespace Guarded

theorem known (h : Guarded d T w₀ w) : Known w₀ w := by
  intro r hr
  obtain ⟨R₀, hR₀⟩ := Option.ne_none_iff_exists'.mp hr
  obtain ⟨R, hR, hbooks⟩ := h.books r R₀ hR₀
  exact ⟨R, hR, hbooks.isUnknown_eq⟩

/-- **A reserve after a step.** -/
theorem visited (h : Guarded d T w₀ w) (hdep : Deployed d T w₀) (hP : KeepsTerms T w₀ w l)
    (hs : World.Stepped d w l w') (hR₀ : w₀.reserves r = some R₀) (hR : w.reserves r = some R) :
    Visited T r R₀ R w w' := by
  have hauth := h.authority
  obtain ⟨-, hgovernor, htoken, htimelock⟩ := hdep.reserves r R₀ hR₀
  -- nobody who calls is the reserve itself
  have hapart : ∀ {s : Address}, Caller d w₀ s → r ≠ s := by
    rintro s hs rfl
    rw [hs.reserve] at hR₀
    nomatch hR₀
  cases hs with
  | @call sender target value data _ ho hcall =>
    have hperm := hauth.permitted_call hdep h.known ho ⟨target, value, data⟩
    refine hcall.visited hauth.executor (fun hs => (hperm.minor hs).governor) hR
      hperm.caller.nonzero (hapart hperm.caller) htoken ?_
    intro hsT
    obtain ⟨t, ht, -⟩ := hdep.timelock
    have hnone := (hauth.timelocks sender).mp (caller_of_outside h.known ho).2
    rw [hsT, ht] at hnone
    nomatch hnone
  | @act a op c rest below _ hframes hcall =>
    have hperm := hauth.permitted_act hdep hframes
    refine Visited.of_frames (hcall.visited hauth.executor (fun hs => (hperm.minor hs).governor) hR
      hperm.caller.nonzero (hapart hperm.caller) htoken ?_)
    intro haT htarget fn hfn
    refine ⟨(hperm.minor haT).isCriticalFn_eq hfn, ?_⟩
    have hnext : nextCall T w .act = some c := by
      unfold nextCall
      dsimp only
      rw [hframes]
      exact if_pos haT
    subst htarget
    exact hP c hnext R₀ hR₀ R hR fn hfn
  | @bank a amount hbank =>
    refine .passing hR rfl ?_
    show w.balance r ≤ if r = a then amount else w.balance r
    by_cases hra : r = a
    · rw [if_pos hra]
      subst hra
      rcases hbank with ho | hle
      · -- a reserve is not outside
        exact absurd rfl (hapart (caller_of_outside h.known ho).1)
      · exact hle
    · rw [if_neg hra]
  | @execute sender value pid frames g t b ha hbegin ht hready hb =>
    refine .passing hR rfl (hb r fun hm => ?_)
    rcases List.mem_cons.mp hm with rfl | hm
    · rcases ha with ⟨ho, -⟩ | ⟨sel, -, hframes⟩
      · exact hapart (caller_of_outside h.known ho).1 rfl
      · have hentitled := hauth.frames (.calling r d.governor sel value)
          (by rw [hframes]; exact List.mem_cons_self)
        exact hapart hentitled rfl
    · exact hgovernor (List.mem_singleton.mp hm)
  | @executeOperation sender a value op frames t b ha ht hready hb =>
    refine .passing hR rfl (hb r fun hm => ?_)
    obtain rfl := List.mem_singleton.mp hm
    rcases ha with ⟨ho, -⟩ | ⟨sel, -, hframes⟩
    · exact hapart (caller_of_outside h.known ho).1 rfl
    · have hentitled := hauth.frames (.calling r a sel value)
        (by rw [hframes]; exact List.mem_cons_self)
      exact hapart hentitled rfl
  | @finishSending a rest R₁ hframes hR₁ =>
    by_cases hra : r = a
    · subst hra
      obtain rfl := Option.some.inj (hR.symm.trans hR₁)
      exact .returned (if_pos rfl) rfl (Nat.le_refl _)
    · exact .passing ((if_neg hra).trans hR) rfl (Nat.le_refl _)
  | @rogue a before after dst amount b hR₁ hb =>
    have hra : a ≠ r := by
      rintro rfl
      obtain ⟨R₂, hR₂, hcode⟩ := h.known a (by rw [hR₀]; exact Option.some_ne_none _)
      obtain rfl := Option.some.inj (hR₂.symm.trans hR₁)
      nomatch hcode
    refine .passing ((if_neg (Ne.symm hra)).trans hR) (paymentsOf_cons_ne hra rfl rfl) (hb r ?_)
    intro hm
    exact hra (List.mem_singleton.mp hm).symm
  | _ => exact .passing hR rfl (Nat.le_refl _)

/-- **A step keeps the treasury guarded.** -/
theorem step (h : Guarded d T w₀ w) (hdep : Deployed d T w₀) (hstd : StandardOnly d T w l)
    (hP : KeepsTerms T w₀ w l) (hs : World.Stepped d w l w') : Guarded d T w₀ w' := by
  refine ⟨h.authority.step hdep h.known hstd hs, ?_, ?_, Nat.lt_of_lt_of_le h.time hs.time_le⟩
  · intro r R₀ hR₀
    obtain ⟨R, hR, hbooks⟩ := h.books r R₀ hR₀
    cases h.visited hdep hP hs hR₀ hR with
    | passing hR' ho hb =>
      refine ⟨R, hR', ?_⟩
      rw [ho]
      exact hbooks.later hs.time_le
    | returned hR' ho hb =>
      refine ⟨R.finishSend, hR', ?_⟩
      rw [ho]
      exact hbooks.finishSend.later hs.time_le
    | @called sender value balance R' fn out hsender howner hcall hR' ho hb =>
      refine ⟨R', hR', ?_⟩
      rw [ho]
      refine (hbooks.call hcall hsender h.time fun hso => howner ?_).later hs.time_le
      exact hso.trans (hdep.reserves r R₀ hR₀).1.books.2
  · intro r R₀ hR₀
    obtain ⟨R, hR, -⟩ := h.books r R₀ hR₀
    have hfunds := h.funds r R₀ hR₀
    have hkept := (h.visited hdep hP hs hR₀ hR).funds
    omega

theorem toProtected (h : Guarded d T w₀ w) : Protected w₀ w := by
  refine ⟨?_, h.funds, ?_⟩
  · intro r R₀ hR₀
    obtain ⟨R, hR, hbooks⟩ := h.books r R₀ hR₀
    exact ⟨R, hR, hbooks.kept⟩
  · intro r R₀ hR₀
    obtain ⟨R, hR, hbooks⟩ := h.books r R₀ hR₀
    exact hbooks.paidWithin

end Guarded

/-- **The Critical bar protects the treasury.**  From the deployed wiring, along every run in which
    every executed proposal is Standard and the Timelock loosens nothing of what the reserves were:
    they keep their code and their owner, and no native GMB leaves but through grants and drips within
    the limits they started with. -/
theorem treasury_protected (hdep : Deployed d T w₀)
    (h : Run (World.step d) (fun w l => StandardOnly d T w l ∧ KeepsTerms T w₀ w l) w₀ as w) :
    Protected w₀ w := by
  have hguarded : Guarded d T w₀ w := by
    refine h.inv (Guarded d T w₀) hdep.guarded ?_
    rintro t a u hinv ⟨hstd, hP⟩ hs
    exact hinv.step hdep hstd hP (World.step_inv hs)
  exact hguarded.toProtected

end

/-! ## A rehearsal -/

namespace Rehearsal

def mallory : Address := 0xee

/-- A proposal to hand the foundation's reserve to Mallory: Standard. -/
def handOver : ProposalId :=
  ⟨[⟨0x21, 0, encodeCall (ReserveFn.transferOwnership mallory).sel [mallory.toNat]⟩], 6⟩

/-- A proposal to halve the cap of a grant: Standard. -/
def halveCap : ProposalId :=
  ⟨[⟨0x11, 0, encodeCall (ReserveFn.setPerGrantCap (500 * 10 ^ 18)).sel [500 * 10 ^ 18]⟩], 7⟩

/-- Everyone votes for a proposal, and it is carried out. -/
def adopt (pid : ProposalId) : List Label :=
  electorate ++ [propose alice pid, .block 4 1020, .castVote alice pid 1, .castVote bob pid 1,
    .block 86404 250000] ++ carryOut alice pid 86500 250300

/-- The cap is halved, and the granter grants 400 GMB of what the public reserve got. -/
def halved : List Label :=
  adopt halveCap ++ [.bank 0x11 (1000 * 10 ^ 18),
    .call env.deployer 0x11 0 (encodeCall (ReserveFn.grant alice (400 * 10 ^ 18)).sel
      [alice.toNat, 400 * 10 ^ 18]), .finish]

/-- The reserve is handed over, and Mallory releases it all. -/
def drain : List Label :=
  adopt handOver ++ [.call mallory 0x21 0 (encodeCall
    (ReserveFn.release mallory (15000000 * 10 ^ 18)).sel [mallory.toNat, 15000000 * 10 ^ 18])]

/-- The Governor executes a Standard proposal only, and nothing is executed past it. -/
def standardStep (w : World) : Label → Bool
  | .execute _ _ pid => w.governor.isCritical pid = false
  | .executeOperation .. => false
  | _ => true

theorem standardOnly_of_step {d : Wiring} {T : Address} {w : World} {l : Label}
    (h : standardStep w l = true) : StandardOnly d T w l := by
  cases l with
  | execute sender value pid =>
    have hstd : w.governor.isCritical pid = false := of_decide_eq_true h
    exact hstd
  | executeOperation sender a value op => nomatch h
  | _ => exact trivial

end Rehearsal

open Rehearsal in
theorem treasury_protected_halved :
    (runTo (World.step env.wiring) start halved).outflows.map Outflow.amount = [400 * 10 ^ 18] ∧
      Protected start (runTo (World.step env.wiring) start halved) := by
  have hrun : Run (World.step env.wiring)
      (fun w l => standardStep w l = true ∧ KeepsTerms env.timelock start w l) start halved
      (runTo (World.step env.wiring) start halved) := by
    refine Run.of_runTo ?_ (by decide +kernel)
    unfold KeepsTerms
    decide +kernel
  refine ⟨by decide +kernel, treasury_protected start_deployed (hrun.mono fun w l h => ?_)⟩
  exact ⟨standardOnly_of_step h.1, h.2⟩

/-- The Critical bar protects the treasury, over every run of Standard proposals. -/
def TreasuryProtected : Prop :=
  ∀ {d : Wiring} {T : Address} {w₀ w : World} {as : List Label}, Deployed d T w₀ →
    Run (World.step d) (StandardOnly d T) w₀ as w → Protected w₀ w

open Rehearsal in
/-- **A Standard proposal opens the treasury.**  The foundation's reserve is handed over at the Standard
    bar, and its new owner releases it all. -/
theorem treasury_drained : ¬ TreasuryProtected := by
  intro hclaim
  have hrun : Run (World.step env.wiring) (fun w l => standardStep w l = true) start drain
      (runTo (World.step env.wiring) start drain) :=
    Run.of_runTo (by decide +kernel) (by decide +kernel)
  have hprotected := hclaim start_deployed (hrun.mono fun w l h => standardOnly_of_step h)
  have hreserve : (start.reserves 0x21).isSome = true := by decide +kernel
  obtain ⟨R, hR⟩ := Option.isSome_iff_exists.mp hreserve
  have hplain : start.reserves 0x21 = some (.plain R.base) := by
    have hkind : (start.reserves 0x21).all (fun R => match R with
      | .plain _ => true
      | _ => false) = true := by decide +kernel
    rw [hR] at hkind ⊢
    cases R with
    | plain r => rfl
    | _ => nomatch hkind
  have hnothing := hprotected.payments 0x21 _ hplain
  exact absurd (congrArg List.length hnothing) (by decide +kernel)

end Gemba.Governance
