/-
  How fast GMB can leave a `PublicReserve` through `grant`.

  The reserve is stepped as a contract that calls out (`Lib/Reentrancy.lean`): `grant` and `release`
  stop at the send, the recipient may call any function of the reserve before it returns, and a send
  that is refused reverts the call.  Beside the storage the world keeps what a grant leaves behind:
  the list of the grants that took effect, which a revert shortens again like the storage.

    `run_effect`     what one function does to the cumulative total and to the window
    `Counted`        the total is the sum of the grants, each within the cap of its time
    `Rated`          the grants of a run that leaves the limits alone, as the log of a meter
-/
import Gemba.Lib.Windows
import Gemba.Lib.Reentrancy
import Gemba.Reserves.Reserve

namespace Gemba.Reserves.DrainRate

open Gemba.Lib Gemba.Evm

/-- A grant that took effect, with the cap on a single grant at its time. -/
structure Grant where
  time : Nat
  amount : Nat
  perGrantCap : Nat
deriving DecidableEq, Repr

/-- A grant as a spending. -/
def Grant.spending (g : Grant) : Spending := ⟨g.time, g.amount⟩

/-- What was spent through grants. -/
def spendings (gs : List Grant) : List Spending := gs.map Grant.spending

/-- The reserve, what it holds, the block, and the grants that took effect. -/
structure World where
  reserve : PublicReserve
  balance : Nat
  block : Block
  grants : List Grant
deriving DecidableEq, Repr

/-- A call to the reserve, or native GMB sent to it. -/
inductive Message where
  | fn (sender : Address) (fn : ReserveFn)
  | receive (amount : Nat)
deriving DecidableEq

/-- A call waits for the recipient of its send. -/
inductive Waiting where
  | send
deriving DecidableEq

/-- The grants a payment adds. -/
def noted (w : World) (pay : Payment) : List Grant :=
  match pay.exit with
  | .grant _ => [⟨w.block.timestamp, pay.send.amount, w.reserve.perGrantCap⟩]
  | _ => []

/-- A message, up to the send.  An upgrade replaces the code, and the runs of this code end there. -/
def enter (w : World) : Message → Call (World × Option Waiting)
  | .fn sender fn => do
    let (R, out) ← (Reserve.publicReserve w.reserve).run w.block sender w.balance fn
    let reserve ← R.publicReserve?
    match out with
    | none => .ok ({ w with reserve }, none)
    | some pay =>
      .ok ({ w with reserve, balance := w.balance - pay.send.amount,
                    grants := w.grants ++ noted w pay }, some .send)
  | .receive amount => .ok ({ w with balance := w.balance + amount }, none)

/-- The end of `_release`: the send must have succeeded, and the guard is released. -/
def resume (w : World) (_ : Waiting) (ok : Bool) : Call (World × Option Waiting) := do
  failIf (!ok) (err "NativeSendFailed")
  .ok ({ w with reserve := { w.reserve with toBaseReserve := w.reserve.finishSend } }, none)

/-- The next block is not earlier. -/
def between (w : World) (b : Block) : Call World := do
  failIf (b.timestamp < w.block.timestamp) .external
  .ok { w with block := b }

/-- The reserve as a contract that calls out. -/
def contract : Contract Revert World Waiting Message Bool Block := ⟨enter, resume, between⟩

abbrev State := Machine World Waiting
abbrev Step := Event Message Bool Block

/-! ## What one function does -/

/-- What the rate is counted by: the cumulative total, the window cap and length, and the window. -/
def meter (p : PublicReserve) : Nat × Nat × Nat × Nat × Nat :=
  (p.totalGranted, p.epochCap, p.epochLength, p.epochStart, p.epochSpent)

/-- **What a function of the reserve does to its meter**: a grant is counted, `setEpochLimit` starts a
    new window, and nothing else touches it or pays out as a grant. -/
inductive Effect (now : Nat) (p p' : PublicReserve) : ReserveFn → Option Payment → Prop where
  | grant {sender dst : Address} {amount : Nat} (h : p.Granted p' sender amount now)
      (hfree : p.epochCap = 0 → p'.epochStart = p.epochStart) :
      Effect now p p' (.grant dst amount) (some ⟨⟨dst, amount⟩, .grant p'.epochStart⟩)
  | setEpochLimit {newCap newLength : Nat}
      (h : meter p' = (p.totalGranted, newCap, newLength, now, 0)) :
      Effect now p p' (.setEpochLimit newCap newLength) none
  | release {dst : Address} {amount : Nat} {s : Send} (h : meter p' = meter p) :
      Effect now p p' (.release dst amount) (some ⟨s, .release⟩)
  | other {fn : ReserveFn} (h : meter p' = meter p) : Effect now p p' fn none

/-- A function of `BaseReserve` leaves the meter alone. -/
theorem effect_of_base {now : Nat} {p p' : PublicReserve} {x : Call BaseReserve} {fn : ReserveFn}
    {out : Option Payment}
    (h : (do let r ← x; .ok ((Reserve.publicReserve p).setBase r, none)) =
      (.ok (.publicReserve p', out) : Call (Reserve × Option Payment))) :
    Effect now p p' fn out := by
  obtain ⟨r, -, h⟩ := bind_eq_ok.mp h
  obtain ⟨hR, rfl⟩ := ok_pair h
  obtain rfl := Reserve.publicReserve.inj hR
  exact .other rfl

/-- A setter of the public reserve runs on its own storage, and sends nothing. -/
theorem setter_of_public {p p' : PublicReserve} {f : PublicReserve → Call PublicReserve}
    {out : Option Payment}
    (h : (do let q ← (Reserve.publicReserve p).publicReserve?
             let q ← f q
             .ok (.publicReserve q, none)) =
      (.ok (.publicReserve p', out) : Call (Reserve × Option Payment))) :
    f p = .ok p' ∧ out = none := by
  obtain ⟨q, q', hq, hset, hR, rfl⟩ := Reserve.publicReserve_set h
  obtain rfl := Reserve.publicReserve.inj hq
  obtain rfl := Reserve.publicReserve.inj hR
  exact ⟨hset, rfl⟩

theorem run_effect {b : Block} {sender : Address} {balance : Nat} {p p' : PublicReserve}
    {fn : ReserveFn} {out : Option Payment}
    (h : (Reserve.publicReserve p).run b sender balance fn = .ok (.publicReserve p', out)) :
    Effect b.timestamp p p' fn out := by
  cases fn with
  | grant dst amount =>
    obtain ⟨q, hq, h⟩ := bind_eq_ok.mp h
    obtain rfl := Except.ok.inj hq
    obtain ⟨⟨q', s⟩, hgrant, h⟩ := bind_eq_ok.mp h
    obtain ⟨hR, rfl⟩ := ok_pair h
    obtain rfl := Reserve.publicReserve.inj hR
    obtain ⟨hg, -, -, rfl⟩ := PublicReserve.grant_spec hgrant
    exact .grant hg (PublicReserve.grant_unlimited hgrant)
  | setEpochLimit newCap newLength =>
    obtain ⟨hset, rfl⟩ := setter_of_public h
    obtain ⟨-, hset⟩ := failIf_bind_eq_ok.mp hset
    obtain ⟨-, hset⟩ := failIf_bind_eq_ok.mp hset
    obtain rfl := Except.ok.inj hset
    exact .setEpochLimit rfl
  | setGranter newGranter =>
    obtain ⟨hset, rfl⟩ := setter_of_public h
    obtain ⟨-, hset⟩ := failIf_bind_eq_ok.mp hset
    obtain rfl := Except.ok.inj hset
    exact .other rfl
  | setPerGrantCap newCap =>
    obtain ⟨hset, rfl⟩ := setter_of_public h
    obtain ⟨-, hset⟩ := failIf_bind_eq_ok.mp hset
    obtain rfl := Except.ok.inj hset
    exact .other rfl
  | release dst amount =>
    obtain ⟨⟨r, s⟩, -, h⟩ := bind_eq_ok.mp h
    obtain ⟨hR, rfl⟩ := ok_pair h
    obtain rfl := Reserve.publicReserve.inj hR
    exact .release rfl
  | upgradeToAndCall newImplementation =>
    obtain ⟨r, -, h⟩ := bind_eq_ok.mp h
    nomatch (ok_pair h).1
  | pause => exact effect_of_base h
  | unpause => exact effect_of_base h
  | setPauser newPauser => exact effect_of_base h
  | transferOwnership newOwner => exact effect_of_base h
  | renounceOwnership => exact effect_of_base h
  | claim =>
    obtain ⟨f, hf, -⟩ := bind_eq_ok.mp h
    nomatch hf
  | dripTo recipient =>
    obtain ⟨f, hf, -⟩ := bind_eq_ok.mp h
    nomatch hf
  | setDripParams dripAmount cooldown minBalance =>
    obtain ⟨f, hf, -⟩ := bind_eq_ok.mp h
    nomatch hf

/-- What a message that went in did to the world. -/
inductive Entered (w : World) : Message → World → Option Waiting → Prop where
  | paid {sender : Address} {fn : ReserveFn} {p : PublicReserve} {pay : Payment}
      (h : Effect w.block.timestamp w.reserve p fn (some pay)) :
      Entered w (.fn sender fn)
        { w with reserve := p, balance := w.balance - pay.send.amount,
                 grants := w.grants ++ noted w pay } (some .send)
  | called {sender : Address} {fn : ReserveFn} {p : PublicReserve}
      (h : Effect w.block.timestamp w.reserve p fn none) :
      Entered w (.fn sender fn) { w with reserve := p } none
  | received {amount : Nat} : Entered w (.receive amount) { w with balance := w.balance + amount } none

theorem enter_entered {w w' : World} {x : Message} {k : Option Waiting}
    (h : enter w x = .ok (w', k)) : Entered w x w' k := by
  cases x with
  | fn sender fn =>
    obtain ⟨⟨R, out⟩, hrun, h⟩ := bind_eq_ok.mp h
    obtain ⟨p, hp, h⟩ := bind_eq_ok.mp h
    obtain rfl := Reserve.publicReserve?_eq_ok.mp hp
    have heffect := run_effect hrun
    cases out with
    | none =>
      obtain ⟨rfl, rfl⟩ := ok_pair h
      exact .called heffect
    | some pay =>
      obtain ⟨rfl, rfl⟩ := ok_pair h
      exact .paid heffect
  | receive amount =>
    obtain ⟨rfl, rfl⟩ := ok_pair h
    exact .received

/-- The end of a send touches neither the meter nor the grants. -/
theorem resume_meter {w w' : World} {k : Waiting} {ok : Bool} {k' : Option Waiting}
    (h : resume w k ok = .ok (w', k')) :
    meter w'.reserve = meter w.reserve ∧ w'.block = w.block ∧ w'.grants = w.grants := by
  obtain ⟨-, h⟩ := failIf_bind_eq_ok.mp h
  obtain ⟨rfl, -⟩ := ok_pair h
  exact ⟨rfl, rfl, rfl⟩

/-- A later block, and nothing else. -/
theorem between_later {w w' : World} {b : Block} (h : between w b = .ok w') :
    w.block.timestamp ≤ b.timestamp ∧ w' = { w with block := b } := by
  obtain ⟨hb, h⟩ := failIf_bind_eq_ok.mp h
  injection h with h
  exact ⟨by omega, h.symm⟩

/-! ## The invariants -/

/-- The total is the sum of the grants, each within the cap of its time, and the window did not start
    in the future. -/
structure Counted (w : World) : Prop where
  total : w.reserve.totalGranted = spentIn (spendings w.grants)
  within : ∀ g ∈ w.grants, g.amount ≤ g.perGrantCap
  started : w.reserve.epochStart ≤ w.block.timestamp

/-- Since `w₀` the limits stayed what they are, and the grants are the log of the window. -/
structure RatedBy (w₀ w : World) (since : List Grant) : Prop where
  grants : w.grants = w₀.grants ++ since
  cap : w.reserve.epochCap = w₀.reserve.epochCap
  length : w.reserve.epochLength = w₀.reserve.epochLength
  metered : Metered w₀.reserve.epochLength w₀.reserve.epochCap (spendings since)
    w.reserve.epochStart w.reserve.epochSpent w.block.timestamp

def Rated (w₀ w : World) : Prop := ∃ since, RatedBy w₀ w since

/-- The messages that leave the limits alone. -/
def LeavesLimits : Message → Prop
  | .fn _ (.setEpochLimit _ _) => False
  | _ => True

instance : DecidablePred LeavesLimits := fun x =>
  match x with
  | .fn _ fn => by unfold LeavesLimits; split <;> infer_instance
  | .receive _ => .isTrue trivial

theorem spendings_append (gs hs : List Grant) :
    spendings (gs ++ hs) = spendings gs ++ spendings hs := List.map_append

/-- Storage and bookkeeping with the same meter count the same. -/
theorem Counted.of_meter {w w' : World} (h : Counted w) (hm : meter w'.reserve = meter w.reserve)
    (hblock : w.block.timestamp ≤ w'.block.timestamp) (hgrants : w'.grants = w.grants) :
    Counted w' := by
  simp only [meter, Prod.mk.injEq] at hm
  obtain ⟨htotal, -, -, hstart, -⟩ := hm
  refine ⟨?_, ?_, ?_⟩
  · rw [htotal, hgrants]
    exact h.total
  · rw [hgrants]
    exact h.within
  · rw [hstart]
    exact Nat.le_trans h.started hblock

theorem RatedBy.of_meter {w₀ w w' : World} {since : List Grant} (h : RatedBy w₀ w since)
    (hm : meter w'.reserve = meter w.reserve) (hblock : w.block.timestamp ≤ w'.block.timestamp)
    (hgrants : w'.grants = w.grants) : RatedBy w₀ w' since := by
  simp only [meter, Prod.mk.injEq] at hm
  obtain ⟨-, hcap, hlength, hstart, hspent⟩ := hm
  refine ⟨hgrants.trans h.grants, hcap.trans h.cap, hlength.trans h.length, ?_⟩
  rw [hstart, hspent]
  exact h.metered.wait hblock

/-- A grant is counted. -/
theorem Counted.grant {w : World} {p : PublicReserve} {sender dst : Address}
    {amount window balance : Nat} (h : Counted w)
    (hg : w.reserve.Granted p sender amount w.block.timestamp)
    (hfree : w.reserve.epochCap = 0 → p.epochStart = w.reserve.epochStart) :
    Counted { w with reserve := p, balance,
                     grants := w.grants ++ noted w ⟨⟨dst, amount⟩, .grant window⟩ } := by
  refine ⟨?_, ?_, ?_⟩
  · show p.totalGranted = _
    rw [hg.total, h.total, spendings_append]
    exact (spentIn_snoc _ _ _).symm
  · intro g hmem
    rcases List.mem_append.mp hmem with hmem | hmem
    · exact h.within g hmem
    · rw [List.mem_singleton.mp hmem]
      exact hg.withinCap
  · show p.epochStart ≤ _
    by_cases hz : w.reserve.epochCap = 0
    · rw [hfree hz]
      exact h.started
    · rcases (hg.window hz).2 with ⟨-, hstart, -⟩ | ⟨-, hstart, -⟩
      · rw [hstart]
        exact h.started
      · rw [hstart]

/-- A grant is a spending of the meter: in the window that runs, or the first of the next. -/
theorem RatedBy.grant {w₀ w : World} {p : PublicReserve} {sender dst : Address}
    {amount window balance : Nat} {since : List Grant} (hcap : 0 < w₀.reserve.epochCap)
    (h : RatedBy w₀ w since) (hg : w.reserve.Granted p sender amount w.block.timestamp) :
    RatedBy w₀
      { w with reserve := p, balance,
               grants := w.grants ++ noted w ⟨⟨dst, amount⟩, .grant window⟩ }
      (since ++ noted w ⟨⟨dst, amount⟩, .grant window⟩) := by
  obtain ⟨-, -, hpcap, hplength⟩ := hg.terms
  have hwcap : w.reserve.epochCap ≠ 0 := by
    rw [h.cap]
    omega
  obtain ⟨hspent, hwindow⟩ := hg.window hwcap
  refine ⟨?_, hpcap.trans h.cap, hplength.trans h.length, ?_⟩
  · show w.grants ++ _ = _
    rw [h.grants, List.append_assoc]
  · rw [spendings_append]
    rw [hpcap, h.cap] at hspent
    rw [h.length] at hwindow
    rcases hwindow with ⟨hin, hstart, hsum⟩ | ⟨hout, hstart, hsum⟩
    · rw [hsum] at hspent
      have hspend := h.metered.spend hin hspent
      rw [← hsum, ← hstart] at hspend
      exact hspend
    · rw [hsum] at hspent
      have hroll := h.metered.roll hout hspent
      show Metered _ _ _ p.epochStart p.epochSpent _
      rw [hstart, hsum]
      exact hroll

/-- `setEpochLimit` starts a window at the current time. -/
theorem Counted.setEpochLimit {w : World} {p : PublicReserve} {newCap newLength : Nat}
    (h : Counted w)
    (hm : meter p = (w.reserve.totalGranted, newCap, newLength, w.block.timestamp, 0)) :
    Counted { w with reserve := p } := by
  simp only [meter, Prod.mk.injEq] at hm
  obtain ⟨htotal, -, -, hstart, -⟩ := hm
  exact ⟨htotal.trans h.total, h.within, Nat.le_of_eq hstart⟩

/-- The total and the caps hold in every run of the reserve's code. -/
theorem counted_kept : contract.Keeps (fun _ _ => True) (fun _ => True) fun _ w => Counted w where
  enter := by
    intro _ w x w' k h _ henter
    cases enter_entered henter with
    | paid heffect =>
      cases heffect with
      | grant hg hfree => exact h.grant hg hfree
      | release hm => exact h.of_meter hm (Nat.le_refl _) (List.append_nil _)
    | called heffect =>
      cases heffect with
      | setEpochLimit hm => exact h.setEpochLimit hm
      | other hm => exact h.of_meter hm (Nat.le_refl _) rfl
    | received => exact h.of_meter rfl (Nat.le_refl _) rfl
  resume := by
    intro _ w k r w' k' h hresume
    obtain ⟨hm, hblock, hgrants⟩ := resume_meter (k := k) hresume
    exact h.of_meter hm (by rw [hblock]) hgrants
  between := by
    intro w b w' h _ hbetween
    obtain ⟨hb, rfl⟩ := between_later hbetween
    exact h.of_meter rfl hb rfl

/-- The grants since `w₀` are the log of the window in every run that leaves the limits alone. -/
theorem rated_kept {w₀ : World} (hcap : 0 < w₀.reserve.epochCap) :
    contract.Keeps (fun _ => LeavesLimits) (fun _ => True) fun _ w => Rated w₀ w where
  enter := by
    intro _ w x w' k h hx henter
    obtain ⟨since, h⟩ := h
    cases enter_entered henter with
    | paid heffect =>
      cases heffect with
      | grant hg hfree => exact ⟨_, h.grant hcap hg⟩
      | release hm => exact ⟨since, h.of_meter hm (Nat.le_refl _) (List.append_nil _)⟩
    | called heffect =>
      cases heffect with
      | setEpochLimit hm => exact hx.elim
      | other hm => exact ⟨since, h.of_meter hm (Nat.le_refl _) rfl⟩
    | received => exact ⟨since, h.of_meter rfl (Nat.le_refl _) rfl⟩
  resume := by
    intro _ w k r w' k' h hresume
    obtain ⟨since, h⟩ := h
    obtain ⟨hm, hblock, hgrants⟩ := resume_meter (k := k) hresume
    exact ⟨since, h.of_meter hm (by rw [hblock]) hgrants⟩
  between := by
    intro w b w' h _ hbetween
    obtain ⟨since, h⟩ := h
    obtain ⟨hb, rfl⟩ := between_later hbetween
    exact ⟨since, h.of_meter rfl hb rfl⟩

/-! ## The drain rate -/

/-- A grant stops at its send. -/
theorem grant_waits {m t : State} {sender dst : Address} {amount : Nat}
    (h : contract.step m (.call (.fn sender (.grant dst amount))) = .ok t) :
    m.frames.length < t.frames.length := by
  cases Contract.step_happened h with
  | call henter =>
    -- the only function that returns at once for a grant would be one that pays nothing out
    obtain ⟨⟨R, out⟩, hrun, henter⟩ := bind_eq_ok.mp henter
    obtain ⟨p, hp, henter⟩ := bind_eq_ok.mp henter
    cases out with
    | none =>
      obtain ⟨q, -, hrun⟩ := bind_eq_ok.mp hrun
      obtain ⟨⟨q', s⟩, -, hrun⟩ := bind_eq_ok.mp hrun
      injection hrun with hrun
      injection hrun with _ hout
      nomatch hout
    | some pay =>
      injection henter with henter
      injection henter with _ hk
      nomatch hk
  | wait _ => exact Nat.lt_succ_self _

/-- The state a proxy starts in, with the GMB it was sent meanwhile. -/
def World.deployed (p : PublicReserve) (balance : Nat) (b : Block) : World := ⟨p, balance, b, []⟩

theorem counted_deployed {impl owner pauser granter : Address}
    {perGrantCap epochCap epochLength balance : Nat} {b : Block} {p : PublicReserve}
    (h : PublicReserve.init impl owner pauser granter perGrantCap epochCap epochLength b.timestamp =
      .ok p) : Counted (World.deployed p balance b) := by
  obtain ⟨-, h⟩ := failIf_bind_eq_ok.mp h
  obtain ⟨base, -, h⟩ := bind_eq_ok.mp h
  injection h with h
  subst h
  exact ⟨rfl, fun g hg => absurd hg List.not_mem_nil, Nat.le_refl _⟩

/-- **The drain rate.**  From a state the deployed reserve reached between two transactions, with a
    window cap, let a run leave the limits alone.  The grants it makes spend at most
    `(T / epochLength + 2) * epochCap` in any interval of length `T`; every grant ever made is within
    the cap of its time; the total is their sum; and a grant whose send fails can only revert, which
    leaves the state it was called on, whatever its recipient did first. -/
theorem grants_drain_rate {impl owner pauser granter : Address}
    {perGrantCap epochCap epochLength balance : Nat} {b : Block} {p : PublicReserve}
    (hinit : PublicReserve.init impl owner pauser granter perGrantCap epochCap epochLength
      b.timestamp = .ok p)
    {before after : List Step} {w : World} {m : State}
    (hbefore : Run contract.step (fun _ _ => True) ⟨World.deployed p balance b, []⟩ before ⟨w, []⟩)
    (hcap : 0 < w.reserve.epochCap) (hlength : 0 < w.reserve.epochLength)
    (hafter : Run contract.step (fun t e => e.Among (fun _ => LeavesLimits) (fun _ => True) t.store)
      ⟨w, []⟩ after m) :
    (∃ since, m.store.grants = w.grants ++ since ∧ ∀ x T,
      spentBetween (spendings since) x (x + T) ≤
        (T / w.reserve.epochLength + 2) * w.reserve.epochCap) ∧
    (∀ g ∈ m.store.grants, g.amount ≤ g.perGrantCap) ∧
    m.store.reserve.totalGranted = spentIn (spendings m.store.grants) ∧
    ∀ sender dst amount t during u,
      contract.step m (.call (.fn sender (.grant dst amount))) = .ok t →
      Run contract.step (fun s _ => m.frames.length < s.frames.length) t during u →
      u.frames.length = m.frames.length + 1 →
      (∀ v, contract.step u (.answer false) ≠ .ok v) ∧
        ∀ v, contract.step u .revert = .ok v → v = m := by
  have hw : Counted w :=
    counted_kept.run_all (counted_deployed hinit) hbefore
  have hm : Counted m.store := counted_kept.run_all hw hafter
  have hrated : Rated w m.store := by
    refine (rated_kept hcap).run ⟨[], ?_⟩ hafter
    exact ⟨(List.append_nil _).symm, rfl, rfl, .fresh hw.started⟩
  refine ⟨?_, hm.within, hm.total, ?_⟩
  · obtain ⟨since, h⟩ := hrated
    exact ⟨since, h.grants, fun x T => h.metered.between_le hlength x T⟩
  · intro sender dst amount t during u hcall hduring hu
    refine ⟨fun v hv => ?_, fun v hv => ?_⟩
    · -- the source reverts itself when the send fails
      refine Contract.answer_refused (fun s k r hresume => ?_) hv
      obtain ⟨hok, -⟩ := failIf_bind_eq_ok.mp hresume
      exact hok rfl
    · exact reverted hcall (grant_waits hcall) (fun _ _ h => h) hduring hu hv

section Sample

/-- A reserve with a window cap of 15 GMB in 100 seconds, and 10 GMB a grant. -/
def sampleReserve : PublicReserve where
  impl := 9
  owner := 1
  pauser := 2
  paused := false
  entered := false
  granter := 3
  perGrantCap := 10
  totalGranted := 0
  epochCap := 15
  epochLength := 100
  epochStart := 1000
  epochSpent := 0

def sampleWorld : World := ⟨sampleReserve, 40, ⟨1, 1000⟩, []⟩

/-- Two grants at the end of one window and a third in the next, a refused one between them. -/
def sampleSteps : List Step :=
  [.between ⟨2, 1099⟩, .call (.fn 3 (.grant 7 10)), .answer true, .call (.fn 3 (.grant 7 5)),
   .answer true, .between ⟨3, 1100⟩, .call (.fn 3 (.grant 8 4)), .revert,
   .call (.fn 3 (.grant 7 10)), .call (.receive 1), .answer true]

end Sample

/-- The run of `sampleSteps`: 25 GMB leave within two seconds, against a bound of 30. -/
theorem grants_drain_rate_sample :
    ∃ since, (runTo contract.step ⟨sampleWorld, []⟩ sampleSteps).store.grants = [] ++ since ∧
      spentBetween (spendings since) 1099 (1099 + 1) ≤ (1 / 100 + 2) * 15 := by
  have hbefore : Run contract.step (fun _ _ => True) ⟨World.deployed sampleReserve 40 ⟨1, 1000⟩, []⟩
      [.call (.receive 0)] ⟨sampleWorld, []⟩ :=
    Run.snoc Run.nil trivial rfl
  have hafter : Run contract.step
      (fun t e => e.Among (fun _ => LeavesLimits) (fun _ => True) t.store) ⟨sampleWorld, []⟩
      sampleSteps (runTo contract.step ⟨sampleWorld, []⟩ sampleSteps) :=
    Run.of_runTo (by decide +kernel) (by decide +kernel)
  have hinit : PublicReserve.init 9 1 2 3 10 15 100 1000 = .ok sampleReserve := by decide
  obtain ⟨⟨since, hgrants, hrate⟩, -⟩ :=
    grants_drain_rate hinit hbefore (by decide) (by decide) hafter
  exact ⟨since, hgrants, hrate 1099 1⟩

end Gemba.Reserves.DrainRate
