/-
  `GembaDripFaucet` over whole runs: anybody may call it, and call it again while it sends.

  A drip writes `lastDrip` before it sends, so the recipient that is called finds its own cooldown
  running; and the guard it entered keeps `claim`, `dripTo` and `release` shut until the send returns.
  So between the check of a drip and its end nothing else drips, and the drip that ends is the one that
  was checked.  A send that fails makes the call revert, and `lastDrip` is what it was.

  A `lastDrip` of zero stands for never.  A block's time is positive, so the entry of a recipient that
  was paid is never mistaken for it (`Kept.last`).

  The world keeps, beside the storage, the native balance, the time of the block and the drips that
  went through.  Upgrades are left out: what is said here is said of this code.
-/
import Gemba.Lib.Reentrancy
import Gemba.Reserves.GembaDripFaucet
import Mathlib.Data.PNat.Defs

namespace Gemba.Reserves.DripRuns

open Gemba.Lib Gemba.Evm

/-- A drip that went through. -/
structure Drip where
  recipient : Address
  time : Nat
  /-- The contract's balance when the drip was sent. -/
  left : Nat
deriving DecidableEq, Repr

/-- The faucet, its native balance, `block.timestamp`, and the drips, the latest last. -/
structure Faucet where
  storage : GembaDripFaucet
  balance : Nat
  now : ℕ+
  drips : List Drip

/-- A call to the faucet, or native GMB sent to it. -/
inductive Message where
  | claim (sender : Address)
  | dripTo (sender recipient : Address)
  | release (sender dst : Address) (amount : Nat)
  | setDripParams (sender : Address) (dripAmount cooldown minBalance : Nat)
  | pause (sender : Address)
  | unpause (sender : Address)
  | setPauser (sender newPauser : Address)
  | transferOwnership (sender newOwner : Address)
  | renounceOwnership (sender : Address)
  | receive (value : Nat)
deriving DecidableEq

/-- What a call does when the account it sent to has returned. -/
inductive Waiting where
  | drip (recipient : Address) (left : Nat)
  | release
deriving DecidableEq

namespace Faucet

/-- The storage `BaseReserve` has a part in. -/
def setBase (w : Faucet) (r : BaseReserve) : Faucet :=
  { w with storage := { w.storage with toBaseReserve := r } }

/-- The end of a call that sent: the guard is released, and a drip went through. -/
def finish (w : Faucet) (k : Waiting) : Faucet :=
  { w.setBase w.storage.finishSend with
    drips := match k with
      | .drip recipient left => w.drips ++ [⟨recipient, w.now, left⟩]
      | .release => w.drips }

/-- A drip up to its send.  What the faucet sends to itself is `receive`d at once. -/
def startDrip (self : Address) (w : Faucet) (f : GembaDripFaucet) (s : Send) : Faucet × Option Waiting :=
  if s.dst = self then (({ w with storage := f }).finish (.drip s.dst w.balance), none)
  else ({ w with storage := f, balance := w.balance - s.amount },
    some (.drip s.dst (w.balance - s.amount)))

/-- A release up to its send. -/
def startRelease (self : Address) (w : Faucet) (r : BaseReserve) (s : Send) : Faucet × Option Waiting :=
  if s.dst = self then ((w.setBase r).finish .release, none)
  else ({ w.setBase r with balance := w.balance - s.amount }, some .release)

/-- A message, up to the send. -/
def enter (self : Address) (w : Faucet) : Message → Call (Faucet × Option Waiting)
  | .claim sender => do
    let (f, s) ← w.storage.claim sender w.now w.balance
    .ok (w.startDrip self f s)
  | .dripTo _ recipient => do
    let (f, s) ← w.storage.dripTo recipient w.now w.balance
    .ok (w.startDrip self f s)
  | .release sender dst amount => do
    let (r, s) ← w.storage.release sender dst amount w.balance
    .ok (w.startRelease self r s)
  | .setDripParams sender dripAmount cooldown minBalance => do
    let f ← w.storage.setDripParams sender dripAmount cooldown minBalance
    .ok ({ w with storage := f }, none)
  | .pause sender => do
    let r ← w.storage.pause sender
    .ok (w.setBase r, none)
  | .unpause sender => do
    let r ← w.storage.unpause sender
    .ok (w.setBase r, none)
  | .setPauser sender newPauser => do
    let r ← w.storage.setPauser sender newPauser
    .ok (w.setBase r, none)
  | .transferOwnership sender newOwner => do
    let r ← w.storage.transferOwnership sender newOwner
    .ok (w.setBase r, none)
  | .renounceOwnership sender => do
    let r ← w.storage.renounceOwnership sender
    .ok (w.setBase r, none)
  | .receive value => .ok ({ w with balance := w.balance + value }, none)

/-- The account that was sent to returned. -/
def resume (w : Faucet) (k : Waiting) (ok : Bool) : Call (Faucet × Option Waiting) := do
  failIf (!ok) (err "NativeSendFailed")
  .ok (w.finish k, none)

/-- A later block. -/
def between (w : Faucet) (time : ℕ+) : Call Faucet := do
  failIf (time < w.now) .external
  .ok { w with now := time }

end Faucet

/-- The faucet at the address `self` as a contract that calls out. -/
def contract (self : Address) : Contract Revert Faucet Waiting Message Bool ℕ+ :=
  ⟨Faucet.enter self, Faucet.resume, Faucet.between⟩

abbrev State := Machine Faucet Waiting
abbrev Step := Event Message Bool ℕ+

/-- The cooldown and the floor stay what they are. -/
def ConstantParams (w : Faucet) : Message → Prop
  | .setDripParams _ _ cooldown minBalance =>
    cooldown = w.storage.cooldown ∧ minBalance = w.storage.minBalance
  | _ => True

instance (w : Faucet) : DecidablePred (ConstantParams w)
  | .setDripParams _ _ _ _ => inferInstanceAs (Decidable (_ ∧ _))
  | .claim _ => .isTrue trivial
  | .dripTo _ _ => .isTrue trivial
  | .release _ _ _ => .isTrue trivial
  | .pause _ => .isTrue trivial
  | .unpause _ => .isTrue trivial
  | .setPauser _ _ => .isTrue trivial
  | .transferOwnership _ _ => .isTrue trivial
  | .renounceOwnership _ => .isTrue trivial
  | .receive _ => .isTrue trivial

/-- The drip `d` came a cooldown before `e`, if they are to one recipient. -/
def Spaced (cooldown : Nat) (d e : Drip) : Prop :=
  d.recipient = e.recipient → d.time + cooldown ≤ e.time

/-! ## The invariant -/

/-- **The law of the drips**, with the calls that wait for their sends. -/
structure Kept (cooldown minBalance : Nat) (waiting : List Waiting) (w : Faucet) : Prop where
  params : w.storage.cooldown = cooldown ∧ w.storage.minBalance = minBalance
  /-- One call at most waits, and it holds the guard. -/
  guard : waiting = [] ∨ w.storage.entered = true ∧ ∃ k, waiting = [k]
  spaced : w.drips.Pairwise (Spaced cooldown)
  /-- A recipient that was paid is remembered, and not as never. -/
  last : ∀ d ∈ w.drips, 0 < d.time ∧ d.time ≤ w.storage.lastDrip d.recipient
  floor : ∀ d ∈ w.drips, minBalance ≤ d.left
  /-- A drip that waits comes a cooldown after the others, and leaves the floor. -/
  next : ∀ recipient left, .drip recipient left ∈ waiting → minBalance ≤ left ∧
    w.storage.lastDrip recipient = w.now ∧ ∀ d ∈ w.drips, Spaced cooldown d ⟨recipient, w.now, left⟩

section
variable {self : Address} {cooldown minBalance : Nat} {waiting : List Waiting} {w w' : Faucet}
  {f : GembaDripFaucet} {r : BaseReserve} {recipient : Address} {k : Option Waiting}

/-- A call that leaves the drips, their record and the parameters alone. -/
theorem Kept.storage (h : Kept cooldown minBalance waiting w) {balance : Nat}
    (hcooldown : f.cooldown = w.storage.cooldown) (hminBalance : f.minBalance = w.storage.minBalance)
    (hlast : f.lastDrip = w.storage.lastDrip) (hentered : f.entered = w.storage.entered) :
    Kept cooldown minBalance waiting { w with storage := f, balance := balance } := by
  refine ⟨⟨hcooldown.trans h.params.1, hminBalance.trans h.params.2⟩, ?_, h.spaced, ?_, h.floor, ?_⟩
  · exact h.guard.imp_right fun hguard => ⟨hentered.trans hguard.1, hguard.2⟩
  · intro d hd
    show _ ∧ _ ≤ f.lastDrip _
    rw [hlast]
    exact h.last d hd
  · intro recipient left hk
    show _ ∧ f.lastDrip _ = _ ∧ _
    rw [hlast]
    exact h.next recipient left hk

/-- A call to `BaseReserve` that does not touch the guard. -/
theorem Kept.base (h : Kept cooldown minBalance waiting w) (hentered : r.entered = w.storage.entered) :
    Kept cooldown minBalance waiting (w.setBase r) :=
  h.storage rfl rfl rfl hentered

/-- With the guard open nothing waits. -/
theorem Kept.idle (h : Kept cooldown minBalance waiting w) (hentered : w.storage.entered = false) :
    waiting = [] := by
  rcases h.guard with hnil | ⟨hguard, -⟩
  · exact hnil
  · rw [hentered] at hguard
    nomatch hguard

/-- **A drip that passes its checks** comes a cooldown after every drip to its recipient. -/
theorem Kept.cooled (h : Kept cooldown minBalance waiting w)
    (hdrip : w.storage.Dripped f recipient w.now w.balance) {d : Drip} (hd : d ∈ w.drips)
    (hto : d.recipient = recipient) : d.time + cooldown ≤ w.now := by
  obtain ⟨hpos, hle⟩ := h.last d hd
  rw [hto] at hle
  rcases hdrip.cooled with hnever | hover
  -- a zero would say the recipient never got one
  · omega
  · rw [h.params.1] at hover
    omega

/-- A drip that waits for its send. -/
theorem Kept.drip (h : Kept cooldown minBalance waiting w)
    (hdrip : w.storage.Dripped f recipient w.now w.balance) {left : Nat} (hleft : minBalance ≤ left)
    (balance : Nat) :
    Kept cooldown minBalance [.drip recipient left] { w with storage := f, balance := balance } := by
  have hresult := hdrip.result
  subst hresult
  refine ⟨h.params, .inr ⟨rfl, _, rfl⟩, h.spaced, fun d hd => ⟨(h.last d hd).1, ?_⟩, h.floor, ?_⟩
  · show d.time ≤ if d.recipient = recipient then (w.now : Nat) else w.storage.lastDrip d.recipient
    by_cases hto : d.recipient = recipient
    · rw [if_pos hto]
      have := h.cooled hdrip hd hto
      omega
    · rw [if_neg hto]
      exact (h.last d hd).2
  · intro recipient' left' hk
    rw [List.mem_singleton] at hk
    injection hk with hrecipient hsame
    subst hrecipient hsame
    exact ⟨hleft, if_pos rfl, fun d hd hto => h.cooled hdrip hd hto⟩

/-- A call that waited ends. -/
theorem Kept.finish {k : Waiting} (h : Kept cooldown minBalance (k :: waiting) w) :
    Kept cooldown minBalance waiting (w.finish k) := by
  have hrest : waiting = [] := by
    rcases h.guard with hnil | ⟨-, k', hone⟩
    · nomatch hnil
    · exact (List.cons.inj hone).2
  subst hrest
  cases k with
  | release =>
    exact ⟨h.params, .inl rfl, h.spaced, h.last, h.floor, nofun⟩
  | drip recipient left =>
    obtain ⟨hleft, hlast, hspaced⟩ := h.next recipient left List.mem_cons_self
    refine ⟨h.params, .inl rfl, ?_, ?_, ?_, nofun⟩
    · refine List.pairwise_append.mpr ⟨h.spaced, List.pairwise_singleton _ _, fun d hd e he => ?_⟩
      rw [List.mem_singleton] at he
      rw [he]
      exact hspaced d hd
    · refine List.forall_mem_append.mpr ⟨h.last, fun d hd => ?_⟩
      rw [List.mem_singleton] at hd
      rw [hd]
      exact ⟨w.now.pos, hlast.ge⟩
    · refine List.forall_mem_append.mpr ⟨h.floor, fun d hd => ?_⟩
      rw [List.mem_singleton] at hd
      rw [hd]
      exact hleft

/-- A drip, to another account or to the faucet itself. -/
theorem Kept.startDrip (h : Kept cooldown minBalance waiting w) {s : Send}
    (hdrip : w.storage.drip recipient w.now w.balance = .ok (f, s))
    (hstart : w.startDrip self f s = (w', k)) : Kept cooldown minBalance (k.toList ++ waiting) w' := by
  obtain ⟨hdripped, hs⟩ := GembaDripFaucet.drip_spec hdrip
  subst hs
  have hidle := h.idle hdripped.notEntered
  subst hidle
  obtain ⟨hfunds, hfloor⟩ := hdripped.floor
  rw [h.params.2] at hfloor
  unfold Faucet.startDrip at hstart
  by_cases hself : recipient = self
  · rw [if_pos hself] at hstart
    injection hstart with hw hk
    subst hw hk
    exact (h.drip hdripped (by omega) w.balance).finish
  · rw [if_neg hself] at hstart
    injection hstart with hw hk
    subst hw hk
    exact h.drip hdripped hfloor _

/-- A release. -/
theorem Kept.startRelease (h : Kept cooldown minBalance waiting w) {s : Send} {sender dst : Address}
    {amount : Nat} (hrelease : w.storage.release sender dst amount w.balance = .ok (r, s))
    (hstart : w.startRelease self r s = (w', k)) :
    Kept cooldown minBalance (k.toList ++ waiting) w' := by
  obtain ⟨-, hrelease⟩ := failIf_bind_eq_ok.mp hrelease
  obtain ⟨-, hrelease⟩ := failIf_bind_eq_ok.mp hrelease
  obtain ⟨hentered, hrelease⟩ := failIf_bind_eq_ok.mp hrelease
  obtain ⟨s', -, hrelease⟩ := bind_eq_ok.mp hrelease
  obtain ⟨hr, -⟩ := ok_pair hrelease
  subst hr
  have hidle := h.idle (Bool.eq_false_iff.mpr hentered)
  subst hidle
  have hwaits : ∀ balance, Kept cooldown minBalance [.release]
      { w.setBase { w.storage.toBaseReserve with entered := true } with balance := balance } :=
    fun balance => ⟨h.params, .inr ⟨rfl, _, rfl⟩, h.spaced, h.last, h.floor, by
      intro recipient left hk
      rw [List.mem_singleton] at hk
      nomatch hk⟩
  unfold Faucet.startRelease at hstart
  by_cases hself : s.dst = self
  · rw [if_pos hself] at hstart
    injection hstart with hw hk
    subst hw hk
    exact (hwaits w.balance).finish
  · rw [if_neg hself] at hstart
    injection hstart with hw hk
    subst hw hk
    exact hwaits _

/-- A function of `BaseReserve` that does not touch the guard, on its own. -/
theorem Kept.baseCall (h : Kept cooldown minBalance waiting w) {x : Call BaseReserve}
    (hx : ∀ r, x = .ok r → r.entered = w.storage.entered)
    (henter : (do let r ← x; .ok (w.setBase r, none)) = (.ok (w', k) : Call (Faucet × Option Waiting))) :
    Kept cooldown minBalance (k.toList ++ waiting) w' := by
  obtain ⟨r, hr, henter⟩ := bind_eq_ok.mp henter
  obtain ⟨rfl, rfl⟩ := ok_pair henter
  exact h.base (hx r hr)

/-- **Every message keeps the law**, whatever waits. -/
theorem enter_kept {x : Message} (h : Kept cooldown minBalance waiting w) (hx : ConstantParams w x)
    (henter : w.enter self x = .ok (w', k)) : Kept cooldown minBalance (k.toList ++ waiting) w' := by
  cases x with
  | claim sender =>
    obtain ⟨⟨f, s⟩, hdrip, henter⟩ := bind_eq_ok.mp henter
    injection henter with henter
    exact h.startDrip hdrip henter
  | dripTo sender recipient =>
    obtain ⟨⟨f, s⟩, hdrip, henter⟩ := bind_eq_ok.mp henter
    injection henter with henter
    exact h.startDrip hdrip henter
  | release sender dst amount =>
    obtain ⟨⟨r, s⟩, hrelease, henter⟩ := bind_eq_ok.mp henter
    injection henter with henter
    exact h.startRelease hrelease henter
  | setDripParams sender dripAmount cooldown' minBalance' =>
    obtain ⟨f, hf, henter⟩ := bind_eq_ok.mp henter
    obtain ⟨rfl, rfl⟩ := ok_pair henter
    obtain ⟨-, hf⟩ := failIf_bind_eq_ok.mp hf
    obtain ⟨-, hf⟩ := failIf_bind_eq_ok.mp hf
    injection hf with hf
    subst hf
    exact h.storage hx.1 hx.2 rfl rfl
  | pause sender =>
    refine h.baseCall (fun r hr => ?_) henter
    obtain ⟨-, hr⟩ := failIf_bind_eq_ok.mp hr
    obtain ⟨-, hr⟩ := failIf_bind_eq_ok.mp hr
    injection hr with hr
    rw [← hr]
  | unpause sender =>
    refine h.baseCall (fun r hr => ?_) henter
    obtain ⟨-, hr⟩ := failIf_bind_eq_ok.mp hr
    obtain ⟨-, hr⟩ := failIf_bind_eq_ok.mp hr
    injection hr with hr
    rw [← hr]
  | setPauser sender newPauser =>
    refine h.baseCall (fun r hr => ?_) henter
    obtain ⟨-, hr⟩ := failIf_bind_eq_ok.mp hr
    obtain ⟨-, hr⟩ := failIf_bind_eq_ok.mp hr
    injection hr with hr
    rw [← hr]
  | transferOwnership sender newOwner =>
    refine h.baseCall (fun r hr => ?_) henter
    obtain ⟨-, hr⟩ := failIf_bind_eq_ok.mp hr
    obtain ⟨-, hr⟩ := failIf_bind_eq_ok.mp hr
    injection hr with hr
    rw [← hr]
  | renounceOwnership sender =>
    refine h.baseCall (fun r hr => ?_) henter
    obtain ⟨-, hr⟩ := failIf_bind_eq_ok.mp hr
    injection hr with hr
    rw [← hr]
  | receive value =>
    obtain ⟨rfl, rfl⟩ := ok_pair henter
    exact h.storage rfl rfl rfl rfl

end

/-- The law is kept by every message, every return and every new block. -/
theorem kept (self : Address) (cooldown minBalance : Nat) :
    (contract self).Keeps ConstantParams (fun _ => True) (Kept cooldown minBalance) where
  enter := fun h hx henter => enter_kept h hx henter
  resume := by
    intro ks w k ok w' k' h hresume
    obtain ⟨-, hresume⟩ := failIf_bind_eq_ok.mp hresume
    obtain ⟨rfl, rfl⟩ := ok_pair hresume
    exact h.finish
  between := by
    intro w time w' h _ hbetween
    obtain ⟨-, hbetween⟩ := failIf_bind_eq_ok.mp hbetween
    injection hbetween with hbetween
    subst hbetween
    exact ⟨h.params, h.guard, h.spaced, h.last, h.floor, nofun⟩

/-- The faucet as it is initialized. -/
theorem kept_init {impl owner pauser : Address} {dripAmount cooldown minBalance balance : Nat}
    {now : ℕ+} {f : GembaDripFaucet}
    (h : GembaDripFaucet.init impl owner pauser dripAmount cooldown minBalance = .ok f) :
    Kept cooldown minBalance [] ⟨f, balance, now, []⟩ := by
  obtain ⟨base, -, h⟩ := bind_eq_ok.mp h
  obtain ⟨-, h⟩ := failIf_bind_eq_ok.mp h
  injection h with h
  subst h
  exact ⟨⟨rfl, rfl⟩, .inl rfl, List.Pairwise.nil, nofun, nofun, nofun⟩

/-! ## Runs -/

/-- **The cooldown and the floor**, in every run from initialization that leaves the two parameters
    alone, at every point of it.  Two drips to one recipient are a cooldown apart and each left the
    floor.  A call whose checks fail is no step at all; one whose send fails can only revert, which
    leaves `lastDrip`, and all the rest, as it was before it, whatever its recipient did meanwhile. -/
theorem drips_spaced {self impl owner pauser : Address} {dripAmount cooldown minBalance balance : Nat}
    {now : ℕ+} {f : GembaDripFaucet} {es : List Step} {m : State}
    (hinit : GembaDripFaucet.init impl owner pauser dripAmount cooldown minBalance = .ok f)
    (hrun : Run (contract self).step (fun t e => e.Among ConstantParams (fun _ => True) t.store)
      ⟨⟨f, balance, now, []⟩, []⟩ es m) :
    m.store.drips.Pairwise (Spaced cooldown) ∧
    (∀ d ∈ m.store.drips, minBalance ≤ d.left) ∧
    ∀ x t during u,
      (contract self).step m (.call x) = .ok t → m.frames.length < t.frames.length →
      Run (contract self).step (fun s _ => m.frames.length < s.frames.length) t during u →
      u.frames.length = m.frames.length + 1 →
      (∀ v, (contract self).step u (.answer false) ≠ .ok v) ∧
        ∀ v, (contract self).step u .revert = .ok v →
          v.store.storage.lastDrip = m.store.storage.lastDrip ∧ v = m := by
  have h := (kept self cooldown minBalance).run (kept_init hinit) hrun
  refine ⟨h.spaced, h.floor, fun x t during u hcall hwait hduring hu => ?_⟩
  refine ⟨fun v hv => ?_, fun v hv => ?_⟩
  · -- the source reverts itself when the send fails
    refine Contract.answer_refused (fun s k r hresume => ?_) hv
    obtain ⟨hok, -⟩ := failIf_bind_eq_ok.mp hresume
    exact hok rfl
  · have hsame := reverted hcall hwait (fun _ _ h => h) hduring hu hv
    exact ⟨by rw [hsame], hsame⟩

/-- A faucet that drips 5, every 10 seconds, down to 50. -/
def sampleFaucet : GembaDripFaucet :=
  { impl := 1, owner := 2, pauser := 3, paused := false, entered := false, dripAmount := 5,
    cooldown := 10, minBalance := 50, lastDrip := fun _ => 0 }

def sampleStart : State := ⟨⟨sampleFaucet, 60, ⟨100, by decide⟩, []⟩, []⟩

/-- Two drips to one account, the second one relayed; the first recipient pays some of it back before
    it returns. -/
def sampleSteps : List Step :=
  [.call (.claim 7), .attempt, .call (.receive 2), .settle, .answer true,
   .between ⟨110, by decide⟩, .call (.dripTo 8 7), .answer true]

theorem drips_spaced_sample :
    (runTo (contract 4).step sampleStart sampleSteps).store.drips = [⟨7, 100, 55⟩, ⟨7, 110, 52⟩] ∧
    (runTo (contract 4).step sampleStart sampleSteps).store.drips.Pairwise (Spaced 10) := by
  have hinit : GembaDripFaucet.init 1 2 3 5 10 50 = .ok sampleFaucet := rfl
  have hrun : Run (contract 4).step (fun t e => e.Among ConstantParams (fun _ => True) t.store)
      sampleStart sampleSteps (runTo (contract 4).step sampleStart sampleSteps) :=
    Run.of_runTo (by decide +kernel) (by decide +kernel)
  exact ⟨by decide +kernel, (drips_spaced hinit hrun).1⟩

end Gemba.Reserves.DripRuns
