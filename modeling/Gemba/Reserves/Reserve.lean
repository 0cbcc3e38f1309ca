/-
  A reserve as the chain sees it: a proxy, the contract behind it, and calls that arrive as bytes.

  The three kinds of reserve share `BaseReserve`; `Reserve.call` dispatches a function to the kind
  that has it.  An upgrade installs code that is not here, and from then on the contract is
  `unknown`: what it may do is left to whoever steps the chain.

  `Reserve.call_change` is the one fact about all fourteen entry points that the treasury argument
  needs: a call that is not one of the owner's governing functions, or does not come from the owner,
  is a housekeeping call, a grant or a drip.
-/
import Gemba.Reserves.PublicReserve
import Gemba.Reserves.GembaDripFaucet

namespace Gemba.Reserves

open Gemba.Lib Gemba.Evm

/-- A reserve proxy. -/
inductive Reserve where
  /-- `FoundationTreasury`, `DAOReserve` and `ContingencyReserve` add nothing to `BaseReserve`. -/
  | plain (r : BaseReserve)
  | publicReserve (p : PublicReserve)
  | dripFaucet (f : GembaDripFaucet)
  /-- Upgraded: the code behind the proxy is not known. -/
  | unknown (r : BaseReserve)

/-- What native GMB left a reserve through. -/
inductive Exit where
  | release
  /-- A grant, counted in the window that started at `window`. -/
  | grant (window : Nat)
  | drip
  | unknown
deriving DecidableEq, Repr

/-- A send and what it is for. -/
structure Payment where
  send : Send
  exit : Exit
deriving DecidableEq, Repr

/-! ## The entry points -/

/-- The functions of the reserves. -/
inductive ReserveFn where
  | release (dst : Address) (amount : Nat)
  | pause
  | unpause
  | setPauser (newPauser : Address)
  | upgradeToAndCall (newImplementation : Address)
  | transferOwnership (newOwner : Address)
  | renounceOwnership
  | grant (dst : Address) (amount : Nat)
  | setEpochLimit (newCap newLength : Nat)
  | setGranter (newGranter : Address)
  | setPerGrantCap (newCap : Nat)
  | claim
  | dripTo (recipient : Address)
  | setDripParams (dripAmount cooldown minBalance : Nat)
deriving DecidableEq, Repr

namespace ReserveFn

/-- The selector of each function. -/
def sel : ReserveFn → Nat
  | .release .. => 0x0357371d
  | .pause => 0x8456cb59
  | .unpause => 0x3f4ba83a
  | .setPauser .. => 0x2d88af4a
  | .upgradeToAndCall .. => 0x4f1ef286
  | .transferOwnership .. => 0xf2fde38b
  | .renounceOwnership => 0x715018a6
  | .grant .. => 0x6370920e
  | .setEpochLimit .. => 0xf6a998fa
  | .setGranter .. => 0x6d86ee28
  | .setPerGrantCap .. => 0xb65b09a7
  | .claim => 0x4e71d92d
  | .dripTo .. => 0xcabee26e
  | .setDripParams .. => 0x8dd28c34

/-- The dispatch table. -/
def table : List (Entry sel) :=
  [.args2 0x0357371d (addressArg 0) (word 1) .release fun _ _ => rfl,
   .args0 0x8456cb59 .pause rfl,
   .args0 0x3f4ba83a .unpause rfl,
   .args1 0x2d88af4a (addressArg 0) .setPauser fun _ => rfl,
   .args1 0x4f1ef286 (addressArg 0) .upgradeToAndCall fun _ => rfl,
   .args1 0xf2fde38b (addressArg 0) .transferOwnership fun _ => rfl,
   .args0 0x715018a6 .renounceOwnership rfl,
   .args2 0x6370920e (addressArg 0) (word 1) .grant fun _ _ => rfl,
   .args2 0xf6a998fa (word 0) (word 1) .setEpochLimit fun _ _ => rfl,
   .args1 0x6d86ee28 (addressArg 0) .setGranter fun _ => rfl,
   .args1 0xb65b09a7 (word 0) .setPerGrantCap fun _ => rfl,
   .args0 0x4e71d92d .claim rfl,
   .args1 0xcabee26e (addressArg 0) .dripTo fun _ => rfl,
   .args3 0x8dd28c34 (word 0) (word 1) (word 2) .setDripParams fun _ _ _ => rfl]

/-- The function calldata calls, with its arguments. -/
def decode (data : Bytes) : Option ReserveFn := dispatch table data

/-- Only an upgrade takes native GMB. -/
def payable : ReserveFn → Bool
  | .upgradeToAndCall .. => true
  | _ => false

/-- The owner's functions that release funds, replace the code or the owner, or move a limit. -/
def governs : ReserveFn → Bool
  | .release .. | .upgradeToAndCall .. | .transferOwnership .. | .renounceOwnership
  | .setEpochLimit .. | .setGranter .. | .setPerGrantCap .. | .setDripParams .. => true
  | _ => false

end ReserveFn

namespace Reserve

/-- The storage all kinds share. -/
def base : Reserve → BaseReserve
  | .plain r => r
  | .publicReserve p => p.toBaseReserve
  | .dripFaucet f => f.toBaseReserve
  | .unknown r => r

def setBase (R : Reserve) (r : BaseReserve) : Reserve :=
  match R with
  | .plain _ => .plain r
  | .publicReserve p => .publicReserve { p with toBaseReserve := r }
  | .dripFaucet f => .dripFaucet { f with toBaseReserve := r }
  | .unknown _ => .unknown r

/-- The storage of a `PublicReserve`, when the contract is one. -/
def publicReserve? : Reserve → Call PublicReserve
  | .publicReserve p => .ok p
  | _ => .error noData

/-- The storage of a `GembaDripFaucet`, when the contract is one. -/
def dripFaucet? : Reserve → Call GembaDripFaucet
  | .dripFaucet f => .ok f
  | _ => .error noData

/-- The code of the three kinds: `fn(...)` at block `b` from `sender`, the reserve holding `balance`.
    It returns the reserve after the call, and what it sends out. -/
def run (R : Reserve) (b : Block) (sender : Address) (balance : Nat) (fn : ReserveFn) :
    Call (Reserve × Option Payment) :=
  match fn with
  | .release dst amount => do
    let (r, s) ← R.base.release sender dst amount balance
    .ok (R.setBase r, some ⟨s, .release⟩)
  | .pause => do
    let r ← R.base.pause sender
    .ok (R.setBase r, none)
  | .unpause => do
    let r ← R.base.unpause sender
    .ok (R.setBase r, none)
  | .setPauser newPauser => do
    let r ← R.base.setPauser sender newPauser
    .ok (R.setBase r, none)
  | .upgradeToAndCall newImplementation => do
    let r ← R.base.upgradeToAndCall sender newImplementation
    .ok (.unknown r, none)
  | .transferOwnership newOwner => do
    let r ← R.base.transferOwnership sender newOwner
    .ok (R.setBase r, none)
  | .renounceOwnership => do
    let r ← R.base.renounceOwnership sender
    .ok (R.setBase r, none)
  | .grant dst amount => do
    let p ← R.publicReserve?
    let (p, s) ← p.grant sender dst amount b.timestamp balance
    .ok (.publicReserve p, some ⟨s, .grant p.epochStart⟩)
  | .setEpochLimit newCap newLength => do
    let p ← R.publicReserve?
    let p ← p.setEpochLimit sender newCap newLength b.timestamp
    .ok (.publicReserve p, none)
  | .setGranter newGranter => do
    let p ← R.publicReserve?
    let p ← p.setGranter sender newGranter
    .ok (.publicReserve p, none)
  | .setPerGrantCap newCap => do
    let p ← R.publicReserve?
    let p ← p.setPerGrantCap sender newCap
    .ok (.publicReserve p, none)
  | .claim => do
    let f ← R.dripFaucet?
    let (f, s) ← f.claim sender b.timestamp balance
    .ok (.dripFaucet f, some ⟨s, .drip⟩)
  | .dripTo recipient => do
    let f ← R.dripFaucet?
    let (f, s) ← f.dripTo recipient b.timestamp balance
    .ok (.dripFaucet f, some ⟨s, .drip⟩)
  | .setDripParams dripAmount cooldown minBalance => do
    let f ← R.dripFaucet?
    let f ← f.setDripParams sender dripAmount cooldown minBalance
    .ok (.dripFaucet f, none)

/-- Whether the contract was upgraded. -/
def isUnknown : Reserve → Bool
  | .unknown _ => true
  | _ => false

/-- A call with `value`.  Of code that is not known, nothing is said here. -/
def call (R : Reserve) (b : Block) (sender : Address) (value balance : Nat) (fn : ReserveFn) :
    Call (Reserve × Option Payment) :=
  if R.isUnknown then .ok (R, none)
  else do
    failIf (value ≠ 0 ∧ fn.payable = false) noData
    R.run b sender balance fn

/-- The recipient of a send returned. -/
def finishSend (R : Reserve) : Reserve := R.setBase R.base.finishSend

/-! ## What a call that is not governing does -/

/-- The limits a kind of reserve pays out within. -/
inductive Limits where
  | none
  | grants (granter : Address) (perGrantCap epochCap epochLength : Nat)
  | drips (dripAmount cooldown minBalance : Nat)
  | unknown
deriving DecidableEq, Repr

/-- The implementation, the owner and the limits: what only governance may move. -/
structure Terms where
  impl : Address
  owner : Address
  limits : Limits
deriving DecidableEq, Repr

/-- The terms of a reserve. -/
def terms (R : Reserve) : Terms where
  impl := R.base.impl
  owner := R.base.owner
  limits :=
    match R with
    | .plain _ => .none
    | .publicReserve p => .grants p.granter p.perGrantCap p.epochCap p.epochLength
    | .dripFaucet f => .drips f.dripAmount f.cooldown f.minBalance
    | .unknown _ => .unknown

/-- **A change that leaves the terms alone**, with what it pays out: the guardian's and the guard's
    bookkeeping, a grant, or a drip. -/
inductive Change (b : Block) (sender : Address) (balance : Nat) :
    Reserve → Reserve → Option Payment → Prop where
  | housekeeping {R : Reserve} {r : BaseReserve} (himpl : r.impl = R.base.impl)
      (howner : r.owner = R.base.owner) : Change b sender balance R (R.setBase r) none
  | grant {p p' : PublicReserve} {dst : Address} {amount : Nat}
      (h : p.Granted p' sender amount b.timestamp) :
      Change b sender balance (.publicReserve p) (.publicReserve p')
        (some ⟨⟨dst, amount⟩, .grant p'.epochStart⟩)
  | drip {f f' : GembaDripFaucet} {recipient : Address}
      (h : f.Dripped f' recipient b.timestamp balance) :
      Change b sender balance (.dripFaucet f) (.dripFaucet f')
        (some ⟨⟨recipient, f.dripAmount⟩, .drip⟩)

/-- **What anyone but the owner does leaves the terms alone.** -/
theorem Change.terms_eq {b : Block} {sender : Address} {balance : Nat} {R R' : Reserve}
    {out : Option Payment} (h : Change b sender balance R R' out) : R'.terms = R.terms := by
  cases h with
  | housekeeping himpl howner =>
    cases R <;> simp only [terms, setBase, base] at himpl howner ⊢ <;> rw [himpl, howner]
  | grant h =>
    obtain ⟨hg, hcap, hepoch, hlength⟩ := h.terms
    simp only [terms, base, h.base, hg, hcap, hepoch, hlength]
  | drip h =>
    simp only [terms, base, h.result]

theorem publicReserve?_eq_ok {R : Reserve} {p : PublicReserve} :
    R.publicReserve? = .ok p ↔ R = .publicReserve p := by
  cases R <;> simp [publicReserve?]

theorem dripFaucet?_eq_ok {R : Reserve} {f : GembaDripFaucet} :
    R.dripFaucet? = .ok f ↔ R = .dripFaucet f := by
  cases R <;> simp [dripFaucet?]

section
variable {R R' : Reserve} {b : Block} {sender : Address} {value balance : Nat} {fn : ReserveFn}
  {out : Option Payment}

/-- A function that begins with `onlyOwner` was called by the owner. -/
theorem onlyOwner_bind {r : BaseReserve} {α : Type} {k : PUnit → Call α} {x : α}
    (h : (r.onlyOwner sender >>= k) = .ok x) : sender = r.owner := by
  obtain ⟨⟨⟩, hs, -⟩ := bind_eq_ok.mp h
  exact BaseReserve.onlyOwner_eq_ok.mp hs

/-- A setter of the public reserve: it writes the reserve and pays nothing out. -/
theorem publicReserve_set {f : PublicReserve → Call PublicReserve}
    (h : (do
      let p ← R.publicReserve?
      let p ← f p
      .ok (.publicReserve p, none) : Call (Reserve × Option Payment)) = .ok (R', out)) :
    ∃ p p', R = .publicReserve p ∧ f p = .ok p' ∧ R' = .publicReserve p' ∧ out = none := by
  obtain ⟨p, hp, h⟩ := bind_eq_ok.mp h
  obtain ⟨p', hp', h⟩ := bind_eq_ok.mp h
  obtain ⟨hR, hout⟩ := ok_pair h
  exact ⟨p, p', publicReserve?_eq_ok.mp hp, hp', hR.symm, hout.symm⟩

/-- A setter of the drip faucet. -/
theorem dripFaucet_set {f : GembaDripFaucet → Call GembaDripFaucet}
    (h : (do
      let p ← R.dripFaucet?
      let p ← f p
      .ok (.dripFaucet p, none) : Call (Reserve × Option Payment)) = .ok (R', out)) :
    ∃ p p', R = .dripFaucet p ∧ f p = .ok p' ∧ R' = .dripFaucet p' ∧ out = none := by
  obtain ⟨p, hp, h⟩ := bind_eq_ok.mp h
  obtain ⟨p', hp', h⟩ := bind_eq_ok.mp h
  obtain ⟨hR, hout⟩ := ok_pair h
  exact ⟨p, p', dripFaucet?_eq_ok.mp hp, hp', hR.symm, hout.symm⟩

/-- The governing functions revert for anyone but the owner. -/
theorem run_owner (h : R.run b sender balance fn = .ok (R', out)) (hfn : fn.governs = true) :
    sender = R.base.owner := by
  cases fn with
  | release dst amount =>
    obtain ⟨_, hr, -⟩ := bind_eq_ok.mp h
    exact onlyOwner_bind hr
  | upgradeToAndCall newImplementation =>
    obtain ⟨_, hr, -⟩ := bind_eq_ok.mp h
    exact onlyOwner_bind hr
  | transferOwnership newOwner =>
    obtain ⟨_, hr, -⟩ := bind_eq_ok.mp h
    exact onlyOwner_bind hr
  | renounceOwnership =>
    obtain ⟨_, hr, -⟩ := bind_eq_ok.mp h
    exact onlyOwner_bind hr
  | setEpochLimit newCap newLength =>
    obtain ⟨p, p', rfl, hp', -, -⟩ := publicReserve_set h
    exact onlyOwner_bind hp'
  | setGranter newGranter =>
    obtain ⟨p, p', rfl, hp', -, -⟩ := publicReserve_set h
    exact onlyOwner_bind hp'
  | setPerGrantCap newCap =>
    obtain ⟨p, p', rfl, hp', -, -⟩ := publicReserve_set h
    exact onlyOwner_bind hp'
  | setDripParams dripAmount cooldown minBalance =>
    obtain ⟨f, f', rfl, hf', -, -⟩ := dripFaucet_set h
    exact onlyOwner_bind hf'
  | pause => nomatch hfn
  | unpause => nomatch hfn
  | setPauser newPauser => nomatch hfn
  | grant dst amount => nomatch hfn
  | claim => nomatch hfn
  | dripTo recipient => nomatch hfn

/-- A function of `BaseReserve` that keeps the implementation and the owner is housekeeping. -/
theorem change_of_kept {x : Call BaseReserve} (hx : ∀ r, x = .ok r → R.base.Kept r)
    (h : (do let r ← x; .ok (R.setBase r, none)) = (.ok (R', out) : Call (Reserve × Option Payment))) :
    Change b sender balance R R' out := by
  obtain ⟨r, hr, h⟩ := bind_eq_ok.mp h
  obtain ⟨rfl, rfl⟩ := ok_pair h
  exact .housekeeping (hx r hr).impl (hx r hr).owner

/-- **Every other function leaves the terms alone.** -/
theorem run_change (h : R.run b sender balance fn = .ok (R', out)) (hfn : fn.governs = false) :
    Change b sender balance R R' out := by
  cases fn with
  | pause => exact change_of_kept (fun r hr => BaseReserve.pause_kept hr) h
  | unpause => exact change_of_kept (fun r hr => BaseReserve.unpause_kept hr) h
  | setPauser newPauser => exact change_of_kept (fun r hr => BaseReserve.setPauser_kept hr) h
  | grant dst amount =>
    obtain ⟨p, hp, h⟩ := bind_eq_ok.mp h
    obtain ⟨⟨p', s⟩, hgrant, h⟩ := bind_eq_ok.mp h
    injection h with h
    injection h with hR hout
    obtain ⟨hg, -, -, rfl⟩ := PublicReserve.grant_spec hgrant
    rw [publicReserve?_eq_ok.mp hp, ← hR, ← hout]
    exact .grant hg
  | claim =>
    obtain ⟨f, hf, h⟩ := bind_eq_ok.mp h
    obtain ⟨⟨f', s⟩, hdrip, h⟩ := bind_eq_ok.mp h
    injection h with h
    injection h with hR hout
    obtain ⟨hd, rfl⟩ := GembaDripFaucet.drip_spec hdrip
    rw [dripFaucet?_eq_ok.mp hf, ← hR, ← hout]
    exact .drip hd
  | dripTo recipient =>
    obtain ⟨f, hf, h⟩ := bind_eq_ok.mp h
    obtain ⟨⟨f', s⟩, hdrip, h⟩ := bind_eq_ok.mp h
    injection h with h
    injection h with hR hout
    obtain ⟨hd, rfl⟩ := GembaDripFaucet.drip_spec hdrip
    rw [dripFaucet?_eq_ok.mp hf, ← hR, ← hout]
    exact .drip hd
  | release dst amount => nomatch hfn
  | upgradeToAndCall newImplementation => nomatch hfn
  | transferOwnership newOwner => nomatch hfn
  | renounceOwnership => nomatch hfn
  | setEpochLimit newCap newLength => nomatch hfn
  | setGranter newGranter => nomatch hfn
  | setPerGrantCap newCap => nomatch hfn
  | setDripParams dripAmount cooldown minBalance => nomatch hfn

/-- **What can happen to a reserve without its owner's governing functions.** -/
theorem call_change (h : R.call b sender value balance fn = .ok (R', out))
    (hR : R.isUnknown = false) (hfn : fn.governs = false ∨ sender ≠ R.base.owner) :
    Change b sender balance R R' out := by
  unfold call at h
  rw [hR, if_neg Bool.false_ne_true] at h
  obtain ⟨-, h⟩ := failIf_bind_eq_ok.mp h
  rcases hfn with hfn | hne
  · exact run_change h hfn
  · cases hg : fn.governs with
    | false => exact run_change h hg
    | true => exact absurd (run_owner h hg) hne

end

end Reserve
end Gemba.Reserves
