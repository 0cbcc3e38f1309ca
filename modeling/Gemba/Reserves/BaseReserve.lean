/-
  `BaseReserve`: what every treasury contract shares.

  The reserve sits behind a proxy (its implementation is part of the state), has an owner, a
  pause-only guardian and OpenZeppelin's reentrancy guard.  A function that sends native GMB returns
  the send it makes; the caller of these definitions performs it, and `finishSend` is what runs when
  the recipient returns.

  The native balance is not storage: it is passed to the functions that read it.
-/
import Gemba.Evm.Abi

namespace Gemba.Reserves

open Gemba.Lib Gemba.Evm

/-- The storage all reserves share. -/
structure BaseReserve where
  /-- The implementation the proxy delegates to. -/
  impl : Address
  owner : Address
  pauser : Address
  paused : Bool
  /-- The reentrancy guard is entered. -/
  entered : Bool
deriving DecidableEq, Repr

/-- `to.call{value: amount}("")`. -/
structure Send where
  dst : Address
  amount : Nat
deriving DecidableEq, Repr

namespace BaseReserve

/-- `__BaseReserve_init(owner_, pauser_)` behind the implementation `impl`. -/
def init (impl owner pauser : Address) : Call BaseReserve := do
  failIf (owner = 0 ∨ pauser = 0) (err "ZeroAddress")
  .ok { impl, owner, pauser, paused := false, entered := false }

/-! ## Modifiers -/

def onlyOwner (r : BaseReserve) (sender : Address) : Call PUnit :=
  failIf (sender ≠ r.owner) (.custom "OwnableUnauthorizedAccount" [sender.toNat])

def onlyPauser (r : BaseReserve) (sender : Address) : Call PUnit :=
  failIf (sender ≠ r.pauser) (err "OnlyPauser")

def whenNotPaused (r : BaseReserve) : Call PUnit := failIf r.paused (err "EnforcedPause")

def nonReentrant (r : BaseReserve) : Call PUnit :=
  failIf r.entered (err "ReentrancyGuardReentrantCall")

@[simp] theorem onlyOwner_eq_ok {r : BaseReserve} {sender : Address} {x : PUnit} :
    r.onlyOwner sender = .ok x ↔ sender = r.owner := by
  unfold onlyOwner
  rw [failIf_eq_ok, not_not]

@[simp] theorem onlyPauser_eq_ok {r : BaseReserve} {sender : Address} {x : PUnit} :
    r.onlyPauser sender = .ok x ↔ sender = r.pauser := by
  unfold onlyPauser
  rw [failIf_eq_ok, not_not]

/-! ## Functions -/

/-- The checks of `_release(to, amount)`, before the send. -/
def checkSend (balance : Nat) (dst : Address) (amount : Nat) : Call Send := do
  failIf (dst = 0) (err "ZeroAddress")
  failIf (amount = 0) (err "ZeroAmount")
  failIf (balance < amount) (err "InsufficientBalance")
  .ok ⟨dst, amount⟩

/-- What the checks of a send guarantee. -/
theorem checkSend_eq_ok {balance amount : Nat} {dst : Address} {s : Send}
    (h : checkSend balance dst amount = .ok s) :
    dst ≠ 0 ∧ amount ≠ 0 ∧ amount ≤ balance ∧ s = ⟨dst, amount⟩ := by
  obtain ⟨⟨⟩, hdst, h⟩ := bind_eq_ok.mp h
  obtain ⟨⟨⟩, hamount, h⟩ := bind_eq_ok.mp h
  obtain ⟨⟨⟩, hbalance, h⟩ := bind_eq_ok.mp h
  rw [failIf_eq_ok] at hdst hamount hbalance
  injection h with h
  exact ⟨hdst, hamount, by omega, h.symm⟩

/-- `release(to, amount)`. -/
def release (r : BaseReserve) (sender dst : Address) (amount balance : Nat) :
    Call (BaseReserve × Send) := do
  r.onlyOwner sender
  r.whenNotPaused
  r.nonReentrant
  let s ← checkSend balance dst amount
  .ok ({ r with entered := true }, s)

/-- The recipient returned: the guard is released. -/
def finishSend (r : BaseReserve) : BaseReserve := { r with entered := false }

/-- `pause()`. -/
def pause (r : BaseReserve) (sender : Address) : Call BaseReserve := do
  r.onlyPauser sender
  r.whenNotPaused
  .ok { r with paused := true }

/-- `unpause()`: the guardian or the owner. -/
def unpause (r : BaseReserve) (sender : Address) : Call BaseReserve := do
  failIf (sender ≠ r.pauser ∧ sender ≠ r.owner) (err "OnlyPauser")
  failIf (!r.paused) (err "ExpectedPause")
  .ok { r with paused := false }

/-- `setPauser(newPauser)`. -/
def setPauser (r : BaseReserve) (sender newPauser : Address) : Call BaseReserve := do
  r.onlyOwner sender
  failIf (newPauser = 0) (err "ZeroAddress")
  .ok { r with pauser := newPauser }

/-- `upgradeToAndCall(newImplementation, data)`, `_authorizeUpgrade` being `onlyOwner`. -/
def upgradeToAndCall (r : BaseReserve) (sender newImplementation : Address) : Call BaseReserve := do
  r.onlyOwner sender
  .ok { r with impl := newImplementation }

/-- `transferOwnership(newOwner)`. -/
def transferOwnership (r : BaseReserve) (sender newOwner : Address) : Call BaseReserve := do
  r.onlyOwner sender
  failIf (newOwner = 0) (.custom "OwnableInvalidOwner" [0])
  .ok { r with owner := newOwner }

/-- `renounceOwnership()`. -/
def renounceOwnership (r : BaseReserve) (sender : Address) : Call BaseReserve := do
  r.onlyOwner sender
  .ok { r with owner := 0 }

/-! ## The functions that move neither the code nor the owner -/

/-- The implementation and the owner are the same. -/
structure Kept (r r' : BaseReserve) : Prop where
  impl : r'.impl = r.impl
  owner : r'.owner = r.owner

section
variable {r r' : BaseReserve} {sender : Address}

theorem pause_kept (h : r.pause sender = .ok r') : r.Kept r' := by
  obtain ⟨-, h⟩ := failIf_bind_eq_ok.mp h
  obtain ⟨-, h⟩ := failIf_bind_eq_ok.mp h
  injection h with h
  subst h
  exact ⟨rfl, rfl⟩

theorem unpause_kept (h : r.unpause sender = .ok r') : r.Kept r' := by
  obtain ⟨-, h⟩ := failIf_bind_eq_ok.mp h
  obtain ⟨-, h⟩ := failIf_bind_eq_ok.mp h
  injection h with h
  subst h
  exact ⟨rfl, rfl⟩

theorem setPauser_kept {newPauser : Address} (h : r.setPauser sender newPauser = .ok r') :
    r.Kept r' := by
  obtain ⟨-, h⟩ := failIf_bind_eq_ok.mp h
  obtain ⟨-, h⟩ := failIf_bind_eq_ok.mp h
  injection h with h
  subst h
  exact ⟨rfl, rfl⟩

end
end BaseReserve
end Gemba.Reserves
