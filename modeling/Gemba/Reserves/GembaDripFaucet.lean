/-
  `GembaDripFaucet`: the reserve anyone can ask for a drip, once a cooldown for each recipient.

  `claim` and `dripTo` are `_drip` for the caller and for a named recipient.
-/
import Gemba.Reserves.BaseReserve

namespace Gemba.Reserves

open Gemba.Lib Gemba.Evm

/-- The storage of a `GembaDripFaucet`. -/
structure GembaDripFaucet extends BaseReserve where
  dripAmount : Nat
  cooldown : Nat
  minBalance : Nat
  /-- When a recipient last got a drip; zero is never. -/
  lastDrip : Address → Nat

namespace GembaDripFaucet

/-- `initialize(owner_, pauser_, dripAmount_, cooldown_, minBalance_)`. -/
def init (impl owner pauser : Address) (dripAmount cooldown minBalance : Nat) :
    Call GembaDripFaucet := do
  let base ← BaseReserve.init impl owner pauser
  failIf (dripAmount = 0) (err "ZeroAmount")
  .ok { base with dripAmount, cooldown, minBalance, lastDrip := fun _ => 0 }

/-- The cooldown check of `_drip`: a first drip is always allowed. -/
def checkCooldown (f : GembaDripFaucet) (recipient : Address) (now : Nat) : Call PUnit :=
  if f.lastDrip recipient = 0 then .ok ⟨⟩
  else do
    let retryAt ← add (f.lastDrip recipient) f.cooldown
    failIf (now < retryAt) (.custom "CooldownActive" [retryAt])

/-- `_drip(recipient)`. -/
def drip (f : GembaDripFaucet) (recipient : Address) (now balance : Nat) :
    Call (GembaDripFaucet × Send) := do
  f.whenNotPaused
  f.nonReentrant
  failIf (recipient = 0) (err "ZeroAddress")
  f.checkCooldown recipient now
  failIf (balance < f.dripAmount ∨ balance - f.dripAmount < f.minBalance) (err "FaucetExhausted")
  .ok ({ f with lastDrip := fun a => if a = recipient then now else f.lastDrip a, entered := true },
    ⟨recipient, f.dripAmount⟩)

/-- `claim()`. -/
def claim (f : GembaDripFaucet) (sender : Address) (now balance : Nat) :
    Call (GembaDripFaucet × Send) := f.drip sender now balance

/-- `dripTo(recipient)`. -/
def dripTo (f : GembaDripFaucet) (recipient : Address) (now balance : Nat) :
    Call (GembaDripFaucet × Send) := f.drip recipient now balance

/-- `setDripParams(dripAmount_, cooldown_, minBalance_)`. -/
def setDripParams (f : GembaDripFaucet) (sender : Address) (dripAmount cooldown minBalance : Nat) :
    Call GembaDripFaucet := do
  f.onlyOwner sender
  failIf (dripAmount = 0) (err "ZeroAmount")
  .ok { f with dripAmount, cooldown, minBalance }

/-! ## What a drip does -/

/-- **A drip.**  The recipient's cooldown is over, the floor is kept, and only the recipient's last
    drip and the guard change. -/
structure Dripped (f f' : GembaDripFaucet) (recipient : Address) (now balance : Nat) : Prop where
  notPaused : f.paused = false
  notEntered : f.entered = false
  cooled : f.lastDrip recipient = 0 ∨ f.lastDrip recipient + f.cooldown ≤ now
  floor : f.dripAmount ≤ balance ∧ f.minBalance ≤ balance - f.dripAmount
  result : f' = { f with lastDrip := fun a => if a = recipient then now else f.lastDrip a,
                         entered := true }

/-- What a drip that went through did. -/
theorem drip_spec {f f' : GembaDripFaucet} {recipient : Address} {now balance : Nat} {s : Send}
    (h : f.drip recipient now balance = .ok (f', s)) :
    Dripped f f' recipient now balance ∧ s = ⟨recipient, f.dripAmount⟩ := by
  obtain ⟨⟨⟩, hpaused, h⟩ := bind_eq_ok.mp h
  obtain ⟨⟨⟩, hentered, h⟩ := bind_eq_ok.mp h
  obtain ⟨-, h⟩ := failIf_bind_eq_ok.mp h
  obtain ⟨⟨⟩, hcool, h⟩ := bind_eq_ok.mp h
  obtain ⟨⟨⟩, hfloor, h⟩ := bind_eq_ok.mp h
  injection h with h
  injection h with hf hs
  have hpaused : f.paused = false := by
    have := failIf_eq_ok.mp hpaused
    simpa using this
  have hentered : f.entered = false := by
    have := failIf_eq_ok.mp hentered
    simpa using this
  rw [failIf_eq_ok] at hfloor
  refine ⟨⟨hpaused, hentered, ?_, by omega, hf.symm⟩, hs.symm⟩
  unfold checkCooldown at hcool
  by_cases hz : f.lastDrip recipient = 0
  · exact .inl hz
  · rw [if_neg hz] at hcool
    obtain ⟨retryAt, hadd, hcool⟩ := bind_eq_ok.mp hcool
    obtain ⟨-, rfl⟩ := add_eq_ok.mp hadd
    rw [failIf_eq_ok] at hcool
    exact .inr (by omega)

end GembaDripFaucet
end Gemba.Reserves
