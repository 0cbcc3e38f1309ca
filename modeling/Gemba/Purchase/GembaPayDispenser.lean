/-
  `GembaPayDispenser`: the vault the purchase backend sells GMB from.

  Only its owner sends anything out.  `dispense` takes a payment reference and puts it into its event;
  no storage remembers which references were paid, so the contract dispenses as often as it is told to
  (`dispense_repeats`).

  The owner is a key, not a contract, so nothing re-enters `dispense` past `onlyOwner`, and its
  reentrancy guard is left out.
-/
import Gemba.Evm.Basic

namespace Gemba.Purchase

open Gemba.Lib Gemba.Evm

/-- The storage of the dispenser, and its native balance. -/
structure GembaPayDispenser where
  owner : Address
  paused : Bool
  balance : Nat
deriving DecidableEq, Repr

/-- `event Dispensed(to, amount, ref)`. -/
structure Dispensed where
  dst : Address
  amount : Nat
  ref : BitVec 256
deriving DecidableEq, Repr

namespace GembaPayDispenser

/-- `dispense(to, amount, ref)`.  Whether the recipient takes the send is for the recipient to say. -/
def dispense (d : GembaPayDispenser) (sender dst : Address) (amount : Nat) (ref : BitVec 256)
    (accepts : Bool) : Call (GembaPayDispenser × Dispensed) := do
  failIf (sender ≠ d.owner) (.custom "OwnableUnauthorizedAccount" [sender.toNat])
  failIf (d.paused = true) (err "EnforcedPause")
  failIf (dst = 0) (err "ZeroAddress")
  failIf (amount = 0) (err "ZeroAmount")
  failIf (d.balance < amount) (.custom "InsufficientBalance" [d.balance, amount])
  failIf (accepts = false) (err "FailedCall")
  .ok ({ d with balance := d.balance - amount }, ⟨dst, amount, ref⟩)

/-- What a dispense that went through checked, and what it did. -/
theorem dispense_eq_ok {d d' : GembaPayDispenser} {sender dst : Address} {amount : Nat}
    {ref : BitVec 256} {accepts : Bool} {event : Dispensed} :
    d.dispense sender dst amount ref accepts = .ok (d', event) ↔
      sender = d.owner ∧ d.paused = false ∧ dst ≠ 0 ∧ amount ≠ 0 ∧ amount ≤ d.balance ∧
        accepts = true ∧ { d with balance := d.balance - amount } = d' ∧
        ⟨dst, amount, ref⟩ = event := by
  simp [dispense]

/-- **Nothing is remembered of a reference**: what was dispensed is dispensed again, to the same
    buyer and under the same reference, while the balance lasts. -/
theorem dispense_repeats {d d' : GembaPayDispenser} {sender dst : Address} {amount : Nat}
    {ref : BitVec 256} {event : Dispensed} (h : d.dispense sender dst amount ref true = .ok (d', event))
    (hbalance : amount ≤ d'.balance) :
    d'.dispense sender dst amount ref true
      = .ok ({ d' with balance := d'.balance - amount }, event) := by
  obtain ⟨howner, hpaused, hdst, hamount, -, -, rfl, rfl⟩ := dispense_eq_ok.mp h
  exact dispense_eq_ok.mpr ⟨howner, hpaused, hdst, hamount, hbalance, rfl, rfl, rfl⟩

end GembaPayDispenser
end Gemba.Purchase
