/-
  OpenZeppelin's `AccessControl`: who has which role.

  A role is its 32-byte identifier as a number.  Every role is administered by `DEFAULT_ADMIN_ROLE`, as
  in a contract that never calls `_setRoleAdmin`.
-/
import Gemba.Evm.Basic

namespace Gemba.Evm

open Gemba.Lib

/-- The storage of `AccessControl`. -/
structure AccessControl where
  hasRole : Nat → Address → Bool

/-- The functions that change who has a role. -/
inductive RoleFn where
  | grantRole (role : Nat) (account : Address)
  | revokeRole (role : Nat) (account : Address)
  | renounceRole (role : Nat) (callerConfirmation : Address)
deriving DecidableEq, Repr

namespace AccessControl

def DEFAULT_ADMIN_ROLE : Nat := 0

/-- Nobody has a role. -/
def empty : AccessControl := ⟨fun _ _ => false⟩

/-- `_grantRole(role, account)` and `_revokeRole(role, account)`. -/
def setRole (c : AccessControl) (role : Nat) (account : Address) (has : Bool) : AccessControl :=
  ⟨fun r a => if r = role ∧ a = account then has else c.hasRole r a⟩

/-- `_checkRole(role, sender)`. -/
def onlyRole (c : AccessControl) (role : Nat) (sender : Address) : Call PUnit :=
  failIf (c.hasRole role sender = false)
    (.custom "AccessControlUnauthorizedAccount" [sender.toNat, role])

/-- A call to one of the functions. -/
def change (c : AccessControl) (sender : Address) : RoleFn → Call AccessControl
  | .grantRole role account => do
    c.onlyRole DEFAULT_ADMIN_ROLE sender
    .ok (c.setRole role account true)
  | .revokeRole role account => do
    c.onlyRole DEFAULT_ADMIN_ROLE sender
    .ok (c.setRole role account false)
  | .renounceRole role callerConfirmation => do
    failIf (callerConfirmation ≠ sender) (err "AccessControlBadConfirmation")
    .ok (c.setRole role callerConfirmation false)

end AccessControl
end Gemba.Evm
