/-
  OpenZeppelin's `Ownable2Step`, `Pausable` and `ReentrancyGuard`, as contracts inherit them together.

  A contract extends `Guarded` with its own storage.  The functions here are the ones it inherits, and
  `admin` dispatches them: they set fields of `Guarded` and nothing else.
-/
import Gemba.Evm.Basic

namespace Gemba.Evm

open Gemba.Lib

/-- The inherited storage. -/
structure Guarded where
  owner : Address
  pendingOwner : Address
  paused : Bool
  /-- The reentrancy guard is entered. -/
  entered : Bool
deriving DecidableEq, Repr

/-- The inherited functions. -/
inductive AdminFn where
  | pause
  | unpause
  | transferOwnership (newOwner : Address)
  | acceptOwnership
  | renounceOwnership
deriving DecidableEq, Repr

namespace Guarded

/-- `Ownable(owner_)`, not paused. -/
def construct (owner : Address) : Call Guarded := do
  failIf (owner = 0) (.custom "OwnableInvalidOwner" [0])
  .ok { owner, pendingOwner := 0, paused := false, entered := false }

def onlyOwner (g : Guarded) (sender : Address) : Call PUnit :=
  failIf (sender ≠ g.owner) (.custom "OwnableUnauthorizedAccount" [sender.toNat])

def whenNotPaused (g : Guarded) : Call PUnit := failIf g.paused (err "EnforcedPause")

def nonReentrant (g : Guarded) : Call PUnit :=
  failIf g.entered (err "ReentrancyGuardReentrantCall")

/-- The functions of `Ownable2Step`, and `pause()` and `unpause()` of the owner. -/
def admin (g : Guarded) (sender : Address) : AdminFn → Call Guarded
  | .pause => do
    g.onlyOwner sender
    g.whenNotPaused
    .ok { g with paused := true }
  | .unpause => do
    g.onlyOwner sender
    failIf (!g.paused) (err "ExpectedPause")
    .ok { g with paused := false }
  | .transferOwnership newOwner => do
    g.onlyOwner sender
    .ok { g with pendingOwner := newOwner }
  | .acceptOwnership => do
    failIf (sender ≠ g.pendingOwner) (.custom "OwnableUnauthorizedAccount" [sender.toNat])
    .ok { g with owner := sender, pendingOwner := 0 }
  | .renounceOwnership => do
    g.onlyOwner sender
    .ok { g with owner := 0, pendingOwner := 0 }

end Guarded
end Gemba.Evm
