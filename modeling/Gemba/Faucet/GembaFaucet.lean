/-
  `GembaFaucet`: the testnet faucet, as far as native GMB goes.

  `claimGMB` pays `gmbDripAmount` to whoever has not claimed for 24 hours, and counts it in a window of
  24 hours that it restarts itself, at the first claim after the window has run out.  The faucet is
  stepped as a contract that calls out: a claim and a withdrawal stop at the send.  The stablecoin
  half (`claimToken`, `configureToken`, `recoverToken`) touches no native GMB and is left out.
-/
import Gemba.Lib.Reentrancy
import Gemba.Lib.Windows
import Gemba.Evm.Guarded

namespace Gemba.Faucet

open Gemba.Lib Gemba.Evm

/-- `COOLDOWN`, and the `1 days` of the window. -/
def day : Nat := 24 * 60 * 60

/-- The storage of the faucet. -/
structure GembaFaucet extends Guarded where
  gmbDripAmount : Nat
  gmbDailyCap : Nat
  windowDispensed : Nat
  windowStart : Nat
  lastGmbClaim : Address → Nat

namespace GembaFaucet

/-- `constructor(owner_, gmbDripAmount_, gmbDailyCap_)` at time `now`. -/
def construct (owner : Address) (gmbDripAmount gmbDailyCap now : Nat) : Call GembaFaucet := do
  let guarded ← Guarded.construct owner
  .ok { toGuarded := guarded, gmbDripAmount, gmbDailyCap, windowDispensed := 0, windowStart := now,
        lastGmbClaim := fun _ => 0 }

/-! ## Claims -/

/-- The cooldown of `claimGMB`. -/
def checkCooldown (f : GembaFaucet) (sender : Address) (now : Nat) : Call PUnit :=
  if f.lastGmbClaim sender = 0 then .ok ⟨⟩
  else do
    let availableAt ← add (f.lastGmbClaim sender) day
    failIf (now < availableAt) (.custom "CooldownActive" [availableAt])

/-- The window of a claim at `now`: the running one, or a new one when it has run out. -/
def window (f : GembaFaucet) (now : Nat) : Call (Nat × Nat) := do
  let windowEnd ← add f.windowStart day
  .ok (if windowEnd ≤ now then (now, 0) else (f.windowStart, f.windowDispensed))

/-- `claimGMB()`, up to the send, with what it sends. -/
def claimGMB (f : GembaFaucet) (sender : Address) (now balance : Nat) : Call (GembaFaucet × Nat) := do
  f.nonReentrant
  f.whenNotPaused
  f.checkCooldown sender now
  let amount := f.gmbDripAmount
  failIf (balance < amount) (err "FaucetEmpty")
  let (windowStart, dispensed) ← f.window now
  let windowDispensed ← add dispensed amount
  failIf (f.gmbDailyCap < windowDispensed) (err "DailyCapReached")
  .ok ({ f with entered := true, windowStart, windowDispensed,
                lastGmbClaim := fun a => if a = sender then now else f.lastGmbClaim a }, amount)

/-! ## Owner functions -/

/-- `setGmbDrip(amount)`. -/
def setGmbDrip (f : GembaFaucet) (sender : Address) (amount : Nat) : Call GembaFaucet := do
  f.onlyOwner sender
  .ok { f with gmbDripAmount := amount }

/-- `setGmbDailyCap(cap)`. -/
def setGmbDailyCap (f : GembaFaucet) (sender : Address) (cap : Nat) : Call GembaFaucet := do
  f.onlyOwner sender
  .ok { f with gmbDailyCap := cap }

/-- `withdrawGMB(to, amount)`, up to the send. -/
def withdrawGMB (f : GembaFaucet) (sender dst : Address) (amount balance : Nat) :
    Call GembaFaucet := do
  f.onlyOwner sender
  f.nonReentrant
  failIf (dst = 0) (err "ZeroAddress")
  failIf (amount = 0) (err "ZeroAmount")
  failIf (balance < amount) (err "InsufficientBalance")
  .ok { f with entered := true }

end GembaFaucet

/-! ## The faucet as a contract -/

/-- The faucet, what it holds, the time, and the claims that took effect. -/
structure World where
  faucet : GembaFaucet
  balance : Nat
  now : Nat
  claims : List Spending

/-- A call to the faucet, or native GMB sent to it. -/
inductive Message where
  | claimGMB (sender : Address)
  | setGmbDrip (sender : Address) (amount : Nat)
  | setGmbDailyCap (sender : Address) (cap : Nat)
  | admin (sender : Address) (fn : AdminFn)
  | withdrawGMB (sender dst : Address) (amount : Nat)
  | receive (amount : Nat)
deriving DecidableEq

/-- A call waits for the recipient of its send. -/
inductive Waiting where
  | send
deriving DecidableEq

/-- A message, up to the send. -/
def enter (w : World) : Message → Call (World × Option Waiting)
  | .claimGMB sender => do
    let (faucet, amount) ← w.faucet.claimGMB sender w.now w.balance
    .ok ({ w with faucet, balance := w.balance - amount, claims := w.claims ++ [⟨w.now, amount⟩] },
      some .send)
  | .setGmbDrip sender amount => do
    let faucet ← w.faucet.setGmbDrip sender amount
    .ok ({ w with faucet }, none)
  | .setGmbDailyCap sender cap => do
    let faucet ← w.faucet.setGmbDailyCap sender cap
    .ok ({ w with faucet }, none)
  | .admin sender fn => do
    let guarded ← w.faucet.admin sender fn
    .ok ({ w with faucet := { w.faucet with toGuarded := guarded } }, none)
  | .withdrawGMB sender dst amount => do
    let faucet ← w.faucet.withdrawGMB sender dst amount w.balance
    .ok ({ w with faucet, balance := w.balance - amount }, some .send)
  | .receive amount => .ok ({ w with balance := w.balance + amount }, none)

/-- `Address.sendValue` returned: it must have succeeded, and the guard is released. -/
def resume (w : World) (_ : Waiting) (ok : Bool) : Call (World × Option Waiting) := do
  failIf (!ok) (err "FailedCall")
  .ok ({ w with faucet := { w.faucet with entered := false } }, none)

/-- Time does not run backwards. -/
def between (w : World) (later : Nat) : Call World := do
  failIf (later < w.now) .external
  .ok { w with now := later }

/-- The faucet as a contract that calls out. -/
def contract : Contract Revert World Waiting Message Bool Nat := ⟨enter, resume, between⟩

abbrev State := Machine World Waiting
abbrev Step := Event Message Bool Nat

/-! ## What a call does to the window -/

/-- **A claim.**  It pays the drip amount and is counted in the window that runs, or is the first of a
    new one; the limits stay. -/
structure Claimed (f f' : GembaFaucet) (now amount : Nat) : Prop where
  drip : amount = f.gmbDripAmount
  cap : f'.gmbDailyCap = f.gmbDailyCap
  within : f'.windowDispensed ≤ f.gmbDailyCap
  window : (now < f.windowStart + day ∧ f'.windowStart = f.windowStart ∧
      f'.windowDispensed = f.windowDispensed + amount) ∨
    (f.windowStart + day ≤ now ∧ f'.windowStart = now ∧ f'.windowDispensed = amount)

theorem window_eq_ok {f : GembaFaucet} {now start dispensed : Nat}
    (h : f.window now = .ok (start, dispensed)) :
    (now < f.windowStart + day ∧ start = f.windowStart ∧ dispensed = f.windowDispensed) ∨
      (f.windowStart + day ≤ now ∧ start = now ∧ dispensed = 0) := by
  obtain ⟨windowEnd, hadd, h⟩ := bind_eq_ok.mp h
  obtain ⟨-, rfl⟩ := add_eq_ok.mp hadd
  injection h with h
  by_cases hend : f.windowStart + day ≤ now
  · rw [if_pos hend] at h
    injection h with hstart hdispensed
    exact .inr ⟨hend, hstart.symm, hdispensed.symm⟩
  · rw [if_neg hend] at h
    injection h with hstart hdispensed
    exact .inl ⟨by omega, hstart.symm, hdispensed.symm⟩

theorem claimGMB_spec {f f' : GembaFaucet} {sender : Address} {now balance amount : Nat}
    (h : f.claimGMB sender now balance = .ok (f', amount)) : Claimed f f' now amount := by
  obtain ⟨-, h⟩ := failIf_bind_eq_ok.mp h
  obtain ⟨-, h⟩ := failIf_bind_eq_ok.mp h
  obtain ⟨⟨⟩, -, h⟩ := bind_eq_ok.mp h
  obtain ⟨-, h⟩ := failIf_bind_eq_ok.mp h
  obtain ⟨⟨start, dispensed⟩, hwindow, h⟩ := bind_eq_ok.mp h
  obtain ⟨total, htotal, h⟩ := bind_eq_ok.mp h
  obtain ⟨⟨⟩, hcap, h⟩ := bind_eq_ok.mp h
  obtain ⟨-, rfl⟩ := add_eq_ok.mp htotal
  rw [failIf_eq_ok] at hcap
  obtain ⟨rfl, rfl⟩ := ok_pair h
  refine ⟨rfl, rfl, not_lt.mp hcap, ?_⟩
  rcases window_eq_ok hwindow with ⟨hin, rfl, rfl⟩ | ⟨hout, rfl, rfl⟩
  · exact .inl ⟨hin, rfl, rfl⟩
  · exact .inr ⟨hout, rfl, Nat.zero_add _⟩

/-- The part of the storage the cap is kept by is the same. -/
structure SameWindow (f f' : GembaFaucet) : Prop where
  cap : f'.gmbDailyCap = f.gmbDailyCap
  start : f'.windowStart = f.windowStart
  dispensed : f'.windowDispensed = f.windowDispensed

/-- The messages that leave the drip amount and the cap alone. -/
def LeavesLimits : Message → Prop
  | .setGmbDrip _ _ | .setGmbDailyCap _ _ => False
  | _ => True

instance : DecidablePred LeavesLimits := fun x => by
  unfold LeavesLimits
  split <;> infer_instance

/-- What a message that leaves the limits alone does. -/
inductive Entered (w : World) : Message → World → Prop where
  | claimed {sender : Address} {f : GembaFaucet} {amount : Nat}
      (h : Claimed w.faucet f w.now amount) :
      Entered w (.claimGMB sender)
        { w with faucet := f, balance := w.balance - amount,
                 claims := w.claims ++ [⟨w.now, amount⟩] }
  | other {x : Message} {f : GembaFaucet} {balance : Nat} (h : SameWindow w.faucet f) :
      Entered w x { w with faucet := f, balance }

/-- A withdrawal touches the guard only. -/
theorem withdrawGMB_same {f f' : GembaFaucet} {sender dst : Address} {amount balance : Nat}
    (h : f.withdrawGMB sender dst amount balance = .ok f') : SameWindow f f' := by
  obtain ⟨-, h⟩ := failIf_bind_eq_ok.mp h
  obtain ⟨-, h⟩ := failIf_bind_eq_ok.mp h
  obtain ⟨-, h⟩ := failIf_bind_eq_ok.mp h
  obtain ⟨-, h⟩ := failIf_bind_eq_ok.mp h
  obtain ⟨-, h⟩ := failIf_bind_eq_ok.mp h
  injection h with h
  subst h
  exact ⟨rfl, rfl, rfl⟩

theorem enter_entered {w w' : World} {x : Message} {k : Option Waiting} (hx : LeavesLimits x)
    (h : enter w x = .ok (w', k)) : Entered w x w' := by
  cases x with
  | claimGMB sender =>
    obtain ⟨⟨f, amount⟩, hclaim, h⟩ := bind_eq_ok.mp h
    obtain ⟨rfl, -⟩ := ok_pair h
    exact .claimed (claimGMB_spec hclaim)
  | setGmbDrip sender amount => exact hx.elim
  | setGmbDailyCap sender cap => exact hx.elim
  | admin sender fn =>
    obtain ⟨g, -, h⟩ := bind_eq_ok.mp h
    obtain ⟨rfl, -⟩ := ok_pair h
    exact .other ⟨rfl, rfl, rfl⟩
  | withdrawGMB sender dst amount =>
    obtain ⟨f, hf, h⟩ := bind_eq_ok.mp h
    obtain ⟨rfl, -⟩ := ok_pair h
    exact .other (withdrawGMB_same hf)
  | receive amount =>
    obtain ⟨rfl, -⟩ := ok_pair h
    exact .other ⟨rfl, rfl, rfl⟩

/-- The end of a send releases the guard. -/
theorem resume_same {w w' : World} {k : Waiting} {ok : Bool} {k' : Option Waiting}
    (h : resume w k ok = .ok (w', k')) :
    SameWindow w.faucet w'.faucet ∧ w'.now = w.now ∧ w'.claims = w.claims := by
  obtain ⟨-, h⟩ := failIf_bind_eq_ok.mp h
  obtain ⟨rfl, -⟩ := ok_pair h
  exact ⟨⟨rfl, rfl, rfl⟩, rfl, rfl⟩

theorem between_later {w w' : World} {later : Nat} (h : between w later = .ok w') :
    w.now ≤ later ∧ w' = { w with now := later } := by
  obtain ⟨hlater, h⟩ := failIf_bind_eq_ok.mp h
  injection h with h
  exact ⟨by omega, h.symm⟩

end Gemba.Faucet
