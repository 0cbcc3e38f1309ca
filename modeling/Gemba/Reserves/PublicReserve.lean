/-
  `PublicReserve`: the reserve with a rate-limited tap.

  `grant` is open to the granter and the owner, up to `perGrantCap` a call and `epochCap` a window.
  A window starts lazily, at the first grant after the previous one has run out.
-/
import Gemba.Reserves.BaseReserve

namespace Gemba.Reserves

open Gemba.Lib Gemba.Evm

/-- The storage of a `PublicReserve`. -/
structure PublicReserve extends BaseReserve where
  granter : Address
  perGrantCap : Nat
  totalGranted : Nat
  epochCap : Nat
  epochLength : Nat
  epochStart : Nat
  epochSpent : Nat
deriving DecidableEq, Repr

namespace PublicReserve

/-- `initialize(owner_, pauser_, granter_, perGrantCap_, epochCap_, epochLength_)` at time `now`. -/
def init (impl owner pauser granter : Address) (perGrantCap epochCap epochLength now : Nat) :
    Call PublicReserve := do
  failIf (epochCap ≠ 0 ∧ epochLength = 0) (err "InvalidEpochConfig")
  let base ← BaseReserve.init impl owner pauser
  .ok { base with granter, perGrantCap, totalGranted := 0, epochCap, epochLength, epochStart := now,
                  epochSpent := 0 }

/-- The window after it was restarted, if it has run out at `now`. -/
def rollWindow (p : PublicReserve) (now : Nat) : Call PublicReserve := do
  let windowEnd ← add p.epochStart p.epochLength
  .ok (if windowEnd ≤ now then { p with epochStart := now, epochSpent := 0 } else p)

/-- The window cap of `grant`. -/
def spendWindow (p : PublicReserve) (amount now : Nat) : Call PublicReserve :=
  if p.epochCap = 0 then .ok p
  else do
    let p ← p.rollWindow now
    let spent ← add p.epochSpent amount
    failIf (p.epochCap < spent) (err "AboveEpochCap")
    .ok { p with epochSpent := spent }

/-- `grant(to, amount)`. -/
def grant (p : PublicReserve) (sender dst : Address) (amount now balance : Nat) :
    Call (PublicReserve × Send) := do
  p.whenNotPaused
  p.nonReentrant
  failIf (sender ≠ p.granter ∧ sender ≠ p.owner) (err "OnlyGranter")
  failIf (p.perGrantCap < amount) (err "AboveCap")
  let p ← p.spendWindow amount now
  let totalGranted ← add p.totalGranted amount
  let s ← BaseReserve.checkSend balance dst amount
  .ok ({ p with totalGranted, entered := true }, s)

/-- `setEpochLimit(newCap, newLength)`. -/
def setEpochLimit (p : PublicReserve) (sender : Address) (newCap newLength now : Nat) :
    Call PublicReserve := do
  p.onlyOwner sender
  failIf (newCap ≠ 0 ∧ newLength = 0) (err "InvalidEpochConfig")
  .ok { p with epochCap := newCap, epochLength := newLength, epochStart := now, epochSpent := 0 }

/-- `setGranter(newGranter)`. -/
def setGranter (p : PublicReserve) (sender newGranter : Address) : Call PublicReserve := do
  p.onlyOwner sender
  .ok { p with granter := newGranter }

/-- `setPerGrantCap(newCap)`. -/
def setPerGrantCap (p : PublicReserve) (sender : Address) (newCap : Nat) : Call PublicReserve := do
  p.onlyOwner sender
  .ok { p with perGrantCap := newCap }

/-! ## What a grant does -/

/-- **A grant.**  It is the granter's or the owner's, within the cap, and leaves the terms alone; with
    a window cap it is counted in the current window, which a grant restarts when it has run out. -/
structure Granted (p p' : PublicReserve) (sender : Address) (amount now : Nat) : Prop where
  caller : sender = p.granter ∨ sender = p.owner
  withinCap : amount ≤ p.perGrantCap
  notPaused : p.paused = false
  notEntered : p.entered = false
  base : p'.toBaseReserve = { p.toBaseReserve with entered := true }
  terms : p'.granter = p.granter ∧ p'.perGrantCap = p.perGrantCap ∧ p'.epochCap = p.epochCap ∧
    p'.epochLength = p.epochLength
  total : p'.totalGranted = p.totalGranted + amount
  /-- The window: kept while it lasts, restarted once it is over, and never overspent. -/
  window : p.epochCap ≠ 0 → p'.epochSpent ≤ p'.epochCap ∧
    ((now < p.epochStart + p.epochLength ∧ p'.epochStart = p.epochStart ∧
        p'.epochSpent = p.epochSpent + amount) ∨
      (p.epochStart + p.epochLength ≤ now ∧ p'.epochStart = now ∧ p'.epochSpent = amount))

theorem rollWindow_eq_ok {p p' : PublicReserve} {now : Nat} (h : p.rollWindow now = .ok p') :
    (now < p.epochStart + p.epochLength ∧ p' = p) ∨
      (p.epochStart + p.epochLength ≤ now ∧ p' = { p with epochStart := now, epochSpent := 0 }) := by
  obtain ⟨windowEnd, hadd, h⟩ := bind_eq_ok.mp h
  obtain ⟨-, rfl⟩ := add_eq_ok.mp hadd
  injection h with h
  by_cases hend : p.epochStart + p.epochLength ≤ now
  · rw [if_pos hend] at h
    exact .inr ⟨hend, h.symm⟩
  · rw [if_neg hend] at h
    exact .inl ⟨by omega, h.symm⟩

/-- What a grant that went through did. -/
theorem grant_spec {p p' : PublicReserve} {sender dst : Address} {amount now balance : Nat} {s : Send}
    (h : p.grant sender dst amount now balance = .ok (p', s)) :
    Granted p p' sender amount now ∧ dst ≠ 0 ∧ amount ≤ balance ∧ s = ⟨dst, amount⟩ := by
  obtain ⟨⟨⟩, hpaused, h⟩ := bind_eq_ok.mp h
  obtain ⟨⟨⟩, hentered, h⟩ := bind_eq_ok.mp h
  obtain ⟨⟨⟩, hcaller, h⟩ := bind_eq_ok.mp h
  obtain ⟨⟨⟩, hcap, h⟩ := bind_eq_ok.mp h
  obtain ⟨q, hq, h⟩ := bind_eq_ok.mp h
  obtain ⟨total, htotal, h⟩ := bind_eq_ok.mp h
  obtain ⟨s', hs, h⟩ := bind_eq_ok.mp h
  obtain ⟨hdst, -, hbalance, rfl⟩ := BaseReserve.checkSend_eq_ok hs
  obtain ⟨-, rfl⟩ := add_eq_ok.mp htotal
  obtain ⟨rfl, rfl⟩ := ok_pair h
  have hpaused : p.paused = false := by
    have := failIf_eq_ok.mp hpaused
    simpa using this
  have hentered : p.entered = false := by
    have := failIf_eq_ok.mp hentered
    simpa using this
  rw [failIf_eq_ok] at hcaller hcap
  have hcaller : sender = p.granter ∨ sender = p.owner := by
    by_cases hg : sender = p.granter
    · exact .inl hg
    · exact .inr (not_not.mp fun ho => hcaller ⟨hg, ho⟩)
  refine ⟨?_, hdst, hbalance, rfl⟩
  unfold spendWindow at hq
  by_cases hz : p.epochCap = 0
  · rw [if_pos hz] at hq
    injection hq with hq
    subst hq
    exact ⟨hcaller, by omega, hpaused, hentered, rfl, ⟨rfl, rfl, rfl, rfl⟩, rfl,
      fun hne => absurd hz hne⟩
  · rw [if_neg hz] at hq
    obtain ⟨p₁, hroll, hq⟩ := bind_eq_ok.mp hq
    obtain ⟨spent, hspent, hq⟩ := bind_eq_ok.mp hq
    obtain ⟨⟨⟩, hover, hq⟩ := bind_eq_ok.mp hq
    obtain ⟨-, rfl⟩ := add_eq_ok.mp hspent
    rw [failIf_eq_ok] at hover
    injection hq with hq
    subst hq
    rcases rollWindow_eq_ok hroll with ⟨hin, rfl⟩ | ⟨hout, rfl⟩
    · -- the window is still running
      refine ⟨hcaller, by omega, hpaused, hentered, rfl, ⟨rfl, rfl, rfl, rfl⟩, rfl, fun _ => ?_⟩
      exact ⟨by show p₁.epochSpent + amount ≤ p₁.epochCap; omega, .inl ⟨hin, rfl, rfl⟩⟩
    · -- the grant opens a new one
      refine ⟨hcaller, by omega, hpaused, hentered, rfl, ⟨rfl, rfl, rfl, rfl⟩, rfl, fun _ => ?_⟩
      have hover : ¬ p.epochCap < 0 + amount := hover
      refine ⟨?_, .inr ⟨hout, rfl, ?_⟩⟩
      · show 0 + amount ≤ p.epochCap
        omega
      · show 0 + amount = amount
        omega

/-- Without a window cap a grant leaves the window alone. -/
theorem grant_unlimited {p p' : PublicReserve} {sender dst : Address} {amount now balance : Nat}
    {s : Send} (h : p.grant sender dst amount now balance = .ok (p', s)) (hz : p.epochCap = 0) :
    p'.epochStart = p.epochStart := by
  obtain ⟨-, h⟩ := failIf_bind_eq_ok.mp h
  obtain ⟨-, h⟩ := failIf_bind_eq_ok.mp h
  obtain ⟨-, h⟩ := failIf_bind_eq_ok.mp h
  obtain ⟨-, h⟩ := failIf_bind_eq_ok.mp h
  obtain ⟨q, hq, h⟩ := bind_eq_ok.mp h
  obtain ⟨total, -, h⟩ := bind_eq_ok.mp h
  obtain ⟨s', -, h⟩ := bind_eq_ok.mp h
  unfold spendWindow at hq
  rw [if_pos hz] at hq
  injection hq with hq
  injection h with h
  injection h with hp
  subst hq hp
  rfl

end PublicReserve
end Gemba.Reserves
