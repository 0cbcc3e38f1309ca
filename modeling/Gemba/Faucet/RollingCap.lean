/-
  The daily cap of `GembaFaucet`, against any 24 hours.

  The faucet is documented to dispense at most `gmbDailyCap` within any rolling 24-hour window.  What
  it keeps is the start of one window and what was dispensed in it, and the first claim after the
  window has run out forgets both.  A claim at the very end of a window is then a second old and no
  longer counted: with one window emptied at its end and the next at its start, twice the cap leaves in
  two seconds (`cap_exceeded`).

    `claims_within_twice_cap`  that is the worst: no 24 hours see more than twice the cap
    `rolling_cap`              the cap itself holds as long as no claim restarts the window while an
                               earlier one is less than 24 hours old
-/
import Gemba.Faucet.GembaFaucet

namespace Gemba.Faucet

open Gemba.Lib Gemba.Evm

/-- A faucet as it was deployed. -/
def World.deployed (f : GembaFaucet) (balance now : Nat) : World := ⟨f, balance, now, []⟩

/-- A claim that restarts the window comes a day or more after every claim before it. -/
def CleanRestart (w : World) : Message → Prop
  | .claimGMB _ => w.faucet.windowStart + day ≤ w.now → ∀ s ∈ w.claims, s.time + day ≤ w.now
  | _ => True

instance (w : World) : DecidablePred (CleanRestart w) := fun x => by
  unfold CleanRestart
  split <;> infer_instance

/-- The events of a run with constant limits. -/
def Constant (t : State) (e : Step) : Prop := e.Among (fun _ => LeavesLimits) (fun _ => True) t.store

instance (t : State) (e : Step) : Decidable (Constant t e) := by
  unfold Constant
  infer_instance

/-- The events of a run with constant limits in which every restart is clean. -/
def Clean (t : State) (e : Step) : Prop :=
  e.Among (fun w x => LeavesLimits x ∧ CleanRestart w x) (fun _ => True) t.store

instance (t : State) (e : Step) : Decidable (Clean t e) := by
  unfold Clean
  infer_instance

/-! ## Twice the cap -/

/-- The claims are the log of the window, with the cap the faucet was deployed with. -/
structure Metering (cap : Nat) (w : World) : Prop where
  constant : w.faucet.gmbDailyCap = cap
  metered : Metered day cap w.claims w.faucet.windowStart w.faucet.windowDispensed w.now

theorem Metering.same {cap balance : Nat} {w : World} {f : GembaFaucet} (h : Metering cap w)
    (hf : SameWindow w.faucet f) : Metering cap { w with faucet := f, balance } := by
  refine ⟨hf.cap.trans h.constant, ?_⟩
  show Metered day cap w.claims f.windowStart f.windowDispensed w.now
  rw [hf.start, hf.dispensed]
  exact h.metered

theorem Metering.claim {cap balance amount : Nat} {w : World} {f : GembaFaucet} (h : Metering cap w)
    (hf : Claimed w.faucet f w.now amount) :
    Metering cap { w with faucet := f, balance, claims := w.claims ++ [⟨w.now, amount⟩] } := by
  have hwithin := hf.within
  rw [h.constant] at hwithin
  refine ⟨hf.cap.trans h.constant, ?_⟩
  show Metered day cap (w.claims ++ [⟨w.now, amount⟩]) f.windowStart f.windowDispensed w.now
  rcases hf.window with ⟨hin, hstart, hspent⟩ | ⟨hout, hstart, hspent⟩
  · rw [hspent] at hwithin
    rw [hstart, hspent]
    exact h.metered.spend hin hwithin
  · rw [hspent] at hwithin
    rw [hstart, hspent]
    exact h.metered.roll hout hwithin

theorem metering_kept (cap : Nat) :
    contract.Keeps (fun _ => LeavesLimits) (fun _ => True) fun _ w => Metering cap w where
  enter := by
    intro _ w x w' k h hx henter
    cases enter_entered hx henter with
    | claimed hf => exact h.claim hf
    | other hf => exact h.same hf
  resume := by
    intro _ w k ok w' k' h hresume
    obtain ⟨hf, hnow, hclaims⟩ := resume_same (k := k) hresume
    refine ⟨hf.cap.trans h.constant, ?_⟩
    rw [hf.start, hf.dispensed, hnow, hclaims]
    exact h.metered
  between := by
    intro w later w' h _ hbetween
    obtain ⟨hlater, rfl⟩ := between_later hbetween
    exact ⟨h.constant, h.metered.wait hlater⟩

/-- **No 24 hours see more than twice the cap.** -/
theorem claims_within_twice_cap {f : GembaFaucet} {balance now : Nat} {es : List Step} {m : State}
    (hstart : f.windowStart ≤ now)
    (hrun : Run contract.step Constant ⟨World.deployed f balance now, []⟩ es m) (x : Nat) :
    spentBetween m.store.claims x (x + (day - 1)) ≤ 2 * f.gmbDailyCap := by
  have h := (metering_kept f.gmbDailyCap).run ⟨rfl, .fresh hstart⟩ hrun
  have hbound := h.metered.between_le (by decide) x (day - 1)
  rw [Nat.div_eq_of_lt (by decide), Nat.zero_add] at hbound
  exact hbound

/-! ## The cap -/

/-- **What clean restarts keep**: the claims counted in the current window are all there are in the
    last 24 hours, and no 24 hours ever saw more than the cap. -/
structure Rolling (cap : Nat) (w : World) : Prop where
  constant : w.faucet.gmbDailyCap = cap
  started : w.faucet.windowStart ≤ w.now
  counted : ∃ old current, w.claims = old ++ current ∧
    (∀ s ∈ old, s.time + day ≤ w.faucet.windowStart) ∧ spentIn current = w.faucet.windowDispensed
  bounded : ∀ x, spentBetween w.claims x (x + (day - 1)) ≤ cap

theorem Rolling.same {cap balance : Nat} {w : World} {f : GembaFaucet} (h : Rolling cap w)
    (hf : SameWindow w.faucet f) : Rolling cap { w with faucet := f, balance } := by
  refine ⟨hf.cap.trans h.constant, ?_, ?_, h.bounded⟩
  · show f.windowStart ≤ w.now
    rw [hf.start]
    exact h.started
  · obtain ⟨old, current, hclaims, hold, hcurrent⟩ := h.counted
    rw [← hf.start] at hold
    rw [← hf.dispensed] at hcurrent
    exact ⟨old, current, hclaims, hold, hcurrent⟩

/-- What was dispensed in the last 24 hours, when all the claims before are a day old. -/
theorem spentSince_current {old current : List Spending} {now x : Nat}
    (hold : ∀ s ∈ old, s.time + day ≤ now) (hx : now ≤ x + (day - 1)) :
    spentSince (old ++ current) x ≤ spentIn current := by
  rw [spentSince_append, spentSince_eq_zero, Nat.zero_add]
  · exact spentSince_le_in current x
  · intro s hs
    have := hold s hs
    have hday : 0 < day := by decide
    omega

theorem Rolling.claim {cap balance amount : Nat} {w : World} {f : GembaFaucet} (h : Rolling cap w)
    (hf : Claimed w.faucet f w.now amount)
    (hclean : w.faucet.windowStart + day ≤ w.now → ∀ s ∈ w.claims, s.time + day ≤ w.now) :
    Rolling cap { w with faucet := f, balance, claims := w.claims ++ [⟨w.now, amount⟩] } := by
  have hwithin := hf.within
  rw [h.constant] at hwithin
  obtain ⟨old, current, hclaims, hold, hcurrent⟩ := h.counted
  -- the claims of the window the new claim is counted in
  have hsplit : ∃ old current, w.claims = old ++ current ∧
      (∀ s ∈ old, s.time + day ≤ f.windowStart) ∧ spentIn current + amount = f.windowDispensed ∧
      f.windowStart ≤ w.now := by
    rcases hf.window with ⟨-, hstart, hspent⟩ | ⟨hout, hstart, hspent⟩
    · refine ⟨old, current, hclaims, ?_, ?_, ?_⟩
      · rw [hstart]
        exact hold
      · rw [hcurrent, hspent]
      · rw [hstart]
        exact h.started
    · refine ⟨w.claims, [], (List.append_nil _).symm, ?_, ?_, Nat.le_of_eq hstart⟩
      · rw [hstart]
        exact hclean hout
      · rw [hspent]
        exact Nat.zero_add amount
  obtain ⟨old, current, hclaims, hold, hcurrent, hstarted⟩ := hsplit
  refine ⟨hf.cap.trans h.constant, hstarted, ⟨old, current ++ [⟨w.now, amount⟩], ?_, hold, ?_⟩, ?_⟩
  · show w.claims ++ _ = _
    rw [hclaims, List.append_assoc]
  · rw [spentIn_snoc]
    exact hcurrent
  · intro x
    show spentBetween (w.claims ++ [⟨w.now, amount⟩]) x (x + (day - 1)) ≤ cap
    rw [spentBetween_snoc]
    by_cases hx : x ≤ w.now ∧ w.now ≤ x + (day - 1)
    · rw [if_pos hx]
      have hsince : spentSince w.claims x ≤ spentIn current := by
        rw [hclaims]
        exact spentSince_current (fun s hs => Nat.le_trans (hold s hs) hstarted) hx.2
      have hle := spentBetween_le_since w.claims x (x + (day - 1))
      omega
    · rw [if_neg hx]
      exact h.bounded x

theorem rolling_kept (cap : Nat) :
    contract.Keeps (fun w x => LeavesLimits x ∧ CleanRestart w x) (fun _ => True)
      fun _ w => Rolling cap w where
  enter := by
    intro _ w x w' k h hx henter
    cases enter_entered hx.1 henter with
    | claimed hf => exact h.claim hf hx.2
    | other hf => exact h.same hf
  resume := by
    intro _ w k ok w' k' h hresume
    obtain ⟨hf, hnow, hclaims⟩ := resume_same (k := k) hresume
    refine ⟨hf.cap.trans h.constant, ?_, ?_, ?_⟩
    · rw [hf.start, hnow]
      exact h.started
    · rw [hclaims, hf.start, hf.dispensed]
      exact h.counted
    · rw [hclaims]
      exact h.bounded
  between := by
    intro w later w' h _ hbetween
    obtain ⟨hlater, rfl⟩ := between_later hbetween
    exact ⟨h.constant, Nat.le_trans h.started hlater, h.counted, h.bounded⟩

/-- **The rolling cap.**  In a run with constant limits whose claims restart the window only when every
    claim before is a day old, no 24 hours see more than `gmbDailyCap`. -/
theorem rolling_cap {owner : Address} {gmbDripAmount gmbDailyCap balance now : Nat} {f : GembaFaucet}
    (hdeploy : GembaFaucet.construct owner gmbDripAmount gmbDailyCap now = .ok f) {es : List Step}
    {m : State} (hrun : Run contract.step Clean ⟨World.deployed f balance now, []⟩ es m) (x : Nat) :
    spentBetween m.store.claims x (x + (day - 1)) ≤ gmbDailyCap := by
  obtain ⟨guarded, -, hdeploy⟩ := bind_eq_ok.mp hdeploy
  injection hdeploy with hdeploy
  subst hdeploy
  have h := (rolling_kept gmbDailyCap).run
    ⟨rfl, Nat.le_refl now, ⟨[], [], rfl, fun s hs => absurd hs List.not_mem_nil, rfl⟩,
      fun x => Nat.zero_le _⟩ hrun
  exact h.bounded x

/-! ### Two runs -/

section Sample

/-- A faucet that pays 1 GMB a claim and 2 a day. -/
def sampleFaucet : GembaFaucet where
  owner := 1
  pendingOwner := 0
  paused := false
  entered := false
  gmbDripAmount := 1
  gmbDailyCap := 2
  windowDispensed := 0
  windowStart := 1000
  lastGmbClaim := fun _ => 0

/-- A claim that is paid. -/
def claimBy (sender : Address) : List Step := [.call (.claimGMB sender), .answer true]

def sampleStart : State := ⟨World.deployed sampleFaucet 100 1000, []⟩

/-- Two claims early in the window, two more a day later. -/
def sampleCalm : List Step :=
  claimBy 11 ++ claimBy 12 ++ [.between (1000 + day)] ++ claimBy 13 ++ claimBy 14

/-- Two claims in the last second of the window, two more a second later. -/
def sampleRush : List Step :=
  [.between (1000 + day - 1)] ++ claimBy 11 ++ claimBy 12 ++ [.between (1000 + day)] ++
    claimBy 13 ++ claimBy 14

end Sample

theorem rolling_cap_sample :
    spentBetween (runTo contract.step sampleStart sampleCalm).store.claims 1000 (1000 + (day - 1))
      ≤ 2 := by
  have hdeploy : GembaFaucet.construct 1 1 2 1000 = .ok sampleFaucet := rfl
  have hrun : Run contract.step Clean sampleStart sampleCalm
      (runTo contract.step sampleStart sampleCalm) :=
    Run.of_runTo (by decide +kernel) (by decide +kernel)
  exact rolling_cap hdeploy hrun 1000

/-- **Twice the cap in two seconds**, with constant limits. -/
theorem cap_exceeded :
    GembaFaucet.construct 1 1 2 1000 = .ok sampleFaucet ∧
    Run contract.step Constant sampleStart sampleRush (runTo contract.step sampleStart sampleRush) ∧
      spentBetween (runTo contract.step sampleStart sampleRush).store.claims (1000 + day - 1)
        (1000 + day - 1 + (day - 1)) = 4 ∧ sampleFaucet.gmbDailyCap = 2 :=
  ⟨rfl, Run.of_runTo (by decide +kernel) (by decide +kernel), by decide +kernel, rfl⟩

end Gemba.Faucet
