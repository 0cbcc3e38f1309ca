/-
  The governance switch of the reward formula.

  `MsgUpdateFormulaParams` with `enabled = false` is how governance halts the formula's payouts.  It
  halts the formula, and with it nothing else: a begin-blocker that finds the formula off falls back
  to the fixed stream, which has parameters and a switch of its own, and which pays out of the same
  reserve.  At the module's default genesis that switch is on.

  So the reserve is left alone exactly as long as the fixed stream does not pay
  (`killSwitch_leaves_fixed_stream`).  The parameters it runs on are those stored when the formula was
  switched off: in between, no step but an update of the module's parameters writes either of the two
  stores (`Stepped.rewardParams`).
-/
import Gemba.Rewards.Ledger

namespace Gemba.Rewards

open Gemba.Lib Gemba.Sdk
open RewardStreamer (Keepers FormulaParams Validator reserveAccount)

/-! ## The fallback -/

/-- The fixed stream pays in this block: it is on, and the bank lets its send through. -/
def Stream.Pays (moduleName : String) (params : Stream.Params) (height : Nat) (bank : Bank)
    (fault : Option Fault) : Prop :=
  ¬ Stream.Off moduleName params height bank ∧
    succeeds (bank.send fault (.module moduleName) feeCollector
      [⟨params.rewardDenom, Stream.payout moduleName params bank⟩])

instance {moduleName : String} {params : Stream.Params} {height : Nat} {bank : Bank}
    {fault : Option Fault} : Decidable (Stream.Pays moduleName params height bank fault) :=
  inferInstanceAs (Decidable (_ ∧ _))

namespace RewardStreamer

variable {D : Type} {K : Keepers D} (store : Option Stream.Params) {formula : Option FormulaParams}
  (height : Nat) (bank : Bank) (distr : D) (bonded : Outcome (List Validator)) (fault : Option Fault)

/-- With the formula off, a begin-blocker is one of the fixed stream. -/
theorem beginBlock_fallback (hoff : formulaActive K formula = false) :
    (Stream.Pays moduleName (getParams store) height bank fault →
      (beginBlock K store formula height bank distr bonded fault).1
        = bank.move reserveAccount feeCollector [⟨(getParams store).rewardDenom,
            Stream.payout moduleName (getParams store) bank⟩]) ∧
      (¬ Stream.Pays moduleName (getParams store) height bank fault →
        (beginBlock K store formula height bank distr bonded fault).1 = bank) := by
  unfold beginBlock
  rw [if_neg (by rw [hoff]; decide)]
  refine ⟨?_, ?_⟩
  · rintro ⟨hon, bank', hsend⟩
    have hstream : streamRewards store height bank fault = .ok (bank', _) :=
      Stream.stream_of_send hon hsend
    obtain ⟨-, -, -, rfl⟩ := Bank.send_spec hsend
    rw [hstream]
    rfl
  · intro hnot
    by_cases hon : Stream.Off moduleName (getParams store) height bank
    · have hstream : streamRewards store height bank fault = .ok (bank, 0) := Stream.stream_off hon
      rw [hstream]
    · cases hstream : streamRewards store height bank fault with
      | error e => rfl
      | ok res =>
        -- an answer would mean that the send went through
        obtain ⟨bank', amount⟩ := res
        obtain ⟨rfl, hsend⟩ := Stream.stream_on hon hstream
        exact absurd ⟨hon, bank', hsend⟩ hnot

end RewardStreamer

/-! ## Until the next update -/

section
variable {D : Type} {A : App D} {w w' w₁ w₂ : World D} {l : Label} {bs : List Label}
  {bonded : Outcome (List Validator)} {fault : Option Fault} {rest : List String}

/-- The step is a governance update of the reward streamer. -/
def UpdatesRewards : Label → Prop
  | .updateRewardStreamer _ => True
  | .updateFormula _ => True
  | _ => False

instance : DecidablePred UpdatesRewards
  | .updateRewardStreamer _ => .isTrue trivial
  | .updateFormula _ => .isTrue trivial
  | .newBlock => .isFalse id
  | .begin _ _ => .isFalse id
  | .payFees _ _ => .isFalse id
  | .updateFeeSplit _ => .isFalse id
  | .updateTailReward _ => .isFalse id
  | .burnCoins _ _ _ => .isFalse id

/-- **Only an update writes the two stores.** -/
theorem Stepped.rewardParams (h : Stepped A w l w') (hquiet : ¬ UpdatesRewards l) :
    w'.rewardstreamer = w.rewardstreamer ∧ w'.formula = w.formula := by
  cases h with
  | begin _ h =>
    cases h with
    | distribution h =>
      rcases ite_eq_ok.mp h with ⟨-, h⟩ | ⟨-, h⟩
      · injection h with h
        subst h
        exact ⟨rfl, rfl⟩
      · obtain ⟨bank, -, h⟩ := bind_eq_ok.mp h
        injection h with h
        subst h
        exact ⟨rfl, rfl⟩
    | feesplit => exact ⟨rfl, rfl⟩
    | rewardstreamer => exact ⟨rfl, rfl⟩
    | tailreward => exact ⟨rfl, rfl⟩
    | other _ => exact ⟨rfl, rfl⟩
  | updateRewardStreamer _ => exact absurd trivial hquiet
  | updateFormula _ => exact absurd trivial hquiet
  | newBlock _ => exact ⟨rfl, rfl⟩
  | payFees _ _ _ => exact ⟨rfl, rfl⟩
  | updateFeeSplit _ => exact ⟨rfl, rfl⟩
  | updateTailReward _ => exact ⟨rfl, rfl⟩
  | burnCoins _ => exact ⟨rfl, rfl⟩

theorem rewardParams_run (h : Run A.step (fun _ l => ¬ UpdatesRewards l) w bs w') :
    w'.rewardstreamer = w.rewardstreamer ∧ w'.formula = w.formula :=
  h.inv (fun x => x.rewardstreamer = w.rewardstreamer ∧ x.formula = w.formula) ⟨rfl, rfl⟩
    fun _ _ _ hI hquiet hs =>
      have hkept := (App.step_inv hs).rewardParams hquiet
      ⟨hkept.1.trans hI.1, hkept.2.trans hI.2⟩

/-- A formula update that went through stored its parameters and nothing else. -/
theorem step_updateFormula {msg : Authorized FormulaParams}
    (h : A.step w (.updateFormula msg) = .ok w') :
    w'.formula = some msg.params ∧ w'.rewardstreamer = w.rewardstreamer := by
  cases App.step_inv h with
  | updateFormula hset =>
    obtain ⟨⟨⟩, -, hset⟩ := bind_eq_ok.mp hset
    injection hset with hset
    exact ⟨hset.symm, rfl⟩

/-- The rewardstreamer's begin-blocker, when it is next. -/
theorem step_rewardstreamer (hnext : w.pending = RewardStreamer.moduleName :: rest)
    (h : A.step w (.begin bonded fault) = .ok w') :
    w'.bank = (RewardStreamer.beginBlock A.keepers w.rewardstreamer w.formula w.height w.bank w.distr
      bonded fault).1 := by
  dsimp only [App.step] at h
  rw [hnext] at h
  injection h with h
  rw [← h]
  rfl

/-- **What the switch stops, and what it leaves.**  After governance has switched the formula off, and
    until it updates the reward streamer again, a begin-blocker of the module takes nothing from the
    reserve unless the fixed stream pays, with the parameters it had when the formula was switched
    off; then it takes that stream's payout of that stream's denomination.  A fixed stream that is
    switched off as well takes nothing. -/
theorem killSwitch_leaves_fixed_stream {msg : Authorized FormulaParams}
    (hkill : A.step w₁ (.updateFormula msg) = .ok w₂) (hoff : msg.params.enabled = false)
    (hrun : Run A.step (fun _ l => ¬ UpdatesRewards l) w₂ bs w)
    (hnext : w.pending = RewardStreamer.moduleName :: rest)
    (hbegin : A.step w (.begin bonded fault) = .ok w') :
    (Stream.Pays RewardStreamer.moduleName (RewardStreamer.getParams w₁.rewardstreamer) w.height
        w.bank fault →
      ∀ d, w'.bank.balance reserveAccount d = w.bank.balance reserveAccount d -
        if (RewardStreamer.getParams w₁.rewardstreamer).rewardDenom = d then
          Stream.payout RewardStreamer.moduleName (RewardStreamer.getParams w₁.rewardstreamer) w.bank
        else 0) ∧
      (¬ Stream.Pays RewardStreamer.moduleName (RewardStreamer.getParams w₁.rewardstreamer) w.height
          w.bank fault →
        ∀ d, w'.bank.balance reserveAccount d = w.bank.balance reserveAccount d) ∧
      ((RewardStreamer.getParams w₁.rewardstreamer).enabled = false →
        ∀ d, w'.bank.balance reserveAccount d = w.bank.balance reserveAccount d) := by
  obtain ⟨hformula, hfixed⟩ := step_updateFormula hkill
  obtain ⟨hfixed', hformula'⟩ := rewardParams_run hrun
  have hbank := step_rewardstreamer hnext hbegin
  rw [hfixed', hfixed, hformula', hformula] at hbank
  have hinactive : RewardStreamer.formulaActive A.keepers (some msg.params) = false := by
    unfold RewardStreamer.formulaActive RewardStreamer.getFormulaParams
    rw [Option.getD_some, hoff, Bool.and_false]
  obtain ⟨hpays, hidle⟩ := RewardStreamer.beginBlock_fallback w₁.rewardstreamer w.height w.bank w.distr
    bonded fault hinactive
  refine ⟨?_, ?_, ?_⟩
  · intro hp d
    rw [hbank, hpays hp]
    show w.bank.balance reserveAccount d - (if reserveAccount = reserveAccount then _ else _)
      + (if reserveAccount = feeCollector then _ else _) = _
    rw [if_pos rfl, if_neg (by decide), Int.add_zero, Coins.amountOf_cons, Coins.amountOf_nil,
      Int.add_zero]
  · intro hp d
    rw [hbank, hidle hp]
  · intro hdisabled d
    rw [hbank, hidle fun hp => hp.1 (Or.inl hdisabled)]

/-- Switching the formula off stops every payout from the reserve. -/
def PayoutsStop (A : App D) (w₀ : World D) : Prop :=
  ∀ {as bs : List Label} {w₁ w₂ w w' : World D} {msg : Authorized FormulaParams}
    {rest : List String} {bonded : Outcome (List Validator)} {fault : Option Fault},
    Run A.step (fun _ _ => True) w₀ as w₁ → A.step w₁ (.updateFormula msg) = .ok w₂ →
      msg.params.enabled = false → Run A.step (fun _ l => ¬ UpdatesRewards l) w₂ bs w →
        w.pending = RewardStreamer.moduleName :: rest →
          A.step w (.begin bonded fault) = .ok w' →
            ∀ d, w.bank.balance reserveAccount d ≤ w'.bank.balance reserveAccount d

end

/-! ## The default genesis -/

namespace Sample

/-- Governance switches the formula off and changes nothing else. -/
def kill : Label :=
  .updateFormula ⟨"gov", { RewardStreamer.defaultFormulaParams with enabled := false }⟩

/-- After the first block. -/
def beforeKill : World Unit := runTo app.step start block

def killed : World Unit := runTo app.step beforeKill [kill]

/-- The next block, up to the reward streamer. -/
def untilReward : List Label := [.newBlock, .begin (.ok []) none]

def beforeReward : World Unit := runTo app.step killed untilReward

def rewarded : World Unit := runTo app.step beforeReward [.begin (.ok []) none]

theorem kill_step : app.step beforeKill kill = .ok killed :=
  step_runTo (by decide +kernel)

theorem untilReward_run :
    Run app.step (fun _ l => ¬ UpdatesRewards l) killed untilReward beforeReward :=
  Run.of_runTo (allowedM_of_forall fun l hl _ => by revert l hl; decide) (by decide +kernel)

theorem reward_step : app.step beforeReward (.begin (.ok []) none) = .ok rewarded :=
  step_runTo (by decide +kernel)

theorem beforeReward_next : beforeReward.pending
    = RewardStreamer.moduleName :: ["epochs", "tailreward", "distribution"] := by decide +kernel

end Sample

open Sample in
theorem killSwitch_leaves_fixed_stream_sample :
    rewarded.bank.balance reserveAccount "agmb"
      = beforeReward.bank.balance reserveAccount "agmb" - 126754954027245723 := by
  obtain ⟨hpays, -, -⟩ := killSwitch_leaves_fixed_stream kill_step rfl untilReward_run
    beforeReward_next reward_step
  rw [hpays (by decide +kernel)]
  decide +kernel

open Sample in
theorem killSwitch_falls_back : Genesis start ∧ ¬ PayoutsStop app start := by
  refine ⟨start_genesis, ?_⟩
  intro hstop
  have hfirst : Run app.step (fun _ _ => True) start block beforeKill :=
    Run.of_runTo (allowedM_of_forall fun _ _ _ => trivial) (by decide +kernel)
  have hle := hstop hfirst kill_step rfl untilReward_run beforeReward_next reward_step "agmb"
  revert hle
  decide +kernel

end Gemba.Rewards
