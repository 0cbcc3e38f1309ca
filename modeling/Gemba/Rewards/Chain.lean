/-
  The chain the money modules run on.

  A block begins by running the begin-blockers in the configured order, one label each, so that what
  a slash does between two of them is a run like any other; then come the transactions: fees paid,
  parameters updated by governance.  Each call the modules make of the bank may be made to fail by the
  label.  What a module swallows leaves a block that goes on; what the distribution module returns
  stops the chain, so its failures are steps that do not happen.

  Modules outside the repository touch neither the fee collector nor the accounts below when a block
  begins, and their begin-blockers do nothing here.  The distribution module empties the collector into
  its own account from height 2 on.

  Next to the modules' own state the chain keeps books: `feesHeld` is the part of the fee collector that
  is fees, `fees h` what was paid in block `h`, `splits` every split of the fee collector with what the
  faucet gained by it, `shares` what the splits reported, `distributed` what the distribution module
  took out of the collector.
-/
import Gemba.Lib.Runs
import Gemba.Rewards.Wiring

namespace Gemba.Rewards

open Gemba.Lib Gemba.Sdk
open RewardStreamer (Keepers FormulaParams Validator reserveAccount distributionAccount)

/-- What is fixed when the app is built. -/
structure App (D : Type) where
  /-- The address of the gov module. -/
  gov : String
  keepers : Keepers D
  /-- `SetOrderBeginBlockers`. -/
  order : List String

/-- The faucet's account. -/
def faucet : Account := .module FeeSplit.defaultFaucetAccount

/-- One run of `SplitFees`. -/
structure Split where
  height : Nat
  params : FeeSplit.Params
  /-- The fees the collector held, and what the faucet's balance gained. -/
  held : String → Int
  gained : String → Int

/-- The state of the chain. -/
structure World (D : Type) where
  height : Nat
  bank : Bank
  feesplit : Option FeeSplit.Params
  rewardstreamer : Option Stream.Params
  formula : Option FormulaParams
  tailreward : Option Stream.Params
  distr : D
  /-- The begin-blockers of this block still to run. -/
  pending : List String
  feesHeld : String → Int
  fees : Nat → String → Int
  splits : List Split
  shares : String → Int
  distributed : String → Int

/-- A message that sets parameters, and who signs it. -/
structure Authorized (α : Type) where
  authority : String
  params : α

/-- One thing that happens. -/
inductive Label where
  | newBlock
  /-- The next begin-blocker runs, with what the staking keeper's iterator answers and what makes its
      call of the bank fail. -/
  | begin (bonded : Outcome (List Validator)) (fault : Option Fault)
  | payFees (payer : Nat) (coins : Coins)
  | updateFeeSplit (msg : Authorized FeeSplit.Params)
  | updateRewardStreamer (msg : Authorized Stream.Params)
  | updateFormula (msg : Authorized FormulaParams)
  | updateTailReward (msg : Authorized Stream.Params)
  /-- The staking module, or another one, burns coins of `moduleName`. -/
  | burnCoins (moduleName : String) (amt : Coins) (fault : Option Fault)

namespace App

variable {D : Type} (A : App D)

/-- `msg.Authority != authority`. -/
def checkAuthority {α : Type} (msg : Authorized α) : Outcome PUnit :=
  failIf (msg.authority ≠ A.gov)
    (.error s!"invalid authority: expected {A.gov} (gov), got {msg.authority}")

/-- `x/feesplit`'s begin-blocker. -/
def beginFeeSplit (w : World D) (fault : Option Fault) : World D :=
  let bank := FeeSplit.beginBlock w.feesplit w.bank fault
  let gained := fun d => bank.balance faucet d - w.bank.balance faucet d
  let shares := match FeeSplit.splitFees w.feesplit w.bank fault with
    | .ok (_, coins) => fun d => w.shares d + coins.amountOf d
    | .error _ => w.shares
  { w with
    bank := bank
    feesHeld := fun d => w.feesHeld d - gained d
    splits := ⟨w.height, FeeSplit.getParams w.feesplit, w.feesHeld, gained⟩ :: w.splits
    shares := shares }

/-- `x/rewardstreamer`'s begin-blocker. -/
def beginRewardStreamer (w : World D) (bonded : Outcome (List Validator)) (fault : Option Fault) :
    World D :=
  let (bank, distr) := RewardStreamer.beginBlock A.keepers w.rewardstreamer w.formula w.height w.bank
    w.distr bonded fault
  { w with bank := bank, distr := distr }

/-- `x/tailreward`'s begin-blocker. -/
def beginTailReward (w : World D) (fault : Option Fault) : World D :=
  { w with bank := TailReward.beginBlock w.tailreward w.height w.bank fault }

/-- `x/distribution`'s begin-blocker: from height 2 on, it takes all the collector holds. -/
def beginDistribution (w : World D) (fault : Option Fault) : Outcome (World D) :=
  if w.height ≤ 1 then .ok w
  else do
    let coins := w.bank.getAllBalances feeCollector
    let bank ← w.bank.send fault feeCollector distributionAccount coins
    .ok { w with
      bank := bank
      feesHeld := fun _ => 0
      distributed := fun d => w.distributed d + coins.amountOf d }

/-- The begin-blocker `name`. -/
def beginBlocker (w : World D) (name : String) (bonded : Outcome (List Validator))
    (fault : Option Fault) : Outcome (World D) :=
  if name = FeeSplit.moduleName then .ok (beginFeeSplit w fault)
  else if name = RewardStreamer.moduleName then .ok (A.beginRewardStreamer w bonded fault)
  else if name = TailReward.moduleName then .ok (beginTailReward w fault)
  else if name = distributionName then beginDistribution w fault
  else .ok w

/-- The begin-blockers have run: transactions may come. -/
def delivering (w : World D) : Outcome PUnit := failIf (w.pending ≠ []) (.error "in BeginBlock")

/-- One step of the chain. -/
def step (w : World D) : Label → Outcome (World D)
  | .newBlock => do
    delivering w
    .ok { w with height := w.height + 1, pending := A.order }
  | .begin bonded fault =>
    match w.pending with
    | [] => .error (.error "no begin-blocker")
    | name :: rest => A.beginBlocker { w with pending := rest } name bonded fault
  | .payFees payer coins => do
    delivering w
    failIf (w.height = 0) (.error "no block")
    let bank ← w.bank.send none (.user payer) feeCollector coins
    .ok { w with
      bank := bank
      feesHeld := fun d => w.feesHeld d + coins.amountOf d
      fees := fun h d => if h = w.height then w.fees h d + coins.amountOf d else w.fees h d }
  | .updateFeeSplit msg => do
    delivering w
    A.checkAuthority msg
    let store ← FeeSplit.setParams msg.params
    .ok { w with feesplit := store }
  | .updateRewardStreamer msg => do
    delivering w
    A.checkAuthority msg
    let store ← RewardStreamer.setParams msg.params
    .ok { w with rewardstreamer := store }
  | .updateFormula msg => do
    delivering w
    A.checkAuthority msg
    let store ← RewardStreamer.setFormulaParams msg.params
    .ok { w with formula := store }
  | .updateTailReward msg => do
    delivering w
    A.checkAuthority msg
    let store ← TailReward.setParams msg.params
    .ok { w with tailreward := store }
  | .burnCoins moduleName amt fault => do
    let bank ← SlashFunds.burnCoins w.bank moduleName amt fault
    .ok { w with bank := bank }

end App

variable {D : Type}

/-- The chain before its first block: the modules' genesis went through and the bank's books
    balance. -/
structure Genesis (w : World D) : Prop where
  height : w.height = 0
  pending : w.pending = []
  backed : w.bank.Backed
  feesplit : ∃ p, FeeSplit.setParams p = .ok w.feesplit
  rewardstreamer : ∃ gs, RewardStreamer.initGenesis gs = .ok (w.rewardstreamer, w.formula)
  tailreward : ∃ p, TailReward.setParams p = .ok w.tailreward
  feesHeld : w.feesHeld = w.bank.balance feeCollector
  fees : w.fees = fun _ _ => 0
  splits : w.splits = []
  shares : w.shares = fun _ => 0
  distributed : w.distributed = fun _ => 0

/-! ## What a step does -/

/-- What the begin-blocker of a name does. -/
inductive Begun (A : App D) (bonded : Outcome (List Validator)) (fault : Option Fault) (w : World D) :
    String → World D → Prop where
  | feesplit : Begun A bonded fault w FeeSplit.moduleName (App.beginFeeSplit w fault)
  | rewardstreamer :
      Begun A bonded fault w RewardStreamer.moduleName (A.beginRewardStreamer w bonded fault)
  | tailreward : Begun A bonded fault w TailReward.moduleName (App.beginTailReward w fault)
  | distribution {w' : World D} (h : App.beginDistribution w fault = .ok w') :
      Begun A bonded fault w distributionName w'
  | other {name : String} (h : name ≠ FeeSplit.moduleName ∧ name ≠ RewardStreamer.moduleName ∧
      name ≠ TailReward.moduleName ∧ name ≠ distributionName) : Begun A bonded fault w name w

variable {A : App D} {w w' : World D} {l : Label} {bonded : Outcome (List Validator)}
  {fault : Option Fault} {name : String}

theorem App.beginBlocker_inv (h : A.beginBlocker w name bonded fault = .ok w') :
    Begun A bonded fault w name w' := by
  unfold App.beginBlocker at h
  by_cases hfs : name = FeeSplit.moduleName
  · rw [if_pos hfs] at h
    injection h with h
    rw [hfs, ← h]
    exact .feesplit
  rw [if_neg hfs] at h
  by_cases hrs : name = RewardStreamer.moduleName
  · rw [if_pos hrs] at h
    injection h with h
    rw [hrs, ← h]
    exact .rewardstreamer
  rw [if_neg hrs] at h
  by_cases htr : name = TailReward.moduleName
  · rw [if_pos htr] at h
    injection h with h
    rw [htr, ← h]
    exact .tailreward
  rw [if_neg htr] at h
  by_cases hd : name = distributionName
  · rw [if_pos hd] at h
    rw [hd]
    exact .distribution h
  rw [if_neg hd] at h
  injection h with h
  rw [← h]
  exact .other ⟨hfs, hrs, htr, hd⟩

theorem App.delivering_eq_ok {x : PUnit} (h : App.delivering w = .ok x) : w.pending = [] := by
  unfold App.delivering at h
  rw [failIf_eq_ok, not_not] at h
  exact h

/-- **What a step does**, label by label. -/
inductive Stepped (A : App D) (w : World D) : Label → World D → Prop where
  | newBlock (h : w.pending = []) :
      Stepped A w .newBlock { w with height := w.height + 1, pending := A.order }
  | begin {bonded : Outcome (List Validator)} {fault : Option Fault} {name : String}
      {rest : List String} {w' : World D} (hnext : w.pending = name :: rest)
      (h : Begun A bonded fault { w with pending := rest } name w') :
      Stepped A w (.begin bonded fault) w'
  | payFees {payer : Nat} {coins : Coins} {bank : Bank} (hpending : w.pending = [])
      (hheight : w.height ≠ 0) (h : w.bank.send none (.user payer) feeCollector coins = .ok bank) :
      Stepped A w (.payFees payer coins) { w with
        bank := bank
        feesHeld := fun d => w.feesHeld d + coins.amountOf d
        fees := fun h d => if h = w.height then w.fees h d + coins.amountOf d else w.fees h d }
  | updateFeeSplit {msg : Authorized FeeSplit.Params} {store : Option FeeSplit.Params}
      (h : FeeSplit.setParams msg.params = .ok store) :
      Stepped A w (.updateFeeSplit msg) { w with feesplit := store }
  | updateRewardStreamer {msg : Authorized Stream.Params} {store : Option Stream.Params}
      (h : RewardStreamer.setParams msg.params = .ok store) :
      Stepped A w (.updateRewardStreamer msg) { w with rewardstreamer := store }
  | updateFormula {msg : Authorized FormulaParams} {store : Option FormulaParams}
      (h : RewardStreamer.setFormulaParams msg.params = .ok store) :
      Stepped A w (.updateFormula msg) { w with formula := store }
  | updateTailReward {msg : Authorized Stream.Params} {store : Option Stream.Params}
      (h : TailReward.setParams msg.params = .ok store) :
      Stepped A w (.updateTailReward msg) { w with tailreward := store }
  | burnCoins {moduleName : String} {amt : Coins} {fault : Option Fault} {bank : Bank}
      (h : SlashFunds.burnCoins w.bank moduleName amt fault = .ok bank) :
      Stepped A w (.burnCoins moduleName amt fault) { w with bank := bank }

theorem App.step_inv (h : A.step w l = .ok w') : Stepped A w l w' := by
  cases l with
  | newBlock =>
    obtain ⟨⟨⟩, hd, h⟩ := bind_eq_ok.mp h
    injection h with h
    exact h ▸ .newBlock (App.delivering_eq_ok hd)
  | begin bonded fault =>
    dsimp only [App.step] at h
    split at h
    · nomatch h
    · rename_i name rest hnext
      exact .begin hnext (App.beginBlocker_inv h)
  | payFees payer coins =>
    obtain ⟨⟨⟩, hd, h⟩ := bind_eq_ok.mp h
    obtain ⟨⟨⟩, hheight, h⟩ := bind_eq_ok.mp h
    obtain ⟨bank, hsend, h⟩ := bind_eq_ok.mp h
    injection h with h
    exact h ▸ .payFees (App.delivering_eq_ok hd) (failIf_eq_ok.mp hheight) hsend
  | updateFeeSplit msg =>
    obtain ⟨-, h⟩ := failIf_bind_eq_ok.mp h
    obtain ⟨-, h⟩ := failIf_bind_eq_ok.mp h
    obtain ⟨store, hset, h⟩ := bind_eq_ok.mp h
    injection h with h
    exact h ▸ .updateFeeSplit hset
  | updateRewardStreamer msg =>
    obtain ⟨-, h⟩ := failIf_bind_eq_ok.mp h
    obtain ⟨-, h⟩ := failIf_bind_eq_ok.mp h
    obtain ⟨store, hset, h⟩ := bind_eq_ok.mp h
    injection h with h
    exact h ▸ .updateRewardStreamer hset
  | updateFormula msg =>
    obtain ⟨-, h⟩ := failIf_bind_eq_ok.mp h
    obtain ⟨-, h⟩ := failIf_bind_eq_ok.mp h
    obtain ⟨store, hset, h⟩ := bind_eq_ok.mp h
    injection h with h
    exact h ▸ .updateFormula hset
  | updateTailReward msg =>
    obtain ⟨-, h⟩ := failIf_bind_eq_ok.mp h
    obtain ⟨-, h⟩ := failIf_bind_eq_ok.mp h
    obtain ⟨store, hset, h⟩ := bind_eq_ok.mp h
    injection h with h
    exact h ▸ .updateTailReward hset
  | burnCoins moduleName amt fault =>
    obtain ⟨bank, hburn, h⟩ := bind_eq_ok.mp h
    injection h with h
    exact h ▸ .burnCoins hburn

/-! ## A small chain -/

namespace Sample

/-- A reserve, a user with two denominations, and a bonded stake. -/
def bank : Bank where
  denoms := ["agmb", "uatom"]
  sorted := by decide
  valid := by decide
  balance := fun a d =>
    if d = "agmb" then
      if a = reserveAccount then 10 ^ 24
      else if a = .user 0 then 1000
      else if a = .module SlashFunds.bondedPoolName then 500
      else 0
    else if d = "uatom" then if a = .user 0 then 50 else 0
    else 0
  supply := fun d => if d = "agmb" then 10 ^ 24 + 1500 else if d = "uatom" then 50 else 0
  received := fun _ _ => 0

theorem bank_backed : bank.Backed := by
  refine ⟨?_, ?_, {reserveAccount, .user 0, .module SlashFunds.bondedPoolName}, ?_, ?_⟩
  · intro a d
    show 0 ≤ if d = "agmb" then _ else _
    repeat' split
    all_goals decide
  · intro a d hd
    have hagmb : d ≠ "agmb" := fun he => hd (he ▸ by decide)
    have huatom : d ≠ "uatom" := fun he => hd (he ▸ by decide)
    show (if d = "agmb" then _ else _) = _
    rw [if_neg hagmb, if_neg huatom]
  · intro a ha d
    rw [Finset.mem_insert, Finset.mem_insert, Finset.mem_singleton, not_or, not_or] at ha
    show (if d = "agmb" then if a = reserveAccount then _ else _ else _) = _
    rw [if_neg ha.1, if_neg ha.2.1, if_neg ha.2.2, if_neg ha.2.1]
    split
    · rfl
    · split
      · rfl
      · rfl
  · intro d
    rw [Finset.sum_insert (by decide), Finset.sum_insert (by decide), Finset.sum_singleton]
    show (if d = "agmb" then _ else _) = _
    by_cases hagmb : d = "agmb"
    · subst hagmb
      decide
    · by_cases huatom : d = "uatom"
      · subst huatom
        decide
      · show _ = (if d = "agmb" then _ else _) + ((if d = "agmb" then _ else _)
          + if d = "agmb" then _ else _)
        simp only [if_neg hagmb, if_neg huatom]
        rfl

/-- The app, with a module of someone else's among the begin-blockers. -/
def app : App Unit where
  gov := "gov"
  keepers := ⟨true, fun u _ _ => (.ok ⟨⟩, u)⟩
  order := ["feesplit", "rewardstreamer", "epochs", "tailreward", "distribution"]

/-- The chain with every module at its default genesis. -/
def start : World Unit where
  height := 0
  bank := bank
  feesplit := some FeeSplit.defaultParams
  rewardstreamer := some RewardStreamer.defaultParams
  formula := some RewardStreamer.defaultFormulaParams
  tailreward := some TailReward.defaultParams
  distr := ()
  pending := []
  feesHeld := bank.balance feeCollector
  fees := fun _ _ => 0
  splits := []
  shares := fun _ => 0
  distributed := fun _ => 0

theorem start_genesis : Genesis start where
  height := rfl
  pending := rfl
  backed := bank_backed
  feesplit := ⟨FeeSplit.defaultParams, rfl⟩
  rewardstreamer := ⟨RewardStreamer.defaultGenesis, rfl⟩
  tailreward := ⟨TailReward.defaultParams, rfl⟩
  feesHeld := rfl
  fees := rfl
  splits := rfl
  shares := rfl
  distributed := rfl

/-- A block whose begin-blockers all go through, with one validator bonded. -/
def block : List Label :=
  let validator : RewardStreamer.Validator := ⟨"valoper-a", .int (10000 * 10 ^ 18) (by decide)⟩
  let begin : Label := .begin (.ok [validator]) none
  [.newBlock, begin, begin, begin, begin, begin]

/-- Fees of 100 agmb and 7 uatom. -/
def fees : Label := .payFees 0 [⟨"agmb", 100⟩, ⟨"uatom", 7⟩]

end Sample
end Gemba.Rewards
