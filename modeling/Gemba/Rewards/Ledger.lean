/-
  The ledger over whole runs.

  Four modules move coins when a block begins, users pay fees, and the staking module burns what it
  slashes through a bank that redirects the burn to the faucet.  Any of these calls may fail, and the
  modules swallow what fails.  Whatever happens in whatever order:

  * the supply of each denomination changes only by a burn requested for another module than the
    staking pools, and then by exactly the coins requested (`burnOf`);
  * no balance becomes negative, and the supply stays the sum of the balances;
  * what the faucet was ever credited is what the fee splits reported and what was slashed
    (`slashOf`).

  A step either moves coins between accounts or burns them; `Posted` says what it enters in the books,
  and the run adds the entries up (`ledger_conserved`).
-/
import Gemba.Rewards.Chain
import Gemba.Rewards.FormulaRound

namespace Gemba.Rewards

open Gemba.Lib Gemba.Sdk
open RewardStreamer (Keepers FormulaParams Validator reserveAccount distributionAccount)

/-- What a step burns: the coins requested, unless it is a slash. -/
def burnOf (d : String) : Label → Int
  | .burnCoins moduleName amt _ =>
    if SlashFunds.IsStakingPool moduleName then 0 else amt.amountOf d
  | _ => 0

/-- What a step slashes, to the faucet. -/
def slashOf (d : String) : Label → Int
  | .burnCoins moduleName amt _ =>
    if SlashFunds.IsStakingPool moduleName then amt.amountOf d else 0
  | _ => 0

/-! ## Moves that do not pay the faucet -/

/-- The bank is as it was, or one send to another account than the faucet went through. -/
inductive Elsewhere (b : Bank) : Bank → Prop where
  | stay : Elsewhere b b
  | send {b' : Bank} {fault : Option Fault} {src dst : Account} {amt : Coins} (hdst : dst ≠ faucet)
      (h : b.send fault src dst amt = .ok b') : Elsewhere b b'

section
variable {b b' : Bank}

theorem Elsewhere.backed (h : Elsewhere b b') (hb : b.Backed) : b'.Backed := by
  cases h with
  | stay => exact hb
  | send _ hs => exact hb.send hs

theorem Elsewhere.supply (h : Elsewhere b b') : b'.supply = b.supply := by
  cases h with
  | stay => rfl
  | send _ hs =>
    obtain ⟨-, -, -, rfl⟩ := Bank.send_spec hs
    rfl

theorem Elsewhere.received (h : Elsewhere b b') (d : String) :
    b'.received faucet d = b.received faucet d := by
  cases h with
  | stay => rfl
  | send hdst hs =>
    obtain ⟨-, -, -, rfl⟩ := Bank.send_spec hs
    show b.received faucet d + (if faucet = _ then _ else 0) = _
    rw [if_neg hdst.symm, Int.add_zero]

end

section
variable {D : Type} {A : App D} {w w' : World D} {bonded : Outcome (List Validator)}
  {fault : Option Fault}

/-- A fixed stream pays the collector. -/
theorem stream_elsewhere {moduleName context : String} {params : Stream.Params} {height amount}
    {b b' : Bank} (h : Stream.stream moduleName context params height b fault = .ok (b', amount)) :
    Elsewhere b b' := by
  rcases Stream.stream_moved h with ⟨rfl, -⟩ | ⟨-, -, hsend⟩
  · exact .stay
  · exact .send (by decide) hsend

theorem beginTailReward_elsewhere : Elsewhere w.bank (App.beginTailReward w fault).bank := by
  show Elsewhere w.bank (TailReward.beginBlock _ _ _ _)
  unfold TailReward.beginBlock
  split
  · rename_i h
    exact stream_elsewhere h
  · exact .stay

/-- Both reward engines pay elsewhere: one the collector, the other the distribution module. -/
theorem beginRewardStreamer_elsewhere :
    Elsewhere w.bank (A.beginRewardStreamer w bonded fault).bank := by
  show Elsewhere w.bank (RewardStreamer.beginBlock _ _ _ _ _ _ _ _).1
  unfold RewardStreamer.beginBlock
  split
  · obtain ⟨⟨r, bank', distr'⟩, hrun⟩ : ∃ x, RewardStreamer.streamFormulaRewards A.keepers w.formula
        w.height w.bank w.distr bonded fault = x := ⟨_, rfl⟩
    rw [hrun]
    rcases RewardStreamer.streamFormulaRewards_bank hrun with ⟨-, rfl, -⟩ | ⟨-, _, _, -, hsend, -⟩
    · exact .stay
    · exact .send (by decide) hsend
  · split
    · rename_i h
      exact stream_elsewhere h
    · exact .stay

theorem beginDistribution_elsewhere (h : App.beginDistribution w fault = .ok w') :
    Elsewhere w.bank w'.bank := by
  rcases ite_eq_ok.mp h with ⟨-, h⟩ | ⟨-, h⟩
  · injection h with h
    rw [← h]
    exact .stay
  · obtain ⟨bank, hsend, h⟩ := bind_eq_ok.mp h
    injection h with h
    rw [← h]
    exact .send (by decide) hsend

/-! ## The fee split pays the faucet -/

/-- The fee split's begin-blocker leaves the bank alone and reports nothing, or sends the coins it
    reports to the faucet. -/
theorem beginFeeSplit_bank (fault : Option Fault) (hstore : FeeSplit.StoredValid w.feesplit) :
    ((App.beginFeeSplit w fault).bank = w.bank ∧ (App.beginFeeSplit w fault).shares = w.shares) ∨
      ∃ coins, w.bank.send fault feeCollector faucet coins
          = .ok (App.beginFeeSplit w fault).bank ∧
        (App.beginFeeSplit w fault).shares = fun d => w.shares d + coins.amountOf d := by
  unfold App.beginFeeSplit FeeSplit.beginBlock
  dsimp only
  cases hsplit : FeeSplit.splitFees w.feesplit w.bank fault with
  | error e => exact Or.inl ⟨rfl, rfl⟩
  | ok res =>
    obtain ⟨bank, coins⟩ := res
    rcases FeeSplit.splitFees_moved hsplit with ⟨rfl, rfl⟩ | ⟨henabled, hsend⟩
    · refine Or.inl ⟨rfl, ?_⟩
      funext d
      exact Int.add_zero _
    · refine Or.inr ⟨coins, ?_, rfl⟩
      rw [hstore.getParams.account henabled] at hsend
      exact hsend

/-! ## A step and its entries -/

/-- **What a step enters in the books.** -/
structure Posted (w w' : World D) (l : Label) : Prop where
  backed : w'.bank.Backed
  stored : FeeSplit.StoredValid w'.feesplit
  supply : ∀ d, w'.bank.supply d = w.bank.supply d - burnOf d l
  faucet : ∀ d, w'.bank.received faucet d - w'.shares d
    = w.bank.received faucet d - w.shares d + slashOf d l

/-- A step that only moves coins elsewhere, and is neither a burn nor a slash. -/
theorem Posted.of_elsewhere {l : Label} (hb : w.bank.Backed)
    (hstore : FeeSplit.StoredValid w'.feesplit) (h : Elsewhere w.bank w'.bank)
    (hshares : w'.shares = w.shares) (hburn : ∀ d, burnOf d l = 0) (hslash : ∀ d, slashOf d l = 0) :
    Posted w w' l := by
  refine ⟨h.backed hb, hstore, ?_, ?_⟩
  · intro d
    rw [h.supply, hburn, Int.sub_zero]
  · intro d
    rw [h.received, hshares, hslash, Int.add_zero]

theorem posted_burnCoins {moduleName : String} {amt : Coins} {bank : Bank} (hb : w.bank.Backed)
    (hstore : FeeSplit.StoredValid w.feesplit)
    (h : SlashFunds.burnCoins w.bank moduleName amt fault = .ok bank) :
    Posted w { w with bank := bank } (.burnCoins moduleName amt fault) := by
  rcases ite_eq_ok.mp h with ⟨hpool, h⟩ | ⟨hpool, h⟩
  · -- a slash: the coins go to the faucet
    have hbacked : bank.Backed := hb.send h
    obtain ⟨-, -, -, rfl⟩ := Bank.send_spec h
    refine ⟨hbacked, hstore, ?_, ?_⟩
    · intro d
      rw [burnOf, if_pos hpool, Int.sub_zero]
      rfl
    · intro d
      rw [slashOf, if_pos hpool]
      show w.bank.received faucet d + (if faucet = faucet then amt.amountOf d else 0) - w.shares d = _
      rw [if_pos rfl]
      omega
  · have hbacked : bank.Backed := hb.burn h
    obtain ⟨-, -, -, rfl⟩ := Bank.burn_spec h
    refine ⟨hbacked, hstore, ?_, ?_⟩
    · intro d
      rw [burnOf, if_neg hpool]
      rfl
    · intro d
      rw [slashOf, if_neg hpool, Int.add_zero]
      rfl

theorem posted_begin {name : String} {rest : List String} (hb : w.bank.Backed)
    (hstore : FeeSplit.StoredValid w.feesplit)
    (h : Begun A bonded fault { w with pending := rest } name w') :
    Posted w w' (.begin bonded fault) := by
  cases h with
  | feesplit =>
    rcases beginFeeSplit_bank (w := { w with pending := rest }) fault hstore
      with ⟨hbank, hshares⟩ | ⟨coins, hsend, hshares⟩
    · refine .of_elsewhere hb hstore ?_ hshares (fun _ => rfl) (fun _ => rfl)
      rw [hbank]
      exact .stay
    · have hbacked := hb.send hsend
      obtain ⟨-, -, -, hbank⟩ := Bank.send_spec hsend
      refine ⟨hbacked, hstore, ?_, ?_⟩
      · intro d
        rw [hbank]
        exact (Int.sub_zero _).symm
      · intro d
        rw [hbank, hshares]
        show w.bank.received faucet d + (if faucet = faucet then coins.amountOf d else 0)
          - (w.shares d + coins.amountOf d) = w.bank.received faucet d - w.shares d + 0
        rw [if_pos rfl]
        omega
  | rewardstreamer =>
    exact .of_elsewhere hb hstore beginRewardStreamer_elsewhere rfl (fun _ => rfl) (fun _ => rfl)
  | tailreward =>
    exact .of_elsewhere hb hstore beginTailReward_elsewhere rfl (fun _ => rfl) (fun _ => rfl)
  | distribution h =>
    have helse := beginDistribution_elsewhere h
    have hkept : w'.feesplit = w.feesplit ∧ w'.shares = w.shares := by
      rcases ite_eq_ok.mp h with ⟨-, h⟩ | ⟨-, h⟩
      · injection h with h
        rw [← h]
        exact ⟨rfl, rfl⟩
      · obtain ⟨bank, -, h⟩ := bind_eq_ok.mp h
        injection h with h
        rw [← h]
        exact ⟨rfl, rfl⟩
    refine .of_elsewhere hb ?_ helse hkept.2 (fun _ => rfl) (fun _ => rfl)
    rw [hkept.1]
    exact hstore
  | other _ => exact .of_elsewhere hb hstore .stay rfl (fun _ => rfl) (fun _ => rfl)

theorem Stepped.posted {l : Label} (h : Stepped A w l w') (hb : w.bank.Backed)
    (hstore : FeeSplit.StoredValid w.feesplit) : Posted w w' l := by
  cases h with
  | newBlock _ => exact .of_elsewhere hb hstore .stay rfl (fun _ => rfl) (fun _ => rfl)
  | begin _ h => exact posted_begin hb hstore h
  | payFees _ _ h =>
    exact .of_elsewhere hb hstore (.send (by decide) h) rfl (fun _ => rfl) (fun _ => rfl)
  | updateFeeSplit h =>
    exact .of_elsewhere hb (FeeSplit.setParams_valid h) .stay rfl (fun _ => rfl) (fun _ => rfl)
  | updateRewardStreamer _ =>
    exact .of_elsewhere hb hstore .stay rfl (fun _ => rfl) (fun _ => rfl)
  | updateFormula _ => exact .of_elsewhere hb hstore .stay rfl (fun _ => rfl) (fun _ => rfl)
  | updateTailReward _ => exact .of_elsewhere hb hstore .stay rfl (fun _ => rfl) (fun _ => rfl)
  | burnCoins h => exact posted_burnCoins hb hstore h

/-! ## Runs -/

variable {w₀ : World D} {as : List Label}

theorem Genesis.stored (h : Genesis w₀) : FeeSplit.StoredValid w₀.feesplit := by
  obtain ⟨p, hp⟩ := h.feesplit
  exact FeeSplit.setParams_valid hp

/-- What holds of the bank and the fee split in every state. -/
theorem books_run {P : World D → Label → Prop} (hgen : Genesis w₀) (h : Run A.step P w₀ as w) :
    w.bank.Backed ∧ FeeSplit.StoredValid w.feesplit :=
  h.inv (fun w => w.bank.Backed ∧ FeeSplit.StoredValid w.feesplit) ⟨hgen.backed, hgen.stored⟩
    fun _ _ _ hI _ hs =>
      have hposted := (App.step_inv hs).posted hI.1 hI.2
      ⟨hposted.backed, hposted.stored⟩

/-- **The ledger is conserved.**  In every state a run can reach: no balance is negative; the supply
    of each denomination is what it was less the burns requested for other modules than the staking
    pools, and is the sum of the balances; and what the faucet was credited since the start is what
    the fee splits reported plus what was slashed. -/
theorem ledger_conserved (hgen : Genesis w₀) (h : Run A.step (fun _ _ => True) w₀ as w) :
    (∀ a d, 0 ≤ w.bank.balance a d) ∧
      (∀ d, w.bank.supply d = w₀.bank.supply d - (as.map (burnOf d)).sum) ∧
      (∃ accounts : Finset Account, (∀ a ∉ accounts, ∀ d, w.bank.balance a d = 0) ∧
        ∀ d, w.bank.supply d = ∑ a ∈ accounts, w.bank.balance a d) ∧
      (∀ d, w.bank.received faucet d - w₀.bank.received faucet d
        = w.shares d + (as.map (slashOf d)).sum) := by
  have hbooks := books_run hgen h
  refine ⟨hbooks.1.nonneg, ?_, hbooks.1.total, ?_⟩
  · intro d
    clear hbooks
    induction h with
    | nil => simp
    | snoc hrun _ hs ih =>
      have hmid := books_run hgen hrun
      have hposted := (App.step_inv hs).posted hmid.1 hmid.2
      rw [hposted.supply, ih, List.map_append, List.sum_append]
      simp
      omega
  · intro d
    clear hbooks
    induction h with
    | nil =>
      rw [hgen.shares]
      simp
    | snoc hrun _ hs ih =>
      have hmid := books_run hgen hrun
      have hposted := (App.step_inv hs).posted hmid.1 hmid.2
      have hentry := hposted.faucet d
      rw [List.map_append, List.sum_append]
      simp only [List.map_cons, List.map_nil, List.sum_cons, List.sum_nil, Int.add_zero]
      omega

end

/-- Two blocks with fees between them, a slash of 20 while the second begins, and then a burn of 5 by
    another module. -/
def Sample.ledgerRun : List Label :=
  Sample.block ++ [Sample.fees, .newBlock, .begin (.ok []) none,
    .burnCoins SlashFunds.bondedPoolName [⟨"agmb", 20⟩] none,
    .begin (.error (.error "no iterator")) none, .begin (.ok []) none,
    .begin (.ok []) (some (.panic "send restriction")), .begin (.ok []) none,
    .burnCoins "distribution" [⟨"agmb", 5⟩] none]

open Sample in
theorem ledger_conserved_sample :
    (runTo app.step start ledgerRun).bank.supply "agmb" = 10 ^ 24 + 1500 - 5 ∧
      (runTo app.step start ledgerRun).bank.supply "uatom" = 50 ∧
      (runTo app.step start ledgerRun).bank.received faucet "agmb" = 40 + 20 := by
  have hrun : Run app.step (fun _ _ => True) start ledgerRun (runTo app.step start ledgerRun) :=
    Run.of_runTo (allowedM_of_forall fun _ _ _ => trivial) (by decide +kernel)
  obtain ⟨-, hsupply, -, hfaucet⟩ := ledger_conserved start_genesis hrun
  have hshares : (runTo app.step start ledgerRun).shares "agmb" = 40 := by decide +kernel
  have hstart : start.bank.received faucet "agmb" = 0 := rfl
  refine ⟨?_, ?_, ?_⟩
  · rw [hsupply]
    decide
  · rw [hsupply]
    decide
  · have hagmb := hfaucet "agmb"
    have hslashed : (ledgerRun.map (slashOf "agmb")).sum = 20 := by decide
    omega

end Gemba.Rewards
