/-
  The fee split takes its share of fees, and of nothing else.

  The chain refines the fee collector's books: what a step of the chain does to the collector is a step
  of `Books` (`Stepped.books`), as long as the call the fee split makes does not fail.  What the other
  modules' calls do does not matter: a reward that fails is one that does not come in.

  So in a checked order of begin-blockers the books' invariant holds in every state
  (`sound_run`), and what it says of the splits is `feeSplit_never_skims`: one split a block; each gives
  the faucet its ratio, rounded down, of the fees the collector holds, which from the third block on are
  those of the block before; the collector is never short; and what the faucet does not get, the
  distribution module does.
-/
import Gemba.Rewards.FeeBooks
import Gemba.Rewards.Ledger

namespace Gemba.Rewards

open Gemba.Lib Gemba.Sdk
open RewardStreamer (Keepers FormulaParams Validator reserveAccount distributionAccount)

/-- The books of the chain. -/
def World.books {D : Type} (w : World D) : Books where
  height := w.height
  pending := w.pending
  collector := w.bank.balance feeCollector
  received := w.bank.received feeCollector
  feesHeld := w.feesHeld
  fees := w.fees
  splits := w.splits
  shares := w.shares
  distributed := w.distributed

/-- The call the fee split makes goes through, and nobody burns what the collector holds: the collector
    is no account coins can be burned from. -/
def Unfailing {D : Type} (w : World D) : Label → Prop
  | .begin _ fault => w.pending.head? = some FeeSplit.moduleName →
      succeeds (FeeSplit.splitFees w.feesplit w.bank fault)
  | .burnCoins moduleName _ _ => moduleName ≠ feeCollectorName
  | _ => True

instance {D : Type} (w : World D) : DecidablePred (Unfailing w)
  | .begin _ fault => inferInstanceAs (Decidable (w.pending.head? = some FeeSplit.moduleName →
      succeeds (FeeSplit.splitFees w.feesplit w.bank fault)))
  | .burnCoins moduleName _ _ => inferInstanceAs (Decidable (moduleName ≠ feeCollectorName))
  | .newBlock => .isTrue trivial
  | .payFees _ _ => .isTrue trivial
  | .updateFeeSplit _ => .isTrue trivial
  | .updateRewardStreamer _ => .isTrue trivial
  | .updateFormula _ => .isTrue trivial
  | .updateTailReward _ => .isTrue trivial

/-! ## Rewards only come in -/

/-- All that happened to the collector is that something came in. -/
def Inflow (b b' : Bank) : Prop :=
  ∀ d, b'.balance feeCollector d - b.balance feeCollector d
    = b'.received feeCollector d - b.received feeCollector d

section
variable {b b' : Bank} {fault : Option Fault} {src dst : Account} {amt : Coins}

theorem Inflow.refl (b : Bank) : Inflow b b := by
  intro d
  rw [Int.sub_self, Int.sub_self]

theorem inflow_send (hsrc : src ≠ feeCollector) (h : b.send fault src dst amt = .ok b') :
    Inflow b b' := by
  obtain ⟨-, -, -, rfl⟩ := Bank.send_spec h
  intro d
  show b.balance feeCollector d - (if feeCollector = src then _ else _)
      + (if feeCollector = dst then amt.amountOf d else 0) - _
    = b.received feeCollector d + (if feeCollector = dst then amt.amountOf d else 0) - _
  rw [if_neg hsrc.symm]
  omega

end

section
variable {D : Type} {A : App D} {w w' w₀ : World D} {bonded : Outcome (List Validator)}
  {fault : Option Fault} {l : Label} {name : String} {rest : List String} {as : List Label}

/-- A fixed stream comes in, and not in the first block. -/
theorem stream_inflow {moduleName context : String} {params : Stream.Params} {height amount}
    {b b' : Bank} (hname : moduleName ≠ feeCollectorName)
    (h : Stream.stream moduleName context params height b fault = .ok (b', amount)) :
    Inflow b b' ∧ (height ≤ 1 → b' = b) := by
  rcases Stream.stream_moved h with ⟨rfl, -⟩ | ⟨hheight, -, hsend⟩
  · exact ⟨.refl _, fun _ => rfl⟩
  · refine ⟨inflow_send ?_ hsend, fun hle => absurd hle (not_le.mpr hheight)⟩
    intro he
    injection he with he
    exact hname he

theorem beginTailReward_inflow (w : World D) (fault : Option Fault) :
    Inflow w.bank (App.beginTailReward w fault).bank ∧
      (w.height ≤ 1 → (App.beginTailReward w fault).bank = w.bank) := by
  show Inflow w.bank (TailReward.beginBlock _ _ _ _) ∧ (_ → TailReward.beginBlock _ _ _ _ = _)
  unfold TailReward.beginBlock
  split
  · rename_i h
    exact stream_inflow (by decide) h
  · exact ⟨.refl _, fun _ => rfl⟩

theorem beginRewardStreamer_inflow (w : World D) (bonded : Outcome (List Validator))
    (fault : Option Fault) : Inflow w.bank (A.beginRewardStreamer w bonded fault).bank ∧
      (w.height ≤ 1 → (A.beginRewardStreamer w bonded fault).bank = w.bank) := by
  show Inflow w.bank (RewardStreamer.beginBlock _ _ _ _ _ _ _ _).1 ∧
    (_ → (RewardStreamer.beginBlock _ _ _ _ _ _ _ _).1 = _)
  unfold RewardStreamer.beginBlock
  split
  · obtain ⟨⟨r, bank', distr'⟩, hrun⟩ : ∃ x, RewardStreamer.streamFormulaRewards A.keepers w.formula
        w.height w.bank w.distr bonded fault = x := ⟨_, rfl⟩
    rw [hrun]
    rcases RewardStreamer.streamFormulaRewards_bank hrun
      with ⟨-, rfl, -⟩ | ⟨-, _, _, hround, hsend, -⟩
    · exact ⟨.refl _, fun _ => rfl⟩
    · obtain ⟨hheight, -⟩ := RewardStreamer.round_spec hround
      exact ⟨inflow_send (by decide) hsend, fun hle => absurd hle (not_le.mpr hheight)⟩
  · split
    · rename_i h
      exact stream_inflow (by decide) h
    · exact ⟨.refl _, fun _ => rfl⟩

/-- What a reward does to the books. -/
theorem Inflow.step (h : Inflow w.bank w'.bank) (hfirst : w.height ≤ 1 → w'.bank = w.bank)
    (hnext : w.pending = name :: rest) (hname : Books.PaysReward name)
    (hw : w' = { w with pending := rest, bank := w'.bank, distr := w'.distr }) :
    Books.Step A.order w.books w'.books := by
  have hbooks : w'.books = { w.books with
      pending := rest
      collector := fun d => w.books.collector d
        + (w'.bank.received feeCollector d - w.bank.received feeCollector d)
      received := fun d => w.books.received d
        + (w'.bank.received feeCollector d - w.bank.received feeCollector d) } := by
    rw [hw]
    unfold World.books
    congr 1
    · funext d
      have hd := h d
      dsimp only
      omega
    · funext d
      dsimp only
      omega
  rw [hbooks]
  refine .reward hnext hname _ ?_
  intro hheight d
  rw [hfirst hheight, Int.sub_self]

/-! ## The split, the distribution and the burns -/

/-- **What a split that does not fail does to the books.** -/
theorem beginFeeSplit_books (hb : w.bank.Backed) (hstore : FeeSplit.StoredValid w.feesplit)
    (hok : succeeds (FeeSplit.splitFees w.feesplit w.bank fault)) :
    (App.beginFeeSplit w fault).books = { w.books with
      collector := fun d => w.books.collector d
        - (FeeSplit.getParams w.feesplit).share (w.books.collector d)
      feesHeld := fun d => w.books.feesHeld d
        - (FeeSplit.getParams w.feesplit).share (w.books.collector d)
      splits := ⟨w.books.height, FeeSplit.getParams w.feesplit, w.books.feesHeld,
        fun d => (FeeSplit.getParams w.feesplit).share (w.books.collector d)⟩ :: w.books.splits
      shares := fun d => w.books.shares d
        + (FeeSplit.getParams w.feesplit).share (w.books.collector d) } := by
  obtain ⟨⟨bank', coins⟩, hsplit⟩ := hok
  have hshare := FeeSplit.splitFees_share hstore hb hsplit
  have hmoved : ∀ d, bank'.balance feeCollector d = w.bank.balance feeCollector d - coins.amountOf d ∧
      bank'.balance faucet d = w.bank.balance faucet d + coins.amountOf d ∧
      bank'.received feeCollector d = w.bank.received feeCollector d := by
    intro d
    rcases FeeSplit.splitFees_moved hsplit with ⟨rfl, rfl⟩ | ⟨henabled, hsend⟩
    · simp
    · rw [hstore.getParams.account henabled] at hsend
      obtain ⟨-, -, -, rfl⟩ := Bank.send_spec hsend
      refine ⟨?_, ?_, ?_⟩
      · show _ - (if feeCollector = feeCollector then _ else _)
          + (if feeCollector = faucet then _ else _) = _
        rw [if_pos rfl, if_neg (by decide), Int.add_zero]
      · show _ - (if faucet = feeCollector then _ else _) + (if faucet = faucet then _ else _) = _
        rw [if_pos rfl, if_neg (by decide), Int.sub_zero]
      · show _ + (if feeCollector = faucet then _ else _) = _
        rw [if_neg (by decide), Int.add_zero]
  have hgained : ∀ d, bank'.balance faucet d - w.bank.balance faucet d
      = (FeeSplit.getParams w.feesplit).share (w.bank.balance feeCollector d) := by
    intro d
    rw [(hmoved d).2.1, hshare d]
    omega
  unfold App.beginFeeSplit FeeSplit.beginBlock
  rw [hsplit]
  unfold World.books
  dsimp only
  congr 1
  · funext d
    rw [(hmoved d).1, hshare d]
  · funext d
    rw [(hmoved d).2.2]
  · funext d
    rw [hgained d]
  · congr 2
    funext d
    exact hgained d
  · funext d
    rw [hshare d]

/-- What the distribution does to the books. -/
theorem beginDistribution_books (hb : w.bank.Backed)
    (h : App.beginDistribution w fault = .ok w') :
    (w.height ≤ 1 ∧ w' = w) ∨ (2 ≤ w.height ∧ w'.books = { w.books with
      collector := fun _ => 0
      feesHeld := fun _ => 0
      distributed := fun d => w.books.distributed d + w.books.collector d }) := by
  rcases ite_eq_ok.mp h with ⟨hheight, h⟩ | ⟨hheight, h⟩
  · injection h with h
    exact Or.inl ⟨hheight, h.symm⟩
  · obtain ⟨bank, hsend, h⟩ := bind_eq_ok.mp h
    injection h with h
    subst h
    obtain ⟨-, -, -, rfl⟩ := Bank.send_spec hsend
    have hall := w.bank.amountOf_getAllBalances hb feeCollector
    refine Or.inr ⟨by omega, ?_⟩
    unfold World.books
    dsimp only
    congr 1
    · funext d
      show _ - (if feeCollector = feeCollector then _ else _)
        + (if feeCollector = distributionAccount then _ else _) = _
      rw [if_pos rfl, if_neg (by decide), hall d]
      omega
    · funext d
      show _ + (if feeCollector = distributionAccount then _ else _) = _
      rw [if_neg (by decide), Int.add_zero]
    · funext d
      rw [hall d]

/-- A burn of other coins than the collector's leaves the books alone. -/
theorem burnCoins_books {moduleName : String} {amt : Coins} {bank : Bank}
    (hname : moduleName ≠ feeCollectorName)
    (h : SlashFunds.burnCoins w.bank moduleName amt fault = .ok bank) :
    World.books { w with bank := bank } = w.books := by
  have hother : feeCollector ≠ .module moduleName := by
    intro he
    injection he with he
    exact hname he.symm
  unfold World.books
  dsimp only
  rcases ite_eq_ok.mp h with ⟨-, h⟩ | ⟨-, h⟩
  · obtain ⟨-, -, -, rfl⟩ := Bank.send_spec h
    congr 1
    · funext d
      show _ - (if feeCollector = _ then _ else _) + (if feeCollector = faucet then _ else _) = _
      rw [if_neg hother, if_neg (by decide), Int.sub_zero, Int.add_zero]
    · funext d
      show _ + (if feeCollector = faucet then _ else _) = _
      rw [if_neg (by decide), Int.add_zero]
  · obtain ⟨-, -, -, rfl⟩ := Bank.burn_spec h
    congr 1
    funext d
    show _ - (if feeCollector = _ then _ else _) = _
    rw [if_neg hother, Int.sub_zero]

/-! ## The chain refines the books -/

/-- **A step of the chain is a step of its books.** -/
theorem Stepped.books (h : Stepped A w l w') (hb : w.bank.Backed)
    (hstore : FeeSplit.StoredValid w.feesplit) (hok : Unfailing w l) :
    Books.Step A.order w.books w'.books := by
  cases h with
  | newBlock hpending => exact .newBlock hpending
  | @begin bonded fault name rest w' hnext h =>
    cases h with
    | feesplit =>
      have hsplit := beginFeeSplit_books (w := { w with pending := rest }) hb hstore
        (hok (by rw [hnext]; rfl))
      rw [hsplit]
      exact .split hnext _
    | rewardstreamer =>
      obtain ⟨hin, hfirst⟩ := beginRewardStreamer_inflow (A := A) { w with pending := rest } bonded
        fault
      exact Inflow.step (w := w) hin hfirst hnext (Or.inl rfl) rfl
    | tailreward =>
      obtain ⟨hin, hfirst⟩ := beginTailReward_inflow { w with pending := rest } fault
      exact Inflow.step (w := w) hin hfirst hnext (Or.inr rfl) rfl
    | distribution h =>
      rcases beginDistribution_books (w := { w with pending := rest }) hb h
        with ⟨hheight, rfl⟩ | ⟨hheight, hbooks⟩
      · exact .pass hnext (by decide) fun _ => hheight
      · rw [hbooks]
        exact .distribute hnext hheight
    | other hname => exact .pass hnext hname.1 fun he => absurd he hname.2.2.2
  | @payFees payer coins bank hpending hheight h =>
    obtain ⟨-, -, -, rfl⟩ := Bank.send_spec h
    have hbooks : World.books { w with
        bank := w.bank.move (.user payer) feeCollector coins
        feesHeld := fun d => w.feesHeld d + coins.amountOf d
        fees := fun h d => if h = w.height then w.fees h d + coins.amountOf d else w.fees h d }
        = { w.books with
          collector := fun d => w.books.collector d + coins.amountOf d
          received := fun d => w.books.received d + coins.amountOf d
          feesHeld := fun d => w.books.feesHeld d + coins.amountOf d
          fees := fun h d => if h = w.books.height then w.books.fees h d + coins.amountOf d
            else w.books.fees h d } := by
      unfold World.books
      dsimp only
      congr 1
      funext d
      show _ - (if feeCollector = .user payer then _ else _)
        + (if feeCollector = feeCollector then _ else _) = _
      rw [if_neg Account.noConfusion, if_pos rfl, Int.sub_zero]
    rw [hbooks]
    exact .pay hpending hheight _
  | updateFeeSplit _ => exact .quiet
  | updateRewardStreamer _ => exact .quiet
  | updateFormula _ => exact .quiet
  | updateTailReward _ => exact .quiet
  | burnCoins h =>
    rw [burnCoins_books hok h]
    exact .quiet

theorem Genesis.fresh (h : Genesis w) : w.books.Fresh where
  height := h.height
  pending := h.pending
  feesHeld := h.feesHeld
  fees := h.fees
  splits := h.splits
  shares := h.shares
  distributed := h.distributed

/-- The books' invariant along runs. -/
theorem sound_run (hgen : Genesis w₀) (horder : Wiring.Ordered A.order)
    (h : Run A.step Unfailing w₀ as w) : Books.Sound A.order w₀.books w.books := by
  induction h with
  | nil => exact hgen.fresh.sound
  | snoc hrun hok hs ih =>
    have hmid := books_run hgen hrun
    exact ((App.step_inv hs).books hmid.1 hmid.2 hok).sound horder ih

/-- **The fee split never skims the reward.**  In every state of every run from genesis, in a checked
    order of begin-blockers and with no failing split:

    1. there is one split for each block whose split has run;
    2. each gave the faucet the ratio, rounded down, of the fees the collector held, and from the third
       block on those are the fees of the block before;
    3. when the split's turn comes the collector holds nothing but fees, and it is never short of the
       coins to send;
    4. what came into the collector is what the splits gave to the faucet, what was distributed, and
       what is left; and what is left once a block is distributed are the fees paid since. -/
theorem feeSplit_never_skims {x : PUnit} (hgen : Genesis w₀)
    (horder : Wiring.validateBeginBlockOrder A.order = .ok x) (h : Run A.step Unfailing w₀ as w) :
    (w.splits.map Split.height = (List.range' 1
        (if FeeSplit.moduleName ∈ w.pending then w.height - 1 else w.height)).reverse) ∧
      (∀ s ∈ w.splits, ∀ d, s.gained d = s.params.share (s.held d) ∧
        (3 ≤ s.height → s.held d = w.fees (s.height - 1) d)) ∧
      (w.pending.head? = some FeeSplit.moduleName → ∀ d, w.bank.balance feeCollector d = w.feesHeld d) ∧
      (∀ coins, FeeSplit.shares ((FeeSplit.getParams w.feesplit).faucetFeeRatio.raw?.getD 0)
          (w.bank.getAllBalances feeCollector) [] = .ok coins →
        w.bank.send none feeCollector faucet coins
          = .ok (w.bank.move feeCollector faucet coins)) ∧
      (∀ d, w₀.bank.balance feeCollector d
          + (w.bank.received feeCollector d - w₀.bank.received feeCollector d)
        = (w.splits.map fun s => s.gained d).sum + w.distributed d
          + w.bank.balance feeCollector d) ∧
      (2 ≤ w.height → distributionName ∉ w.pending →
        ∀ d, w.bank.balance feeCollector d = w.fees w.height d) := by
  have hsound := sound_run hgen (Wiring.validateBeginBlockOrder_ordered horder) h
  have hbooks := books_run hgen h
  refine ⟨hsound.recorded.heights, ?_, ?_, ?_, ?_, ?_⟩
  · intro s hs d
    exact ⟨hsound.recorded.share s hs d, fun hthree => hsound.recorded.fees s hs hthree d⟩
  · intro hnext
    exact hsound.clean.fees (Or.inl (List.mem_of_head? hnext))
  · intro coins hshares
    exact FeeSplit.splitFees_sends hbooks.2 hbooks.1 hshares faucet
  · intro d
    have hposted := hsound.posted d
    rw [hsound.recorded.shares d] at hposted
    exact hposted
  · intro hheight hdistr d
    have hclean := hsound.clean.fees (Or.inr (Or.inl hdistr)) d
    exact hclean.trans (hsound.clean.current hheight hdistr d)

end

/-- Three blocks, with fees in each. -/
def Sample.routedRun : List Label :=
  Sample.block ++ [Sample.fees] ++ Sample.block ++ [Sample.fees, Sample.fees] ++ Sample.block

open Sample in
theorem feeSplit_never_skims_sample :
    (runTo app.step start routedRun).splits.map Split.height = [3, 2, 1] ∧
      ∀ s ∈ (runTo app.step start routedRun).splits, s.height = 3 →
        s.gained "agmb" = s.params.share 200 ∧ s.gained "uatom" = s.params.share 14 := by
  have hrun : Run app.step Unfailing start routedRun (runTo app.step start routedRun) :=
    Run.of_runTo (by decide +kernel) (by decide +kernel)
  obtain ⟨hheights, hsplits, -⟩ :=
    feeSplit_never_skims (x := ⟨⟩) start_genesis (by decide +kernel) hrun
  refine ⟨hheights.trans (by decide +kernel), ?_⟩
  intro s hs hthree
  obtain ⟨hagmb, hfees⟩ := hsplits s hs "agmb"
  obtain ⟨huatom, hfees'⟩ := hsplits s hs "uatom"
  rw [hagmb, huatom, hfees (by omega), hfees' (by omega), hthree]
  have hpaid : (runTo app.step start routedRun).fees 2 "agmb" = 200 ∧
      (runTo app.step start routedRun).fees 2 "uatom" = 14 := by decide +kernel
  exact ⟨congrArg _ hpaid.1, congrArg _ hpaid.2⟩

end Gemba.Rewards
