/-
  `src/chain/x/feesplit` — the faucet's share of the fees.

  At the start of a block the fee collector holds the fees of the block before.  `SplitFees` sends a
  fixed ratio of each denomination to the faucet account, rounded down, and leaves the rest for the
  distribution module.  `BeginBlock` swallows an error or a panic: the split of that block is then
  skipped.

  Parameters are stored as JSON, which gives back what was written: only validated values are, and
  those have no nil field.

  The loop over the balances builds the coins to send by adding one coin at a time.  Because the bank
  lists balances in the order of denominations, every addition is at the end; `shares_eq` is the closed
  form, and from it come the amount per denomination (`splitFees_share`) and that the coins are valid
  and never more than the collector has (`splitFees_sends`).
-/
import Gemba.Sdk.Bank

namespace Gemba.Rewards

open Gemba.Lib Gemba.Sdk

/-- `authtypes.FeeCollectorName`. -/
def feeCollectorName : String := "fee_collector"

/-- `distrtypes.ModuleName`. -/
def distributionName : String := "distribution"

/-- The account fees accumulate in before distribution. -/
def feeCollector : Account := .module feeCollectorName

namespace FeeSplit

/-- `types.ModuleName`. -/
def moduleName : String := "feesplit"

/-- `DefaultFaucetAccount`, the one registered faucet account. -/
def defaultFaucetAccount : String := "faucet"

/-- `types.Params`. -/
structure Params where
  enabled : Bool
  faucetFeeRatio : LegacyDec
  faucetAccount : String
deriving DecidableEq

/-- `DefaultParams()`: 40 % to the faucet. -/
def defaultParams : Params where
  enabled := true
  faucetFeeRatio := .percent 40 (by decide)
  faucetAccount := defaultFaucetAccount

/-- `p.Validate()`. -/
def Params.validate (p : Params) : Outcome PUnit := do
  failIf (p.faucetFeeRatio.isNil = true) (.error "faucet_fee_ratio must not be nil")
  let ratio ← p.faucetFeeRatio.deref
  failIf (ratio < 0 ∨ precisionReuse < ratio)
    (.error s!"faucet_fee_ratio must be in [0,1], got {p.faucetFeeRatio}")
  failIf (p.enabled = true ∧ p.faucetAccount ≠ defaultFaucetAccount)
    (.error ("faucet_account must be " ++ defaultFaucetAccount.quote
      ++ " (the registered faucet module account), got " ++ p.faucetAccount.quote))

/-- `k.GetParams(ctx)` on the stored value. -/
def getParams (store : Option Params) : Params := store.getD defaultParams

/-- `k.SetParams(ctx, p)`: the new stored value. -/
def setParams (p : Params) : Outcome (Option Params) := do
  p.validate
  .ok (some p)

/-- The loop of `SplitFees`: the faucet's share of each coin, added to `faucetCoins`. -/
def shares (ratio : Int) : Coins → Coins → Outcome Coins
  | [], faucetCoins => .ok faucetCoins
  | c :: balances, faucetCoins => do
    let scaled ← LegacyDec.mulInt ratio c.amount
    let share ← LegacyDec.truncateInt scaled
    if 0 < share then do
      let coin ← newCoin c.denom share
      shares ratio balances (faucetCoins.add coin)
    else shares ratio balances faucetCoins

/-- `k.SplitFees(ctx)`: the bank afterwards, and the coins moved. -/
def splitFees (store : Option Params) (bank : Bank) (fault : Option Fault) :
    Outcome (Bank × Coins) :=
  let params := getParams store
  if params.enabled = false then .ok (bank, [])
  else do
    let ratio ← params.faucetFeeRatio.deref
    if ratio = 0 then .ok (bank, [])
    else do
      let balances := bank.getAllBalances feeCollector
      if balances = [] then .ok (bank, [])
      else do
        let faucetCoins ← shares ratio balances []
        if faucetCoins = [] then .ok (bank, [])
        else do
          let bank ← wrapError "feesplit: send to faucet failed"
            (bank.send fault feeCollector (.module params.faucetAccount) faucetCoins)
          .ok (bank, faucetCoins)

/-- `k.BeginBlock(ctx)`. -/
def beginBlock (store : Option Params) (bank : Bank) (fault : Option Fault) : Bank :=
  match splitFees store bank fault with
  | .ok (bank, _) => bank
  | .error _ => bank

/-! ## Parameters -/

/-- What validation establishes. -/
structure Params.Valid (p : Params) : Prop where
  ratio : ∃ r, p.faucetFeeRatio.raw? = some r ∧ 0 ≤ r ∧ r ≤ precisionReuse
  account : p.enabled = true → p.faucetAccount = defaultFaucetAccount

theorem Params.validate_valid {p : Params} {x : PUnit} (h : p.validate = .ok x) : p.Valid := by
  obtain ⟨-, h⟩ := failIf_bind_eq_ok.mp h
  obtain ⟨r, hr, h⟩ := bind_eq_ok.mp h
  obtain ⟨hrange, h⟩ := failIf_bind_eq_ok.mp h
  rw [not_or, not_lt, not_lt] at hrange
  rw [failIf_eq_ok, not_and, not_not] at h
  exact ⟨⟨r, LegacyDec.deref_eq_ok.mp hr, hrange⟩, h⟩

/-- The parameters in force are valid when only validated ones were stored. -/
def StoredValid (store : Option Params) : Prop := ∀ p ∈ store, p.Valid

theorem defaultParams_valid : defaultParams.Valid :=
  Params.validate_valid (x := ⟨⟩) (by decide)

theorem StoredValid.getParams {store : Option Params} (h : StoredValid store) :
    (getParams store).Valid := by
  cases store with
  | none => exact defaultParams_valid
  | some p => exact h p rfl

theorem setParams_valid {p : Params} {store : Option Params} (h : setParams p = .ok store) :
    StoredValid store := by
  obtain ⟨⟨⟩, hvalid, h⟩ := bind_eq_ok.mp h
  injection h with h
  subst h
  intro q hq
  injection hq with hq
  exact hq ▸ Params.validate_valid hvalid

/-! ## What a split moves -/

/-- The share of an amount: the ratio of it, rounded down; nothing while the split is off. -/
def Params.share (p : Params) (amount : Int) : Int :=
  if p.enabled then p.faucetFeeRatio.raw?.getD 0 * amount / precisionReuse else 0

variable {store : Option Params} {bank bank' : Bank} {fault : Option Fault} {coins : Coins}

/-- A split either moves nothing, or sends the coins it reports from the collector to the faucet. -/
theorem splitFees_moved (h : splitFees store bank fault = .ok (bank', coins)) :
    (bank' = bank ∧ coins = []) ∨
      ((getParams store).enabled = true ∧
        bank.send fault feeCollector (.module (getParams store).faucetAccount) coins = .ok bank') := by
  have hnone : (.ok (bank, []) : Outcome (Bank × Coins)) = .ok (bank', coins) →
      bank' = bank ∧ coins = [] := by
    intro h
    injection h with h
    injection h with hb hc
    exact ⟨hb.symm, hc.symm⟩
  rcases ite_eq_ok.mp h with ⟨-, h⟩ | ⟨henabled, h⟩
  · exact Or.inl (hnone h)
  obtain ⟨ratio, -, h⟩ := bind_eq_ok.mp h
  rcases ite_eq_ok.mp h with ⟨-, h⟩ | ⟨-, h⟩
  · exact Or.inl (hnone h)
  rcases ite_eq_ok.mp h with ⟨-, h⟩ | ⟨-, h⟩
  · exact Or.inl (hnone h)
  obtain ⟨faucetCoins, -, h⟩ := bind_eq_ok.mp h
  rcases ite_eq_ok.mp h with ⟨-, h⟩ | ⟨-, h⟩
  · exact Or.inl (hnone h)
  obtain ⟨moved, hsend, h⟩ := bind_eq_ok.mp h
  obtain ⟨rfl, rfl⟩ := ok_pair h
  exact Or.inr ⟨Bool.not_eq_false _ ▸ henabled, wrapError_eq_ok.mp hsend⟩

/-! ## The exact share -/

/-- The faucet's share of one coin, when there is one. -/
def shareCoin (ratio : Int) (c : Coin) : Option Coin :=
  if 0 < ratio * c.amount / precisionReuse then
    some ⟨c.denom, ratio * c.amount / precisionReuse⟩
  else none

theorem shareCoin_denom {ratio : Int} {c e : Coin} (h : shareCoin ratio c = some e) :
    e.denom = c.denom := by
  unfold shareCoin at h
  split at h
  · injection h with h
    rw [← h]
  · nomatch h

/-- A coin after all the others is added at the end. -/
theorem add_last {cs : Coins} {c : Coin} (h : ∀ e ∈ cs, e.denom < c.denom) :
    cs.add c = cs ++ [c] := by
  induction cs with
  | nil => rfl
  | cons x xs ih =>
    have hlt := h x List.mem_cons_self
    rw [Coins.add, if_neg hlt.not_gt, if_neg hlt.ne', ih fun e he => h e (List.mem_cons_of_mem x he)]
    rfl

/-- **The loop computes the share of each coin**, in order. -/
theorem shares_eq {ratio : Int} (hratio : 0 ≤ ratio) : ∀ {balances acc coins : Coins},
    balances.IsValid → (∀ e ∈ acc, ∀ c ∈ balances, e.denom < c.denom) →
      shares ratio balances acc = .ok coins → coins = acc ++ balances.filterMap (shareCoin ratio)
  | [], acc, coins, _, _, h => by
    injection h with h
    rw [List.filterMap_nil, List.append_nil]
    exact h.symm
  | c :: balances, acc, coins, hvalid, hacc, h => by
    obtain ⟨scaled, hscaled, h⟩ := bind_eq_ok.mp h
    obtain ⟨share, hshare, h⟩ := bind_eq_ok.mp h
    obtain ⟨-, rfl⟩ := LegacyDec.assertInValidRange_eq_ok.mp hscaled
    have hamount := (hvalid.positive c List.mem_cons_self).le
    have hfloor := LegacyDec.truncateInt_eq_ok (Int.mul_nonneg hratio hamount) hshare
    subst hfloor
    have hlater := (List.pairwise_cons.mp hvalid.sorted).1
    rw [List.filterMap_cons]
    rcases ite_eq_ok.mp h with ⟨hpos, h⟩ | ⟨hzero, h⟩
    · obtain ⟨coin, hcoin, h⟩ := bind_eq_ok.mp h
      obtain ⟨-, -, rfl⟩ := newCoin_eq_ok hcoin
      have hadd : Coins.add acc ⟨c.denom, ratio * c.amount / precisionReuse⟩ = acc ++ [_] :=
        add_last fun e he => hacc e he c List.mem_cons_self
      rw [hadd] at h
      have hrest := shares_eq hratio hvalid.tail ?_ h
      · rw [hrest, shareCoin, if_pos hpos, List.append_assoc]
        rfl
      · intro e he b hb
        rcases List.mem_append.mp he with he | he
        · exact hacc e he b (List.mem_cons_of_mem c hb)
        · rw [List.mem_singleton.mp he]
          exact hlater b hb
    · have hrest := shares_eq hratio hvalid.tail
        (fun e he b hb => hacc e he b (List.mem_cons_of_mem c hb)) h
      rw [hrest, shareCoin, if_neg hzero]

/-- The shares of valid coins are valid coins. -/
theorem shares_valid {ratio : Int} {balances : Coins} (hvalid : balances.IsValid) :
    Coins.IsValid (balances.filterMap (shareCoin ratio)) := by
  refine ⟨?_, ?_, ?_⟩
  · rw [List.pairwise_filterMap]
    refine hvalid.sorted.imp ?_
    intro c e hlt c' hc e' he
    rw [shareCoin_denom hc, shareCoin_denom he]
    exact hlt
  · intro e he
    obtain ⟨c, -, hce⟩ := List.mem_filterMap.mp he
    unfold shareCoin at hce
    split at hce
    · rename_i hpos
      injection hce with hce
      rw [← hce]
      exact hpos
    · nomatch hce
  · intro e he
    obtain ⟨c, hc, hce⟩ := List.mem_filterMap.mp he
    rw [shareCoin_denom hce]
    exact hvalid.denoms c hc

/-- The share of a denomination is the ratio of what there is of it, rounded down. -/
theorem amountOf_shares {ratio : Int} (hratio : 0 ≤ ratio) {balances : Coins}
    (hvalid : balances.IsValid) (d : String) :
    Coins.amountOf (balances.filterMap (shareCoin ratio)) d
      = ratio * balances.amountOf d / precisionReuse := by
  induction balances with
  | nil =>
    rw [List.filterMap_nil, Coins.amountOf_nil, Int.mul_zero, Int.zero_ediv]
  | cons c cs ih =>
    have hlater := (List.pairwise_cons.mp hvalid.sorted).1
    have hnonneg : 0 ≤ ratio * c.amount / precisionReuse :=
      Int.ediv_nonneg (Int.mul_nonneg hratio (hvalid.positive c List.mem_cons_self).le) (by decide)
    -- the share of `c` counts for its own denomination only
    have hhead : Coins.amountOf (List.filterMap (shareCoin ratio) (c :: cs)) d
        = (if c.denom = d then ratio * c.amount / precisionReuse else 0)
          + Coins.amountOf (cs.filterMap (shareCoin ratio)) d := by
      rw [List.filterMap_cons]
      unfold shareCoin
      split
      · rename_i hnone
        split at hnone
        · nomatch hnone
        · rename_i hzero
          have hshare : ratio * c.amount / precisionReuse = 0 := by omega
          rw [hshare]
          simp
      · rename_i e hsome
        split at hsome
        · injection hsome with hsome
          rw [← hsome, Coins.amountOf_cons]
        · nomatch hsome
    rw [hhead, ih hvalid.tail, Coins.amountOf_cons]
    by_cases hd : c.denom = d
    · have hrest : Coins.amountOf cs d = 0 :=
        Coins.amountOf_of_notMem fun e he heq => absurd (hlater e he) (by rw [heq, hd]; exact lt_irrefl d)
      rw [if_pos hd, if_pos hd, hrest, Int.mul_zero, Int.zero_ediv, Int.add_zero, Int.add_zero]
    · rw [if_neg hd, if_neg hd, Int.zero_add, Int.zero_add]

/-- **The faucet's share of a denomination** is the ratio of what the collector holds of it, rounded
    down. -/
theorem splitFees_share (hstore : StoredValid store) (hbank : bank.Backed)
    (h : splitFees store bank fault = .ok (bank', coins)) (d : String) :
    coins.amountOf d = (getParams store).share (bank.balance feeCollector d) := by
  obtain ⟨⟨r, hr, hr0, -⟩, -⟩ := hstore.getParams
  have hbalances := bank.getAllBalances_valid hbank feeCollector
  have hamount := bank.amountOf_getAllBalances hbank feeCollector d
  unfold Params.share
  rw [hr, Option.getD_some]
  rcases ite_eq_ok.mp h with ⟨hoff, h⟩ | ⟨henabled, h⟩
  · injection h with h
    injection h with _ hc
    rw [← hc, hoff]
    rfl
  rw [Bool.not_eq_false] at henabled
  rw [if_pos henabled]
  obtain ⟨ratio, hratio, h⟩ := bind_eq_ok.mp h
  have hrr : ratio = r := Option.some.inj ((LegacyDec.deref_eq_ok.mp hratio).symm.trans hr)
  subst hrr
  rcases ite_eq_ok.mp h with ⟨hzero, h⟩ | ⟨-, h⟩
  · injection h with h
    injection h with _ hc
    rw [← hc, hzero, Int.zero_mul, Int.zero_ediv]
    rfl
  rcases ite_eq_ok.mp h with ⟨hempty, h⟩ | ⟨-, h⟩
  · injection h with h
    injection h with _ hc
    rw [← hc, ← hamount, hempty, Coins.amountOf_nil, Int.mul_zero, Int.zero_ediv]
  obtain ⟨faucetCoins, hshares, h⟩ := bind_eq_ok.mp h
  have heq := shares_eq hr0 hbalances (fun _ he => absurd he List.not_mem_nil) hshares
  rw [List.nil_append] at heq
  have hfaucet : faucetCoins.amountOf d = ratio * bank.balance feeCollector d / precisionReuse := by
    rw [heq, amountOf_shares hr0 hbalances, hamount]
  rcases ite_eq_ok.mp h with ⟨hnone, h⟩ | ⟨-, h⟩
  · injection h with h
    injection h with _ hc
    rw [← hc, ← hfaucet, hnone]
  obtain ⟨moved, -, h⟩ := bind_eq_ok.mp h
  injection h with h
  injection h with _ hc
  rw [← hc, hfaucet]

/-- **The collector is never short**: once the shares are computed, only the environment can make the
    send fail. -/
theorem splitFees_sends (hstore : StoredValid store) (hbank : bank.Backed)
    (hshares : shares ((getParams store).faucetFeeRatio.raw?.getD 0)
      (bank.getAllBalances feeCollector) [] = .ok coins) (dst : Account) :
    bank.send none feeCollector dst coins = .ok (bank.move feeCollector dst coins) := by
  obtain ⟨⟨r, hr, hr0, hr1⟩, -⟩ := hstore.getParams
  rw [hr, Option.getD_some] at hshares
  have hbalances := bank.getAllBalances_valid hbank feeCollector
  have heq := shares_eq hr0 hbalances (fun _ he => absurd he List.not_mem_nil) hshares
  rw [List.nil_append] at heq
  have hvalid : coins.IsValid := heq ▸ shares_valid hbalances
  have hle : ∀ c ∈ coins, c.amount ≤ bank.balance feeCollector c.denom := by
    intro c hc
    rw [← hvalid.amountOf_of_mem hc, heq, amountOf_shares hr0 hbalances,
      bank.amountOf_getAllBalances hbank]
    have hnonneg := hbank.nonneg feeCollector c.denom
    have hmul : r * bank.balance feeCollector c.denom
        ≤ precisionReuse * bank.balance feeCollector c.denom :=
      Int.mul_le_mul_of_nonneg_right hr1 hnonneg
    have hdiv := Int.ediv_le_ediv (c := precisionReuse) (by decide) hmul
    rw [Int.mul_ediv_cancel_left _ (by decide)] at hdiv
    exact hdiv
  unfold Bank.send
  rw [Bank.check_of hvalid hle]
  rfl

end FeeSplit
end Gemba.Rewards
