/-
  A fixed stream of rewards: `src/chain/x/rewardstreamer/keeper/stream.go` and
  `src/chain/x/tailreward/keeper/stream.go`.

  Both modules hold coins in their own account and move the same amount of them into the fee collector
  at the start of each block, a year's amount divided by the blocks of a year, as long as there are
  any.  They differ in the account they pay from, in what an error says and in their defaults: the
  reward stream starts enabled, the tail does not.  `stream` is the function they share, and each
  module's own is that function at its values.

  * `stream_moved` — a stream moves nothing, or exactly the amount it reports, to the collector;
  * `stream_off`   — when it moves nothing.
-/
import Gemba.Rewards.FeeSplit

namespace Gemba.Rewards

open Gemba.Lib Gemba.Sdk

namespace Stream

/-- `types.Params` of a stream. -/
structure Params where
  enabled : Bool
  rewardDenom : String
  annualReward : MathInt
  blocksPerYear : UInt64
deriving DecidableEq

/-- `p.PerBlockReward()`, rounded down. -/
def Params.perBlockReward (p : Params) : Int :=
  if p.blocksPerYear = 0 then 0
  else match p.annualReward with
    | .nil => 0
    | .int annual _ => if annual ≤ 0 then 0 else annual.tdiv p.blocksPerYear.toNat

/-- `p.Validate()`. -/
def Params.validate (p : Params) : Outcome PUnit := do
  failIf (validateDenom p.rewardDenom = false)
    (.error s!"invalid reward_denom: invalid denom: {p.rewardDenom}")
  let bad ← orElse p.annualReward.isNil p.annualReward.isNegative
  failIf (bad = true) (.error s!"annual_reward must be non-negative, got {p.annualReward}")
  failIf (p.blocksPerYear = 0) (.error "blocks_per_year must be positive")

/-- One block's stream out of `moduleName`: the bank afterwards, and the amount. -/
def stream (moduleName context : String) (params : Params) (height : Nat) (bank : Bank)
    (fault : Option Fault) : Outcome (Bank × Int) :=
  if params.enabled = false then .ok (bank, 0)
  -- at height 1 distribution does not pay out, and the reward would linger in the collector
  else if height ≤ 1 then .ok (bank, 0)
  else
    let perBlock := params.perBlockReward
    if perBlock ≤ 0 then .ok (bank, 0)
    else
      let available := bank.balance (.module moduleName) params.rewardDenom
      if available ≤ 0 then .ok (bank, 0)
      else do
        let amount := min perBlock available
        let coin ← newCoin params.rewardDenom amount
        let bank ← wrapError context (bank.send fault (.module moduleName) feeCollector [coin])
        .ok (bank, amount)

variable {moduleName context : String} {params : Params} {height : Nat} {bank bank' : Bank}
  {fault : Option Fault} {amount : Int}

/-- The stream pays nothing in this state: it is off, the block is the first, a block's part is less
    than one unit, or there is nothing left. -/
def Off (moduleName : String) (params : Params) (height : Nat) (bank : Bank) : Prop :=
  params.enabled = false ∨ height ≤ 1 ∨ params.perBlockReward ≤ 0 ∨
    bank.balance (.module moduleName) params.rewardDenom ≤ 0

instance : Decidable (Off moduleName params height bank) :=
  inferInstanceAs (Decidable (_ ∨ _))

theorem stream_off (h : Off moduleName params height bank) :
    stream moduleName context params height bank fault = .ok (bank, 0) := by
  unfold stream
  by_cases henabled : params.enabled = false
  · rw [if_pos henabled]
  rw [if_neg henabled]
  by_cases hheight : height ≤ 1
  · rw [if_pos hheight]
  rw [if_neg hheight]
  by_cases hper : params.perBlockReward ≤ 0
  · exact if_pos hper
  have havailable := ((h.resolve_left henabled).resolve_left hheight).resolve_left hper
  show (if params.perBlockReward ≤ 0 then _ else _) = _
  rw [if_neg hper]
  exact if_pos havailable

/-- The amount of a block's payout: the block's part, or what is left. -/
def payout (moduleName : String) (params : Params) (bank : Bank) : Int :=
  min params.perBlockReward (bank.balance (.module moduleName) params.rewardDenom)

/-- The stream with its early returns behind it. -/
theorem stream_on_eq (hon : ¬ Off moduleName params height bank) :
    stream moduleName context params height bank fault = (do
      let coin ← newCoin params.rewardDenom (payout moduleName params bank)
      let moved ← wrapError context (bank.send fault (.module moduleName) feeCollector [coin])
      .ok (moved, payout moduleName params bank)) := by
  unfold Off at hon
  rw [not_or, not_or, not_or] at hon
  obtain ⟨henabled, hheight, hper, havailable⟩ := hon
  unfold stream
  rw [if_neg henabled, if_neg hheight]
  dsimp only
  rw [if_neg hper, if_neg havailable]
  rfl

theorem payout_pos (hon : ¬ Off moduleName params height bank) :
    0 < payout moduleName params bank := by
  unfold Off at hon
  rw [not_or, not_or, not_or] at hon
  unfold payout
  omega

/-- **A stream that pays** sends the block's payout to the collector. -/
theorem stream_on (hon : ¬ Off moduleName params height bank)
    (h : stream moduleName context params height bank fault = .ok (bank', amount)) :
    amount = payout moduleName params bank ∧
      bank.send fault (.module moduleName) feeCollector [⟨params.rewardDenom, amount⟩]
        = .ok bank' := by
  rw [stream_on_eq hon] at h
  obtain ⟨coin, hcoin, h⟩ := bind_eq_ok.mp h
  obtain ⟨-, -, hc⟩ := newCoin_eq_ok hcoin
  subst hc
  obtain ⟨moved, hsend, h⟩ := bind_eq_ok.mp h
  obtain ⟨rfl, rfl⟩ := ok_pair h
  exact ⟨rfl, wrapError_eq_ok.mp hsend⟩

/-- A stream that is on pays whenever the bank lets it. -/
theorem stream_of_send (hon : ¬ Off moduleName params height bank)
    (h : bank.send fault (.module moduleName) feeCollector
      [⟨params.rewardDenom, payout moduleName params bank⟩] = .ok bank') :
    stream moduleName context params height bank fault
      = .ok (bank', payout moduleName params bank) := by
  rw [stream_on_eq hon]
  obtain ⟨-, hvalid, -⟩ := Bank.send_spec h
  have hdenom := hvalid.denoms _ List.mem_cons_self
  rw [newCoin_of hdenom (payout_pos hon).le, ok_bind, h]
  rfl

/-- A stream moves nothing, or sends the amount it reports from its module to the collector. -/
theorem stream_moved (h : stream moduleName context params height bank fault = .ok (bank', amount)) :
    (bank' = bank ∧ amount = 0) ∨
      (1 < height ∧ 0 < amount ∧
        bank.send fault (.module moduleName) feeCollector [⟨params.rewardDenom, amount⟩]
          = .ok bank') := by
  by_cases hoff : Off moduleName params height bank
  · rw [stream_off hoff] at h
    injection h with h
    injection h with hb ha
    exact Or.inl ⟨hb.symm, ha.symm⟩
  · obtain ⟨rfl, hsend⟩ := stream_on hoff h
    refine Or.inr ⟨?_, payout_pos hoff, hsend⟩
    exact not_le.mp fun hle => hoff (Or.inr (Or.inl hle))

end Stream

/-! ## The tail reward -/

namespace TailReward

/-- `types.ModuleName`; the module's account is the recirculation buffer. -/
def moduleName : String := "tailreward"

/-- `DefaultParams()`: disabled until governance sizes it. -/
def defaultParams : Stream.Params where
  enabled := false
  rewardDenom := "agmb"
  annualReward := .zeroInt
  blocksPerYear := 15778476

/-- `k.GetParams(ctx)` on the stored value. -/
def getParams (store : Option Stream.Params) : Stream.Params := store.getD defaultParams

/-- `k.SetParams(ctx, p)`: the new stored value. -/
def setParams (p : Stream.Params) : Outcome (Option Stream.Params) := do
  p.validate
  .ok (some p)

/-- `k.StreamTailReward(ctx)`. -/
def streamTailReward (store : Option Stream.Params) (height : Nat) (bank : Bank)
    (fault : Option Fault) : Outcome (Bank × Int) :=
  Stream.stream moduleName "tailreward: stream to fee collector failed" (getParams store) height
    bank fault

/-- `k.BeginBlock(ctx)`. -/
def beginBlock (store : Option Stream.Params) (height : Nat) (bank : Bank)
    (fault : Option Fault) : Bank :=
  match streamTailReward store height bank fault with
  | .ok (bank, _) => bank
  | .error _ => bank

end TailReward
end Gemba.Rewards
