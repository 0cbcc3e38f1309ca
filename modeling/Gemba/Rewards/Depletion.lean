/-
  How a fixed stream empties its account.

  The reserve of `x/rewardstreamer` and the buffer of `x/tailreward` are paid out in equal parts, the
  last of them whatever is left.  So with no inflow, `n` blocks have paid the smaller of `n` parts and
  what there was, and never more than a year's amount in a year's blocks (`stream_depletes`).

  A run (`Drawn.step`) is blocks and what happens between them, which may move any other coins.
-/
import Gemba.Lib.Runs
import Gemba.Rewards.RewardStreamer

namespace Gemba.Rewards

open Gemba.Lib Gemba.Sdk

/-- What a module streams in a block: `StreamRewards`, `StreamTailReward`. -/
abbrev Streamer := Nat → Bank → Option Fault → Outcome (Bank × Int)

/-- The bank, and what has been streamed so far. -/
structure Drawn where
  bank : Bank
  streamed : Int

/-- A begin-blocker at a height above 1, or what else happens to the bank. -/
inductive Draw where
  | block (height : Nat) (later : 1 < height) (fault : Option Fault)
  | elsewhere (bank : Bank)

/-- A block streams; nothing else changes the account's coins. -/
def Drawn.step (streamer : Streamer) (account : Account) (denom : String) (s : Drawn) :
    Draw → Outcome Drawn
  | .block height _ fault => do
    let (bank, amount) ← streamer height s.bank fault
    .ok ⟨bank, s.streamed + amount⟩
  | .elsewhere bank => do
    failIf (bank.balance account denom ≠ s.bank.balance account denom) (.error "inflow")
    .ok ⟨bank, s.streamed⟩

/-- How many of the steps are blocks. -/
def blocksIn : List Draw → Nat
  | [] => 0
  | .block _ _ _ :: draws => blocksIn draws + 1
  | .elsewhere _ :: draws => blocksIn draws

theorem blocksIn_snoc (draws : List Draw) (d : Draw) :
    blocksIn (draws ++ [d]) = blocksIn draws + blocksIn [d] := by
  induction draws with
  | nil => rw [List.nil_append, blocksIn, Nat.zero_add]
  | cons e draws ih =>
    cases e with
    | block height later fault =>
      rw [List.cons_append, blocksIn, blocksIn, ih, Nat.add_right_comm]
    | elsewhere bank =>
      rw [List.cons_append, blocksIn, blocksIn, ih]

/-- **How the account is emptied** by a streamer with these parameters. -/
structure Depletes (streamer : Streamer) (account : Account) (p : Stream.Params) : Prop where
  /-- After `n` blocks, the smaller of `n` parts and what there was has been streamed. -/
  closed_form : ∀ (s t : Drawn) (draws : List Draw), 0 ≤ s.bank.balance account p.rewardDenom →
    Run (Drawn.step streamer account p.rewardDenom) (fun _ _ => True) s draws t →
    t.streamed - s.streamed
        = min (blocksIn draws * p.perBlockReward) (s.bank.balance account p.rewardDenom) ∧
      t.bank.balance account p.rewardDenom
        = s.bank.balance account p.rewardDenom - (t.streamed - s.streamed) ∧
      0 ≤ t.bank.balance account p.rewardDenom
  never_increases : ∀ (s t : Drawn) (d : Draw), 0 ≤ s.bank.balance account p.rewardDenom →
    Drawn.step streamer account p.rewardDenom s d = .ok t →
    t.bank.balance account p.rewardDenom ≤ s.bank.balance account p.rewardDenom
  /-- An empty account streams nothing, without an error. -/
  stays_empty : ∀ (height : Nat) (bank : Bank) (fault : Option Fault),
    bank.balance account p.rewardDenom = 0 → streamer height bank fault = .ok (bank, 0)
  /-- No more than a year's amount in a year's blocks. -/
  yearly : ∀ (s t : Drawn) (draws : List Draw), 0 ≤ s.bank.balance account p.rewardDenom →
    Run (Drawn.step streamer account p.rewardDenom) (fun _ _ => True) s draws t →
    blocksIn draws ≤ p.blocksPerYear.toNat → t.streamed - s.streamed ≤ p.annualReward.val
  /-- A block goes through unless the bank refuses the send. -/
  goes_through : ∀ (height : Nat) (bank : Bank), succeeds (streamer height bank none)

namespace Stream

section
variable {moduleName context : String} {p : Params} {s t : Drawn} {draws : List Draw} {d : Draw}
  {height : Nat} {bank bank' : Bank} {fault : Option Fault} {amount : Int}

/-- The values validated parameters hold. -/
structure Params.Values (p : Params) : Prop where
  denom : validateDenom p.rewardDenom = true
  annual_nonneg : 0 ≤ p.annualReward.val
  blocks : p.blocksPerYear ≠ 0

theorem Params.validate_values {x : PUnit} (h : p.validate = .ok x) : p.Values := by
  obtain ⟨⟨⟩, hdenom, h⟩ := bind_eq_ok.mp h
  obtain ⟨bad, hbad, h⟩ := bind_eq_ok.mp h
  obtain ⟨⟨⟩, hannual, h⟩ := bind_eq_ok.mp h
  rw [failIf_eq_ok] at hdenom hannual h
  rw [Bool.not_eq_false] at hdenom
  refine ⟨hdenom, ?_, h⟩
  cases hreward : p.annualReward with
  | nil => exact le_rfl
  | int a ha =>
    rw [hreward, MathInt.isNil_int, MathInt.isNegative_int, orElse_false] at hbad
    injection hbad with hbad
    subst hbad
    rw [decide_eq_true_eq] at hannual
    exact not_lt.mp hannual

/-- A block's part: the year's amount, divided by its blocks and rounded down. -/
theorem Params.Values.perBlockReward (hp : p.Values) :
    p.perBlockReward = p.annualReward.val / p.blocksPerYear.toNat := by
  unfold Params.perBlockReward
  rw [if_neg hp.blocks]
  have hannual := hp.annual_nonneg
  cases hreward : p.annualReward with
  | nil => rw [MathInt.val_nil, Int.zero_ediv]
  | int a ha =>
    rw [hreward, MathInt.val_int] at hannual
    dsimp only
    rw [MathInt.val_int, Int.tdiv_eq_ediv_of_nonneg hannual]
    split
    · rename_i hle
      have hzero : a = 0 := le_antisymm hle hannual
      rw [hzero, Int.zero_ediv]
    · rfl

theorem Params.Values.perBlockReward_nonneg (hp : p.Values) : 0 ≤ p.perBlockReward := by
  rw [hp.perBlockReward]
  exact Int.ediv_nonneg hp.annual_nonneg (Int.natCast_nonneg _)

/-- The parts of a year are at most the year's amount. -/
theorem Params.Values.year_le (hp : p.Values) :
    p.blocksPerYear.toNat * p.perBlockReward ≤ p.annualReward.val := by
  have hne : (p.blocksPerYear.toNat : Int) ≠ 0 := by
    intro h
    exact hp.blocks (UInt64.toNat_inj.mp (Int.natCast_eq_zero.mp h))
  rw [hp.perBlockReward, Int.mul_comm]
  exact Int.ediv_mul_le _ hne

/-- **What a block streams** at a height above 1: a part, or what is left. -/
theorem stream_amount (hp : p.Values) (henabled : p.enabled = true) (hheight : 1 < height)
    (hmodule : Account.module moduleName ≠ feeCollector)
    (hreserve : 0 ≤ bank.balance (.module moduleName) p.rewardDenom)
    (h : stream moduleName context p height bank fault = .ok (bank', amount)) :
    amount = min p.perBlockReward (bank.balance (.module moduleName) p.rewardDenom) ∧
      bank'.balance (.module moduleName) p.rewardDenom
        = bank.balance (.module moduleName) p.rewardDenom - amount := by
  have hpart := hp.perBlockReward_nonneg
  by_cases hoff : Off moduleName p height bank
  · rw [stream_off hoff] at h
    obtain ⟨rfl, rfl⟩ := ok_pair h
    -- off: only a part of 0 or an empty account is left, and both stream 0
    rcases hoff with hoff | hoff | hoff | hoff
    · rw [henabled] at hoff
      nomatch hoff
    · omega
    · omega
    · omega
  · obtain ⟨hamount, hsend⟩ := stream_on hoff h
    obtain ⟨-, -, -, rfl⟩ := Bank.send_spec hsend
    refine ⟨hamount, ?_⟩
    show bank.balance (.module moduleName) p.rewardDenom
      - (if Account.module moduleName = .module moduleName then _ else 0)
      + (if Account.module moduleName = feeCollector then _ else 0) = _
    -- the collector is another account, so what leaves does not come back
    rw [if_pos rfl, if_neg hmodule, Coins.amountOf_cons, if_pos rfl, Coins.amountOf_nil, Int.add_zero,
      Int.add_zero]

/-- One step: a block streams a part or what is left, anything else streams nothing. -/
theorem step_draws (hp : p.Values) (henabled : p.enabled = true)
    (hmodule : Account.module moduleName ≠ feeCollector)
    (hreserve : 0 ≤ s.bank.balance (.module moduleName) p.rewardDenom)
    (h : Drawn.step (stream moduleName context p) (.module moduleName) p.rewardDenom s d = .ok t) :
    t.streamed - s.streamed
        = min (blocksIn [d] * p.perBlockReward) (s.bank.balance (.module moduleName) p.rewardDenom) ∧
      t.bank.balance (.module moduleName) p.rewardDenom
        = s.bank.balance (.module moduleName) p.rewardDenom - (t.streamed - s.streamed) := by
  cases d with
  | block height later fault =>
    obtain ⟨⟨bank, amount⟩, hstream, h⟩ := bind_eq_ok.mp h
    injection h with h
    subst h
    obtain ⟨hamount, hleft⟩ := stream_amount hp henabled later hmodule hreserve hstream
    have hone : ((blocksIn [.block height later fault] : Nat) : Int) * p.perBlockReward
        = p.perBlockReward := Int.one_mul _
    rw [hone]
    dsimp only
    omega
  | elsewhere bank =>
    obtain ⟨⟨⟩, hsame, h⟩ := bind_eq_ok.mp h
    injection h with h
    subst h
    rw [failIf_eq_ok, not_not] at hsame
    have hnone : ((blocksIn [.elsewhere bank] : Nat) : Int) * p.perBlockReward = 0 := Int.zero_mul _
    rw [hnone]
    dsimp only
    omega

/-- **The closed form**, by induction on the run: while the account lasts a block adds a part, then it
    adds what is left, and then nothing. -/
theorem run_draws (hp : p.Values) (henabled : p.enabled = true)
    (hmodule : Account.module moduleName ≠ feeCollector)
    (hreserve : 0 ≤ s.bank.balance (.module moduleName) p.rewardDenom)
    (h : Run (Drawn.step (stream moduleName context p) (.module moduleName) p.rewardDenom)
      (fun _ _ => True) s draws t) :
    t.streamed - s.streamed
        = min (blocksIn draws * p.perBlockReward) (s.bank.balance (.module moduleName) p.rewardDenom) ∧
      t.bank.balance (.module moduleName) p.rewardDenom
        = s.bank.balance (.module moduleName) p.rewardDenom - (t.streamed - s.streamed) := by
  have hpart := hp.perBlockReward_nonneg
  induction h with
  | nil =>
    have hnone : ((blocksIn [] : Nat) : Int) * p.perBlockReward = 0 := Int.zero_mul _
    rw [hnone]
    omega
  | @snoc draws t u d hrun _ hstep ih =>
    obtain ⟨htotal, hleft⟩ := ih
    have hparts : 0 ≤ (blocksIn draws : Int) * p.perBlockReward :=
      Int.mul_nonneg (Int.natCast_nonneg _) hpart
    have hmore : 0 ≤ (blocksIn [d] : Int) * p.perBlockReward :=
      Int.mul_nonneg (Int.natCast_nonneg _) hpart
    obtain ⟨hone, hnext⟩ := step_draws hp henabled hmodule (by omega) hstep
    have hsum : ((blocksIn (draws ++ [d]) : Nat) : Int) * p.perBlockReward
        = blocksIn draws * p.perBlockReward + blocksIn [d] * p.perBlockReward := by
      rw [blocksIn_snoc, Nat.cast_add, Int.add_mul]
    -- the minimum of a sum is what the first steps take, and then what the last takes of the rest
    rw [hsum]
    omega

/-- A block goes through unless the bank refuses the send. -/
theorem stream_succeeds (hp : p.Values) :
    succeeds (stream moduleName context p height bank none) := by
  by_cases hoff : Off moduleName p height bank
  · rw [stream_off hoff]
    exact succeeds_ok _
  · have hpos := payout_pos hoff
    have hcheck : bank.check none (.module moduleName) [⟨p.rewardDenom, payout moduleName p bank⟩]
        = .ok ⟨⟩ := by
      refine Bank.check_of (Coins.isValid_singleton hp.denom hpos) fun c hc => ?_
      rw [List.mem_singleton.mp hc]
      exact min_le_right _ _
    have hsend : bank.send none (.module moduleName) feeCollector
        [⟨p.rewardDenom, payout moduleName p bank⟩]
          = .ok (bank.move (.module moduleName) feeCollector
            [⟨p.rewardDenom, payout moduleName p bank⟩]) := by
      unfold Bank.send
      rw [hcheck]
      rfl
    rw [stream_of_send hoff hsend]
    exact succeeds_ok _

/-- **A fixed stream empties its account.** -/
theorem depletes (hp : p.Values) (henabled : p.enabled = true)
    (hmodule : Account.module moduleName ≠ feeCollector) :
    Depletes (stream moduleName context p) (.module moduleName) p := by
  have hpart := hp.perBlockReward_nonneg
  refine ⟨fun s t draws hreserve h => ?_, fun s t d hreserve h => ?_, fun height bank fault h => ?_,
    fun s t draws hreserve h hyear => ?_, fun height bank => stream_succeeds hp⟩
  · obtain ⟨htotal, hleft⟩ := run_draws hp henabled hmodule hreserve h
    exact ⟨htotal, hleft, by omega⟩
  · obtain ⟨htotal, hleft⟩ := step_draws hp henabled hmodule hreserve h
    have hmore : 0 ≤ (blocksIn [d] : Int) * p.perBlockReward :=
      Int.mul_nonneg (Int.natCast_nonneg _) hpart
    omega
  · exact stream_off (.inr (.inr (.inr h.le)))
  · obtain ⟨htotal, -⟩ := run_draws hp henabled hmodule hreserve h
    have hparts : (blocksIn draws : Int) * p.perBlockReward
        ≤ p.blocksPerYear.toNat * p.perBlockReward :=
      Int.mul_le_mul_of_nonneg_right (by omega) hpart
    have := hp.year_le
    omega

end

end Stream

/-- **Both streams empty their accounts in the same way**, and their begin-blockers leave the bank as
    the stream does; the reward stream's while the formula is off. -/
theorem stream_depletes {p : Stream.Params} (hp : p.validate = .ok ⟨⟩) (henabled : p.enabled = true) :
    Depletes (RewardStreamer.streamRewards (some p)) RewardStreamer.reserveAccount p ∧
    Depletes (TailReward.streamTailReward (some p)) (.module TailReward.moduleName) p ∧
    (∀ (D : Type) (K : RewardStreamer.Keepers D) (formula : Option RewardStreamer.FormulaParams)
      (height : Nat) (bank bank' : Bank) (distr : D)
      (bonded : Outcome (List RewardStreamer.Validator)) (fault : Option Fault) (amount : Int),
      RewardStreamer.formulaActive K formula = false →
      RewardStreamer.streamRewards (some p) height bank fault = .ok (bank', amount) →
      RewardStreamer.beginBlock K (some p) formula height bank distr bonded fault = (bank', distr)) ∧
    (∀ (height : Nat) (bank bank' : Bank) (fault : Option Fault) (amount : Int),
      TailReward.streamTailReward (some p) height bank fault = .ok (bank', amount) →
      TailReward.beginBlock (some p) height bank fault = bank') := by
  have hv := Stream.Params.validate_values hp
  refine ⟨Stream.depletes hv henabled (by decide), Stream.depletes hv henabled (by decide), ?_, ?_⟩
  · intro D K formula height bank bank' distr bonded fault amount hoff h
    unfold RewardStreamer.beginBlock
    rw [hoff, if_neg Bool.false_ne_true, h]
  · intro height bank bank' fault amount h
    unfold TailReward.beginBlock
    rw [h]

/-- 2,000,000 GMB a year. -/
theorem stream_depletes_default :
    Depletes (RewardStreamer.streamRewards (some RewardStreamer.defaultParams))
      RewardStreamer.reserveAccount RewardStreamer.defaultParams :=
  (stream_depletes (by decide) rfl).1

end Gemba.Rewards
