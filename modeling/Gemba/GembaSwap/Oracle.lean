/-
  The price accumulators of `GembaSwapPair` are the price summed over time.

  The accumulators move only when the reserves do, by the price the reserves had until then; the time
  is counted in 32 bits and the sums in 256, both wrapping.  What a reader of the chain works with is
  the accumulator brought up to the present, and here it is compared with the sum that `World.later`
  keeps: for each second between two blocks, the price the block before left.  So what is done to the
  reserves inside a block and undone in it, by a flash swap or a callback, does not count.

  * `Counted`      — the accumulators and the sums agree, modulo the width of a word;
  * `price_oracle` — between any two points of a run, readings differ by the price summed over the
                     seconds in between.

  The 32 bits are enough as long as the pair is called on at least once every `2 ^ 32` seconds.
-/
import Gemba.GembaSwap.Machine

namespace Gemba.GembaSwap

open Gemba.Lib Gemba.Evm

/-- The pair was updated less than `2 ^ 32` seconds ago, or has no price. -/
def Fresh (w : World) : Prop :=
  w.now - w.lastUpdate < 2 ^ 32 ∨ w.pair.reserves.reserve0 = 0 ∨ w.pair.reserves.reserve1 = 0

instance (w : World) : Decidable (Fresh w) :=
  inferInstanceAs (Decidable (w.now - w.lastUpdate < 2 ^ 32 ∨ w.pair.reserves.reserve0 = 0 ∨
    w.pair.reserves.reserve1 = 0))

namespace World

/-- The price of the first token in the second. -/
def price0 (w : World) : Nat :=
  GembaSwapPair.price w.pair.reserves.reserve0 w.pair.reserves.reserve1

/-- The price of the second token in the first. -/
def price1 (w : World) : Nat :=
  GembaSwapPair.price w.pair.reserves.reserve1 w.pair.reserves.reserve0

/-- `price0CumulativeLast` brought up to the present. -/
def reading0 (w : World) : Nat :=
  w.pair.price0CumulativeLast + w.price0 * (w.now - w.lastUpdate)

/-- `price1CumulativeLast` brought up to the present. -/
def reading1 (w : World) : Nat :=
  w.pair.price1CumulativeLast + w.price1 * (w.now - w.lastUpdate)

end World

/-- The reserves a call remembers from its beginning. -/
def Job.reserves : Job → Option Reserves
  | .burn b => some b.reserves
  | .swap s => some s.reserves
  | .skim => none

/-- The readings are the sums.  A call in progress began when the pair was fresh, and remembers the
    reserves the pair still has. -/
structure Counted (o : Option Job) (_x _y : Nat) (w : World) : Prop where
  stamp : w.pair.blockTimestampLast = w.lastUpdate % 2 ^ 32
  past : w.lastUpdate ≤ w.now
  sum0 : w.reading0 ≡ w.integral0 [MOD 2 ^ 256]
  sum1 : w.reading1 ≡ w.integral1 [MOD 2 ^ 256]
  fresh : o ≠ none → Fresh w
  remembers : ∀ j r, o = some j → j.reserves = some r → r = w.pair.reserves

/-- What the price depends on is the same. -/
structure Unmoved (p p' : GembaSwapPair) : Prop where
  reserves : p'.reserves = p.reserves
  stamp : p'.blockTimestampLast = p.blockTimestampLast
  price0 : p'.price0CumulativeLast = p.price0CumulativeLast
  price1 : p'.price1CumulativeLast = p.price1CumulativeLast

section
variable {o : Option Job} {x y x' y' : Nat} {w w' : World} {p p' : GembaSwapPair} {r : Reserves}
  {feeOn : Bool}

/-- The seconds `_update` counts are those that passed, less what 32 bits cannot hold. -/
theorem elapsed_eq (hstamp : p.blockTimestampLast = w.lastUpdate % 2 ^ 32)
    (hpast : w.lastUpdate ≤ w.now) : p.elapsed w.now = (w.now - w.lastUpdate) % 2 ^ 32 := by
  unfold GembaSwapPair.elapsed
  rw [hstamp]
  omega

/-- While the pair is fresh the price for the seconds counted is the price for those that passed. -/
theorem price_elapsed (hstamp : p.blockTimestampLast = w.lastUpdate % 2 ^ 32)
    (hpast : w.lastUpdate ≤ w.now) (hfresh : Fresh w) :
    w.price0 * p.elapsed w.now = w.price0 * (w.now - w.lastUpdate) ∧
      w.price1 * p.elapsed w.now = w.price1 * (w.now - w.lastUpdate) := by
  rcases hfresh with hsoon | hempty
  · rw [elapsed_eq hstamp hpast, Nat.mod_eq_of_lt hsoon]
    exact ⟨rfl, rfl⟩
  · have hnone0 : w.price0 = 0 := if_pos hempty
    have hnone1 : w.price1 = 0 := if_pos hempty.symm
    rw [hnone0, hnone1, Nat.zero_mul, Nat.zero_mul]
    exact ⟨rfl, rfl⟩

/-- **The reserves are set**: what had come together under the old price is in the accumulators. -/
theorem Counted.updated (h : Counted o x y w) (hfresh : Fresh w)
    (hsettled : GembaSwapPair.Settled p w.held0 w.held1 w.pair.reserves feeOn w.now p')
    (hp : Unmoved w.pair p) :
    Counted none 0 0 (w.updated p') := by
  obtain ⟨helapsed0, helapsed1⟩ := price_elapsed (hp.stamp.trans h.stamp) h.past hfresh
  have hsum0 := hsettled.price0
  have hsum1 := hsettled.price1
  rw [hp.price0] at hsum0
  rw [hp.price1] at hsum1
  refine ⟨hsettled.stamp, Nat.le_refl _, ?_, ?_, fun hne => absurd rfl hne,
    fun j r hj => absurd hj.symm (Option.some_ne_none _)⟩
  · show p'.price0CumulativeLast + (w.updated p').price0 * (w.now - w.now) ≡ w.integral0 [MOD 2 ^ 256]
    rw [Nat.sub_self, Nat.mul_zero, Nat.add_zero]
    refine hsum0.trans ?_
    have hsame : w.pair.price0CumulativeLast + w.price0 * p.elapsed w.now = w.reading0 := by
      rw [helapsed0]
      rfl
    exact hsame ▸ h.sum0
  · show p'.price1CumulativeLast + (w.updated p').price1 * (w.now - w.now) ≡ w.integral1 [MOD 2 ^ 256]
    rw [Nat.sub_self, Nat.mul_zero, Nat.add_zero]
    refine hsum1.trans ?_
    have hsame : w.pair.price1CumulativeLast + w.price1 * p.elapsed w.now = w.reading1 := by
      rw [helapsed1]
      rfl
    exact hsame ▸ h.sum1

/-- The pair did something else, or somebody else did. -/
theorem Counted.same {o' : Option Job} (h : Counted o x y w) (hp : Unmoved w.pair w'.pair)
    (hw : w'.now = w.now ∧ w'.lastUpdate = w.lastUpdate ∧ w'.integral0 = w.integral0 ∧
      w'.integral1 = w.integral1)
    (hfresh : o' ≠ none → Fresh w)
    (hremembers : ∀ j r, o' = some j → j.reserves = some r → r = w.pair.reserves) :
    Counted o' x' y' w' := by
  obtain ⟨hnow, hlast, hintegral0, hintegral1⟩ := hw
  refine ⟨?_, ?_, ?_, ?_, fun hne => ?_, ?_⟩
  · rw [hp.stamp, hlast]
    exact h.stamp
  · rw [hlast, hnow]
    exact h.past
  · unfold World.reading0 World.price0
    rw [hp.price0, hp.reserves, hnow, hlast, hintegral0]
    exact h.sum0
  · unfold World.reading1 World.price1
    rw [hp.price1, hp.reserves, hnow, hlast, hintegral1]
    exact h.sum1
  · unfold Fresh
    rw [hnow, hlast, hp.reserves]
    exact hfresh hne
  · rw [hp.reserves]
    exact hremembers

theorem Unmoved.refl (p : GembaSwapPair) : Unmoved p p := ⟨rfl, rfl, rfl, rfl⟩

theorem Unmoved.trans {p'' : GembaSwapPair} (h : Unmoved p p') (h' : Unmoved p' p'') :
    Unmoved p p'' :=
  ⟨h'.reserves.trans h.reserves, h'.stamp.trans h.stamp, h'.price0.trans h.price0,
    h'.price1.trans h.price1⟩

/-- Shares are minted and burned without moving the price. -/
theorem Unmoved.of_lp {lp : ERC20} (h : p' = { p with lp }) : Unmoved p p' := by
  subst h
  exact ⟨rfl, rfl, rfl, rfl⟩

theorem Unmoved.of_fee {feeTo : Address} {fee : Nat}
    (h : GembaSwapPair.FeeMinted { p with unlocked := false } r feeTo fee p') : Unmoved p p' := by
  rw [h.rest]
  exact ⟨rfl, rfl, rfl, rfl⟩

end

/-! ## The steps -/

/-- A step of a run in which the pair never sleeps for `2 ^ 32` seconds. -/
abbrev Awake (w : World) (_ : Message) : Prop := Fresh w

section
variable {ecrecover : Digest → Signature → Address} {self : Address}

theorem counted_deployed (factory token0 token1 feeTo : Address) (held0 held1 now : Nat) :
    Counted none 0 0 (World.deployed factory token0 token1 feeTo held0 held1 now) := by
  refine ⟨rfl, Nat.zero_le _, ?_, ?_, fun hne => absurd rfl hne, fun j r hj => ?_⟩
  · show 0 + GembaSwapPair.price 0 0 * _ ≡ 0 [MOD 2 ^ 256]
    rw [GembaSwapPair.price, if_pos (.inl rfl), Nat.zero_mul]
  · show 0 + GembaSwapPair.price 0 0 * _ ≡ 0 [MOD 2 ^ 256]
    rw [GembaSwapPair.price, if_pos (.inl rfl), Nat.zero_mul]
  · exact absurd hj.symm (Option.some_ne_none _)

theorem counted_kept : Kept ecrecover self Awake Counted where
  lp h _ _ := h.same ⟨rfl, rfl, rfl, rfl⟩ ⟨rfl, rfl, rfl, rfl⟩ h.fresh h.remembers
  initializePair h _ := h.same ⟨rfl, rfl, rfl, rfl⟩ ⟨rfl, rfl, rfl, rfl⟩ h.fresh h.remembers
  tokens h _ := h.same ⟨rfl, rfl, rfl, rfl⟩ ⟨rfl, rfl, rfl, rfl⟩ h.fresh h.remembers
  setFeeTo h _ := h.same ⟨rfl, rfl, rfl, rfl⟩ ⟨rfl, rfl, rfl, rfl⟩ h.fresh h.remembers
  mint := by
    intro w dst p liquidity h hA hmint
    obtain ⟨-, -, -, -, fee, p₁, p₂, p₃, hfee, hgiven, -, hrest, hsettled⟩ :=
      GembaSwapPair.mint_did hmint
    have hp : Unmoved w.pair p₃ := (Unmoved.of_fee hfee).trans
      ((Unmoved.of_lp (GembaSwapPair.liquidityOf_spec hgiven).1).trans (Unmoved.of_lp hrest))
    exact h.updated hA hsettled hp
  burn := by
    intro w dst p b h hA hburn
    obtain ⟨-, -, -, hreserves, -, -, fee, p₁, hfee, -, -, -, -, hrest⟩ :=
      GembaSwapPair.burnStart_did hburn
    refine h.same ((Unmoved.of_fee hfee).trans (Unmoved.of_lp hrest)) ⟨rfl, rfl, rfl, rfl⟩
      (fun _ => hA) fun j r hj hr => ?_
    obtain rfl := Option.some.inj hj
    exact (Option.some.inj hr).symm.trans hreserves
  burnEnd := by
    intro w b p h hend
    have hsettled := GembaSwapPair.burnEnd_did hend
    rw [h.remembers _ _ rfl rfl] at hsettled
    exact h.updated (h.fresh (Option.some_ne_none _)) hsettled (Unmoved.refl _)
  swap := by
    intro w amount0Out amount1Out dst data p s h hA hswap
    obtain ⟨-, rfl, rfl, -, -⟩ := GembaSwapPair.swapStart_did hswap
    refine h.same ⟨rfl, rfl, rfl, rfl⟩ ⟨rfl, rfl, rfl, rfl⟩ (fun _ => hA) fun j r hj hr => ?_
    obtain rfl := Option.some.inj hj
    exact (Option.some.inj hr).symm
  swapEnd := by
    intro w s p h hend
    have hsettled := (GembaSwapPair.swapEnd_did hend).2
    rw [h.remembers _ _ rfl rfl] at hsettled
    exact h.updated (h.fresh (Option.some_ne_none _)) hsettled (Unmoved.refl _)
  skim := by
    intro w dst h hA hle
    refine h.same ⟨rfl, rfl, rfl, rfl⟩ ⟨rfl, rfl, rfl, rfl⟩ (fun _ => hA) fun j r hj hr => ?_
    obtain rfl := Option.some.inj hj
    exact absurd hr.symm (Option.some_ne_none _)
  skim1 h _ := h.same (Unmoved.refl _) ⟨rfl, rfl, rfl, rfl⟩ h.fresh h.remembers
  skimEnd h := h.same ⟨rfl, rfl, rfl, rfl⟩ ⟨rfl, rfl, rfl, rfl⟩ (fun hne => absurd rfl hne)
    fun j r hj => absurd hj.symm (Option.some_ne_none _)
  sync h hA hsync := h.updated hA (GembaSwapPair.sync_did hsync).2 ⟨rfl, rfl, rfl, rfl⟩
  debit0 := by
    intro o x y w dst amount h hle
    have hdebit : ∃ held0 held1, w.debit self .token0 dst amount = { w with held0, held1 } := by
      unfold World.debit
      split <;> exact ⟨_, _, rfl⟩
    obtain ⟨held0, held1, hdebit⟩ := hdebit
    rw [hdebit]
    exact h.same ⟨rfl, rfl, rfl, rfl⟩ ⟨rfl, rfl, rfl, rfl⟩ h.fresh h.remembers
  debit1 := by
    intro o x y w dst amount h hle
    have hdebit : ∃ held0 held1, w.debit self .token1 dst amount = { w with held0, held1 } := by
      unfold World.debit
      split <;> exact ⟨_, _, rfl⟩
    obtain ⟨held0, held1, hdebit⟩ := hdebit
    rw [hdebit]
    exact h.same ⟨rfl, rfl, rfl, rfl⟩ ⟨rfl, rfl, rfl, rfl⟩ h.fresh h.remembers
  later := by
    intro w seconds h
    have hpast := h.past
    have hseconds : w.now + seconds - w.lastUpdate = w.now - w.lastUpdate + seconds := by omega
    refine ⟨h.stamp, hpast.trans (Nat.le_add_right _ _), ?_, ?_, fun hne => absurd rfl hne,
      fun j r hj => absurd hj.symm (Option.some_ne_none _)⟩
    · show w.pair.price0CumulativeLast + w.price0 * (w.now + seconds - w.lastUpdate)
        ≡ w.integral0 + w.price0 * seconds [MOD 2 ^ 256]
      rw [hseconds, Nat.mul_add, ← Nat.add_assoc]
      exact h.sum0.add_right _
    · show w.pair.price1CumulativeLast + w.price1 * (w.now + seconds - w.lastUpdate)
        ≡ w.integral1 + w.price1 * seconds [MOD 2 ^ 256]
      rw [hseconds, Nat.mul_add, ← Nat.add_assoc]
      exact h.sum1.add_right _

end

/-! ## Two readings -/

section
variable {ecrecover : Digest → Signature → Address} {self factory token0 token1 feeTo : Address}
  {held0 held1 now : Nat} {es es' : List (Event Message Answer Nat)} {m₀ m : Machine World Waiting}

/-- `Counted` at any point of a run, whether a call is open or not. -/
theorem counted_run
    (h : Run (contract ecrecover self).step (fun t e => e.Among Awake (fun _ => True) t.store)
      ⟨World.deployed factory token0 token1 feeTo held0 held1 now, []⟩ es m) :
    m.store.reading0 ≡ m.store.integral0 [MOD 2 ^ 256] ∧
      m.store.reading1 ≡ m.store.integral1 [MOD 2 ^ 256] := by
  have hwithin : Within Counted (pending m.frames) m.store :=
    counted_kept.keeps.run ⟨rfl, counted_deployed _ _ _ _ _ _ _⟩ h
  rcases hks : pending m.frames with _ | ⟨k, _ | ⟨k', ks⟩⟩
  · rw [hks] at hwithin
    exact ⟨hwithin.2.sum0, hwithin.2.sum1⟩
  · rw [hks] at hwithin
    exact ⟨hwithin.2.sum0, hwithin.2.sum1⟩
  · rw [hks] at hwithin
    exact hwithin.elim

/-- **Two readings of an accumulator differ by the price summed over the seconds between them**,
    modulo the width of a word: from any point of a run to any later one, over tokens that may do
    anything, with flash swaps and callbacks, and inside of a call too.  Every message of the run finds
    the pair `Awake`; after a longer sleep the 32 bits have lost a whole round. -/
theorem price_oracle
    (h : Run (contract ecrecover self).step (fun t e => e.Among Awake (fun _ => True) t.store)
      ⟨World.deployed factory token0 token1 feeTo held0 held1 now, []⟩ es m₀)
    (h' : Run (contract ecrecover self).step (fun t e => e.Among Awake (fun _ => True) t.store)
      m₀ es' m) :
    m.store.reading0 + m₀.store.integral0 ≡ m₀.store.reading0 + m.store.integral0 [MOD 2 ^ 256] ∧
      m.store.reading1 + m₀.store.integral1
        ≡ m₀.store.reading1 + m.store.integral1 [MOD 2 ^ 256] := by
  obtain ⟨hfrom0, hfrom1⟩ := counted_run h
  obtain ⟨hto0, hto1⟩ := counted_run (h.append h')
  constructor
  · calc m.store.reading0 + m₀.store.integral0
        ≡ m.store.integral0 + m₀.store.reading0 [MOD 2 ^ 256] := hto0.add hfrom0.symm
      _ ≡ m₀.store.reading0 + m.store.integral0 [MOD 2 ^ 256] := by rw [Nat.add_comm]
  · calc m.store.reading1 + m₀.store.integral1
        ≡ m.store.integral1 + m₀.store.reading1 [MOD 2 ^ 256] := hto1.add hfrom1.symm
      _ ≡ m₀.store.reading1 + m.store.integral1 [MOD 2 ^ 256] := by rw [Nat.add_comm]

/-- A pair that is deployed shortly before its 32-bit clock turns over. -/
def oraclePair : Machine World Waiting := ⟨World.deployed 1 2 3 0 0 0 (2 ^ 32 - 10), []⟩

def oracleContract : Contract Revert World Waiting Message Answer Nat := contract (fun _ _ => 0) 7

/-- A minute at one price, and 40 seconds at another. -/
def oracleSteps : List (Event Message Answer Nat) :=
  [.call (.tokens 2000 4000), .call (.mint 5), .between 60]

def oracleSwap : List (Event Message Answer Nat) :=
  [.call (.tokens 2200 4000), .call (.swap 0 360 6 false), .answer .debit, .answer (.returned true),
   .between 40]

def oracleOpen : Machine World Waiting := runTo oracleContract.step oraclePair oracleSteps

def oracleEnd : Machine World Waiting := runTo oracleContract.step oracleOpen oracleSwap

theorem price_oracle_sample :
    oracleEnd.store.integral0 = 2 * 2 ^ 112 * 60 + 3640 * 2 ^ 112 / 2200 * 40 ∧
      oracleEnd.store.reading0 + oracleOpen.store.integral0
        ≡ oracleOpen.store.reading0 + oracleEnd.store.integral0 [MOD 2 ^ 256] := by
  have hopen : Run oracleContract.step (fun t e => e.Among Awake (fun _ => True) t.store)
      oraclePair oracleSteps oracleOpen := Run.of_runTo (by decide +kernel) (by decide +kernel)
  have hend : Run oracleContract.step (fun t e => e.Among Awake (fun _ => True) t.store)
      oracleOpen oracleSwap oracleEnd := Run.of_runTo (by decide +kernel) (by decide +kernel)
  exact ⟨by decide +kernel, (price_oracle hopen hend).1⟩

end
end Gemba.GembaSwap
