/-
  The fee collector's books.

  What the order of the begin-blockers is for can be said without a bank: a collector that fees and
  rewards flow into, a split that gives the faucet its share of what the collector holds, and a
  distribution that empties it.  `Books` is that, and `Books.Step` what can happen to it.  The books
  keep the fees apart from the rest (`feesHeld`), which the split does not: it takes its share of the
  whole collector.

  In a checked order the difference never shows.  Between the distribution of one block and the split
  of the next the collector holds fees only, because no reward is paid then; at height 1, where nothing
  is distributed, because no reward is paid at all.  `Sound` is the invariant, in four parts:

  * `Clock` — the begin-blockers still to run are a tail of the order, and no fees come before they are
    done;
  * `Clean` — where the collector holds only fees, and of which block;
  * `Recorded` — each block has one split, and its share is one of the fees of the block before;
  * `Posted` — what came in is what the faucet got, what was distributed, and what is left.
-/
import Gemba.Rewards.Chain

namespace Gemba.Rewards

open Gemba.Lib Gemba.Sdk

/-- The fee collector, seen from outside the bank. -/
structure Books where
  height : Nat
  pending : List String
  /-- What the collector holds, and what it was ever credited. -/
  collector : String → Int
  received : String → Int
  feesHeld : String → Int
  fees : Nat → String → Int
  splits : List Split
  shares : String → Int
  distributed : String → Int

namespace Books

/-- The begin-blockers that pay a reward into the collector. -/
def PaysReward (name : String) : Prop :=
  name = RewardStreamer.moduleName ∨ name = TailReward.moduleName

/-- **What happens to the collector**, the begin-blockers running in the given order. -/
inductive Step (order : List String) (b : Books) : Books → Prop where
  | newBlock (hpending : b.pending = []) :
      Step order b { b with height := b.height + 1, pending := order }
  /-- The faucet's share of what the collector holds. -/
  | split {rest : List String} (hnext : b.pending = FeeSplit.moduleName :: rest)
      (params : FeeSplit.Params) :
      Step order b { b with
        pending := rest
        collector := fun d => b.collector d - params.share (b.collector d)
        feesHeld := fun d => b.feesHeld d - params.share (b.collector d)
        splits := ⟨b.height, params, b.feesHeld, fun d => params.share (b.collector d)⟩ :: b.splits
        shares := fun d => b.shares d + params.share (b.collector d) }
  /-- A reward, which no module pays in the first block. -/
  | reward {name : String} {rest : List String} (hnext : b.pending = name :: rest)
      (hname : PaysReward name) (amount : String → Int)
      (hfirst : b.height ≤ 1 → ∀ d, amount d = 0) :
      Step order b { b with
        pending := rest
        collector := fun d => b.collector d + amount d
        received := fun d => b.received d + amount d }
  | distribute {rest : List String} (hnext : b.pending = distributionName :: rest)
      (hheight : 2 ≤ b.height) :
      Step order b { b with
        pending := rest
        collector := fun _ => 0
        feesHeld := fun _ => 0
        distributed := fun d => b.distributed d + b.collector d }
  /-- Any other begin-blocker, and the distribution in the first block. -/
  | pass {name : String} {rest : List String} (hnext : b.pending = name :: rest)
      (hsplit : name ≠ FeeSplit.moduleName) (hdistr : name = distributionName → b.height ≤ 1) :
      Step order b { b with pending := rest }
  | pay (hpending : b.pending = []) (hheight : b.height ≠ 0) (amount : String → Int) :
      Step order b { b with
        collector := fun d => b.collector d + amount d
        received := fun d => b.received d + amount d
        feesHeld := fun d => b.feesHeld d + amount d
        fees := fun h d => if h = b.height then b.fees h d + amount d else b.fees h d }
  | quiet : Step order b b

/-- The books before the first block. -/
structure Fresh (b : Books) : Prop where
  height : b.height = 0
  pending : b.pending = []
  feesHeld : b.feesHeld = b.collector
  fees : b.fees = fun _ _ => 0
  splits : b.splits = []
  shares : b.shares = fun _ => 0
  distributed : b.distributed = fun _ => 0

/-- The blocks whose split has run. -/
def splitBlocks (b : Books) : Nat :=
  if FeeSplit.moduleName ∈ b.pending then b.height - 1 else b.height

/-- Where a block is. -/
structure Clock (order : List String) (b : Books) : Prop where
  tail : ∃ before, order = before ++ b.pending
  begun : b.pending ≠ [] → b.height ≠ 0
  unpaid : ∀ h, b.height < h ∨ (h = b.height ∧ b.pending ≠ []) → ∀ d, b.fees h d = 0

/-- Where the collector holds only fees, and which. -/
structure Clean (b : Books) : Prop where
  fees : FeeSplit.moduleName ∈ b.pending ∨ distributionName ∉ b.pending ∨ b.height ≤ 1 →
    ∀ d, b.collector d = b.feesHeld d
  current : 2 ≤ b.height → distributionName ∉ b.pending → ∀ d, b.feesHeld d = b.fees b.height d
  previous : 3 ≤ b.height → FeeSplit.moduleName ∈ b.pending →
    ∀ d, b.feesHeld d = b.fees (b.height - 1) d

/-- What the splits say. -/
structure Recorded (b : Books) : Prop where
  heights : b.splits.map Split.height = (List.range' 1 b.splitBlocks).reverse
  share : ∀ s ∈ b.splits, ∀ d, s.gained d = s.params.share (s.held d)
  fees : ∀ s ∈ b.splits, 3 ≤ s.height → ∀ d, s.held d = b.fees (s.height - 1) d
  shares : ∀ d, b.shares d = (b.splits.map fun s => s.gained d).sum

/-- What came in since `b₀` is accounted for. -/
def Posted (b₀ b : Books) : Prop :=
  ∀ d, b₀.collector d + (b.received d - b₀.received d)
    = b.shares d + b.distributed d + b.collector d

/-- **The invariant of the books.** -/
structure Sound (order : List String) (b₀ b : Books) : Prop where
  clock : Clock order b
  clean : Clean b
  recorded : Recorded b
  posted : Posted b₀ b

variable {order : List String} {b₀ b b' : Books}

theorem Fresh.sound (h : Fresh b) : Sound order b b := by
  refine ⟨⟨?_, ?_, ?_⟩, ⟨?_, ?_, ?_⟩, ⟨?_, ?_, ?_, ?_⟩, ?_⟩
  · exact ⟨order, by rw [h.pending, List.append_nil]⟩
  · intro hne
    exact absurd h.pending hne
  · intro n _ d
    rw [h.fees]
  · intro _ d
    rw [h.feesHeld]
  · intro hheight
    rw [h.height] at hheight
    omega
  · intro hheight
    rw [h.height] at hheight
    omega
  · unfold splitBlocks
    rw [h.splits, h.pending, if_neg List.not_mem_nil, h.height]
    rfl
  · intro s hs
    rw [h.splits] at hs
    nomatch hs
  · intro s hs
    rw [h.splits] at hs
    nomatch hs
  · intro d
    rw [h.shares, h.splits]
    rfl
  · intro d
    rw [h.shares, h.distributed]
    show b.collector d + (b.received d - b.received d) = 0 + 0 + b.collector d
    omega

/-! ## One step -/

/-- The begin-blocker that comes next, in its place in the order. -/
theorem Clock.next {name : String} {rest : List String} (h : Clock order b)
    (hnext : b.pending = name :: rest) : ∃ before, order = before ++ name :: rest := by
  obtain ⟨before, hbefore⟩ := h.tail
  exact ⟨before, hnext ▸ hbefore⟩

theorem Step.clock (hs : Step order b b') (h : Clock order b) : Clock order b' := by
  -- a begin-blocker leaves a tail of what was left, in the same block
  have htail : ∀ {name : String} {rest : List String} {c : Books}, b.pending = name :: rest →
      c.pending = rest → c.height = b.height → c.fees = b.fees → Clock order c := by
    intro name rest c hnext hpending hheight hfees
    have hne : b.pending ≠ [] := by
      rw [hnext]
      exact List.cons_ne_nil name rest
    refine ⟨?_, ?_, ?_⟩
    · obtain ⟨before, hbefore⟩ := h.tail
      refine ⟨before ++ [name], ?_⟩
      rw [hbefore, hnext, hpending, List.append_assoc]
      rfl
    · intro _
      rw [hheight]
      exact h.begun hne
    · intro n hn d
      rw [hfees]
      rw [hheight] at hn
      exact h.unpaid n (hn.imp_right fun hn => ⟨hn.1, hne⟩) d
  cases hs with
  | newBlock hpending =>
    refine ⟨⟨[], rfl⟩, fun _ => Nat.succ_ne_zero _, ?_⟩
    intro n hn d
    exact h.unpaid n (Or.inl (by simp only at hn; omega)) d
  | split hnext params => exact htail hnext rfl rfl rfl
  | reward hnext _ _ _ => exact htail hnext rfl rfl rfl
  | distribute hnext _ => exact htail hnext rfl rfl rfl
  | pass hnext _ _ => exact htail hnext rfl rfl rfl
  | pay hpending hheight amount =>
    refine ⟨h.tail, fun hne => absurd hpending hne, ?_⟩
    intro n hn d
    rcases hn with hn | ⟨-, hne⟩
    · show (if n = b.height then _ else _) = (0 : Int)
      rw [if_neg (by simp only at hn; omega)]
      exact h.unpaid n (Or.inl hn) d
    · exact absurd hpending hne
  | quiet => exact h

theorem Step.clean (horder : Wiring.Ordered order) (hs : Step order b b') (hclock : Clock order b)
    (h : Clean b) : Clean b' := by
  cases hs with
  | newBlock hpending =>
    have hdistr : distributionName ∉ b.pending := by
      rw [hpending]
      exact List.not_mem_nil
    have hmem : distributionName ∈ order := by
      obtain ⟨f, s, t, k, -, -, -, -, -, -, hk⟩ := horder
      exact List.mem_of_getElem? ((hk k).mpr rfl)
    refine ⟨fun _ => h.fees (Or.inr (Or.inl hdistr)), fun _ hnot => absurd hmem hnot, ?_⟩
    intro hheight _ d
    exact h.current (by simp only at hheight; omega) hdistr d
  | split hnext params =>
    obtain ⟨before, hbefore⟩ := hclock.next hnext
    obtain ⟨hnosplit, hdistr⟩ := (horder.split hbefore).1 rfl
    have hclean := h.fees (Or.inl (by rw [hnext]; exact List.mem_cons_self))
    refine ⟨?_, fun _ hnot => absurd hdistr hnot, fun _ hmem => absurd hmem hnosplit⟩
    intro _ d
    show b.collector d - _ = b.feesHeld d - _
    rw [hclean d]
  | reward hnext hname amount hfirst =>
    obtain ⟨before, hbefore⟩ := hclock.next hnext
    obtain ⟨hnosplit, hdistr⟩ := (horder.split hbefore).2.1 hname
    refine ⟨?_, fun _ hnot => absurd hdistr hnot, fun _ hmem => absurd hmem hnosplit⟩
    -- only the first block is left, and it pays no reward
    rintro (hmem | hnot | hheight) d
    · exact absurd hmem hnosplit
    · exact absurd hdistr hnot
    · show b.collector d + amount d = b.feesHeld d
      rw [hfirst hheight d, Int.add_zero]
      exact h.fees (Or.inr (Or.inr hheight)) d
  | distribute hnext hheight =>
    obtain ⟨before, hbefore⟩ := hclock.next hnext
    obtain ⟨hnosplit, -⟩ := (horder.split hbefore).2.2.1 rfl
    refine ⟨fun _ _ => rfl, ?_, fun _ hmem => absurd hmem hnosplit⟩
    intro _ _ d
    exact (hclock.unpaid b.height (Or.inr ⟨rfl, by rw [hnext]; exact List.cons_ne_nil _ _⟩) d).symm
  | @pass name rest hnext hsplit hdistr =>
    have hmem : ∀ x ∈ rest, x ∈ b.pending := by
      intro x hx
      rw [hnext]
      exact List.mem_cons_of_mem name hx
    -- what is not left over was not there, except the distribution in the first block
    have hnot : distributionName ∉ rest → distributionName ∉ b.pending ∨ b.height ≤ 1 := by
      intro hrest
      by_cases hname : name = distributionName
      · exact Or.inr (hdistr hname)
      · rw [hnext, List.mem_cons, not_or]
        exact Or.inl ⟨fun he => hname he.symm, hrest⟩
    refine ⟨?_, ?_, fun hheight hx => h.previous hheight (hmem _ hx)⟩
    · rintro (hx | hx | hheight)
      · exact h.fees (Or.inl (hmem _ hx))
      · exact h.fees (Or.inr (hnot hx))
      · exact h.fees (Or.inr (Or.inr hheight))
    · intro hheight hx
      rcases hnot hx with hx | hfirst
      · exact h.current hheight hx
      · have : b.height ≤ 1 := hfirst
        simp only at hheight
        omega
  | pay hpending hheight amount =>
    have hdistr : distributionName ∉ b.pending := by
      rw [hpending]
      exact List.not_mem_nil
    refine ⟨?_, ?_, ?_⟩
    · intro _ d
      show b.collector d + amount d = b.feesHeld d + amount d
      rw [h.fees (Or.inr (Or.inl hdistr)) d]
    · intro hheight _ d
      show b.feesHeld d + amount d = if b.height = b.height then _ else _
      rw [if_pos rfl, h.current hheight hdistr d]
    · intro _ hmem
      rw [hpending] at hmem
      nomatch hmem
  | quiet => exact h

/-- A step that does not split leaves the record alone, as long as the fees of past blocks stay. -/
theorem Recorded.of_eq (h : Recorded b) (hsplits : b'.splits = b.splits)
    (hblocks : b'.splitBlocks = b.splitBlocks) (hshares : b'.shares = b.shares)
    (hfees : ∀ n < b.height, ∀ d, b'.fees n d = b.fees n d) (hle : b.splitBlocks ≤ b.height) :
    Recorded b' := by
  refine ⟨?_, ?_, ?_, ?_⟩
  · rw [hsplits, hblocks]
    exact h.heights
  · rw [hsplits]
    exact h.share
  · intro s hs hheight d
    rw [hsplits] at hs
    have hmem : s.height ∈ (List.range' 1 b.splitBlocks).reverse := by
      rw [← h.heights]
      exact List.mem_map_of_mem hs
    rw [List.mem_reverse, List.mem_range'_1] at hmem
    rw [hfees _ (by omega) d]
    exact h.fees s hs hheight d
  · intro d
    rw [hshares, hsplits]
    exact h.shares d

theorem splitBlocks_le (b : Books) : b.splitBlocks ≤ b.height := by
  unfold splitBlocks
  split
  · omega
  · omega

theorem Step.recorded (horder : Wiring.Ordered order) (hs : Step order b b')
    (hclock : Clock order b) (hclean : Clean b) (h : Recorded b) : Recorded b' := by
  have hle := b.splitBlocks_le
  -- what is not the split leaves it where it was
  have hrest : ∀ {name : String} {rest : List String}, b.pending = name :: rest →
      name ≠ FeeSplit.moduleName →
        (FeeSplit.moduleName ∈ rest ↔ FeeSplit.moduleName ∈ b.pending) := by
    intro name rest hnext hname
    rw [hnext, List.mem_cons]
    constructor
    · exact Or.inr
    · rintro (he | hmem)
      · exact absurd he.symm hname
      · exact hmem
  have hpass : ∀ {name : String} {rest : List String} {c : Books}, b.pending = name :: rest →
      name ≠ FeeSplit.moduleName → c.pending = rest → c.height = b.height → c.splits = b.splits →
        c.shares = b.shares → c.fees = b.fees → Recorded c := by
    intro name rest c hnext hname hpending hheight hsplits hshares hfees
    refine h.of_eq hsplits ?_ hshares (fun n _ d => by rw [hfees]) hle
    unfold splitBlocks
    rw [hpending, hheight]
    by_cases hmem : FeeSplit.moduleName ∈ rest
    · rw [if_pos hmem, if_pos ((hrest hnext hname).mp hmem)]
    · rw [if_neg hmem, if_neg fun hin => hmem ((hrest hnext hname).mpr hin)]
  cases hs with
  | newBlock hpending =>
    have hmem : FeeSplit.moduleName ∈ order := by
      obtain ⟨f, s, t, k, -, -, -, hf, -⟩ := horder
      exact List.mem_of_getElem? ((hf f).mpr rfl)
    refine h.of_eq rfl ?_ rfl (fun _ _ _ => rfl) hle
    unfold splitBlocks
    rw [hpending, if_neg List.not_mem_nil]
    exact if_pos hmem
  | @split rest hnext params =>
    have hmem : FeeSplit.moduleName ∈ b.pending := by
      rw [hnext]
      exact List.mem_cons_self
    have hheight : b.height ≠ 0 := hclock.begun (by rw [hnext]; exact List.cons_ne_nil _ _)
    have hnosplit : FeeSplit.moduleName ∉ rest := by
      obtain ⟨before, hbefore⟩ := hclock.next hnext
      exact ((horder.split hbefore).1 rfl).1
    obtain ⟨n, hn⟩ : ∃ n, b.height = n + 1 := ⟨b.height - 1, by omega⟩
    have hbefore : b.splitBlocks = n := by
      unfold splitBlocks
      rw [if_pos hmem, hn, Nat.add_sub_cancel]
    refine ⟨?_, ?_, ?_, ?_⟩
    · show b.height :: b.splits.map Split.height
        = (List.range' 1 (if FeeSplit.moduleName ∈ rest then b.height - 1 else b.height)).reverse
      rw [if_neg hnosplit, h.heights, hbefore, hn, List.range'_concat, List.reverse_append,
        Nat.one_mul, Nat.add_comm 1 n]
      rfl
    · intro s hs
      rcases List.mem_cons.mp hs with rfl | hs
      · intro d
        show params.share (b.collector d) = params.share (b.feesHeld d)
        rw [hclean.fees (Or.inl hmem) d]
      · exact h.share s hs
    · intro s hs hthree d
      rcases List.mem_cons.mp hs with rfl | hs
      · exact hclean.previous hthree hmem d
      · exact h.fees s hs hthree d
    · intro d
      show b.shares d + params.share (b.collector d)
        = (params.share (b.collector d) :: b.splits.map fun s => s.gained d).sum
      rw [h.shares d, List.sum_cons, Int.add_comm]
  | reward hnext hname _ _ =>
    refine hpass hnext ?_ rfl rfl rfl rfl rfl
    rcases hname with rfl | rfl
    · decide
    · decide
  | distribute hnext _ => exact hpass hnext (by decide) rfl rfl rfl rfl rfl
  | pass hnext hsplit _ => exact hpass hnext hsplit rfl rfl rfl rfl rfl
  | pay hpending hheight amount =>
    refine h.of_eq rfl rfl rfl ?_ hle
    intro n hn d
    show (if n = b.height then _ else _) = _
    rw [if_neg (by omega)]
  | quiet => exact h

theorem Step.posted (hs : Step order b b') (h : Posted b₀ b) : Posted b₀ b' := by
  intro d
  have hd := h d
  cases hs with
  | newBlock _ => exact hd
  | split _ params =>
    dsimp only
    omega
  | reward _ _ amount _ =>
    dsimp only
    omega
  | distribute _ _ =>
    dsimp only
    omega
  | pass _ _ _ => exact hd
  | pay _ _ amount =>
    dsimp only
    omega
  | quiet => exact hd

/-- **The invariant is kept**, when the order is a checked one. -/
theorem Step.sound (horder : Wiring.Ordered order) (hs : Step order b b') (h : Sound order b₀ b) :
    Sound order b₀ b' :=
  ⟨hs.clock h.clock, hs.clean horder h.clock h.clean,
    hs.recorded horder h.clock h.clean h.recorded, hs.posted h.posted⟩

end Books
end Gemba.Rewards
