/-
  What a share of a `GembaSwapPair` is worth, through callbacks, flash swaps and the protocol fee.

  The pair is run over tokens that take from it only what it sends (`Honest`); they may add to it at
  any moment, and call anybody.  Every operation then keeps two things.

  1. `LpSound`  — the shares sum to the supply, and the zero address keeps `MINIMUM_LIQUIDITY` of them
                  while there are any; there are for good from the first deposit on (`Remaining`);
  2. `Covered`  — outside of a call the pair has what its reserves say;
  3. `Holding`  — of a product and a supply: a share is worth at least one unit of the root, and no
                  less than at the start;
  4. `Worthy`   — `Holding` of the mark `base`: the product of the last deposit or withdrawal while a
                  fee is due on what it grew since, else the product itself.  During `burn` the shares
                  are gone before the tokens are, so there it speaks of what will be left;
  5. `pair_safe`, `pair_share_value` — the results, in every run from deployment.

  With the fee on, the product for a share does fall when the fee is minted.  It never falls below the
  mark, with both roots rounded down and whenever the fee is switched.
-/
import Gemba.Lib.ConstantProduct
import Gemba.GembaSwap.Machine

namespace Gemba.GembaSwap

open Gemba.Lib Gemba.Evm

/-! ## The LP token -/

/-- The shares sum to the supply, and some are locked unless there are none. -/
structure LpSound (lp : ERC20) : Prop where
  backed : lp.Backed
  locked : lp.Locked (if lp.totalSupply = 0 then 0 else MINIMUM_LIQUIDITY)

section
variable {lp lp' : ERC20} {p p' : GembaSwapPair} {r : Reserves} {dst feeTo self : Address}
  {value amount0 amount1 liquidity fee : Nat}

theorem lpSound_empty : LpSound ERC20.empty := ⟨ERC20.backed_empty, ERC20.locked_empty⟩

/-- What is locked is part of the supply, which is not zero then. -/
theorem LpSound.of_locked (hb : lp.Backed) (hl : lp.Locked MINIMUM_LIQUIDITY) :
    LpSound lp ∧ lp.totalSupply ≠ 0 := by
  have hsupply : lp.totalSupply ≠ 0 := by
    have hheld : MINIMUM_LIQUIDITY ≤ lp.totalSupply := hl.held.trans (hb.le 0)
    have hmin : 0 < MINIMUM_LIQUIDITY := by decide
    omega
  refine ⟨⟨hb, ?_⟩, hsupply⟩
  rw [if_neg hsupply]
  exact hl

theorem LpSound.some (h : LpSound lp) (hsupply : lp.totalSupply ≠ 0) :
    lp.Locked MINIMUM_LIQUIDITY := by
  have hlocked := h.locked
  rw [if_neg hsupply] at hlocked
  exact hlocked

theorem LpSound.call {ecrecover : Digest → Signature → Address} {sender : Address} {now : Nat}
    {fn : ERC20.Fn} (h : LpSound lp) (hsender : sender ≠ 0)
    (hcall : lp.call ecrecover sender now fn = .ok lp') : LpSound lp' := by
  refine ⟨h.backed.call hcall, ?_⟩
  rw [ERC20.call_totalSupply hcall]
  exact h.locked.call hsender hcall

theorem LpSound.mint (h : LpSound lp) (hsupply : lp.totalSupply ≠ 0)
    (hmint : lp.mint dst value = .ok lp') : LpSound lp' ∧ lp'.totalSupply ≠ 0 :=
  LpSound.of_locked (h.backed.mint hmint) ((h.some hsupply).mint hmint)

/-- There is no fee on an empty pair. -/
theorem GembaSwapPair.FeeMinted.supply (h : GembaSwapPair.FeeMinted p r feeTo fee p') (hpos : 0 < fee) :
    0 < p.lp.totalSupply := by
  obtain ⟨-, -, hroot, hle⟩ := h.grown hpos
  refine Nat.pos_of_ne_zero fun hzero => ?_
  rw [hzero, Nat.zero_mul] at hle
  have hden : 0 < fee * (5 * sqrt r.k + sqrt p.kLast) := Nat.mul_pos hpos (by omega)
  omega

theorem GembaSwapPair.FeeMinted.sound (hfee : GembaSwapPair.FeeMinted p r feeTo fee p')
    (h : LpSound p.lp) : LpSound p'.lp := by
  rcases hfee.lp with ⟨-, hlp⟩ | ⟨hpos, hlp⟩
  · rw [hlp]
    exact h
  · exact (h.mint (Nat.ne_of_gt (hfee.supply hpos)) hlp).1

/-- A deposit leaves shares locked, whether it is the first or not. -/
theorem LpSound.deposit (h : LpSound p.lp)
    (hgiven : p.liquidityOf amount0 amount1 r = .ok (p', liquidity))
    (hmint : p'.lp.mint dst value = .ok lp') : LpSound lp' ∧ lp'.totalSupply ≠ 0 := by
  have hsound : LpSound p'.lp ∧ p'.lp.totalSupply ≠ 0 := by
    rcases (GembaSwapPair.liquidityOf_spec hgiven).2 with ⟨-, hfirst, -, -⟩ | ⟨hsome, hlp, -, -⟩
    · refine LpSound.of_locked (h.backed.mint hfirst) ?_
      have hlocked := h.locked.mint_zero hfirst
      exact ⟨le_trans (Nat.le_add_left _ _) hlocked.held, hlocked.unspendable⟩
    · rw [hlp]
      exact ⟨h, hsome⟩
  exact hsound.1.mint hsound.2 hmint

/-- A withdrawal of another than the zero address cannot be of everything. -/
theorem LpSound.burn (h : LpSound lp) (hsupply : lp.totalSupply ≠ 0) (hself : self ≠ 0)
    (hburn : lp.burn self value = .ok lp') : LpSound lp' ∧ lp'.totalSupply ≠ 0 :=
  LpSound.of_locked (h.backed.burn hburn) ((h.some hsupply).burn hburn hself)

end

/-! ## Honest tokens -/

/-- The tokens take from the pair only what it sends, the factory initializes it once, and nobody
    has the key of the zero address. -/
def Honest (w : World) : Message → Prop
  | .lp sender _ => sender ≠ 0
  | .initializePair sender _ _ => sender ≠ w.pair.factory
  | .tokens held0 held1 => w.held0 ≤ held0 ∧ w.held1 ≤ held1
  | _ => True

instance (w : World) : DecidablePred (Honest w)
  | .lp sender _ => inferInstanceAs (Decidable (sender ≠ 0))
  | .initializePair sender _ _ => inferInstanceAs (Decidable (sender ≠ w.pair.factory))
  | .tokens held0 held1 => inferInstanceAs (Decidable (w.held0 ≤ held0 ∧ w.held1 ≤ held1))
  | .mint _ | .burn _ | .swap .. | .skim _ | .sync | .setFeeTo _ => .isTrue trivial

/-- No call is in progress that sends against the reserves. -/
def Idle : Option Job → Prop
  | none | some .skim => True
  | some (.burn _) | some (.swap _) => False

/-- The pair has what its reserves say, and what `skim` is still to send besides. -/
def Covered (o : Option Job) (x y : Nat) (w : World) : Prop :=
  Idle o → w.pair.reserves.reserve0 + x ≤ w.held0 ∧ w.pair.reserves.reserve1 + y ≤ w.held1

section
variable {p p' : GembaSwapPair} {r : Reserves} {feeOn : Bool} {o : Option Job}
  {x y x' y' : Nat} {w w' : World}

/-- The reserves were just set to what the pair has. -/
theorem covered_settled {now : Nat}
    (h : GembaSwapPair.Settled p w.held0 w.held1 r feeOn now p') :
    Covered none 0 0 (w.updated p') :=
  fun _ => ⟨Nat.le_of_eq h.reserve0, Nat.le_of_eq h.reserve1⟩

/-- The reserves are the same, and the pair has lost no more than was still to be sent. -/
theorem Covered.move (h : Covered o x y w) (hreserves : w'.pair.reserves = w.pair.reserves)
    (h0 : w.held0 + x' ≤ w'.held0 + x) (h1 : w.held1 + y' ≤ w'.held1 + y) : Covered o x' y' w' := by
  intro hidle
  obtain ⟨hcover0, hcover1⟩ := h hidle
  rw [hreserves]
  exact ⟨by omega, by omega⟩

/-- What a debit leaves in the pair. -/
theorem debit_held0 {self dst : Address} {amount : Nat} (hle : amount ≤ w.held0) :
    (w.debit self .token0 dst amount).pair = w.pair ∧
      (w.debit self .token0 dst amount).held1 = w.held1 ∧
      w.held0 ≤ (w.debit self .token0 dst amount).held0 + amount := by
  unfold World.debit
  split
  · exact ⟨rfl, rfl, Nat.le_add_right _ _⟩
  · exact ⟨rfl, rfl, Nat.le_of_eq (Nat.sub_add_cancel hle).symm⟩

theorem debit_held1 {self dst : Address} {amount : Nat} (hle : amount ≤ w.held1) :
    (w.debit self .token1 dst amount).pair = w.pair ∧
      (w.debit self .token1 dst amount).held0 = w.held0 ∧
      w.held1 ≤ (w.debit self .token1 dst amount).held1 + amount := by
  unfold World.debit
  split
  · exact ⟨rfl, rfl, Nat.le_add_right _ _⟩
  · exact ⟨rfl, rfl, Nat.le_of_eq (Nat.sub_add_cancel hle).symm⟩

end

/-! ## What is kept, for the LP token and the reserves -/

/-- Nobody has the key of the zero address. -/
def Keyless (_ : World) : Message → Prop
  | .lp sender _ => sender ≠ 0
  | _ => True

instance (w : World) : DecidablePred (Keyless w)
  | .lp sender _ => inferInstanceAs (Decidable (sender ≠ 0))
  | .initializePair .. | .tokens .. | .mint _ | .burn _ | .swap .. | .skim _ | .sync
  | .setFeeTo _ => .isTrue trivial

section
variable {ecrecover : Digest → Signature → Address} {self : Address}

/-- The LP token is sound, and where the pair is said to have been opened there are shares. -/
def Remaining (opened : Prop) : Invariant :=
  fun _ _ _ w => LpSound w.pair.lp ∧ (opened → w.pair.lp.totalSupply ≠ 0)

theorem Remaining.same {opened : Prop} {o o' : Option Job} {x y x' y' : Nat} {w w' : World}
    (h : Remaining opened o x y w) (hlp : w'.pair.lp = w.pair.lp) : Remaining opened o' x' y' w' := by
  unfold Remaining
  rw [hlp]
  exact h

theorem Within.remaining {opened : Prop} {ks : List Waiting} {w : World}
    (h : Within (Remaining opened) ks w) :
    ks.length ≤ 1 ∧ (w.pair.unlocked = true ↔ ks = []) ∧ LpSound w.pair.lp ∧
      (opened → w.pair.lp.totalSupply ≠ 0) := by
  rcases ks with _ | ⟨k, _ | ⟨k', ks⟩⟩
  · exact ⟨Nat.zero_le _, iff_of_true h.1 rfl, h.2⟩
  · refine ⟨Nat.le_refl _, iff_of_false ?_ (List.cons_ne_nil _ _), h.2⟩
    rw [h.1]
    exact Bool.false_ne_true
  · exact h.elim

/-- **The LP token stays sound whatever the tokens do, and a pair once opened stays open.** -/
theorem lp_kept (opened : Prop) (hself : self ≠ 0) :
    Kept ecrecover self Keyless (Remaining opened) where
  lp := by
    intro o x y w sender fn lp h hA hcall
    refine ⟨h.1.call hA hcall, ?_⟩
    show opened → lp.totalSupply ≠ 0
    rw [ERC20.call_totalSupply hcall]
    exact h.2
  initializePair h _ := h
  tokens h _ := h
  setFeeTo h _ := h
  mint := by
    intro w dst p liquidity h _ hmint
    obtain ⟨-, -, -, -, fee, p₁, p₂, p₃, hfee, hgiven, hlp, -, hsettled⟩ :=
      GembaSwapPair.mint_did hmint
    obtain ⟨hsound, hsupply⟩ := (hfee.sound h.1).deposit hgiven hlp
    show LpSound p.lp ∧ (opened → p.lp.totalSupply ≠ 0)
    rw [hsettled.lp]
    exact ⟨hsound, fun _ => hsupply⟩
  burn := by
    intro w dst p b h _ hburn
    obtain ⟨-, -, -, -, -, -, fee, p₁, hfee, hsupply, -, -, hlp, -⟩ :=
      GembaSwapPair.burnStart_did hburn
    obtain ⟨hsound, hleft⟩ := (hfee.sound h.1).burn hsupply hself hlp
    exact ⟨hsound, fun _ => hleft⟩
  burnEnd h hend := h.same (GembaSwapPair.burnEnd_did hend).lp
  swap := by
    intro w amount0Out amount1Out dst data p s h _ hswap
    obtain ⟨-, rfl, -, -, -⟩ := GembaSwapPair.swapStart_did hswap
    exact h
  swapEnd h hend := h.same (GembaSwapPair.swapEnd_did hend).2.lp
  skim h _ _ := h
  skim1 h _ := h
  skimEnd h := h
  sync h _ hsync := h.same (GembaSwapPair.sync_did hsync).2.lp
  debit0 h hle := h.same (congrArg _ (debit_held0 hle).1)
  debit1 h hle := h.same (congrArg _ (debit_held1 hle).1)
  later h := h

/-- **The reserves stay covered by honest tokens.** -/
theorem covered_kept : Kept ecrecover self Honest Covered where
  lp h _ _ := h.move rfl (Nat.le_refl _) (Nat.le_refl _)
  initializePair h _ := h.move rfl (Nat.le_refl _) (Nat.le_refl _)
  tokens h hA := h.move rfl (Nat.add_le_add_right hA.1 _) (Nat.add_le_add_right hA.2 _)
  setFeeTo h _ := h.move rfl (Nat.le_refl _) (Nat.le_refl _)
  mint := by
    intro w dst p liquidity h _ hmint
    obtain ⟨-, -, -, -, fee, p₁, p₂, p₃, -, -, -, -, hsettled⟩ := GembaSwapPair.mint_did hmint
    exact covered_settled hsettled
  burn _ _ _ hidle := hidle.elim
  burnEnd _ hend := covered_settled (GembaSwapPair.burnEnd_did hend)
  swap _ _ _ hidle := hidle.elim
  swapEnd _ hend := covered_settled (GembaSwapPair.swapEnd_did hend).2
  skim h _ hle _ := ⟨Nat.le_of_eq (Nat.add_sub_cancel' hle), (h trivial).2⟩
  skim1 h hle _ := ⟨(h trivial).1, Nat.le_of_eq (Nat.add_sub_cancel' hle)⟩
  skimEnd h _ := h trivial
  sync _ _ hsync := covered_settled (GembaSwapPair.sync_did hsync).2
  debit0 := by
    intro o x y w dst amount h hle
    obtain ⟨hpair, hheld1, hheld0⟩ := debit_held0 hle
    refine h.move (by rw [hpair]) ?_ ?_
    · omega
    · rw [hheld1]
  debit1 := by
    intro o x y w dst amount h hle
    obtain ⟨hpair, hheld0, hheld1⟩ := debit_held1 hle
    refine h.move (by rw [hpair]) ?_ ?_
    · rw [hheld0]
    · omega
  later h := h

/-- The LP token is sound at any time, and the reserves are covered outside of a call. -/
def Safe : Invariant := fun o x y w => LpSound w.pair.lp ∧ Covered o x y w

theorem safe_deployed (factory token0 token1 feeTo : Address) (held0 held1 now : Nat) :
    Safe none 0 0 (World.deployed factory token0 token1 feeTo held0 held1 now) :=
  ⟨lpSound_empty, fun _ => ⟨Nat.zero_le _, Nat.zero_le _⟩⟩

theorem safe_kept (ecrecover : Digest → Signature → Address) (hself : self ≠ 0) :
    Kept ecrecover self Honest Safe := by
  have hkeyless : ∀ w x, Honest w x → Keyless w x := by
    intro w x hx
    cases x <;> first | exact hx | trivial
  have hsound : Remaining False = fun _ _ _ w => LpSound w.pair.lp := by
    funext o x y w
    simp only [Remaining, false_implies, and_true]
  have hlp : Kept ecrecover self Keyless (Remaining False) := lp_kept False hself
  rw [hsound] at hlp
  exact (hlp.weaken hkeyless).and covered_kept

end

/-! ## What a share is worth -/

/-- A share of `k` among `s` is worth at least one unit of the root, and no less than it was in `k₀`
    among `s₀`, if there were any. -/
structure Holding (k₀ s₀ k s : Nat) : Prop where
  unit : s * s ≤ k
  worth : 0 < s₀ → 0 < s ∧ k₀ * s ^ 2 ≤ k * s₀ ^ 2

section
variable {k₀ s₀ k k' s s' : Nat}

theorem Holding.refl (hunit : s * s ≤ k) : Holding k s k s := ⟨hunit, fun h => ⟨h, Nat.le_refl _⟩⟩

theorem Holding.mono (h : Holding k₀ s₀ k s) (hle : k ≤ k') : Holding k₀ s₀ k' s :=
  ⟨h.unit.trans hle, fun hpos =>
    ⟨(h.worth hpos).1, (h.worth hpos).2.trans (Nat.mul_le_mul_right _ hle)⟩⟩

/-- **Whatever does not dilute keeps both.** -/
theorem Holding.step (h : Holding k₀ s₀ k s) (hs : 0 < s) (hs' : 0 < s')
    (hshare : k * s' ^ 2 ≤ k' * s ^ 2) : Holding k₀ s₀ k' s' := by
  have hsq : 0 < s ^ 2 := pow_pos hs 2
  refine ⟨?_, fun hpos => ⟨hs', ?_⟩⟩
  · have hscaled : s' * s' * s ^ 2 ≤ k' * s ^ 2 := by
      calc s' * s' * s ^ 2 = s * s * s' ^ 2 := by ring
        _ ≤ k * s' ^ 2 := Nat.mul_le_mul_right _ h.unit
        _ ≤ k' * s ^ 2 := hshare
    exact Nat.le_of_mul_le_mul_right hscaled hsq
  · have hscaled : k₀ * s' ^ 2 * s ^ 2 ≤ k' * s₀ ^ 2 * s ^ 2 := by
      calc k₀ * s' ^ 2 * s ^ 2 = k₀ * s ^ 2 * s' ^ 2 := by ring
        _ ≤ k * s₀ ^ 2 * s' ^ 2 := Nat.mul_le_mul_right _ (h.worth hpos).2
        _ = k * s' ^ 2 * s₀ ^ 2 := by ring
        _ ≤ k' * s ^ 2 * s₀ ^ 2 := Nat.mul_le_mul_right _ hshare
        _ = k' * s₀ ^ 2 * s ^ 2 := by ring
    exact Nat.le_of_mul_le_mul_right hscaled hsq

end

/-- The mark: the product as of the last deposit or withdrawal while the fee on what it grew since is
    not minted yet, else the product itself. -/
def GembaSwapPair.base (p : GembaSwapPair) : Nat := if p.kLast = 0 then p.reserves.k else p.kLast

/-- Outside of `burn` the shares hold the mark, which the product has not fallen below.  During `burn`
    they hold what will be left once the tokens are sent.  A swap has the reserves it began with. -/
structure Worthy (k₀ s₀ : Nat) (o : Option Job) (x y : Nat) (w : World) : Prop where
  mark : (∀ b, o ≠ some (.burn b)) →
    Holding k₀ s₀ w.pair.base w.pair.lp.totalSupply ∧ w.pair.base ≤ w.pair.reserves.k
  swap : ∀ s, o = some (.swap s) → s.reserves = w.pair.reserves
  burn : ∀ b, o = some (.burn b) → (b.feeOn = false → w.pair.kLast = 0) ∧
    ∃ h0 h1, h0 + x ≤ w.held0 ∧ h1 + y ≤ w.held1 ∧
      Holding k₀ s₀ (h0 * h1) w.pair.lp.totalSupply

section
variable {k₀ s₀ : Nat} {p p' : GembaSwapPair} {r : Reserves} {feeOn : Bool} {feeTo : Address}
  {o : Option Job} {x y x' y' fee liquidity amount0 amount1 : Nat} {w w' : World}

/-- The product has not fallen below the mark: `kLast` is not above it. -/
theorem base_le (h : p.base ≤ p.reserves.k) : p.kLast ≤ p.reserves.k := by
  unfold GembaSwapPair.base at h
  split at h
  · rename_i hzero
    rw [hzero]
    exact Nat.zero_le _
  · exact h

/-- **The fee does not dilute the mark.** -/
theorem GembaSwapPair.FeeMinted.holding (hfee : GembaSwapPair.FeeMinted p p.reserves feeTo fee p')
    (h : Holding k₀ s₀ p.base p.lp.totalSupply) (hle : p.base ≤ p.reserves.k) :
    Holding k₀ s₀ p.reserves.k p'.lp.totalSupply := by
  rw [hfee.totalSupply]
  rcases Nat.eq_zero_or_pos fee with hzero | hpos
  · rw [hzero]
    exact h.mono hle
  · obtain ⟨-, hkLast, hroot, hpart⟩ := hfee.grown hpos
    have hsupply : 0 < p.lp.totalSupply := hfee.supply hpos
    have hbase : p.base = p.kLast := if_neg hkLast
    rw [hbase] at h
    rw [sqrt, sqrt, babylonian_eq_sqrt, babylonian_eq_sqrt] at hroot hpart
    exact h.step hsupply (by omega) (growth_fee hroot h.unit hpart)

/-- After a deposit or a withdrawal the mark is the product. -/
theorem base_recorded {held0 held1 now : Nat}
    (h : GembaSwapPair.Settled p held0 held1 r feeOn now p')
    (hfee : feeOn = false → p.kLast = 0) : p'.base = held0 * held1 ∧ p'.reserves.k = held0 * held1 := by
  have hk : p'.reserves.k = held0 * held1 := by
    rw [Reserves.k, h.reserve0, h.reserve1]
  refine ⟨?_, hk⟩
  unfold GembaSwapPair.base
  rw [hk, h.kLast]
  cases feeOn with
  | true =>
    rw [if_pos rfl, ite_eq_left_iff]
    exact fun _ => rfl
  | false => rw [if_neg Bool.false_ne_true, if_pos (hfee rfl)]

/-- After a swap the mark has not come down. -/
theorem base_settled {held0 held1 now : Nat} (hle : p.base ≤ p.reserves.k)
    (hk : p.reserves.k ≤ held0 * held1)
    (h : GembaSwapPair.Settled p held0 held1 r false now p') :
    p.base ≤ p'.base ∧ p'.base ≤ p'.reserves.k := by
  have hprod : p'.reserves.k = held0 * held1 := by
    rw [Reserves.k, h.reserve0, h.reserve1]
  have hkLast : p'.kLast = p.kLast := h.kLast
  unfold GembaSwapPair.base
  rw [hkLast, hprod]
  split
  · exact ⟨hk, Nat.le_refl _⟩
  · exact ⟨Nat.le_refl _, (base_le hle).trans hk⟩

/-- **A deposit does not dilute**: its shares are no more than its part of either reserve. -/
theorem holding_deposit {held0 held1 : Nat} {r : Reserves}
    (h : Holding k₀ s₀ r.k p.lp.totalSupply) (hle0 : r.reserve0 ≤ held0) (hle1 : r.reserve1 ≤ held1)
    (hgiven : p.liquidityOf (held0 - r.reserve0) (held1 - r.reserve1) r = .ok (p', liquidity)) :
    Holding k₀ s₀ (held0 * held1) (p'.lp.totalSupply + liquidity) := by
  rcases (GembaSwapPair.liquidityOf_spec hgiven).2 with
    ⟨hzero, hfirst, hmin, hliquidity⟩ | ⟨hsome, hlp, hpart0, hpart1⟩
  · -- the first deposit: the supply is the root of what came in
    have hsupply : p'.lp.totalSupply = MINIMUM_LIQUIDITY := by
      rw [(ERC20.mint_spec hfirst).1, hzero, Nat.zero_add]
    rw [hsupply, hliquidity, Nat.add_sub_cancel' hmin, sqrt, babylonian_eq_sqrt]
    refine ⟨?_, fun hpos => absurd hzero (Nat.ne_of_gt (h.worth hpos).1)⟩
    exact (Nat.sqrt_le _).trans (Nat.mul_le_mul (Nat.sub_le _ _) (Nat.sub_le _ _))
  · rw [hlp]
    have hsupply := Nat.pos_of_ne_zero hsome
    have hshare0 := deposit_share hpart0
    have hshare1 := deposit_share hpart1
    rw [Nat.add_sub_cancel' hle0] at hshare0
    rw [Nat.add_sub_cancel' hle1] at hshare1
    exact h.step hsupply (by omega) (share_product hshare0 hshare1)

/-- Nothing that the mark depends on changed, and what was sent was to be sent. -/
theorem Worthy.move (h : Worthy k₀ s₀ o x y w) (hreserves : w'.pair.reserves = w.pair.reserves)
    (hkLast : w'.pair.kLast = w.pair.kLast)
    (hsupply : w'.pair.lp.totalSupply = w.pair.lp.totalSupply)
    (h0 : w.held0 + x' ≤ w'.held0 + x) (h1 : w.held1 + y' ≤ w'.held1 + y) :
    Worthy k₀ s₀ o x' y' w' := by
  have hbase : w'.pair.base = w.pair.base := by
    unfold GembaSwapPair.base
    rw [hkLast, hreserves]
  refine ⟨fun hb => ?_, fun s hs => ?_, fun b hb => ?_⟩
  · obtain ⟨hholding, hle⟩ := h.mark hb
    rw [hbase, hsupply, hreserves]
    exact ⟨hholding, hle⟩
  · rw [hreserves]
    exact h.swap s hs
  · obtain ⟨hfee, l0, l1, hl0, hl1, hholding⟩ := h.burn b hb
    rw [hkLast, hsupply]
    exact ⟨hfee, l0, l1, by omega, by omega, hholding⟩

/-- Outside of a call it is the mark alone. -/
theorem Worthy.idle (hb : Holding k₀ s₀ w.pair.base w.pair.lp.totalSupply)
    (hle : w.pair.base ≤ w.pair.reserves.k) : Worthy k₀ s₀ none x y w :=
  ⟨fun _ => ⟨hb, hle⟩, fun _ hs => absurd hs.symm (Option.some_ne_none _),
    fun _ hs => absurd hs.symm (Option.some_ne_none _)⟩

theorem Worthy.at_rest (h : Worthy k₀ s₀ none x y w) :
    Holding k₀ s₀ w.pair.base w.pair.lp.totalSupply ∧ w.pair.base ≤ w.pair.reserves.k :=
  h.mark fun _ hb => absurd hb.symm (Option.some_ne_none _)

/-- A deposit or a withdrawal ended with the pair holding what the shares are to hold. -/
theorem Worthy.recorded {now : Nat}
    (hsettled : GembaSwapPair.Settled p w.held0 w.held1 r feeOn now p')
    (hfee : feeOn = false → p.kLast = 0)
    (h : Holding k₀ s₀ (w.held0 * w.held1) p.lp.totalSupply) :
    Worthy k₀ s₀ none 0 0 (w.updated p') := by
  obtain ⟨hbase, hk⟩ := base_recorded hsettled hfee
  refine Worthy.idle ?_ ?_
  · show Holding k₀ s₀ p'.base p'.lp.totalSupply
    rw [hbase, hsettled.lp]
    exact h
  · show p'.base ≤ p'.reserves.k
    rw [hbase, hk]

/-- A swap or a `sync` ended with the product no smaller. -/
theorem Worthy.settled {now : Nat}
    (hsettled : GembaSwapPair.Settled p w.held0 w.held1 r false now p')
    (hle : p.base ≤ p.reserves.k) (hk : p.reserves.k ≤ w.held0 * w.held1)
    (h : Holding k₀ s₀ p.base p.lp.totalSupply) : Worthy k₀ s₀ none 0 0 (w.updated p') := by
  obtain ⟨hbase, hle'⟩ := base_settled hle hk hsettled
  refine Worthy.idle ?_ hle'
  show Holding k₀ s₀ p'.base p'.lp.totalSupply
  rw [hsettled.lp]
  exact h.mono hbase

end

/-! ## The steps -/

/-- Both invariants together. -/
structure Kind (k₀ s₀ : Nat) (o : Option Job) (x y : Nat) (w : World) : Prop where
  safe : Safe o x y w
  worthy : Worthy k₀ s₀ o x y w

section
variable {ecrecover : Digest → Signature → Address} {self : Address} {k₀ s₀ : Nat}

/-- **A withdrawal does not dilute**: the tokens it sends are no more than the part of the shares
    that are gone, of both balances. -/
theorem worthy_burn {w : World} {dst : Address} {p : GembaSwapPair} {b : GembaSwapPair.Burn}
    (hself : self ≠ 0) (h : Kind k₀ s₀ none 0 0 w)
    (hburn : w.pair.burnStart self dst w.held0 w.held1 w.feeTo = .ok (p, b)) :
    Worthy k₀ s₀ (some (.burn b)) b.amount0 b.amount1 { w with pair := p } := by
  obtain ⟨-, -, hfeeOn, -, -, -, fee, p₁, hfee, hsupply, hpart0, hpart1, hlp, hrest⟩ :=
    GembaSwapPair.burnStart_did hburn
  obtain ⟨hholding, hle⟩ := h.worthy.at_rest
  have hafter : Holding k₀ s₀ w.pair.reserves.k p₁.lp.totalSupply := hfee.holding hholding hle
  obtain ⟨hcover0, hcover1⟩ := h.safe.2 trivial
  have hheld : Holding k₀ s₀ (w.held0 * w.held1) p₁.lp.totalSupply :=
    hafter.mono (Nat.mul_le_mul hcover0 hcover1)
  obtain ⟨hburned, -, -⟩ := ERC20.burn_spec hlp
  have hleft : p.lp.totalSupply ≠ 0 :=
    ((hfee.sound h.safe.1).burn hsupply hself hlp).2
  have hamount0 : b.amount0 ≤ w.held0 := by
    refine Nat.le_of_mul_le_mul_right (hpart0.trans ?_) (Nat.pos_of_ne_zero hsupply)
    rw [Nat.mul_comm w.held0]
    exact Nat.mul_le_mul_right _ (by omega)
  have hamount1 : b.amount1 ≤ w.held1 := by
    refine Nat.le_of_mul_le_mul_right (hpart1.trans ?_) (Nat.pos_of_ne_zero hsupply)
    rw [Nat.mul_comm w.held1]
    exact Nat.mul_le_mul_right _ (by omega)
  have hshares : p₁.lp.totalSupply - w.pair.lp.balanceOf self = p.lp.totalSupply := by omega
  refine ⟨fun hb => absurd rfl (hb b), fun s hs => Job.noConfusion (Option.some.inj hs), fun b' hb' => ?_⟩
  injection hb' with hb'
  injection hb' with hb'
  subst hb'
  refine ⟨fun hoff => ?_, w.held0 - b.amount0, w.held1 - b.amount1,
    Nat.le_of_eq (Nat.sub_add_cancel hamount0), Nat.le_of_eq (Nat.sub_add_cancel hamount1), ?_⟩
  · show p.kLast = 0
    have hzero : w.feeTo = 0 := by
      rw [hfeeOn] at hoff
      exact not_not.mp (of_decide_eq_false hoff)
    rw [hrest]
    exact hfee.kLast.trans (if_pos hzero)
  · have hshare0 := withdraw_share hpart0
    have hshare1 := withdraw_share hpart1
    rw [hshares] at hshare0 hshare1
    exact hheld.step (Nat.pos_of_ne_zero hsupply) (Nat.pos_of_ne_zero hleft)
      (share_product hshare0 hshare1)

theorem worthy_mint {w : World} {dst : Address} {p : GembaSwapPair} {liquidity : Nat}
    (h : Kind k₀ s₀ none 0 0 w)
    (hmint : w.pair.mint dst w.held0 w.held1 w.feeTo w.now = .ok (p, liquidity)) :
    Worthy k₀ s₀ none 0 0 (w.updated p) := by
  obtain ⟨-, hle0, hle1, -, fee, p₁, p₂, p₃, hfee, hgiven, hlp, hrest, hsettled⟩ :=
    GembaSwapPair.mint_did hmint
  obtain ⟨hholding, hle⟩ := h.worthy.at_rest
  have hafter : Holding k₀ s₀ w.pair.reserves.k p₁.lp.totalSupply := hfee.holding hholding hle
  have hdeposit := holding_deposit hafter hle0 hle1 hgiven
  refine Worthy.recorded hsettled (fun hoff => ?_) ?_
  · have hzero : w.feeTo = 0 := not_not.mp (of_decide_eq_false hoff)
    rw [hrest, (GembaSwapPair.liquidityOf_spec hgiven).1]
    exact hfee.kLast.trans (if_pos hzero)
  · rw [(ERC20.mint_spec hlp).1]
    exact hdeposit

theorem kind_kept (hself : self ≠ 0) : Kept ecrecover self Honest (Kind k₀ s₀) where
  lp h hA hcall := ⟨(safe_kept ecrecover hself).lp h.safe hA hcall,
    h.worthy.move rfl rfl (ERC20.call_totalSupply hcall) (Nat.le_refl _) (Nat.le_refl _)⟩
  initializePair _ hA := absurd rfl hA
  tokens h hA := ⟨(safe_kept ecrecover hself).tokens h.safe hA,
    h.worthy.move rfl rfl rfl (Nat.add_le_add_right hA.1 _) (Nat.add_le_add_right hA.2 _)⟩
  setFeeTo h hA := ⟨(safe_kept ecrecover hself).setFeeTo h.safe hA,
    h.worthy.move rfl rfl rfl (Nat.le_refl _) (Nat.le_refl _)⟩
  mint h hA hmint :=
    ⟨(safe_kept ecrecover hself).mint h.safe hA hmint, worthy_mint h hmint⟩
  burn h hA hburn :=
    ⟨(safe_kept ecrecover hself).burn h.safe hA hburn, worthy_burn hself h hburn⟩
  burnEnd := by
    intro w b p h hend
    refine ⟨(safe_kept ecrecover hself).burnEnd h.safe hend, ?_⟩
    obtain ⟨hfee, h0, h1, hle0, hle1, hholding⟩ := h.worthy.burn b rfl
    exact Worthy.recorded (GembaSwapPair.burnEnd_did hend) hfee
      (hholding.mono (Nat.mul_le_mul hle0 hle1))
  swap := by
    intro w amount0Out amount1Out dst data p s h hA hswap
    refine ⟨(safe_kept ecrecover hself).swap h.safe hA hswap, ?_⟩
    obtain ⟨-, rfl, rfl, -, -⟩ := GembaSwapPair.swapStart_did hswap
    refine ⟨fun _ => h.worthy.at_rest, fun s hs => ?_, fun b hb => Job.noConfusion (Option.some.inj hb)⟩
    injection hs with hs
    injection hs with hs
    rw [← hs]
  swapEnd := by
    intro w s p h hend
    refine ⟨(safe_kept ecrecover hself).swapEnd h.safe hend, ?_⟩
    obtain ⟨hk, hsettled⟩ := GembaSwapPair.swapEnd_did hend
    obtain ⟨hholding, hle⟩ := h.worthy.mark fun b hb => Job.noConfusion (Option.some.inj hb)
    rw [h.worthy.swap s rfl] at hk
    exact Worthy.settled hsettled hle hk hholding
  skim := by
    intro w dst h hA hle
    refine ⟨(safe_kept ecrecover hself).skim h.safe hA hle, ?_⟩
    exact ⟨fun _ => h.worthy.at_rest, fun s hs => Job.noConfusion (Option.some.inj hs),
      fun b hb => Job.noConfusion (Option.some.inj hb)⟩
  skim1 := by
    intro w h hle
    refine ⟨(safe_kept ecrecover hself).skim1 h.safe hle, ?_⟩
    exact ⟨h.worthy.mark, fun s hs => Job.noConfusion (Option.some.inj hs),
      fun b hb => Job.noConfusion (Option.some.inj hb)⟩
  skimEnd := by
    intro w h
    refine ⟨(safe_kept ecrecover hself).skimEnd h.safe, ?_⟩
    obtain ⟨hholding, hle⟩ := h.worthy.mark fun b hb => Job.noConfusion (Option.some.inj hb)
    exact Worthy.idle hholding hle
  sync := by
    intro w p h hA hsync
    refine ⟨(safe_kept ecrecover hself).sync h.safe hA hsync, ?_⟩
    obtain ⟨hholding, hle⟩ := h.worthy.at_rest
    obtain ⟨hcover0, hcover1⟩ := h.safe.2 trivial
    exact Worthy.settled (GembaSwapPair.sync_did hsync).2 hle (Nat.mul_le_mul hcover0 hcover1)
      hholding
  debit0 := by
    intro o x y w dst amount h hle
    refine ⟨(safe_kept ecrecover hself).debit0 h.safe hle, ?_⟩
    obtain ⟨hpair, hheld1, hheld0⟩ := debit_held0 hle
    refine h.worthy.move (by rw [hpair]) (by rw [hpair]) (by rw [hpair]) ?_ ?_
    · omega
    · rw [hheld1]
  debit1 := by
    intro o x y w dst amount h hle
    refine ⟨(safe_kept ecrecover hself).debit1 h.safe hle, ?_⟩
    obtain ⟨hpair, hheld0, hheld1⟩ := debit_held1 hle
    refine h.worthy.move (by rw [hpair]) (by rw [hpair]) (by rw [hpair]) ?_ ?_
    · rw [hheld0]
    · omega
  later h := ⟨(safe_kept ecrecover hself).later h.safe,
    h.worthy.move rfl rfl rfl (Nat.le_refl _) (Nat.le_refl _)⟩

end

/-! ## The results -/

section
variable {ecrecover : Digest → Signature → Address} {self factory token0 token1 feeTo : Address}
  {held0 held1 now : Nat} {es es' : List (Event Message Answer Nat)} {w₀ : World}
  {m : Machine World Waiting}

/-- **The lock and the LP token hold against any token**, in every run from deployment and at every
    point of it, with callbacks, re-entrance and reverts.  At most one call of the pair is open, and
    the pair is unlocked exactly when none is.  The shares sum to the supply; where there are any, the
    zero address has `MINIMUM_LIQUIDITY` of them, and nobody may spend those.  Once there are shares
    and no frame is open, there are shares at every later point: they stay locked for good. -/
theorem pair_safe (hself : self ≠ 0)
    (h : Run (contract ecrecover self).step (fun t e => e.Among Keyless (fun _ => True) t.store)
      ⟨World.deployed factory token0 token1 feeTo held0 held1 now, []⟩ es m) :
    (pending m.frames).length ≤ 1 ∧ (m.store.pair.unlocked = true ↔ pending m.frames = []) ∧
      m.store.pair.lp.totalSupply = ∑ a, m.store.pair.lp.balanceOf a ∧
      (m.store.pair.lp.totalSupply = 0 ∨ MINIMUM_LIQUIDITY ≤ m.store.pair.lp.balanceOf 0) ∧
      (∀ s, m.store.pair.lp.allowance 0 s = 0) ∧
      (m.frames = [] → 0 < m.store.pair.lp.totalSupply → ∀ es' m',
        Run (contract ecrecover self).step (fun t e => e.Among Keyless (fun _ => True) t.store)
          m es' m' →
        0 < m'.store.pair.lp.totalSupply ∧ MINIMUM_LIQUIDITY ≤ m'.store.pair.lp.balanceOf 0) := by
  have hwithin : Within (Remaining False) (pending m.frames) m.store :=
    (lp_kept False hself).keeps.run ⟨rfl, lpSound_empty, False.elim⟩ h
  obtain ⟨hone, hfree, hlp, -⟩ := hwithin.remaining
  refine ⟨hone, hfree, hlp.backed, ?_, hlp.locked.unspendable, ?_⟩
  · by_cases hsupply : m.store.pair.lp.totalSupply = 0
    · exact .inl hsupply
    · exact .inr (hlp.some hsupply).held
  · intro hrest hsupply es' m' hrun
    -- nothing that is still open here can revert to before there were shares
    have hopen : Within (Remaining True) (pending m.frames) m.store := by
      rw [hrest] at hfree ⊢
      exact ⟨hfree.mpr rfl, hlp, fun _ => Nat.ne_of_gt hsupply⟩
    have hm : m = ⟨m.store, []⟩ := Machine.at_rest hrest
    rw [hrest] at hopen
    rw [hm] at hrun
    obtain ⟨-, -, hlp', hleft⟩ := ((lp_kept True hself).keeps.run hopen hrun).remaining
    exact ⟨Nat.pos_of_ne_zero (hleft trivial), (hlp'.some (hleft trivial)).held⟩

/-- A pair of the tokens 2 and 3, with the fee on. -/
def samplePair : Machine World Waiting := ⟨World.deployed 1 2 3 9 0 0 1000, []⟩

def sampleContract : Contract Revert World Waiting Message Answer Nat := contract (fun _ _ => 0) 7

/-- Somebody deposits for the first time. -/
def sampleDeposit : List (Event Message Answer Nat) := [.call (.tokens 2000 2000), .call (.mint 5)]

/-- A flash swap during which the shares are sent to the pair; then they are burned. -/
def sampleSwap : List (Event Message Answer Nat) :=
  [.between 60, .call (.swap 100 0 6 true), .answer .debit, .call (.tokens 1900 2300),
   .answer (.returned true), .call (.lp 5 (.transfer 7 500)), .answer (.returned true),
   .call (.burn 5), .answer .debit, .answer (.returned true), .answer .debit, .answer (.returned true)]

/-- The pair after the deposit. -/
def sampleOpen : Machine World Waiting := runTo sampleContract.step samplePair sampleDeposit

/-- And after the swap and the withdrawal. -/
def sampleEnd : Machine World Waiting := runTo sampleContract.step sampleOpen sampleSwap

theorem pair_safe_sample :
    sampleOpen.store.pair.lp.totalSupply = 2000 ∧
      MINIMUM_LIQUIDITY ≤ sampleOpen.store.pair.lp.balanceOf 0 ∧
      MINIMUM_LIQUIDITY ≤ sampleEnd.store.pair.lp.balanceOf 0 := by
  have hrun : Run sampleContract.step (fun t e => e.Among Keyless (fun _ => True) t.store)
      samplePair sampleDeposit sampleOpen := Run.of_runTo (by decide +kernel) (by decide +kernel)
  have hon : Run sampleContract.step (fun t e => e.Among Keyless (fun _ => True) t.store)
      sampleOpen sampleSwap sampleEnd := Run.of_runTo (by decide +kernel) (by decide +kernel)
  have hsupply : sampleOpen.store.pair.lp.totalSupply = 2000 := by decide +kernel
  obtain ⟨-, -, -, hlocked, -, hlater⟩ := pair_safe (by decide) hrun
  refine ⟨hsupply, hlocked.resolve_left (by rw [hsupply]; decide), ?_⟩
  exact (hlater (by decide +kernel) (by rw [hsupply]; decide) sampleSwap sampleEnd hon).2

/-- **A share never loses value**, over honest tokens.  From any point of a run where there are shares
    and no frame is open, of the pair or of another account, to any later point where no call of the
    pair is open, through swaps, flash swaps, callbacks, deposits, withdrawals and the protocol fee,
    switched as often as the factory likes: the mark for a share, squared, is no smaller, the product
    has not fallen below the mark, a share is worth at least one unit of its root, and the pair has
    what its reserves say. -/
theorem pair_share_value (hself : self ≠ 0)
    (h : Run (contract ecrecover self).step (fun t e => e.Among Honest (fun _ => True) t.store)
      ⟨World.deployed factory token0 token1 feeTo held0 held1 now, []⟩ es ⟨w₀, []⟩)
    (hsupply : 0 < w₀.pair.lp.totalSupply)
    (h' : Run (contract ecrecover self).step (fun t e => e.Among Honest (fun _ => True) t.store)
      ⟨w₀, []⟩ es' m) (hidle : pending m.frames = []) :
    0 < m.store.pair.lp.totalSupply ∧
      w₀.pair.base * m.store.pair.lp.totalSupply ^ 2
        ≤ m.store.pair.base * w₀.pair.lp.totalSupply ^ 2 ∧
      m.store.pair.base ≤ m.store.pair.reserves.k ∧
      m.store.pair.lp.totalSupply * m.store.pair.lp.totalSupply ≤ m.store.pair.base ∧
      m.store.pair.reserves.reserve0 ≤ m.store.held0 ∧
      m.store.pair.reserves.reserve1 ≤ m.store.held1 := by
  -- up to `w₀` there is nothing to compare with
  have hfirst : Within (Kind 0 0) [] w₀ := by
    refine (kind_kept hself).keeps.run ⟨rfl, safe_deployed _ _ _ _ _ _ _, ?_⟩ h
    exact Worthy.idle ⟨Nat.zero_le _, fun hpos => absurd hpos (Nat.lt_irrefl 0)⟩ (Nat.le_refl _)
  obtain ⟨hunlocked, hsafe, hworthy⟩ := hfirst
  obtain ⟨hholding, hle⟩ := hworthy.at_rest
  have hsecond : Within (Kind w₀.pair.base w₀.pair.lp.totalSupply) (pending m.frames) m.store := by
    refine (kind_kept hself).keeps.run ⟨hunlocked, hsafe, ?_⟩ h'
    exact Worthy.idle (Holding.refl hholding.unit) hle
  rw [hidle] at hsecond
  obtain ⟨hholding', hle'⟩ := hsecond.2.worthy.at_rest
  obtain ⟨hpos, hworth⟩ := hholding'.worth hsupply
  exact ⟨hpos, hworth, hle', hholding'.unit, hsecond.2.safe.2 trivial⟩

theorem pair_share_value_sample :
    sampleEnd.store.pair.lp.totalSupply = 1514 ∧ sampleEnd.store.pair.base = 2470741 ∧
      sampleOpen.store.pair.base * sampleEnd.store.pair.lp.totalSupply ^ 2
        ≤ sampleEnd.store.pair.base * sampleOpen.store.pair.lp.totalSupply ^ 2 := by
  have hrest : sampleOpen = ⟨sampleOpen.store, []⟩ := Machine.at_rest (by decide +kernel)
  have hopen : Run sampleContract.step (fun t e => e.Among Honest (fun _ => True) t.store)
      samplePair sampleDeposit ⟨sampleOpen.store, []⟩ := by
    rw [← hrest]
    exact Run.of_runTo (by decide +kernel) (by decide +kernel)
  have hend : Run sampleContract.step (fun t e => e.Among Honest (fun _ => True) t.store)
      ⟨sampleOpen.store, []⟩ sampleSwap sampleEnd := by
    rw [← hrest]
    exact Run.of_runTo (by decide +kernel) (by decide +kernel)
  have hvalue := pair_share_value (by decide) hopen (by decide +kernel) hend (by decide +kernel)
  exact ⟨by decide +kernel, by decide +kernel, hvalue.2.1⟩

end
end Gemba.GembaSwap
