/-
  What a share of `GembaNativePool` is worth never falls.

  Every operation rounds what leaves the pool down, so with recorded reserves `rT`, `rN` and supply
  `S`, each of them keeps `rT * rN / S²` from falling: a swap keeps the product, and liquidity that
  comes or goes keeps each reserve per share.  The comparisons are crosswise (`Lib/ConstantProduct`).

  The one state where shares are not proportional is the pool without any; `EmptyUnowned` says that
  it has nothing then, and every operation on a pool with shares keeps that.
-/
import Gemba.Lib.ConstantProduct
import Gemba.Dex.NativePool

namespace Gemba.Dex

open Gemba.Lib Gemba.Evm

/-- Each reserve is worth no less per share than it was. -/
structure PerShareKept (p p' : NativePool) : Prop where
  token : p.reserveToken * p'.lp.totalSupply ≤ p'.reserveToken * p.lp.totalSupply
  native : p.reserveNative * p'.lp.totalSupply ≤ p'.reserveNative * p.lp.totalSupply

/-- The product of the reserves did not fall, on the same shares. -/
structure ProductKept (p p' : NativePool) : Prop where
  supply : p'.lp.totalSupply = p.lp.totalSupply
  product : p.reserveToken * p.reserveNative ≤ p'.reserveToken * p'.reserveNative

/-- A pool without shares has no reserves. -/
def EmptyUnowned (p : NativePool) : Prop :=
  p.lp.totalSupply = 0 → p.reserveToken = 0 ∧ p.reserveNative = 0

/-- The operations that move liquidity. -/
def Op.isLiquidity : Op → Bool
  | .addLiquidity .. | .removeLiquidity .. => true
  | _ => false

section
variable {self : Address} {p p' : NativePool}

/-- Either way a share is worth no less, by the product of both reserves per share squared. -/
theorem PerShareKept.value (h : PerShareKept p p') :
    p.reserveToken * p.reserveNative * p'.lp.totalSupply ^ 2 ≤
      p'.reserveToken * p'.reserveNative * p.lp.totalSupply ^ 2 :=
  share_product h.token h.native

theorem ProductKept.value (h : ProductKept p p') :
    p.reserveToken * p.reserveNative * p'.lp.totalSupply ^ 2 ≤
      p'.reserveToken * p'.reserveNative * p.lp.totalSupply ^ 2 := by
  rw [h.supply]
  exact Nat.mul_le_mul_right _ h.product

/-! ## Each operation -/

/-- The shares an `addLiquidity` mints are at most in proportion to what it gave, on either side. -/
theorem AddSpec.proportional {value received : Nat} {r : Added} (h : AddSpec p p' value received r)
    (hs : p.lp.totalSupply ≠ 0) :
    r.liquidity * p.reserveToken ≤ received * p.lp.totalSupply ∧
      r.liquidity * p.reserveNative ≤ r.amountNative * p.lp.totalSupply := by
  obtain ⟨hT, hN, -, hliquidity⟩ := h.later hs
  constructor
  · rw [← Nat.le_div_iff_mul_le hT, hliquidity]
    exact Nat.min_le_left _ _
  · rw [← Nat.le_div_iff_mul_le hN, hliquidity]
    exact Nat.min_le_right _ _

theorem AddSpec.perShareKept {value received : Nat} {r : Added}
    (h : AddSpec p p' value received r) (hempty : EmptyUnowned p) : PerShareKept p p' := by
  by_cases hs : p.lp.totalSupply = 0
  · -- the first liquidity: there was nothing per share
    obtain ⟨hT, hN⟩ := hempty hs
    constructor
    · rw [hT, Nat.zero_mul]
      exact Nat.zero_le _
    · rw [hN, Nat.zero_mul]
      exact Nat.zero_le _
  · obtain ⟨htoken, hnative⟩ := h.proportional hs
    have hsupply : p'.lp.totalSupply = p.lp.totalSupply + r.liquidity := by
      rw [h.totalSupply, if_neg hs, Nat.add_zero]
    constructor
    · rw [hsupply, h.reserveToken]
      exact deposit_share htoken
    · rw [hsupply, h.reserveNative]
      exact deposit_share hnative

theorem removeLiquidity_perShareKept {msg : Msg} {liquidity tokenMin nativeMin : Nat}
    {dst : Address} {deadline : Nat} {push send : Callback} {aT aN : Nat}
    (h : p.removeLiquidity self msg liquidity tokenMin nativeMin dst deadline push send
      = .ok (p', aT, aN)) : PerShareKept p p' := by
  obtain ⟨haT, haN, -, -, -, hrT, hrN, hsupply, -⟩ := removeLiquidity_spec h
  have hT' : p'.reserveToken = p.reserveToken - aT := by omega
  have hN' : p'.reserveNative = p.reserveNative - aN := by omega
  constructor
  · rw [hsupply, hT']
    refine withdraw_share ?_
    rw [haT]
    exact Nat.div_mul_le_self _ _
  · rw [hsupply, hN']
    refine withdraw_share ?_
    rw [haN]
    exact Nat.div_mul_le_self _ _

/-- A price that was paid is the trade formula with the fee 0.30%. -/
theorem getAmountOut_trade {amountIn reserveIn reserveOut out : Nat}
    (h : getAmountOut amountIn reserveIn reserveOut = .ok out) :
    out < reserveOut ∧ reserveIn * reserveOut ≤ (reserveIn + amountIn) * (reserveOut - out) := by
  obtain ⟨-, hx, hy, hout⟩ := getAmountOut_eq_ok h
  have hlt : out < reserveOut :=
    trade_lt (Nat.pos_of_ne_zero hx) (by decide : 0 < 1000) (Nat.pos_of_ne_zero hy) hout
  exact ⟨hlt, trade_product (by decide) (by decide) hout (Nat.le_of_lt hlt)⟩

theorem swapExactNativeForTokens_productKept {msg : Msg} {outMin : Nat} {dst : Address}
    {deadline : Nat} {push : Transfer} {out : Nat}
    (h : p.swapExactNativeForTokens msg outMin dst deadline push = .ok (p', out)) :
    ProductKept p p' := by
  obtain ⟨hprice, -, hrT, hrN, hsupply, -⟩ := swapExactNativeForTokens_spec h
  obtain ⟨-, hproduct⟩ := getAmountOut_trade hprice
  have hT' : p'.reserveToken = p.reserveToken - out := by omega
  refine ⟨hsupply, ?_⟩
  rw [hT', hrN, Nat.mul_comm, Nat.mul_comm (p.reserveToken - out)]
  exact hproduct

theorem swapExactTokensForNative_productKept {msg : Msg} {amountIn outMin : Nat} {dst : Address}
    {deadline : Nat} {pull : Transfer} {send : Callback} {out : Nat}
    (h : p.swapExactTokensForNative self msg amountIn outMin dst deadline pull send
      = .ok (p', out)) : ProductKept p p' := by
  obtain ⟨hprice, -, hrT, hrN, hsupply, -⟩ := swapExactTokensForNative_spec h
  obtain ⟨-, hproduct⟩ := getAmountOut_trade hprice
  have hN' : p'.reserveNative = p.reserveNative - out := by omega
  refine ⟨hsupply, ?_⟩
  rw [hrT, hN']
  exact hproduct

/-- **One operation**: liquidity keeps each reserve per share, everything else keeps the product. -/
theorem step_kept {w w' : World} {op : Op} (hempty : EmptyUnowned w.pool)
    (h : step self w op = .ok w') :
    if op.isLiquidity then PerShareKept w.pool w'.pool else ProductKept w.pool w'.pool := by
  cases op with
  | addLiquidity msg desired tokenMin nativeMin dst deadline pull refund =>
    obtain ⟨⟨p, r⟩, hadd, h⟩ := bind_eq_ok.mp h
    injection h with h
    subst h
    exact (addLiquidity_spec hadd).perShareKept hempty
  | removeLiquidity msg liquidity tokenMin nativeMin dst deadline push send =>
    obtain ⟨⟨p, aT, aN⟩, hrem, h⟩ := bind_eq_ok.mp h
    injection h with h
    subst h
    exact removeLiquidity_perShareKept hrem
  | swapExactNativeForTokens msg outMin dst deadline push =>
    obtain ⟨⟨p, out⟩, hswap, h⟩ := bind_eq_ok.mp h
    injection h with h
    subst h
    exact swapExactNativeForTokens_productKept hswap
  | swapExactTokensForNative msg amountIn outMin dst deadline pull send =>
    obtain ⟨⟨p, out⟩, hswap, h⟩ := bind_eq_ok.mp h
    injection h with h
    subst h
    exact swapExactTokensForNative_productKept hswap
  | lp call =>
    obtain ⟨lp, hlp, h⟩ := bind_eq_ok.mp h
    injection h with h
    subst h
    exact ⟨LpCall.run_totalSupply hlp, Nat.le_refl _⟩
  | force amount =>
    injection h with h
    subst h
    exact ⟨rfl, Nat.le_refl _⟩

/-- Removing every share empties the reserves, and nothing else makes the supply zero. -/
theorem step_emptyUnowned {w w' : World} {op : Op} (hempty : EmptyUnowned w.pool)
    (h : step self w op = .ok w') : EmptyUnowned w'.pool := by
  intro hs
  cases op with
  | addLiquidity msg desired tokenMin nativeMin dst deadline pull refund =>
    obtain ⟨⟨p, r⟩, hadd, h⟩ := bind_eq_ok.mp h
    injection h with h
    subst h
    have hspec := addLiquidity_spec hadd
    have hsupply := hspec.totalSupply
    have hpos := hspec.liquidity_pos
    have hzero : p.lp.totalSupply = 0 := hs
    omega
  | removeLiquidity msg liquidity tokenMin nativeMin dst deadline push send =>
    obtain ⟨⟨p, aT, aN⟩, hrem, h⟩ := bind_eq_ok.mp h
    injection h with h
    subst h
    obtain ⟨haT, haN, -, hposT, -, hrT, hrN, hsupply, -⟩ := removeLiquidity_spec hrem
    have hzero : p.lp.totalSupply = 0 := hs
    have hsome : 0 < w.pool.lp.totalSupply := by
      refine Nat.pos_of_ne_zero fun hc => ?_
      rw [hc, Nat.div_zero] at haT
      omega
    have hall : w.pool.lp.totalSupply ≤ liquidity := by omega
    -- a part for all the shares is all of the reserve
    have htake : ∀ r, r ≤ liquidity * r / w.pool.lp.totalSupply := fun r =>
      (Nat.le_div_iff_mul_le hsome).mpr
        ((Nat.mul_comm r _).trans_le (Nat.mul_le_mul_right r hall))
    have hT := htake w.pool.reserveToken
    have hN := htake w.pool.reserveNative
    rw [← haT] at hT
    rw [← haN] at hN
    show p.reserveToken = 0 ∧ p.reserveNative = 0
    omega
  | swapExactNativeForTokens msg outMin dst deadline push =>
    obtain ⟨⟨p, out⟩, hswap, h⟩ := bind_eq_ok.mp h
    injection h with h
    subst h
    obtain ⟨hprice, -, -, -, hsupply, -⟩ := swapExactNativeForTokens_spec hswap
    obtain ⟨-, -, hT, -⟩ := getAmountOut_eq_ok hprice
    exact absurd (hempty (hsupply.symm.trans hs)).1 hT
  | swapExactTokensForNative msg amountIn outMin dst deadline pull send =>
    obtain ⟨⟨p, out⟩, hswap, h⟩ := bind_eq_ok.mp h
    injection h with h
    subst h
    obtain ⟨hprice, -, -, -, hsupply, -⟩ := swapExactTokensForNative_spec hswap
    obtain ⟨-, hT, -, -⟩ := getAmountOut_eq_ok hprice
    exact absurd (hempty (hsupply.symm.trans hs)).1 hT
  | lp call =>
    obtain ⟨lp, hlp, h⟩ := bind_eq_ok.mp h
    injection h with h
    subst h
    exact hempty ((LpCall.run_totalSupply hlp).symm.trans hs)
  | force amount =>
    injection h with h
    subst h
    exact hempty hs

/-- **Adding and removing at once** returns at most what was credited, on each side. -/
theorem add_remove_le {msg msg' : Msg} {desired tokenMin nativeMin tokenMin' nativeMin' : Nat}
    {dst dst' : Address} {deadline deadline' : Nat} {pull : Transfer} {refund push send : Callback}
    {r : Added} {p'' : NativePool} {aT aN : Nat} (hempty : EmptyUnowned p)
    (hadd : p.addLiquidity self msg desired tokenMin nativeMin dst deadline pull refund
      = .ok (p', r))
    (hrem : p'.removeLiquidity self msg' r.liquidity tokenMin' nativeMin' dst' deadline' push send
      = .ok (p'', aT, aN)) : aT ≤ r.amountToken ∧ aN ≤ r.amountNative := by
  have hspec := addLiquidity_spec hadd
  obtain ⟨haT, haN, -, -, -, -, -, -, -⟩ := removeLiquidity_spec hrem
  have hreceived := hspec.amountToken
  rw [hspec.reserveToken, hspec.totalSupply, ← hreceived] at haT
  rw [hspec.reserveNative, hspec.totalSupply] at haN
  by_cases hs : p.lp.totalSupply = 0
  · -- the whole pool is what was credited, and a part of it comes back
    obtain ⟨hT, hN⟩ := hempty hs
    have hpart : ∀ x, r.liquidity * x / (r.liquidity + minimumLiquidity) ≤ x := by
      intro x
      refine Nat.div_le_of_le_mul ?_
      exact Nat.mul_le_mul_right x (Nat.le_add_right _ _)
    rw [if_pos hs, hs, Nat.zero_add] at haT haN
    rw [hT, Nat.zero_add] at haT
    rw [hN, Nat.zero_add] at haN
    rw [haT, haN]
    exact ⟨hpart _, hpart _⟩
  · obtain ⟨htoken, hnative⟩ := hspec.proportional hs
    rw [← hreceived] at htoken
    rw [if_neg hs, Nat.add_zero] at haT haN
    rw [haT, haN]
    exact ⟨deposit_withdraw_le htoken, deposit_withdraw_le hnative⟩

/-! ## Runs -/

/-- **Share value.**  From any state with shares, along every sequence of operations: none lowers
    `rT * rN / S²`; liquidity that comes or goes lowers neither reserve per share, and a swap does not
    lower the product; and liquidity that is added and removed at once returns no more than it was
    credited. -/
theorem share_value_never_falls {w₀ w : World} {ops : List Op}
    (hshares : 0 < w₀.pool.lp.totalSupply) (hrun : Run (step self) (fun _ _ => True) w₀ ops w) :
    (∀ op w', step self w op = .ok w' →
      w.pool.reserveToken * w.pool.reserveNative * w'.pool.lp.totalSupply ^ 2 ≤
        w'.pool.reserveToken * w'.pool.reserveNative * w.pool.lp.totalSupply ^ 2 ∧
      if op.isLiquidity then PerShareKept w.pool w'.pool else ProductKept w.pool w'.pool) ∧
    ∀ msg desired tokenMin nativeMin dst deadline pull refund p r
      msg' tokenMin' nativeMin' dst' deadline' push send p' aT aN,
      w.pool.addLiquidity self msg desired tokenMin nativeMin dst deadline pull refund
        = .ok (p, r) →
      p.removeLiquidity self msg' r.liquidity tokenMin' nativeMin' dst' deadline' push send
        = .ok (p', aT, aN) →
      aT ≤ r.amountToken ∧ aN ≤ r.amountNative := by
  have hempty : EmptyUnowned w.pool :=
    hrun.inv (fun w => EmptyUnowned w.pool) (fun hs => absurd hs (by omega))
      (fun _ _ _ hw _ h => step_emptyUnowned hw h)
  refine ⟨fun op w' h => ?_, ?_⟩
  · have hkept := step_kept hempty h
    refine ⟨?_, hkept⟩
    by_cases hop : op.isLiquidity = true
    · rw [if_pos hop] at hkept
      exact hkept.value
    · rw [if_neg hop] at hkept
      exact hkept.value
  · intro msg desired tokenMin nativeMin dst deadline pull refund p r
      msg' tokenMin' nativeMin' dst' deadline' push send p' aT aN hadd hrem
    exact add_remove_le hempty hadd hrem

end

/-- The open pool, after Alice bought tokens for 500 agmb. -/
def swapFiveHundred : Op := .swapExactNativeForTokens ⟨alice, 500, 0⟩ 0 alice 0 ⟨0, .quiet, 0⟩

def shareSample : World := runTo (step poolAddress) ⟨.deployed 0, []⟩ [openPool]

/-- From the pool Alice opened: after her swap, 100 more tokens and agmb dilute nobody. -/
theorem share_value_never_falls_sample :
    let w := runTo (step poolAddress) shareSample [swapFiveHundred]
    let w' := runTo (step poolAddress) w [addHundred mallory 100]
    w.pool.reserveToken * w.pool.reserveNative * w'.pool.lp.totalSupply ^ 2 ≤
      w'.pool.reserveToken * w'.pool.reserveNative * w.pool.lp.totalSupply ^ 2 := by
  have hrun : Run (step poolAddress) (fun _ _ => True) shareSample [swapFiveHundred]
      (runTo (step poolAddress) shareSample [swapFiveHundred]) :=
    Run.of_runTo (allowedM_of_forall fun _ _ _ => trivial) (by decide +kernel)
  have hstep : step poolAddress (runTo (step poolAddress) shareSample [swapFiveHundred])
      (addHundred mallory 100) = .ok _ := step_runTo (by decide +kernel)
  exact ((share_value_never_falls (by decide +kernel) hrun).1 _ _ hstep).1

end Gemba.Dex
