/-
  `GembaSwapLibrary`: the arithmetic of quotes.

  The library answers what a pair will take or give, before it is asked to.  What a pair really checks
  is its product after a fee of 3 in 1000, and `Fair` says that an exchange passes that check.  Every
  answer of the library is fair: what `getAmountOut` gives (`getAmountOut_fair`), and what
  `getAmountIn` asks for (`getAmountIn_fair`).  Nothing fair is above a quote
  (`Fair.le_getAmountOut`), so what `getAmountIn` asks for buys what it was asked about, or more.
-/
import Mathlib.Tactic.Ring
import Mathlib.Tactic.Linarith
import Gemba.GembaSwap.ERC20

namespace Gemba.GembaSwap

open Gemba.Lib Gemba.Evm

/-- `tokenA < tokenB ? (tokenA, tokenB) : (tokenB, tokenA)`. -/
def inOrder (tokenA tokenB : Address) : Address × Address :=
  if tokenA < tokenB then (tokenA, tokenB) else (tokenB, tokenA)

namespace GembaSwapLibrary

/-- `sortTokens(tokenA, tokenB)`. -/
def sortTokens (tokenA tokenB : Address) : Call (Address × Address) := do
  failIf (tokenA = tokenB) (err "GembaSwapLibrary: IDENTICAL_ADDRESSES")
  failIf ((inOrder tokenA tokenB).1 = 0) (err "GembaSwapLibrary: ZERO_ADDRESS")
  .ok (inOrder tokenA tokenB)

/-- `quote(amountA, reserveA, reserveB)`. -/
def quote (amountA reserveA reserveB : Nat) : Call Nat := do
  failIf (amountA = 0) (err "GembaSwapLibrary: INSUFFICIENT_AMOUNT")
  failIf (reserveA = 0 ∨ reserveB = 0) (err "GembaSwapLibrary: INSUFFICIENT_LIQUIDITY")
  let product ← safeMul amountA reserveB
  div product reserveA

/-- `getAmountOut(amountIn, reserveIn, reserveOut)`. -/
def getAmountOut (amountIn reserveIn reserveOut : Nat) : Call Nat := do
  failIf (amountIn = 0) (err "GembaSwapLibrary: INSUFFICIENT_INPUT_AMOUNT")
  failIf (reserveIn = 0 ∨ reserveOut = 0) (err "GembaSwapLibrary: INSUFFICIENT_LIQUIDITY")
  let amountInWithFee ← safeMul amountIn 997
  let numerator ← safeMul amountInWithFee reserveOut
  let thousand ← safeMul reserveIn 1000
  let denominator ← safeAdd thousand amountInWithFee
  div numerator denominator

/-- `getAmountIn(amountOut, reserveIn, reserveOut)`. -/
def getAmountIn (amountOut reserveIn reserveOut : Nat) : Call Nat := do
  failIf (amountOut = 0) (err "GembaSwapLibrary: INSUFFICIENT_OUTPUT_AMOUNT")
  failIf (reserveIn = 0 ∨ reserveOut = 0) (err "GembaSwapLibrary: INSUFFICIENT_LIQUIDITY")
  let product ← safeMul reserveIn amountOut
  let numerator ← safeMul product 1000
  let left ← safeSub reserveOut amountOut
  let denominator ← safeMul left 997
  let quotient ← div numerator denominator
  safeAdd quotient 1

/-! ## Sorted tokens -/

section
variable {tokenA tokenB token0 token1 : Address}

/-- Two different tokens in order are the same two, whichever is given first. -/
theorem inOrder_spec (hne : tokenA ≠ tokenB) (h : inOrder tokenA tokenB = (token0, token1)) :
    token0 < token1 ∧ (tokenA = token0 ∧ tokenB = token1 ∨ tokenA = token1 ∧ tokenB = token0) := by
  unfold inOrder at h
  split at h
  · rename_i hlt
    obtain ⟨rfl, rfl⟩ := Prod.mk.inj h
    exact ⟨hlt, .inl ⟨rfl, rfl⟩⟩
  · rename_i hlt
    obtain ⟨rfl, rfl⟩ := Prod.mk.inj h
    exact ⟨BitVec.lt_of_le_ne (BitVec.not_lt.mp hlt) (Ne.symm hne), .inr ⟨rfl, rfl⟩⟩

theorem inOrder_sorted (hlt : token0 < token1) :
    inOrder token0 token1 = (token0, token1) ∧ inOrder token1 token0 = (token0, token1) :=
  ⟨if_pos hlt, if_neg (BitVec.lt_asymm hlt)⟩

theorem sortTokens_spec (h : sortTokens tokenA tokenB = .ok (token0, token1)) :
    tokenA ≠ tokenB ∧ token0 ≠ 0 ∧ inOrder tokenA tokenB = (token0, token1) := by
  obtain ⟨hne, h⟩ := failIf_bind_eq_ok.mp h
  obtain ⟨hzero, h⟩ := failIf_bind_eq_ok.mp h
  injection h with h
  rw [h] at hzero
  exact ⟨hne, hzero, h⟩

theorem sortTokens_ok (hne : tokenA ≠ tokenB) (hzero : (inOrder tokenA tokenB).1 ≠ 0) :
    sortTokens tokenA tokenB = .ok (inOrder tokenA tokenB) := by
  rw [sortTokens, failIf_neg hne, ok_bind, failIf_neg hzero, ok_bind]

end

/-! ## Fair amounts -/

/-- `amountOut` for `amountIn` leaves the product no smaller once 3 in 1000 of the input are set
    aside, and does not empty the reserve. -/
structure Fair (amountIn amountOut reserveIn reserveOut : Nat) : Prop where
  paid : 0 < amountIn
  funded : 0 < reserveIn
  left : amountOut < reserveOut
  product : 1000 * (reserveIn * reserveOut)
    ≤ (1000 * reserveIn + 997 * amountIn) * (reserveOut - amountOut)

section
variable {amountIn amountOut reserveIn reserveOut : Nat}

theorem getAmountOut_spec (h : getAmountOut amountIn reserveIn reserveOut = .ok amountOut) :
    0 < amountIn ∧ 0 < reserveIn ∧ 0 < reserveOut ∧
      amountIn * 997 * reserveOut < 2 ^ 256 ∧ reserveIn * 1000 + amountIn * 997 < 2 ^ 256 ∧
      amountOut = amountIn * 997 * reserveOut / (reserveIn * 1000 + amountIn * 997) := by
  obtain ⟨hpaid, h⟩ := failIf_bind_eq_ok.mp h
  obtain ⟨hsome, h⟩ := failIf_bind_eq_ok.mp h
  obtain ⟨withFee, hwithFee, h⟩ := bind_eq_ok.mp h
  obtain ⟨numerator, hnumerator, h⟩ := bind_eq_ok.mp h
  obtain ⟨thousand, hthousand, h⟩ := bind_eq_ok.mp h
  obtain ⟨denominator, hdenominator, h⟩ := bind_eq_ok.mp h
  obtain ⟨-, rfl⟩ := safeMul_eq_ok.mp hwithFee
  obtain ⟨hfits, rfl⟩ := safeMul_eq_ok.mp hnumerator
  obtain ⟨-, rfl⟩ := safeMul_eq_ok.mp hthousand
  obtain ⟨hden, rfl⟩ := safeAdd_eq_ok.mp hdenominator
  rw [not_or] at hsome
  exact ⟨Nat.pos_of_ne_zero hpaid, Nat.pos_of_ne_zero hsome.1, Nat.pos_of_ne_zero hsome.2, hfits,
    hden, (div_eq_ok.mp h).2⟩

/-- When the numbers fit, there is a quote. -/
theorem getAmountOut_ok (hpaid : 0 < amountIn) (hin : 0 < reserveIn) (hout : 0 < reserveOut)
    (hnumerator : amountIn * 997 * reserveOut < 2 ^ 256)
    (hdenominator : reserveIn * 1000 + amountIn * 997 < 2 ^ 256) :
    getAmountOut amountIn reserveIn reserveOut
      = .ok (amountIn * 997 * reserveOut / (reserveIn * 1000 + amountIn * 997)) := by
  have hwithFee : amountIn * 997 < 2 ^ 256 := lt_of_le_of_lt (Nat.le_add_left _ _) hdenominator
  have hthousand : reserveIn * 1000 < 2 ^ 256 := lt_of_le_of_lt (Nat.le_add_right _ _) hdenominator
  have hsome : ¬ (reserveIn = 0 ∨ reserveOut = 0) := not_or.mpr ⟨Nat.ne_of_gt hin, Nat.ne_of_gt hout⟩
  have hden : reserveIn * 1000 + amountIn * 997 ≠ 0 :=
    Nat.ne_of_gt (Nat.add_pos_left (Nat.mul_pos hin (by decide)) _)
  rw [getAmountOut, failIf_neg (Nat.ne_of_gt hpaid), ok_bind, failIf_neg hsome, ok_bind,
    safeMul, if_pos hwithFee, ok_bind, safeMul, if_pos hnumerator, ok_bind, safeMul,
    if_pos hthousand, ok_bind, safeAdd, if_pos hdenominator, ok_bind, div, if_neg hden]

/-- **What `getAmountOut` gives is fair.** -/
theorem getAmountOut_fair (h : getAmountOut amountIn reserveIn reserveOut = .ok amountOut) :
    Fair amountIn amountOut reserveIn reserveOut := by
  obtain ⟨hpaid, hin, hout, -, -, heq⟩ := getAmountOut_spec h
  have hden : 0 < reserveIn * 1000 + amountIn * 997 :=
    Nat.add_pos_left (Nat.mul_pos hin (by decide)) _
  have hfloor : amountOut * (reserveIn * 1000 + amountIn * 997) ≤ amountIn * 997 * reserveOut := by
    rw [heq]
    exact Nat.div_mul_le_self _ _
  have hleft : amountOut < reserveOut := by
    rw [heq, Nat.div_lt_iff_lt_mul hden]
    have hpos : 0 < reserveIn * 1000 * reserveOut := Nat.mul_pos (Nat.mul_pos hin (by decide)) hout
    calc amountIn * 997 * reserveOut < reserveIn * 1000 * reserveOut + amountIn * 997 * reserveOut := by
          omega
      _ = reserveOut * (reserveIn * 1000 + amountIn * 997) := by ring
  refine ⟨hpaid, hin, hleft, ?_⟩
  obtain ⟨rest, rfl⟩ := Nat.exists_eq_add_of_lt hleft
  rw [show amountOut + rest + 1 - amountOut = rest + 1 by omega]
  nlinarith

/-- What `getAmountIn` asks for is the least above the exact price. -/
theorem getAmountIn_spec (h : getAmountIn amountOut reserveIn reserveOut = .ok amountIn) :
    0 < amountOut ∧ 0 < reserveIn ∧ 0 < reserveOut ∧ amountOut < reserveOut ∧
      amountIn = reserveIn * amountOut * 1000 / ((reserveOut - amountOut) * 997) + 1 := by
  obtain ⟨hwanted, h⟩ := failIf_bind_eq_ok.mp h
  obtain ⟨hsome, h⟩ := failIf_bind_eq_ok.mp h
  obtain ⟨product, hproduct, h⟩ := bind_eq_ok.mp h
  obtain ⟨numerator, hnumerator, h⟩ := bind_eq_ok.mp h
  obtain ⟨left, hleft, h⟩ := bind_eq_ok.mp h
  obtain ⟨denominator, hdenominator, h⟩ := bind_eq_ok.mp h
  obtain ⟨quotient, hquotient, h⟩ := bind_eq_ok.mp h
  obtain ⟨-, rfl⟩ := safeMul_eq_ok.mp hproduct
  obtain ⟨-, rfl⟩ := safeMul_eq_ok.mp hnumerator
  obtain ⟨hle, rfl⟩ := safeSub_eq_ok.mp hleft
  obtain ⟨-, rfl⟩ := safeMul_eq_ok.mp hdenominator
  obtain ⟨hne, rfl⟩ := div_eq_ok.mp hquotient
  obtain ⟨-, rfl⟩ := safeAdd_eq_ok.mp h
  rw [not_or] at hsome
  refine ⟨Nat.pos_of_ne_zero hwanted, Nat.pos_of_ne_zero hsome.1, Nat.pos_of_ne_zero hsome.2, ?_, rfl⟩
  omega

/-- **What `getAmountIn` asks for is fair.** -/
theorem getAmountIn_fair (h : getAmountIn amountOut reserveIn reserveOut = .ok amountIn) :
    Fair amountIn amountOut reserveIn reserveOut := by
  obtain ⟨-, hin, -, hleft, heq⟩ := getAmountIn_spec h
  have hpaid : 0 < amountIn := by
    rw [heq]
    exact Nat.succ_pos _
  refine ⟨hpaid, hin, hleft, ?_⟩
  have hden : 0 < (reserveOut - amountOut) * 997 := by omega
  have habove : reserveIn * amountOut * 1000 < amountIn * ((reserveOut - amountOut) * 997) := by
    rw [heq, Nat.mul_comm (_ + 1)]
    exact Nat.lt_mul_div_succ _ hden
  obtain ⟨rest, rfl⟩ := Nat.exists_eq_add_of_lt hleft
  rw [show amountOut + rest + 1 - amountOut = rest + 1 by omega] at habove ⊢
  nlinarith

/-- Less is fair too. -/
theorem Fair.mono {less : Nat} (h : Fair amountIn amountOut reserveIn reserveOut)
    (hle : less ≤ amountOut) : Fair amountIn less reserveIn reserveOut :=
  ⟨h.paid, h.funded, hle.trans_lt h.left,
    h.product.trans (Nat.mul_le_mul_left _ (Nat.sub_le_sub_left hle _))⟩

/-- A fair amount passes the check of a pair. -/
theorem Fair.scaled (h : Fair amountIn amountOut reserveIn reserveOut) :
    reserveIn * reserveOut * 1000 ^ 2
      ≤ (1000 * (reserveIn - 0) + 997 * amountIn) * (1000 * (reserveOut - amountOut) + 997 * 0) := by
  calc reserveIn * reserveOut * 1000 ^ 2 = 1000 * (1000 * (reserveIn * reserveOut)) := by ring
    _ ≤ 1000 * ((1000 * reserveIn + 997 * amountIn) * (reserveOut - amountOut)) :=
        Nat.mul_le_mul_left _ h.product
    _ = (1000 * (reserveIn - 0) + 997 * amountIn) * (1000 * (reserveOut - amountOut) + 997 * 0) := by
        rw [Nat.sub_zero, Nat.mul_zero, Nat.add_zero]
        ring

/-- And what passes it is fair. -/
theorem Fair.of_scaled (hpaid : 0 < amountIn) (hfunded : 0 < reserveIn)
    (hleft : amountOut < reserveOut)
    (h : reserveIn * reserveOut * 1000 ^ 2
      ≤ (1000 * reserveIn + 997 * amountIn) * (1000 * (reserveOut - amountOut))) :
    Fair amountIn amountOut reserveIn reserveOut := by
  refine ⟨hpaid, hfunded, hleft, Nat.le_of_mul_le_mul_left (c := 1000) ?_ (by decide)⟩
  calc 1000 * (1000 * (reserveIn * reserveOut)) = reserveIn * reserveOut * 1000 ^ 2 := by ring
    _ ≤ (1000 * reserveIn + 997 * amountIn) * (1000 * (reserveOut - amountOut)) := h
    _ = 1000 * ((1000 * reserveIn + 997 * amountIn) * (reserveOut - amountOut)) := by ring

/-- **A fair amount is not above the quote**: `getAmountOut` gives the most that is fair. -/
theorem Fair.le_getAmountOut {best : Nat} (hfair : Fair amountIn amountOut reserveIn reserveOut)
    (h : getAmountOut amountIn reserveIn reserveOut = .ok best) : amountOut ≤ best := by
  obtain ⟨-, -, -, -, -, heq⟩ := getAmountOut_spec h
  have hden : 0 < reserveIn * 1000 + amountIn * 997 := by
    have := hfair.paid
    omega
  rw [heq, Nat.le_div_iff_mul_le hden]
  have hproduct := hfair.product
  obtain ⟨rest, hrest⟩ := Nat.exists_eq_add_of_lt hfair.left
  rw [hrest] at hproduct ⊢
  rw [show amountOut + rest + 1 - amountOut = rest + 1 by omega] at hproduct
  nlinarith

end

end GembaSwapLibrary
end Gemba.GembaSwap
