/-
  `GembaSwapRouter02` over plain tokens.

  The router quotes with the library, moves the tokens of its caller into the first pair, and calls one
  pair after the other.  The functions below are those on tokens; the ones for native GMB wrap and
  unwrap it around the same `_addLiquidity`, `_swap` and `removeLiquidity`.

  The loops over a path are recursions on it: `quoteOut` from its start, `quoteIn` from its end,
  `swapAlong` and `swapSupportingFee` pair by pair.
-/
import Gemba.GembaSwap.Dex

namespace Gemba.GembaSwap

open Gemba.Lib Gemba.Evm

/-! ## The library on the chain -/

namespace GembaSwapLibrary

/-- `pairFor(factory, tokenA, tokenB)`. -/
def pairFor (c : Chain) (tokenA tokenB : Address) : Call Address := do
  let (token0, token1) ← sortTokens tokenA tokenB
  .ok (c.contractAt initCodeHash token0 token1)

theorem pairFor_eq {c : Chain} {tokenA tokenB : Address} (hne : tokenA ≠ tokenB)
    (hzero : (inOrder tokenA tokenB).1 ≠ 0) :
    pairFor c tokenA tokenB = .ok (c.create2 (inOrder tokenA tokenB).1 (inOrder tokenA tokenB).2) := by
  rw [pairFor, sortTokens_ok hne hzero]
  exact congrArg Except.ok (c.contractAt_initCodeHash _ _)

/-- `getReserves(factory, tokenA, tokenB)`. -/
def getReserves (c : Chain) (w : Dex) (tokenA tokenB : Address) : Call (Nat × Nat) := do
  let (token0, _) ← sortTokens tokenA tokenB
  let pair ← pairFor c tokenA tokenB
  let p ← w.pairAt pair
  .ok (if tokenA = token0 then (p.reserves.reserve0, p.reserves.reserve1)
    else (p.reserves.reserve1, p.reserves.reserve0))

/-- The loop of `getAmountsOut`. -/
def quoteOut (c : Chain) (w : Dex) (amount : Nat) : List Address → Call (List Nat)
  | input :: output :: path => do
    let (reserveIn, reserveOut) ← getReserves c w input output
    let amountOut ← getAmountOut amount reserveIn reserveOut
    let amounts ← quoteOut c w amountOut (output :: path)
    .ok (amount :: amounts)
  | _ => .ok [amount]

/-- `getAmountsOut(factory, amountIn, path)`. -/
def getAmountsOut (c : Chain) (w : Dex) (amountIn : Nat) (path : List Address) :
    Call (List Nat) := do
  failIf (path.length < 2) (err "GembaSwapLibrary: INVALID_PATH")
  quoteOut c w amountIn path

/-- The loop of `getAmountsIn`, which starts at the last pair. -/
def quoteIn (c : Chain) (w : Dex) (amount : Nat) : List Address → Call (List Nat)
  | input :: output :: path => do
    let amounts ← quoteIn c w amount (output :: path)
    let (reserveIn, reserveOut) ← getReserves c w input output
    let amountIn ← getAmountIn (amounts.headD 0) reserveIn reserveOut
    .ok (amountIn :: amounts)
  | _ => .ok [amount]

/-- `getAmountsIn(factory, amountOut, path)`. -/
def getAmountsIn (c : Chain) (w : Dex) (amountOut : Nat) (path : List Address) :
    Call (List Nat) := do
  failIf (path.length < 2) (err "GembaSwapLibrary: INVALID_PATH")
  quoteIn c w amountOut path

end GembaSwapLibrary

open GembaSwapLibrary

namespace GembaSwapRouter02

section
variable (c : Chain) (router : Address)

/-- `ensure(deadline)`. -/
def ensure (w : Dex) (deadline : Nat) : Call PUnit :=
  failIf (deadline < w.now) (err "GembaSwapRouter: EXPIRED")

/-! ## Liquidity -/

/-- The amounts `_addLiquidity` settles on, at two reserves. -/
def settleAmounts (amountADesired amountBDesired amountAMin amountBMin reserveA reserveB : Nat) :
    Call (Nat × Nat) :=
  if reserveA = 0 ∧ reserveB = 0 then .ok (amountADesired, amountBDesired)
  else do
    let amountBOptimal ← quote amountADesired reserveA reserveB
    if amountBOptimal ≤ amountBDesired then
      failIf (amountBOptimal < amountBMin) (err "GembaSwapRouter: INSUFFICIENT_B_AMOUNT")
      .ok (amountADesired, amountBOptimal)
    else
      let amountAOptimal ← quote amountBDesired reserveB reserveA
      -- `assert`
      failIf (amountADesired < amountAOptimal) (.panic 0x01)
      failIf (amountAOptimal < amountAMin) (err "GembaSwapRouter: INSUFFICIENT_A_AMOUNT")
      .ok (amountAOptimal, amountBDesired)

/-- `_addLiquidity(...)`: the pair is created if there is none yet. -/
def prepareLiquidity (w : Dex) (tokenA tokenB : Address)
    (amountADesired amountBDesired amountAMin amountBMin : Nat) : Call (Dex × Nat × Nat) := do
  let w ← (if w.factory.getPair tokenA tokenB = 0 then do
      let (w, _) ← w.createPair c tokenA tokenB
      .ok w
    else .ok w : Call Dex)
  let (reserveA, reserveB) ← getReserves c w tokenA tokenB
  let (amountA, amountB) ←
    settleAmounts amountADesired amountBDesired amountAMin amountBMin reserveA reserveB
  .ok (w, amountA, amountB)

/-- `addLiquidity(...)`, called by `sender`. -/
def addLiquidity (w : Dex) (sender tokenA tokenB : Address)
    (amountADesired amountBDesired amountAMin amountBMin : Nat) (dst : Address) (deadline : Nat) :
    Call (Dex × Nat × Nat × Nat) := do
  ensure w deadline
  let (w, amountA, amountB) ←
    prepareLiquidity c w tokenA tokenB amountADesired amountBDesired amountAMin amountBMin
  let pair ← pairFor c tokenA tokenB
  let w ← w.safeTransferFrom tokenA router sender pair amountA
  let w ← w.safeTransferFrom tokenB router sender pair amountB
  let (w, liquidity) ← w.mint pair dst
  .ok (w, amountA, amountB, liquidity)

/-- `removeLiquidity(...)`. -/
def removeLiquidity (w : Dex) (sender tokenA tokenB : Address)
    (liquidity amountAMin amountBMin : Nat) (dst : Address) (deadline : Nat) :
    Call (Dex × Nat × Nat) := do
  ensure w deadline
  let pair ← pairFor c tokenA tokenB
  let w ← w.lp c pair router (.transferFrom sender pair liquidity)
  let (w, amount0, amount1) ← w.burn pair dst
  let (token0, _) ← sortTokens tokenA tokenB
  let (amountA, amountB) := if tokenA = token0 then (amount0, amount1) else (amount1, amount0)
  failIf (amountA < amountAMin) (err "GembaSwapRouter: INSUFFICIENT_A_AMOUNT")
  failIf (amountB < amountBMin) (err "GembaSwapRouter: INSUFFICIENT_B_AMOUNT")
  .ok (w, amountA, amountB)

/-- `removeLiquidityWithPermit(...)`. -/
def removeLiquidityWithPermit (w : Dex) (sender tokenA tokenB : Address)
    (liquidity amountAMin amountBMin : Nat) (dst : Address) (deadline : Nat) (approveMax : Bool)
    (sig : Signature) : Call (Dex × Nat × Nat) := do
  let pair ← pairFor c tokenA tokenB
  let value := if approveMax then maxUint256 else liquidity
  let w ← w.lp c pair router (.permit sender router value deadline sig)
  removeLiquidity c router w sender tokenA tokenB liquidity amountAMin amountBMin dst deadline

/-! ## Swaps -/

/-- Where a hop sends: to the next pair, or to the receiver after the last. -/
def hopTo (output : Address) (path : List Address) (dst : Address) : Call Address :=
  match path with
  | next :: _ => pairFor c output next
  | [] => .ok dst

/-- One turn of the loop of `_swap`: `amountOut` of `output` from the pair of `input` and `output`. -/
def hop (w : Dex) (input output : Address) (amountOut : Nat) (dst : Address) : Call Dex := do
  let (token0, _) ← sortTokens input output
  let pair ← pairFor c input output
  if input = token0 then w.swap pair 0 amountOut dst else w.swap pair amountOut 0 dst

/-- `_swap(amounts, path, _to)`. -/
def swapAlong (w : Dex) : List Nat → List Address → Address → Call Dex
  | _ :: amountOut :: amounts, input :: output :: path, dst => do
    let receiver ← hopTo c output path dst
    let w ← hop c w input output amountOut receiver
    swapAlong w (amountOut :: amounts) (output :: path) dst
  | _, _, _ => .ok w

/-- The caller's tokens into the first pair. -/
def payFirst (w : Dex) (sender : Address) (path : List Address) (amount : Nat) : Call Dex :=
  match path with
  | input :: output :: _ => do
    let pair ← pairFor c input output
    w.safeTransferFrom input router sender pair amount
  -- the path is read beyond its end
  | _ => .error (.panic 0x32)

/-- `swapExactTokensForTokens(amountIn, amountOutMin, path, to, deadline)`. -/
def swapExactTokensForTokens (w : Dex) (sender : Address) (amountIn amountOutMin : Nat)
    (path : List Address) (dst : Address) (deadline : Nat) : Call (Dex × List Nat) := do
  ensure w deadline
  let amounts ← getAmountsOut c w amountIn path
  failIf (amounts.getLastD 0 < amountOutMin) (err "GembaSwapRouter: INSUFFICIENT_OUTPUT_AMOUNT")
  let w ← payFirst c router w sender path (amounts.headD 0)
  let w ← swapAlong c w amounts path dst
  .ok (w, amounts)

/-- `swapTokensForExactTokens(amountOut, amountInMax, path, to, deadline)`. -/
def swapTokensForExactTokens (w : Dex) (sender : Address) (amountOut amountInMax : Nat)
    (path : List Address) (dst : Address) (deadline : Nat) : Call (Dex × List Nat) := do
  ensure w deadline
  let amounts ← getAmountsIn c w amountOut path
  failIf (amountInMax < amounts.headD 0) (err "GembaSwapRouter: EXCESSIVE_INPUT_AMOUNT")
  let w ← payFirst c router w sender path (amounts.headD 0)
  let w ← swapAlong c w amounts path dst
  .ok (w, amounts)

/-- What one turn of `_swapSupportingFeeOnTransferTokens` asks the pair for: what came in over the
    reserve, quoted. -/
def measure (w : Dex) (input output : Address) : Call Nat := do
  let (reserveInput, reserveOutput) ← getReserves c w input output
  let pair ← pairFor c input output
  let amountInput ← safeSub (w.balanceOf input pair) reserveInput
  getAmountOut amountInput reserveInput reserveOutput

/-- `_swapSupportingFeeOnTransferTokens(path, _to)`. -/
def swapSupportingFee (w : Dex) : List Address → Address → Call Dex
  | input :: output :: path, dst => do
    let amountOutput ← measure c w input output
    let receiver ← hopTo c output path dst
    let w ← hop c w input output amountOutput receiver
    swapSupportingFee w (output :: path) dst
  | _, _ => .ok w

/-- `swapExactTokensForTokensSupportingFeeOnTransferTokens(amountIn, amountOutMin, path, to,
    deadline)`. -/
def swapExactTokensForTokensSupportingFee (w : Dex) (sender : Address) (amountIn amountOutMin : Nat)
    (path : List Address) (dst : Address) (deadline : Nat) : Call Dex := do
  ensure w deadline
  let w ← payFirst c router w sender path amountIn
  let balanceBefore := w.balanceOf (path.getLastD 0) dst
  let w ← swapSupportingFee c w path dst
  let gained ← safeSub (w.balanceOf (path.getLastD 0) dst) balanceBefore
  failIf (gained < amountOutMin) (err "GembaSwapRouter: INSUFFICIENT_OUTPUT_AMOUNT")
  .ok w

end
end GembaSwapRouter02
end Gemba.GembaSwap
