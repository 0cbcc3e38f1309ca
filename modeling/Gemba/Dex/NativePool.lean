/-
  `GembaNativePool`: one ERC-20 paired with native GMB, constant product, the contract being its own
  LP token.

  Everything outside the pool is an oracle carried by the operation: what `token.balanceOf` answers
  before and after a transfer, whether a call into the token or to a recipient succeeds, and what is
  done to the pool meanwhile.  While one of the four guarded functions runs, the others revert
  (`nonReentrant`), so a re-entrant caller can only move LP tokens and force native GMB onto the
  contract; `Callback` is that.  The pool has no `receive`, so it cannot be the recipient of its own
  native sends.

  1. `addLiquidity_spec`, `removeLiquidity_spec`, … say what a successful operation did to the
     reserves, the supply and the balance.
  2. `addLiquidity_needed_le_iff`: the native side re-quoted after the pull fits in `msg.value`
     exactly when the tokens received, at the pool's ratio, are worth less than one unit more.  A
     token that credits more than was asked breaks this.
  3. `native_solvent`: along every run in which that holds of each `addLiquidity`, the recorded
     native reserve is covered by the balance.
-/
import Mathlib.Data.Nat.Sqrt
import Gemba.Lib.Runs
import Gemba.Evm.Erc20

namespace Gemba.Dex

open Gemba.Lib Gemba.Evm

/-- `MINIMUM_LIQUIDITY`. -/
def minimumLiquidity : Nat := 1000

/-- The address the first liquidity is locked at. -/
def deadAddress : Address := 0xdead

/-- The storage of the pool, and its native balance. -/
structure NativePool where
  reserveToken : Nat
  reserveNative : Nat
  /-- The LP token the contract is. -/
  lp : Erc20
  /-- `address(this).balance`. -/
  balance : Nat

/-- The pool after construction, at an address that may already hold native GMB. -/
def NativePool.deployed (balance : Nat) : NativePool := ⟨0, 0, .empty, balance⟩

/-- `msg.sender`, `msg.value` and `block.timestamp`. -/
structure Msg where
  sender : Address
  value : Nat
  timestamp : Nat

/-! ## What happens outside -/

/-- A call to the LP token. -/
inductive LpCall where
  | transfer (sender dst : Address) (value : Nat)
  | approve (sender spender : Address) (value : Nat)
  | transferFrom (sender src dst : Address) (value : Nat)

def LpCall.run (lp : Erc20) : LpCall → Call Erc20
  | .transfer sender dst value => lp.move sender dst value
  | .approve sender spender value => lp.approve sender spender value
  | .transferFrom sender src dst value => lp.transferFrom sender src dst value

/-- A call to another account: whether it succeeds, the LP calls made meanwhile (those that revert do
    nothing) and the native GMB forced onto the pool. -/
structure Callback where
  succeeds : Bool
  lpCalls : List LpCall
  forced : Nat

/-- An account that does nothing. -/
def Callback.quiet : Callback := ⟨true, [], 0⟩

/-- The LP token after a list of calls. -/
def runLpCalls (lp : Erc20) (calls : List LpCall) : Erc20 :=
  calls.foldl (fun lp c => (c.run lp).toOption.getD lp) lp

/-- The pool after a call to another account. -/
def NativePool.callOut (p : NativePool) (cb : Callback) (failure : Revert) : Call NativePool := do
  failIf (!cb.succeeds) failure
  .ok { p with lp := runLpCalls p.lp cb.lpCalls, balance := p.balance + cb.forced }

/-- A token transfer between two readings of `balanceOf`. -/
structure Transfer where
  balBefore : Nat
  call : Callback
  balAfter : Nat

/-! ## The contract -/

/-- `quote(amountA, reserveA, reserveB)`. -/
def quote (amountA reserveA reserveB : Nat) : Call Nat := do
  failIf (amountA = 0) (err "ZeroAmount")
  failIf (reserveA = 0 ∨ reserveB = 0) (err "InsufficientLiquidity")
  div (← mul amountA reserveB) reserveA

/-- `getAmountOut(amountIn, reserveIn, reserveOut)`: the output for an input with the 0.30% fee. -/
def getAmountOut (amountIn reserveIn reserveOut : Nat) : Call Nat := do
  failIf (amountIn = 0) (err "ZeroAmount")
  failIf (reserveIn = 0 ∨ reserveOut = 0) (err "InsufficientLiquidity")
  let amountInWithFee ← mul amountIn 997
  div (← mul amountInWithFee reserveOut) (← add (← mul reserveIn 1000) amountInWithFee)

/-- `_update(rToken, rNative)`. -/
def NativePool.update (p : NativePool) (rToken rNative : Nat) : NativePool :=
  { p with reserveToken := rToken, reserveNative := rNative }

section
variable (self : Address)

/-- `_sendNative(to, amount)`, `self` being the pool's own address, which takes no native GMB. -/
def NativePool.sendNative (p : NativePool) (dst : Address) (amount : Nat) (cb : Callback) :
    Call NativePool := do
  failIf (dst = self) (err "NativeSendFailed")
  failIf (p.balance < amount) (err "NativeSendFailed")
  { p with balance := p.balance - amount }.callOut cb (err "NativeSendFailed")

/-- The amounts at the optimal ratio, slippage-checked: what `addLiquidity` asks the token for, and
    the native side before the pull. -/
def NativePool.optimalAmounts (p : NativePool)
    (amountTokenDesired amountTokenMin amountNativeMin nativeIn : Nat) : Call (Nat × Nat) :=
  if p.lp.totalSupply = 0 then .ok (amountTokenDesired, nativeIn)
  else do
    let nativeOptimal ← quote amountTokenDesired p.reserveToken p.reserveNative
    if nativeOptimal ≤ nativeIn then do
      failIf (nativeOptimal < amountNativeMin) (err "InsufficientNativeAmount")
      .ok (amountTokenDesired, nativeOptimal)
    else do
      let tokenOptimal ← quote nativeIn p.reserveNative p.reserveToken
      failIf (tokenOptimal < amountTokenMin) (err "InsufficientTokenAmount")
      .ok (tokenOptimal, nativeIn)

/-- The liquidity for `amountToken` received, and the native side it takes.  On a positive supply the
    native side is re-quoted against what arrived; on an empty pool `MINIMUM_LIQUIDITY` is locked. -/
def NativePool.mintFor (p : NativePool) (supply amountToken amountNative amountNativeMin : Nat) :
    Call (Nat × Nat × NativePool) :=
  if supply = 0 then do
    let liquidity ← sub (Nat.sqrt (← mul amountToken amountNative)) minimumLiquidity
    let lp ← p.lp.mint deadAddress minimumLiquidity
    .ok (amountNative, liquidity, { p with lp := lp })
  else do
    let nativeNeeded ← quote amountToken p.reserveToken p.reserveNative
    failIf (nativeNeeded < amountNativeMin) (err "InsufficientNativeAmount")
    let byToken ← div (← mul amountToken supply) p.reserveToken
    let byNative ← div (← mul nativeNeeded supply) p.reserveNative
    .ok (nativeNeeded, min byToken byNative, p)

/-- What `addLiquidity` returns. -/
structure Added where
  amountToken : Nat
  amountNative : Nat
  liquidity : Nat

/-- `addLiquidity(amountTokenDesired, amountTokenMin, amountNativeMin, to, deadline)`; `pull` is the
    token's `transferFrom`, `refund` the refund of the unused native GMB. -/
def NativePool.addLiquidity (p : NativePool) (msg : Msg)
    (amountTokenDesired amountTokenMin amountNativeMin : Nat) (dst : Address) (deadline : Nat)
    (pull : Transfer) (refund : Callback) : Call (NativePool × Added) := do
  let p := { p with balance := p.balance + msg.value }
  failIf (deadline < msg.timestamp) (err "Expired")
  failIf (dst = 0) (err "ZeroAddress")
  let nativeIn := msg.value
  failIf (nativeIn = 0 ∨ amountTokenDesired = 0) (err "ZeroAmount")
  let supply := p.lp.totalSupply
  let (_, amountNative) ←
    p.optimalAmounts amountTokenDesired amountTokenMin amountNativeMin nativeIn
  -- credit only what actually arrived
  let p ← p.callOut pull.call .external
  let amountToken ← sub pull.balAfter pull.balBefore
  failIf (amountToken = 0) (err "ZeroAmount")
  let (amountNative, liquidity, p) ← p.mintFor supply amountToken amountNative amountNativeMin
  failIf (liquidity = 0) (err "InsufficientLiquidityMinted")
  let p := p.update (← add p.reserveToken amountToken) (← add p.reserveNative amountNative)
  let lp ← p.lp.mint dst liquidity
  let p := { p with lp := lp }
  let p ← (if amountNative < nativeIn
    then p.sendNative self msg.sender (nativeIn - amountNative) refund else .ok p)
  .ok (p, ⟨amountToken, amountNative, liquidity⟩)

/-- `removeLiquidity(liquidity, amountTokenMin, amountNativeMin, to, deadline)`. -/
def NativePool.removeLiquidity (p : NativePool) (msg : Msg)
    (liquidity amountTokenMin amountNativeMin : Nat) (dst : Address) (deadline : Nat)
    (push send : Callback) : Call (NativePool × Nat × Nat) := do
  failIf (msg.value ≠ 0) .external -- not payable
  failIf (deadline < msg.timestamp) (err "Expired")
  failIf (dst = 0) (err "ZeroAddress")
  failIf (liquidity = 0) (err "ZeroAmount")
  let supply := p.lp.totalSupply
  let amountToken ← div (← mul liquidity p.reserveToken) supply
  let amountNative ← div (← mul liquidity p.reserveNative) supply
  failIf (amountToken = 0 ∨ amountNative = 0) (err "InsufficientLiquidity")
  failIf (amountToken < amountTokenMin) (err "InsufficientTokenAmount")
  failIf (amountNative < amountNativeMin) (err "InsufficientNativeAmount")
  let lp ← p.lp.burn msg.sender liquidity
  let p := { p with lp := lp }
  let p := p.update (← sub p.reserveToken amountToken) (← sub p.reserveNative amountNative)
  let p ← p.callOut push .external
  let p ← p.sendNative self dst amountNative send
  .ok (p, amountToken, amountNative)

/-- `swapExactNativeForTokens(amountOutMin, to, deadline)`. -/
def NativePool.swapExactNativeForTokens (p : NativePool) (msg : Msg) (amountOutMin : Nat)
    (dst : Address) (deadline : Nat) (push : Transfer) : Call (NativePool × Nat) := do
  let p := { p with balance := p.balance + msg.value }
  failIf (deadline < msg.timestamp) (err "Expired")
  failIf (dst = 0) (err "ZeroAddress")
  let amountOut ← getAmountOut msg.value p.reserveNative p.reserveToken
  failIf (amountOut = 0) (err "InsufficientOutputAmount")
  let p := p.update (← sub p.reserveToken amountOut) (← add p.reserveNative msg.value)
  let p ← p.callOut push.call .external
  let received ← sub push.balAfter push.balBefore
  failIf (received < amountOutMin) (err "InsufficientOutputAmount")
  .ok (p, amountOut)

/-- `swapExactTokensForNative(amountIn, amountOutMin, to, deadline)`. -/
def NativePool.swapExactTokensForNative (p : NativePool) (msg : Msg) (amountIn amountOutMin : Nat)
    (dst : Address) (deadline : Nat) (pull : Transfer) (send : Callback) :
    Call (NativePool × Nat) := do
  failIf (msg.value ≠ 0) .external -- not payable
  failIf (deadline < msg.timestamp) (err "Expired")
  failIf (dst = 0) (err "ZeroAddress")
  failIf (amountIn = 0) (err "ZeroAmount")
  -- pull the input first, then size the swap from what actually arrived
  let p ← p.callOut pull.call .external
  let received ← sub pull.balAfter pull.balBefore
  let amountOut ← getAmountOut received p.reserveToken p.reserveNative
  failIf (amountOut = 0) (err "InsufficientOutputAmount")
  failIf (amountOut < amountOutMin) (err "InsufficientOutputAmount")
  let p := p.update (← add p.reserveToken received) (← sub p.reserveNative amountOut)
  let p ← p.sendNative self dst amountOut send
  .ok (p, amountOut)

end

variable {self : Address} {p p' : NativePool}

/-! ## What a successful operation did -/

theorem callOut_eq_ok {cb : Callback} {failure : Revert} :
    p.callOut cb failure = .ok p' ↔ cb.succeeds = true ∧
      p' = { p with lp := runLpCalls p.lp cb.lpCalls, balance := p.balance + cb.forced } := by
  rw [NativePool.callOut, bind_eq_ok]
  constructor
  · rintro ⟨⟨⟩, hok, h⟩
    injection h with h
    exact ⟨by simpa using hok, h.symm⟩
  · rintro ⟨hok, rfl⟩
    exact ⟨⟨⟩, by simp [hok], rfl⟩

theorem sendNative_eq_ok {dst : Address} {amount : Nat} {cb : Callback} :
    p.sendNative self dst amount cb = .ok p' ↔ dst ≠ self ∧ amount ≤ p.balance ∧
      cb.succeeds = true ∧ p' = { p with
        lp := runLpCalls p.lp cb.lpCalls, balance := p.balance - amount + cb.forced } := by
  rw [NativePool.sendNative, bind_eq_ok]
  constructor
  · rintro ⟨⟨⟩, hdst, h⟩
    obtain ⟨⟨⟩, hbal, h⟩ := bind_eq_ok.mp h
    rw [failIf_eq_ok] at hdst hbal
    obtain ⟨hok, hp⟩ := callOut_eq_ok.mp h
    exact ⟨hdst, by omega, hok, hp⟩
  · rintro ⟨hdst, hbal, hok, hp⟩
    refine ⟨⟨⟩, failIf_neg hdst, ?_⟩
    rw [failIf_neg (by omega), ok_bind]
    exact callOut_eq_ok.mpr ⟨hok, hp⟩

theorem quote_eq_ok {a x y c : Nat} :
    quote a x y = .ok c ↔ a ≠ 0 ∧ x ≠ 0 ∧ y ≠ 0 ∧ a * y < 2 ^ 256 ∧ c = a * y / x := by
  simp only [quote, bind_eq_ok, failIf_eq_ok, mul_eq_ok, div_eq_ok, not_or]
  constructor
  · rintro ⟨-, ha, -, ⟨hx, hy⟩, m, ⟨hm, rfl⟩, -, hc⟩
    exact ⟨ha, hx, hy, hm, hc⟩
  · rintro ⟨ha, hx, hy, hm, hc⟩
    exact ⟨⟨⟩, ha, ⟨⟩, ⟨hx, hy⟩, _, ⟨hm, rfl⟩, hx, hc⟩

theorem getAmountOut_eq_ok {a x y c : Nat} (h : getAmountOut a x y = .ok c) :
    a ≠ 0 ∧ x ≠ 0 ∧ y ≠ 0 ∧ c = a * 997 * y / (x * 1000 + a * 997) := by
  simp only [getAmountOut, bind_eq_ok, failIf_eq_ok, mul_eq_ok, add_eq_ok, div_eq_ok, not_or] at h
  obtain ⟨-, ha, -, ⟨hx, hy⟩, fee, ⟨-, rfl⟩, num, ⟨-, rfl⟩, den, ⟨-, rfl⟩, sum, ⟨-, rfl⟩, -, hc⟩ := h
  exact ⟨ha, hx, hy, hc⟩

/-- An LP call leaves the supply alone. -/
theorem LpCall.run_totalSupply {lp lp' : Erc20} {c : LpCall} (h : c.run lp = .ok lp') :
    lp'.totalSupply = lp.totalSupply := by
  cases c with
  | transfer sender dst value => exact Erc20.move_totalSupply h
  | approve sender spender value => exact Erc20.approve_totalSupply h
  | transferFrom sender src dst value => exact Erc20.transferFrom_totalSupply h

/-- LP calls made by others leave the supply alone. -/
theorem runLpCalls_totalSupply (lp : Erc20) (calls : List LpCall) :
    (runLpCalls lp calls).totalSupply = lp.totalSupply := by
  induction calls generalizing lp with
  | nil => rfl
  | cons c calls ih =>
    show (runLpCalls ((c.run lp).toOption.getD lp) calls).totalSupply = _
    rw [ih]
    cases hc : c.run lp with
    | error e => rfl
    | ok lp' => exact LpCall.run_totalSupply hc

/-- What a successful `addLiquidity` did: the tokens that arrived and the native side went into the
    reserves, what was left of `msg.value` went back. -/
structure AddSpec (p p' : NativePool) (value received : Nat) (r : Added) : Prop where
  amountToken : r.amountToken = received
  received_pos : 0 < received
  first : p.lp.totalSupply = 0 → r.amountNative = value ∧
    r.liquidity + minimumLiquidity = Nat.sqrt (received * value)
  later : p.lp.totalSupply ≠ 0 → 0 < p.reserveToken ∧ 0 < p.reserveNative ∧
    r.amountNative = received * p.reserveNative / p.reserveToken ∧
    r.liquidity = min (received * p.lp.totalSupply / p.reserveToken)
      (r.amountNative * p.lp.totalSupply / p.reserveNative)
  liquidity_pos : 0 < r.liquidity
  reserveToken : p'.reserveToken = p.reserveToken + received
  reserveNative : p'.reserveNative = p.reserveNative + r.amountNative
  totalSupply : p'.lp.totalSupply = p.lp.totalSupply + r.liquidity +
    if p.lp.totalSupply = 0 then minimumLiquidity else 0
  balance : p.balance + value ≤ p'.balance + (value - r.amountNative)

/-- The liquidity on an empty pool: the reserves do not move, the minimum is locked. -/
theorem mintFor_first {amountToken amountNative amountNativeMin n liquidity : Nat}
    (h : p.mintFor 0 amountToken amountNative amountNativeMin = .ok (n, liquidity, p')) :
    n = amountNative ∧ liquidity + minimumLiquidity = Nat.sqrt (amountToken * amountNative) ∧
      p'.lp.totalSupply = p.lp.totalSupply + minimumLiquidity ∧
      p' = { p with lp := p'.lp } := by
  rw [NativePool.mintFor, if_pos rfl] at h
  obtain ⟨m, hm, h⟩ := bind_eq_ok.mp h
  obtain ⟨l, hl, h⟩ := bind_eq_ok.mp h
  obtain ⟨lp, hlp, h⟩ := bind_eq_ok.mp h
  injection h with h
  injection h with hn h
  injection h with hliq hp
  obtain ⟨-, rfl⟩ := mul_eq_ok.mp hm
  have hle := (sub_eq_ok.mp hl).1
  have hdiff := (sub_eq_ok.mp hl).2
  subst hn hliq hp
  exact ⟨rfl, by omega, Erc20.mint_totalSupply hlp, rfl⟩

/-- The liquidity on a positive supply: the native side is the quote of what arrived. -/
theorem mintFor_later {supply amountToken amountNative amountNativeMin n liquidity : Nat}
    (hs : supply ≠ 0)
    (h : p.mintFor supply amountToken amountNative amountNativeMin = .ok (n, liquidity, p')) :
    0 < p.reserveToken ∧ 0 < p.reserveNative ∧ amountNativeMin ≤ n ∧
      n = amountToken * p.reserveNative / p.reserveToken ∧
      liquidity = min (amountToken * supply / p.reserveToken) (n * supply / p.reserveNative) ∧
      p' = p := by
  rw [NativePool.mintFor, if_neg hs] at h
  obtain ⟨needed, hq, h⟩ := bind_eq_ok.mp h
  obtain ⟨-, hrT, hrN, -, rfl⟩ := quote_eq_ok.mp hq
  obtain ⟨⟨⟩, hmin, h⟩ := bind_eq_ok.mp h
  obtain ⟨m₁, hm₁, h⟩ := bind_eq_ok.mp h
  obtain ⟨d₁, hd₁, h⟩ := bind_eq_ok.mp h
  obtain ⟨m₂, hm₂, h⟩ := bind_eq_ok.mp h
  obtain ⟨d₂, hd₂, h⟩ := bind_eq_ok.mp h
  injection h with h
  injection h with hn h
  injection h with hliq hp
  obtain ⟨-, rfl⟩ := mul_eq_ok.mp hm₁
  obtain ⟨-, rfl⟩ := div_eq_ok.mp hd₁
  obtain ⟨-, rfl⟩ := mul_eq_ok.mp hm₂
  obtain ⟨-, rfl⟩ := div_eq_ok.mp hd₂
  rw [failIf_eq_ok] at hmin
  subst hn hliq hp
  exact ⟨by omega, by omega, by omega, rfl, rfl, rfl⟩

/-- **What `addLiquidity` does.** -/
theorem addLiquidity_spec {msg : Msg} {desired tokenMin nativeMin : Nat} {dst : Address}
    {deadline : Nat} {pull : Transfer} {refund : Callback} {r : Added}
    (h : p.addLiquidity self msg desired tokenMin nativeMin dst deadline pull refund
      = .ok (p', r)) :
    AddSpec p p' msg.value (pull.balAfter - pull.balBefore) r := by
  obtain ⟨-, h⟩ := failIf_bind_eq_ok.mp h
  obtain ⟨-, h⟩ := failIf_bind_eq_ok.mp h
  obtain ⟨⟨⟩, hvalue, h⟩ := bind_eq_ok.mp h
  obtain ⟨⟨asked, before⟩, hopt, h⟩ := bind_eq_ok.mp h
  obtain ⟨p₁, hpull, h⟩ := bind_eq_ok.mp h
  obtain ⟨received, hreceived, h⟩ := bind_eq_ok.mp h
  obtain ⟨⟨⟩, hpos, h⟩ := bind_eq_ok.mp h
  obtain ⟨⟨n, liquidity, p₂⟩, hmint, h⟩ := bind_eq_ok.mp h
  obtain ⟨⟨⟩, hliq, h⟩ := bind_eq_ok.mp h
  obtain ⟨rT, hrT, h⟩ := bind_eq_ok.mp h
  obtain ⟨rN, hrN, h⟩ := bind_eq_ok.mp h
  obtain ⟨lp, hlp, h⟩ := bind_eq_ok.mp h
  obtain ⟨p₃, hrefund, h⟩ := bind_eq_ok.mp h
  obtain ⟨rfl, rfl⟩ := ok_pair h
  rw [failIf_eq_ok] at hvalue hpos hliq
  obtain ⟨-, rfl⟩ := callOut_eq_ok.mp hpull
  obtain ⟨-, rfl⟩ := sub_eq_ok.mp hreceived
  obtain ⟨-, rfl⟩ := add_eq_ok.mp hrT
  obtain ⟨-, rfl⟩ := add_eq_ok.mp hrN
  have hminted := Erc20.mint_totalSupply hlp
  have hpulled : (runLpCalls p.lp pull.call.lpCalls).totalSupply = p.lp.totalSupply :=
    runLpCalls_totalSupply _ _
  -- the refund returns the rest of `msg.value` and touches nothing else the specification names
  have hback : p₃.reserveToken = p₂.reserveToken + (pull.balAfter - pull.balBefore) ∧
      p₃.reserveNative = p₂.reserveNative + n ∧ p₃.lp.totalSupply = p₂.lp.totalSupply + liquidity ∧
      p₂.balance ≤ p₃.balance + (msg.value - n) := by
    by_cases hlt : n < msg.value
    · rw [if_pos hlt] at hrefund
      obtain ⟨-, hle, -, rfl⟩ := sendNative_eq_ok.mp hrefund
      refine ⟨rfl, rfl, (runLpCalls_totalSupply _ _).trans hminted, ?_⟩
      show p₂.balance ≤ p₂.balance - (msg.value - n) + refund.forced + (msg.value - n)
      omega
    · rw [if_neg hlt] at hrefund
      injection hrefund with hrefund
      subst hrefund
      exact ⟨rfl, rfl, hminted, Nat.le_add_right _ _⟩
  obtain ⟨hrT', hrN', hsupply', hbalance'⟩ := hback
  by_cases hs : p.lp.totalSupply = 0
  · have hbefore : before = msg.value := by
      rw [NativePool.optimalAmounts, if_pos hs] at hopt
      injection hopt with hopt
      injection hopt with _ hopt
      exact hopt.symm
    rw [show ({ p with balance := p.balance + msg.value } : NativePool).lp.totalSupply = 0 from hs]
      at hmint
    obtain ⟨hn, hfirst, hlocked, hkeep⟩ := mintFor_first hmint
    rw [hkeep] at hrT' hrN' hbalance'
    refine ⟨rfl, Nat.pos_of_ne_zero hpos, fun _ => ⟨hn.trans hbefore, ?_⟩, fun hc => absurd hs hc,
      Nat.pos_of_ne_zero hliq, hrT', hrN', ?_, ?_⟩
    · rw [hbefore] at hfirst
      exact hfirst
    · rw [if_pos hs, hsupply', hlocked]
      show (runLpCalls p.lp pull.call.lpCalls).totalSupply + minimumLiquidity + liquidity
        = p.lp.totalSupply + liquidity + minimumLiquidity
      omega
    · have : p.balance + msg.value + pull.call.forced ≤ p₃.balance + (msg.value - n) := hbalance'
      show p.balance + msg.value ≤ p₃.balance + (msg.value - n)
      omega
  · obtain ⟨hT, hN, -, hneeded, hliquidity, hkeep⟩ := mintFor_later hs hmint
    rw [hkeep] at hrT' hrN' hsupply' hbalance'
    refine ⟨rfl, Nat.pos_of_ne_zero hpos, fun hc => absurd hc hs,
      fun _ => ⟨hT, hN, hneeded, hliquidity⟩, Nat.pos_of_ne_zero hliq, hrT', hrN', ?_, ?_⟩
    · rw [if_neg hs, hsupply']
      show (runLpCalls p.lp pull.call.lpCalls).totalSupply + liquidity
        = p.lp.totalSupply + liquidity + 0
      omega
    · have : p.balance + msg.value + pull.call.forced ≤ p₃.balance + (msg.value - n) := hbalance'
      show p.balance + msg.value ≤ p₃.balance + (msg.value - n)
      omega

/-- **What `removeLiquidity` does**: the shares of both reserves leave, the LP is burned. -/
theorem removeLiquidity_spec {msg : Msg} {liquidity tokenMin nativeMin : Nat} {dst : Address}
    {deadline : Nat} {push send : Callback} {aT aN : Nat}
    (h : p.removeLiquidity self msg liquidity tokenMin nativeMin dst deadline push send
      = .ok (p', aT, aN)) :
    aT = liquidity * p.reserveToken / p.lp.totalSupply ∧
    aN = liquidity * p.reserveNative / p.lp.totalSupply ∧ 0 < liquidity ∧ 0 < aT ∧ 0 < aN ∧
    p.reserveToken = p'.reserveToken + aT ∧ p.reserveNative = p'.reserveNative + aN ∧
    p'.lp.totalSupply = p.lp.totalSupply - liquidity ∧ p.balance ≤ p'.balance + aN := by
  obtain ⟨-, h⟩ := failIf_bind_eq_ok.mp h
  obtain ⟨-, h⟩ := failIf_bind_eq_ok.mp h
  obtain ⟨-, h⟩ := failIf_bind_eq_ok.mp h
  obtain ⟨⟨⟩, hliq, h⟩ := bind_eq_ok.mp h
  obtain ⟨m₁, hm₁, h⟩ := bind_eq_ok.mp h
  obtain ⟨d₁, hd₁, h⟩ := bind_eq_ok.mp h
  obtain ⟨m₂, hm₂, h⟩ := bind_eq_ok.mp h
  obtain ⟨d₂, hd₂, h⟩ := bind_eq_ok.mp h
  obtain ⟨⟨⟩, hpos, h⟩ := bind_eq_ok.mp h
  obtain ⟨-, h⟩ := failIf_bind_eq_ok.mp h
  obtain ⟨-, h⟩ := failIf_bind_eq_ok.mp h
  obtain ⟨lp, hlp, h⟩ := bind_eq_ok.mp h
  obtain ⟨rT, hrT, h⟩ := bind_eq_ok.mp h
  obtain ⟨rN, hrN, h⟩ := bind_eq_ok.mp h
  obtain ⟨p₁, hpush, h⟩ := bind_eq_ok.mp h
  obtain ⟨p₂, hsend, h⟩ := bind_eq_ok.mp h
  injection h with h
  injection h with hp h
  injection h with haT haN
  subst hp haT haN
  rw [failIf_eq_ok] at hliq hpos
  obtain ⟨-, rfl⟩ := mul_eq_ok.mp hm₁
  obtain ⟨-, hq₁⟩ := div_eq_ok.mp hd₁
  obtain ⟨-, rfl⟩ := mul_eq_ok.mp hm₂
  obtain ⟨-, hq₂⟩ := div_eq_ok.mp hd₂
  obtain ⟨hleT, rfl⟩ := sub_eq_ok.mp hrT
  obtain ⟨hleN, rfl⟩ := sub_eq_ok.mp hrN
  obtain ⟨-, rfl⟩ := callOut_eq_ok.mp hpush
  obtain ⟨-, hbal, -, rfl⟩ := sendNative_eq_ok.mp hsend
  have hbal' : d₂ ≤ p.balance + push.forced := hbal
  have hleT' : d₁ ≤ p.reserveToken := hleT
  have hleN' : d₂ ≤ p.reserveNative := hleN
  refine ⟨hq₁, hq₂, by omega, by omega, by omega, ?_, ?_, ?_, ?_⟩
  · show p.reserveToken = p.reserveToken - d₁ + d₁
    omega
  · show p.reserveNative = p.reserveNative - d₂ + d₂
    omega
  · show (runLpCalls (runLpCalls lp push.lpCalls) send.lpCalls).totalSupply = _
    rw [runLpCalls_totalSupply, runLpCalls_totalSupply, Erc20.burn_totalSupply hlp]
  · show p.balance ≤ p.balance + push.forced - d₂ + send.forced + d₂
    omega

/-- **What `swapExactNativeForTokens` does.** -/
theorem swapExactNativeForTokens_spec {msg : Msg} {outMin : Nat} {dst : Address} {deadline : Nat}
    {push : Transfer} {out : Nat}
    (h : p.swapExactNativeForTokens msg outMin dst deadline push = .ok (p', out)) :
    getAmountOut msg.value p.reserveNative p.reserveToken = .ok out ∧ 0 < out ∧
    p.reserveToken = p'.reserveToken + out ∧ p'.reserveNative = p.reserveNative + msg.value ∧
    p'.lp.totalSupply = p.lp.totalSupply ∧ p.balance + msg.value ≤ p'.balance := by
  obtain ⟨-, h⟩ := failIf_bind_eq_ok.mp h
  obtain ⟨-, h⟩ := failIf_bind_eq_ok.mp h
  obtain ⟨amountOut, hout, h⟩ := bind_eq_ok.mp h
  obtain ⟨⟨⟩, hpos, h⟩ := bind_eq_ok.mp h
  obtain ⟨rT, hrT, h⟩ := bind_eq_ok.mp h
  obtain ⟨rN, hrN, h⟩ := bind_eq_ok.mp h
  obtain ⟨p₁, hpush, h⟩ := bind_eq_ok.mp h
  obtain ⟨received, -, h⟩ := bind_eq_ok.mp h
  obtain ⟨-, h⟩ := failIf_bind_eq_ok.mp h
  obtain ⟨rfl, rfl⟩ := ok_pair h
  rw [failIf_eq_ok] at hpos
  obtain ⟨hle, rfl⟩ := sub_eq_ok.mp hrT
  obtain ⟨-, rfl⟩ := add_eq_ok.mp hrN
  obtain ⟨-, rfl⟩ := callOut_eq_ok.mp hpush
  have hle' : amountOut ≤ p.reserveToken := hle
  refine ⟨hout, by omega, ?_, rfl, runLpCalls_totalSupply _ _, Nat.le_add_right _ _⟩
  show p.reserveToken = p.reserveToken - amountOut + amountOut
  omega

/-- **What `swapExactTokensForNative` does.** -/
theorem swapExactTokensForNative_spec {msg : Msg} {amountIn outMin : Nat} {dst : Address}
    {deadline : Nat} {pull : Transfer} {send : Callback} {out : Nat}
    (h : p.swapExactTokensForNative self msg amountIn outMin dst deadline pull send
      = .ok (p', out)) :
    getAmountOut (pull.balAfter - pull.balBefore) p.reserveToken p.reserveNative = .ok out ∧
    0 < out ∧ p'.reserveToken = p.reserveToken + (pull.balAfter - pull.balBefore) ∧
    p.reserveNative = p'.reserveNative + out ∧ p'.lp.totalSupply = p.lp.totalSupply ∧
    p.balance ≤ p'.balance + out := by
  obtain ⟨-, h⟩ := failIf_bind_eq_ok.mp h
  obtain ⟨-, h⟩ := failIf_bind_eq_ok.mp h
  obtain ⟨-, h⟩ := failIf_bind_eq_ok.mp h
  obtain ⟨-, h⟩ := failIf_bind_eq_ok.mp h
  obtain ⟨p₁, hpull, h⟩ := bind_eq_ok.mp h
  obtain ⟨received, hreceived, h⟩ := bind_eq_ok.mp h
  obtain ⟨amountOut, hout, h⟩ := bind_eq_ok.mp h
  obtain ⟨⟨⟩, hpos, h⟩ := bind_eq_ok.mp h
  obtain ⟨-, h⟩ := failIf_bind_eq_ok.mp h
  obtain ⟨rT, hrT, h⟩ := bind_eq_ok.mp h
  obtain ⟨rN, hrN, h⟩ := bind_eq_ok.mp h
  obtain ⟨p₂, hsend, h⟩ := bind_eq_ok.mp h
  obtain ⟨rfl, rfl⟩ := ok_pair h
  rw [failIf_eq_ok] at hpos
  obtain ⟨-, rfl⟩ := callOut_eq_ok.mp hpull
  obtain ⟨-, rfl⟩ := sub_eq_ok.mp hreceived
  obtain ⟨-, rfl⟩ := add_eq_ok.mp hrT
  obtain ⟨hle, rfl⟩ := sub_eq_ok.mp hrN
  obtain ⟨-, hbal, -, rfl⟩ := sendNative_eq_ok.mp hsend
  have hle' : amountOut ≤ p.reserveNative := hle
  have hbal' : amountOut ≤ p.balance + pull.call.forced := hbal
  refine ⟨hout, by omega, rfl, ?_, ?_, ?_⟩
  · show p.reserveNative = p.reserveNative - amountOut + amountOut
    omega
  · show (runLpCalls (runLpCalls p.lp pull.call.lpCalls) send.lpCalls).totalSupply = _
    rw [runLpCalls_totalSupply, runLpCalls_totalSupply]
  · show p.balance ≤ p.balance + pull.call.forced - amountOut + send.forced + amountOut
    omega

/-! ## Runs -/

/-- A transaction that reaches the pool, with the answers of everything outside it. -/
inductive Op where
  | addLiquidity (msg : Msg) (amountTokenDesired amountTokenMin amountNativeMin : Nat)
      (dst : Address) (deadline : Nat) (pull : Transfer) (refund : Callback)
  | removeLiquidity (msg : Msg) (liquidity amountTokenMin amountNativeMin : Nat) (dst : Address)
      (deadline : Nat) (push send : Callback)
  | swapExactNativeForTokens (msg : Msg) (amountOutMin : Nat) (dst : Address) (deadline : Nat)
      (push : Transfer)
  | swapExactTokensForNative (msg : Msg) (amountIn amountOutMin : Nat) (dst : Address)
      (deadline : Nat) (pull : Transfer) (send : Callback)
  | lp (call : LpCall)
  /-- Native GMB forced onto the contract (`selfdestruct`). -/
  | force (amount : Nat)

/-- The pool with the record of its `addLiquidity` calls: `msg.value`, and what was returned. -/
structure World where
  pool : NativePool
  added : List (Nat × Added)

/-- One successful transaction; a reverted one changes nothing. -/
def step (self : Address) (w : World) : Op → Call World
  | .addLiquidity msg desired tokenMin nativeMin dst deadline pull refund => do
    let (p, r) ← w.pool.addLiquidity self msg desired tokenMin nativeMin dst deadline pull refund
    .ok ⟨p, w.added ++ [(msg.value, r)]⟩
  | .removeLiquidity msg liquidity tokenMin nativeMin dst deadline push send => do
    let (p, _) ← w.pool.removeLiquidity self msg liquidity tokenMin nativeMin dst deadline push send
    .ok { w with pool := p }
  | .swapExactNativeForTokens msg outMin dst deadline push => do
    let (p, _) ← w.pool.swapExactNativeForTokens msg outMin dst deadline push
    .ok { w with pool := p }
  | .swapExactTokensForNative msg amountIn outMin dst deadline pull send => do
    let (p, _) ← w.pool.swapExactTokensForNative self msg amountIn outMin dst deadline pull send
    .ok { w with pool := p }
  | .lp call => do
    let lp ← call.run w.pool.lp
    .ok { w with pool := { w.pool with lp := lp } }
  | .force amount => .ok { w with pool := { w.pool with balance := w.pool.balance + amount } }

/-! ## Native solvency -/

/-- The tokens an `addLiquidity` on a positive supply receives are worth, at the pool's ratio, less
    than one unit of native GMB more than was sent along. -/
def ReceivesWithinValue (w : World) : Op → Prop
  | .addLiquidity msg _ _ _ _ _ pull _ => w.pool.lp.totalSupply ≠ 0 →
    (pull.balAfter - pull.balBefore) * w.pool.reserveNative < (msg.value + 1) * w.pool.reserveToken
  | _ => True

instance (w : World) : (op : Op) → Decidable (ReceivesWithinValue w op)
  | .addLiquidity msg _ _ _ _ _ pull _ =>
    inferInstanceAs (Decidable (w.pool.lp.totalSupply ≠ 0 →
      (pull.balAfter - pull.balBefore) * w.pool.reserveNative
        < (msg.value + 1) * w.pool.reserveToken))
  | .removeLiquidity .. => .isTrue trivial
  | .swapExactNativeForTokens .. => .isTrue trivial
  | .swapExactTokensForNative .. => .isTrue trivial
  | .lp .. => .isTrue trivial
  | .force .. => .isTrue trivial

/-- The recorded native reserve is covered by the balance, and no `addLiquidity` took more native GMB
    than it was sent. -/
structure NativeSolvent (w : World) : Prop where
  covered : w.pool.reserveNative ≤ w.pool.balance
  added : ∀ a ∈ w.added, a.2.amountNative ≤ a.1

/-- **When the re-quoted native side fits.**  Of a successful `addLiquidity` on a positive supply:
    exactly when the tokens received are worth less than `msg.value + 1`. -/
theorem addLiquidity_needed_le_iff {value received : Nat} {r : Added}
    (h : AddSpec p p' value received r) (hs : p.lp.totalSupply ≠ 0) :
    r.amountNative ≤ value ↔ received * p.reserveNative < (value + 1) * p.reserveToken := by
  obtain ⟨hT, -, hneeded, -⟩ := h.later hs
  rw [hneeded, ← Nat.lt_succ_iff, Nat.div_lt_iff_lt_mul hT]

/-- A token that credits at most what it was asked for meets the condition. -/
theorem within_value_of_le_asked {desired tokenMin nativeMin nativeIn asked before received : Nat}
    (h : p.optimalAmounts desired tokenMin nativeMin nativeIn = .ok (asked, before))
    (hs : p.lp.totalSupply ≠ 0) (hle : received ≤ asked) :
    received * p.reserveNative < (nativeIn + 1) * p.reserveToken := by
  rw [NativePool.optimalAmounts, if_neg hs] at h
  obtain ⟨nativeOptimal, hq, h⟩ := bind_eq_ok.mp h
  obtain ⟨-, hT, hN, -, rfl⟩ := quote_eq_ok.mp hq
  have hmul : received * p.reserveNative ≤ asked * p.reserveNative := Nat.mul_le_mul_right _ hle
  by_cases hopt : desired * p.reserveNative / p.reserveToken ≤ nativeIn
  · -- the desired tokens at the pool's ratio fit in the value
    rw [if_pos hopt] at h
    obtain ⟨-, h⟩ := failIf_bind_eq_ok.mp h
    obtain ⟨rfl, -⟩ := ok_pair h
    have := (Nat.div_lt_iff_lt_mul (by omega)).mp (Nat.lt_succ_of_le hopt)
    show _ < nativeIn.succ * p.reserveToken
    omega
  · -- the value at the pool's ratio is what was asked
    rw [if_neg hopt] at h
    obtain ⟨tokenOptimal, hq', h⟩ := bind_eq_ok.mp h
    obtain ⟨-, -, -, -, rfl⟩ := quote_eq_ok.mp hq'
    obtain ⟨-, h⟩ := failIf_bind_eq_ok.mp h
    injection h with h
    injection h with hasked
    have hle' : asked * p.reserveNative ≤ nativeIn * p.reserveToken := by
      rw [← hasked]
      exact Nat.div_mul_le_self _ _
    have hsucc : nativeIn * p.reserveToken < (nativeIn + 1) * p.reserveToken := by
      rw [Nat.succ_mul]
      omega
    omega

/-- One step keeps solvency, as long as an `addLiquidity` receives no more than its value. -/
theorem nativeSolvent_step {w w' : World} {op : Op} (hw : NativeSolvent w)
    (hop : ReceivesWithinValue w op) (h : step self w op = .ok w') : NativeSolvent w' := by
  obtain ⟨hcov, hadded⟩ := hw
  cases op with
  | addLiquidity msg desired tokenMin nativeMin dst deadline pull refund =>
    obtain ⟨⟨p, r⟩, hadd, h⟩ := bind_eq_ok.mp h
    injection h with h
    subst h
    have hspec := addLiquidity_spec hadd
    have hfits : r.amountNative ≤ msg.value := by
      by_cases hs : w.pool.lp.totalSupply = 0
      · exact Nat.le_of_eq (hspec.first hs).1
      · exact (addLiquidity_needed_le_iff hspec hs).mpr (hop hs)
    have hbalance := hspec.balance
    have hreserve := hspec.reserveNative
    refine ⟨?_, ?_⟩
    · show p.reserveNative ≤ p.balance
      omega
    · intro a ha
      rcases List.mem_append.mp ha with ha | ha
      · exact hadded a ha
      · rw [List.mem_singleton.mp ha]
        exact hfits
  | removeLiquidity msg liquidity tokenMin nativeMin dst deadline push send =>
    obtain ⟨⟨p, aT, aN⟩, hrem, h⟩ := bind_eq_ok.mp h
    injection h with h
    subst h
    obtain ⟨-, -, -, -, -, -, hreserve, -, hbalance⟩ := removeLiquidity_spec hrem
    refine ⟨?_, hadded⟩
    show p.reserveNative ≤ p.balance
    omega
  | swapExactNativeForTokens msg outMin dst deadline push =>
    obtain ⟨⟨p, out⟩, hswap, h⟩ := bind_eq_ok.mp h
    injection h with h
    subst h
    obtain ⟨-, -, -, hreserve, -, hbalance⟩ := swapExactNativeForTokens_spec hswap
    refine ⟨?_, hadded⟩
    show p.reserveNative ≤ p.balance
    omega
  | swapExactTokensForNative msg amountIn outMin dst deadline pull send =>
    obtain ⟨⟨p, out⟩, hswap, h⟩ := bind_eq_ok.mp h
    injection h with h
    subst h
    obtain ⟨-, -, -, hreserve, -, hbalance⟩ := swapExactTokensForNative_spec hswap
    refine ⟨?_, hadded⟩
    show p.reserveNative ≤ p.balance
    omega
  | lp call =>
    obtain ⟨lp, -, h⟩ := bind_eq_ok.mp h
    injection h with h
    subst h
    exact ⟨hcov, hadded⟩
  | force amount =>
    injection h with h
    subst h
    exact ⟨Nat.le_trans hcov (Nat.le_add_right _ _), hadded⟩

/-- **Native solvency.**  Along every run from deployment in which each `addLiquidity` receives no
    more than its value, whatever the token and the recipients do: the recorded native reserve is
    covered by the balance, and no `addLiquidity` took more native GMB than it was sent. -/
theorem native_solvent {balance : Nat} {ops : List Op} {w : World}
    (hrun : Run (step self) ReceivesWithinValue ⟨.deployed balance, []⟩ ops w) :
    NativeSolvent w :=
  hrun.inv NativeSolvent ⟨Nat.zero_le _, fun _ ha => absurd ha List.not_mem_nil⟩
    (fun _ _ _ hw hop h => nativeSolvent_step hw hop h)

/-! ### Two runs -/

def poolAddress : Address := 0x9001
def alice : Address := 0xa11ce
def mallory : Address := 0x3a110

/-- Alice opens the pool with 10,000 tokens and 10,000 agmb. -/
def openPool : Op :=
  .addLiquidity ⟨alice, 10000, 0⟩ 10000 0 0 alice 0 ⟨0, .quiet, 10000⟩ .quiet

/-- `sender` adds 100 tokens and 100 agmb; the token credits `credited`. -/
def addHundred (sender : Address) (credited : Nat) : Op :=
  .addLiquidity ⟨sender, 100, 0⟩ 100 0 0 sender 0 ⟨10000, .quiet, 10000 + credited⟩ .quiet

/-- With a fee-on-transfer token that delivers 90 of 100. -/
theorem native_solvent_feeOnTransfer :
    ∃ w, Run (step poolAddress) ReceivesWithinValue ⟨.deployed 0, []⟩
        [openPool, addHundred alice 90] w ∧
      NativeSolvent w := by
  have hview : (runM (step poolAddress) ⟨.deployed 0, []⟩ [openPool, addHundred alice 90]).map
      (fun w => w.pool.reserveNative) = .ok 10090 := by
    decide +kernel
  have hallowed : allowedM (step poolAddress) ReceivesWithinValue ⟨.deployed 0, []⟩
      [openPool, addHundred alice 90] := by
    decide +kernel
  obtain ⟨w, hrun, -⟩ := Run.of_runM_map hallowed hview
  exact ⟨w, hrun, native_solvent hrun⟩

/-- **A generous token breaks solvency.**  Asked for 100 tokens, it credits 200; the pool records 200
    agmb for the 100 it was sent, and its native reserve is more than it holds. -/
theorem generous_token_breaks_solvency :
    ∃ w, Run (step poolAddress) (fun _ _ => True) ⟨.deployed 0, []⟩
        [openPool, addHundred mallory 200] w ∧
      w.pool.reserveNative = 10200 ∧ w.pool.balance = 10100 ∧ ¬ NativeSolvent w := by
  have hview : (runM (step poolAddress) ⟨.deployed 0, []⟩
      [openPool, addHundred mallory 200]).map
      (fun w => (w.pool.reserveNative, w.pool.balance)) = .ok (10200, 10100) := by
    decide +kernel
  obtain ⟨w, hrun, hview⟩ := Run.of_runM_map
    (allowedM_of_forall (fun _ _ _ => trivial)) hview
  injection hview with hreserve hbalance
  refine ⟨w, hrun, hreserve, hbalance, ?_⟩
  rintro ⟨hcovered, -⟩
  omega

end Gemba.Dex
