/-
  `GembaSwapPair`: two tokens at a constant product, and the LP token over them.

  `mint` and `sync` only read other contracts.  `burn`, `swap` and `skim` call the tokens, and `swap`
  its receiver, so each is cut where it calls: `burnStart` and `burnEnd` are what is done before the
  first transfer and after the last, and so on.  The balances of the pair in its tokens and `feeTo` of
  the factory are arguments.

  A `uint112` is stored in one slot with its neighbour; `Reserves` carries the two bounds, which
  `update` is the only one to establish.

  Each function has one lemma that says what a call that goes through did.
-/
import Mathlib.Data.Nat.ModEq
import Mathlib.Tactic.Ring
import Gemba.Lib.Babylonian
import Gemba.GembaSwap.ERC20

namespace Gemba.GembaSwap

open Gemba.Lib Gemba.Evm

/-- `MINIMUM_LIQUIDITY`. -/
def MINIMUM_LIQUIDITY : Nat := 10 ^ 3

/-- `Math.sqrt(y)`. -/
def sqrt (y : Nat) : Nat := babylonian y

/-! ## UQ112x112 -/

/-- `encode(y)`. -/
def encode (y : Nat) : Nat := y * 2 ^ 112

/-- `x.uqdiv(y)`. -/
def uqdiv (x y : Nat) : Nat := x / y

/-! ## The storage -/

/-- `reserve0` and `reserve1`. -/
structure Reserves where
  reserve0 : Nat
  reserve1 : Nat
  fits0 : reserve0 < 2 ^ 112
  fits1 : reserve1 < 2 ^ 112

/-- Their product. -/
def Reserves.k (r : Reserves) : Nat := r.reserve0 * r.reserve1

structure GembaSwapPair where
  lp : ERC20
  factory : Address
  token0 : Address
  token1 : Address
  reserves : Reserves
  blockTimestampLast : Nat
  price0CumulativeLast : Nat
  price1CumulativeLast : Nat
  kLast : Nat
  unlocked : Bool

namespace GembaSwapPair

/-- The constructor. -/
def new (factory : Address) : GembaSwapPair :=
  { lp := ERC20.empty, factory, token0 := 0, token1 := 0,
    reserves := ⟨0, 0, Nat.two_pow_pos 112, Nat.two_pow_pos 112⟩, blockTimestampLast := 0,
    price0CumulativeLast := 0, price1CumulativeLast := 0, kLast := 0, unlocked := true }

/-- `initialize(_token0, _token1)`. -/
def initializePair (p : GembaSwapPair) (sender token0 token1 : Address) : Call GembaSwapPair := do
  failIf (sender ≠ p.factory) (err "GembaSwap: FORBIDDEN")
  .ok { p with token0, token1 }

/-- The first line of `lock`. -/
def lock (p : GembaSwapPair) : Call GembaSwapPair := do
  failIf (p.unlocked = false) (err "GembaSwap: LOCKED")
  .ok { p with unlocked := false }

/-- Its last line. -/
def unlock (p : GembaSwapPair) : GembaSwapPair := { p with unlocked := true }

/-- What `_update` adds to the accumulators: the prices of `r` for `timeElapsed` seconds. -/
def accumulate (p : GembaSwapPair) (r : Reserves) (timeElapsed : Nat) : GembaSwapPair :=
  if 0 < timeElapsed ∧ r.reserve0 ≠ 0 ∧ r.reserve1 ≠ 0 then
    { p with
      price0CumulativeLast :=
        (p.price0CumulativeLast + uqdiv (encode r.reserve1) r.reserve0 * timeElapsed) % 2 ^ 256
      price1CumulativeLast :=
        (p.price1CumulativeLast + uqdiv (encode r.reserve0) r.reserve1 * timeElapsed) % 2 ^ 256 }
  else p

/-- `timeElapsed`: the subtraction of the timestamps wraps. -/
def elapsed (p : GembaSwapPair) (now : Nat) : Nat :=
  (now % 2 ^ 32 + 2 ^ 32 - p.blockTimestampLast) % 2 ^ 32

/-- `_update(balance0, balance1, _reserve0, _reserve1)`. -/
def update (p : GembaSwapPair) (balance0 balance1 : Nat) (r : Reserves) (now : Nat) :
    Call GembaSwapPair :=
  if h : balance0 < 2 ^ 112 ∧ balance1 < 2 ^ 112 then
    .ok { p.accumulate r (p.elapsed now) with
      reserves := ⟨balance0, balance1, h.1, h.2⟩, blockTimestampLast := now % 2 ^ 32 }
  else .error (err "GembaSwap: OVERFLOW")

/-- The liquidity `_mintFee` mints when the root of the product has grown.  The denominator is at
    least `rootK`, which is not zero. -/
def feeLiquidity (p : GembaSwapPair) (rootK rootKLast : Nat) : Call Nat := do
  let growth ← safeSub rootK rootKLast
  let numerator ← safeMul p.lp.totalSupply growth
  let five ← safeMul rootK 5
  let denominator ← safeAdd five rootKLast
  .ok (numerator / denominator)

/-- `_mintFee(_reserve0, _reserve1)`; `feeTo` is what the factory answers. -/
def mintFee (p : GembaSwapPair) (r : Reserves) (feeTo : Address) : Call (GembaSwapPair × Bool) :=
  if feeTo ≠ 0 then
    if p.kLast ≠ 0 then do
      let k ← safeMul r.reserve0 r.reserve1
      if sqrt p.kLast < sqrt k then
        let liquidity ← p.feeLiquidity (sqrt k) (sqrt p.kLast)
        if 0 < liquidity then
          let lp ← p.lp.mint feeTo liquidity
          .ok ({ p with lp }, true)
        else .ok (p, true)
      else .ok (p, true)
    else .ok (p, true)
  else if p.kLast ≠ 0 then .ok ({ p with kLast := 0 }, false)
  else .ok (p, false)

/-- `if (feeOn) kLast = uint(reserve0).mul(reserve1)`. -/
def recordK (p : GembaSwapPair) (feeOn : Bool) : Call GembaSwapPair :=
  if feeOn then do
    let k ← safeMul p.reserves.reserve0 p.reserves.reserve1
    .ok { p with kLast := k }
  else .ok p

/-! ## mint -/

/-- The liquidity `mint` gives for two amounts, after it has locked the first of it. -/
def liquidityOf (p : GembaSwapPair) (amount0 amount1 : Nat) (r : Reserves) :
    Call (GembaSwapPair × Nat) :=
  if p.lp.totalSupply = 0 then do
    let product ← safeMul amount0 amount1
    let liquidity ← safeSub (sqrt product) MINIMUM_LIQUIDITY
    let lp ← p.lp.mint 0 MINIMUM_LIQUIDITY
    .ok ({ p with lp }, liquidity)
  else do
    let product0 ← safeMul amount0 p.lp.totalSupply
    let share0 ← div product0 r.reserve0
    let product1 ← safeMul amount1 p.lp.totalSupply
    let share1 ← div product1 r.reserve1
    .ok (p, min share0 share1)

/-- `mint(to)`. -/
def mint (p : GembaSwapPair) (dst : Address) (balance0 balance1 : Nat) (feeTo : Address)
    (now : Nat) : Call (GembaSwapPair × Nat) := do
  let p ← p.lock
  let r := p.reserves
  let amount0 ← safeSub balance0 r.reserve0
  let amount1 ← safeSub balance1 r.reserve1
  let (p, feeOn) ← p.mintFee r feeTo
  let (p, liquidity) ← p.liquidityOf amount0 amount1 r
  failIf (liquidity = 0) (err "GembaSwap: INSUFFICIENT_LIQUIDITY_MINTED")
  let lp ← p.lp.mint dst liquidity
  let p ← { p with lp }.update balance0 balance1 r now
  let p ← p.recordK feeOn
  .ok (p.unlock, liquidity)

/-! ## burn -/

/-- What `burn` still has to do after it burned. -/
structure Burn where
  dst : Address
  amount0 : Nat
  amount1 : Nat
  feeOn : Bool
  reserves : Reserves

/-- `burn(to)` up to the transfers.  `self` is the pair. -/
def burnStart (p : GembaSwapPair) (self dst : Address) (balance0 balance1 : Nat) (feeTo : Address) :
    Call (GembaSwapPair × Burn) := do
  let p ← p.lock
  let r := p.reserves
  let liquidity := p.lp.balanceOf self
  let (p, feeOn) ← p.mintFee r feeTo
  let part0 ← safeMul liquidity balance0
  let amount0 ← div part0 p.lp.totalSupply
  let part1 ← safeMul liquidity balance1
  let amount1 ← div part1 p.lp.totalSupply
  failIf (amount0 = 0 ∨ amount1 = 0) (err "GembaSwap: INSUFFICIENT_LIQUIDITY_BURNED")
  let lp ← p.lp.burn self liquidity
  .ok ({ p with lp }, { dst, amount0, amount1, feeOn, reserves := r })

/-- `burn(to)` after the transfers. -/
def burnEnd (p : GembaSwapPair) (b : Burn) (balance0 balance1 now : Nat) : Call GembaSwapPair := do
  let p ← p.update balance0 balance1 b.reserves now
  let p ← p.recordK b.feeOn
  .ok p.unlock

/-! ## swap -/

/-- What `swap` still has to do after its first checks; `data` says that there is some. -/
structure Swap where
  amount0Out : Nat
  amount1Out : Nat
  dst : Address
  data : Bool
  reserves : Reserves

/-- `swap(amount0Out, amount1Out, to, data)` up to the transfers. -/
def swapStart (p : GembaSwapPair) (amount0Out amount1Out : Nat) (dst : Address) (data : Bool) :
    Call (GembaSwapPair × Swap) := do
  let p ← p.lock
  failIf (amount0Out = 0 ∧ amount1Out = 0) (err "GembaSwap: INSUFFICIENT_OUTPUT_AMOUNT")
  let r := p.reserves
  failIf (r.reserve0 ≤ amount0Out ∨ r.reserve1 ≤ amount1Out) (err "GembaSwap: INSUFFICIENT_LIQUIDITY")
  failIf (dst = p.token0 ∨ dst = p.token1) (err "GembaSwap: INVALID_TO")
  .ok (p, { amount0Out, amount1Out, dst, data, reserves := r })

/-- What came in: what the balance is over what the reserve would be after sending out. -/
def amountIn (balance reserve amountOut : Nat) : Nat :=
  if balance > reserve - amountOut then balance - (reserve - amountOut) else 0

/-- `balance.mul(1000).sub(amountIn.mul(3))`. -/
def adjusted (balance amountIn : Nat) : Call Nat := do
  let thousand ← safeMul balance 1000
  let three ← safeMul amountIn 3
  safeSub thousand three

/-- `uint(_reserve0).mul(_reserve1).mul(1000**2)`. -/
def scaledK (r : Reserves) : Call Nat := do
  let k ← safeMul r.reserve0 r.reserve1
  safeMul k (1000 ^ 2)

/-- `swap` after the transfers and the callback. -/
def swapEnd (p : GembaSwapPair) (s : Swap) (balance0 balance1 now : Nat) : Call GembaSwapPair := do
  let amount0In := amountIn balance0 s.reserves.reserve0 s.amount0Out
  let amount1In := amountIn balance1 s.reserves.reserve1 s.amount1Out
  failIf (amount0In = 0 ∧ amount1In = 0) (err "GembaSwap: INSUFFICIENT_INPUT_AMOUNT")
  let balance0Adjusted ← adjusted balance0 amount0In
  let balance1Adjusted ← adjusted balance1 amount1In
  let product ← safeMul balance0Adjusted balance1Adjusted
  let k ← scaledK s.reserves
  failIf (product < k) (err "GembaSwap: K")
  let p ← p.update balance0 balance1 s.reserves now
  .ok p.unlock

/-! ## sync -/

/-- `sync()`. -/
def sync (p : GembaSwapPair) (balance0 balance1 now : Nat) : Call GembaSwapPair := do
  let p ← p.lock
  let p ← p.update balance0 balance1 p.reserves now
  .ok p.unlock

/-! ## What each function did -/

section
variable {p p' : GembaSwapPair} {r : Reserves} {self dst feeTo : Address} {feeOn : Bool}
  {balance0 balance1 amount0 amount1 liquidity now : Nat}

theorem lock_spec (h : p.lock = .ok p') : p.unlocked = true ∧ p' = { p with unlocked := false } := by
  obtain ⟨hlock, h⟩ := failIf_bind_eq_ok.mp h
  injection h with h
  exact ⟨by simpa using hlock, h.symm⟩

/-- The price of the first token in the second, and nothing while one of them is missing. -/
def price (x y : Nat) : Nat := if x = 0 ∨ y = 0 then 0 else uqdiv (encode y) x

/-- `p'` is `p` with its reserves set, the time stamped, and `kLast` recorded when the fee is on. -/
structure Settled (p : GembaSwapPair) (balance0 balance1 : Nat) (r : Reserves) (feeOn : Bool)
    (now : Nat) (p' : GembaSwapPair) : Prop where
  reserve0 : p'.reserves.reserve0 = balance0
  reserve1 : p'.reserves.reserve1 = balance1
  lp : p'.lp = p.lp
  kLast : p'.kLast = if feeOn then balance0 * balance1 else p.kLast
  unlocked : p'.unlocked = true
  factory : p'.factory = p.factory
  token0 : p'.token0 = p.token0
  token1 : p'.token1 = p.token1
  stamp : p'.blockTimestampLast = now % 2 ^ 32
  price0 : p'.price0CumulativeLast
    ≡ p.price0CumulativeLast + price r.reserve0 r.reserve1 * p.elapsed now [MOD 2 ^ 256]
  price1 : p'.price1CumulativeLast
    ≡ p.price1CumulativeLast + price r.reserve1 r.reserve0 * p.elapsed now [MOD 2 ^ 256]

/-- The accumulators move by the price for the time, modulo the width of a word. -/
theorem accumulate_spec (timeElapsed : Nat) :
    (p.accumulate r timeElapsed).price0CumulativeLast
        ≡ p.price0CumulativeLast + price r.reserve0 r.reserve1 * timeElapsed [MOD 2 ^ 256] ∧
      (p.accumulate r timeElapsed).price1CumulativeLast
        ≡ p.price1CumulativeLast + price r.reserve1 r.reserve0 * timeElapsed [MOD 2 ^ 256] := by
  unfold accumulate price
  by_cases hc : 0 < timeElapsed ∧ r.reserve0 ≠ 0 ∧ r.reserve1 ≠ 0
  · have h₁ : ¬ (r.reserve0 = 0 ∨ r.reserve1 = 0) := not_or.mpr hc.2
    have h₂ : ¬ (r.reserve1 = 0 ∨ r.reserve0 = 0) := not_or.mpr ⟨hc.2.2, hc.2.1⟩
    rw [if_pos hc, if_neg h₁, if_neg h₂]
    exact ⟨Nat.mod_modEq _ _, Nat.mod_modEq _ _⟩
  · -- no time passed, or a reserve is empty: nothing is added
    rw [if_neg hc]
    by_cases htime : timeElapsed = 0
    · rw [htime]
      exact ⟨Nat.ModEq.refl _, Nat.ModEq.refl _⟩
    · have hempty : r.reserve0 = 0 ∨ r.reserve1 = 0 := by
        by_contra hne
        exact hc ⟨Nat.pos_of_ne_zero htime, not_or.mp hne⟩
      rw [if_pos hempty, if_pos hempty.symm, Nat.zero_mul]
      exact ⟨Nat.ModEq.refl _, Nat.ModEq.refl _⟩

theorem accumulate_frame (timeElapsed : Nat) :
    (p.accumulate r timeElapsed).lp = p.lp ∧ (p.accumulate r timeElapsed).kLast = p.kLast ∧
      (p.accumulate r timeElapsed).factory = p.factory ∧
      (p.accumulate r timeElapsed).token0 = p.token0 ∧
      (p.accumulate r timeElapsed).token1 = p.token1 := by
  unfold accumulate
  split <;> exact ⟨rfl, rfl, rfl, rfl, rfl⟩

/-- The part of it `_update` does. -/
structure Updated (p : GembaSwapPair) (balance0 balance1 : Nat) (r : Reserves) (now : Nat)
    (p' : GembaSwapPair) : Prop where
  reserve0 : p'.reserves.reserve0 = balance0
  reserve1 : p'.reserves.reserve1 = balance1
  stamp : p'.blockTimestampLast = now % 2 ^ 32
  rest : ∃ q : GembaSwapPair, q = p.accumulate r (p.elapsed now) ∧
    p' = { q with reserves := p'.reserves, blockTimestampLast := p'.blockTimestampLast }

theorem update_spec (h : p.update balance0 balance1 r now = .ok p') :
    Updated p balance0 balance1 r now p' := by
  unfold update at h
  split at h
  · injection h with h
    subst h
    exact ⟨rfl, rfl, rfl, _, rfl, rfl⟩
  · nomatch h

theorem recordK_spec (h : p.recordK feeOn = .ok p') :
    p' = { p with kLast := if feeOn then p.reserves.k else p.kLast } := by
  unfold recordK at h
  cases feeOn with
  | false =>
    injection h with h
    exact h.symm
  | true =>
    obtain ⟨k, hk, h⟩ := bind_eq_ok.mp h
    injection h with h
    obtain ⟨-, rfl⟩ := safeMul_eq_ok.mp hk
    exact h.symm

/-- `_update`, `kLast` where the fee is on, and the end of `lock`: how `mint`, `burn`, `swap` and
    `sync` end. -/
theorem settled (h : (do
      let p ← p.update balance0 balance1 r now
      let p ← p.recordK feeOn
      .ok p.unlock : Call GembaSwapPair) = .ok p') :
    Settled p balance0 balance1 r feeOn now p' := by
  obtain ⟨p₁, hupdate, h⟩ := bind_eq_ok.mp h
  obtain ⟨p₂, hrecord, h⟩ := bind_eq_ok.mp h
  injection h with hunlock
  obtain ⟨hreserve0, hreserve1, hstamp, q, hq, hrest⟩ := update_spec hupdate
  obtain ⟨hprice0, hprice1⟩ := accumulate_spec (p := p) (r := r) (p.elapsed now)
  obtain ⟨hlp, hkLast, hfactory, htoken0, htoken1⟩ :=
    accumulate_frame (p := p) (r := r) (p.elapsed now)
  rw [← hq] at hprice0 hprice1 hlp hkLast hfactory htoken0 htoken1
  have hk : p₁.reserves.k = balance0 * balance1 := by
    rw [Reserves.k, hreserve0, hreserve1]
  rw [← hunlock, recordK_spec hrecord]
  exact {
    reserve0 := hreserve0
    reserve1 := hreserve1
    lp := by rw [← hlp, hrest]; rfl
    kLast := by rw [← hk, ← hkLast]; rw [hrest]; rfl
    unlocked := rfl
    factory := by rw [← hfactory, hrest]; rfl
    token0 := by rw [← htoken0, hrest]; rfl
    token1 := by rw [← htoken1, hrest]; rfl
    stamp := hstamp
    price0 := by rw [hrest]; exact hprice0
    price1 := by rw [hrest]; exact hprice1 }

/-- What `_mintFee` did: `liquidity` new shares for `feeTo`, at most a sixth of the growth. -/
structure FeeMinted (p : GembaSwapPair) (r : Reserves) (feeTo : Address) (liquidity : Nat)
    (p' : GembaSwapPair) : Prop where
  rest : p' = { p with lp := p'.lp, kLast := p'.kLast }
  kLast : p'.kLast = if feeTo = 0 then 0 else p.kLast
  lp : (liquidity = 0 ∧ p'.lp = p.lp) ∨ (0 < liquidity ∧ p.lp.mint feeTo liquidity = .ok p'.lp)
  grown : 0 < liquidity → feeTo ≠ 0 ∧ p.kLast ≠ 0 ∧ sqrt p.kLast < sqrt r.k ∧
    liquidity * (5 * sqrt r.k + sqrt p.kLast) ≤ p.lp.totalSupply * (sqrt r.k - sqrt p.kLast)

theorem feeLiquidity_spec {rootK rootKLast : Nat}
    (h : p.feeLiquidity rootK rootKLast = .ok liquidity) :
    liquidity * (5 * rootK + rootKLast) ≤ p.lp.totalSupply * (rootK - rootKLast) := by
  obtain ⟨growth, hgrowth, h⟩ := bind_eq_ok.mp h
  obtain ⟨numerator, hnumerator, h⟩ := bind_eq_ok.mp h
  obtain ⟨five, hfive, h⟩ := bind_eq_ok.mp h
  obtain ⟨denominator, hdenominator, h⟩ := bind_eq_ok.mp h
  injection h with h
  obtain ⟨-, rfl⟩ := safeSub_eq_ok.mp hgrowth
  obtain ⟨-, rfl⟩ := safeMul_eq_ok.mp hnumerator
  obtain ⟨-, rfl⟩ := safeMul_eq_ok.mp hfive
  obtain ⟨-, rfl⟩ := safeAdd_eq_ok.mp hdenominator
  rw [← h, Nat.mul_comm 5]
  exact Nat.div_mul_le_self _ _

theorem mintFee_spec (h : p.mintFee r feeTo = .ok (p', feeOn)) :
    feeOn = decide (feeTo ≠ 0) ∧ ∃ liquidity, FeeMinted p r feeTo liquidity p' := by
  unfold mintFee at h
  by_cases hfee : feeTo ≠ 0
  · rw [if_pos hfee] at h
    have hkeep : (.ok (p, true) : Call (GembaSwapPair × Bool)) = .ok (p', feeOn) →
        feeOn = decide (feeTo ≠ 0) ∧ ∃ liquidity, FeeMinted p r feeTo liquidity p' := by
      intro h
      obtain ⟨rfl, rfl⟩ := ok_pair h
      refine ⟨(decide_eq_true hfee).symm, 0, rfl, by rw [if_neg hfee], .inl ⟨rfl, rfl⟩, ?_⟩
      exact fun h0 => absurd h0 (Nat.lt_irrefl 0)
    rcases ite_eq_ok.mp h with ⟨hkLast, h⟩ | ⟨-, h⟩
    · obtain ⟨k, hk, h⟩ := bind_eq_ok.mp h
      obtain ⟨-, rfl⟩ := safeMul_eq_ok.mp hk
      rcases ite_eq_ok.mp h with ⟨hroot, h⟩ | ⟨-, h⟩
      · obtain ⟨liquidity, hliquidity, h⟩ := bind_eq_ok.mp h
        rcases ite_eq_ok.mp h with ⟨hpos, h⟩ | ⟨-, h⟩
        · obtain ⟨lp, hlp, h⟩ := bind_eq_ok.mp h
          obtain ⟨rfl, rfl⟩ := ok_pair h
          refine ⟨(decide_eq_true hfee).symm, liquidity, rfl, by rw [if_neg hfee], .inr ⟨hpos, hlp⟩, ?_⟩
          exact fun _ => ⟨hfee, hkLast, hroot, feeLiquidity_spec hliquidity⟩
        · exact hkeep h
      · exact hkeep h
    · exact hkeep h
  · -- the fee is off: `kLast` is cleared
    rw [if_neg hfee] at h
    rw [not_not] at hfee
    rcases ite_eq_ok.mp h with ⟨-, h⟩ | ⟨hzero, h⟩
    · obtain ⟨rfl, rfl⟩ := ok_pair h
      refine ⟨by simp [hfee], 0, rfl, by rw [if_pos hfee], .inl ⟨rfl, rfl⟩, ?_⟩
      exact fun h0 => absurd h0 (Nat.lt_irrefl 0)
    · obtain ⟨rfl, rfl⟩ := ok_pair h
      refine ⟨by simp [hfee], 0, rfl, by rw [if_pos hfee]; exact not_not.mp hzero,
        .inl ⟨rfl, rfl⟩, ?_⟩
      exact fun h0 => absurd h0 (Nat.lt_irrefl 0)

theorem FeeMinted.totalSupply (h : FeeMinted p r feeTo liquidity p') :
    p'.lp.totalSupply = p.lp.totalSupply + liquidity := by
  rcases h.lp with ⟨hzero, hlp⟩ | ⟨-, hlp⟩
  · rw [hlp, hzero]
    rfl
  · exact (ERC20.mint_spec hlp).1

/-- **The fee is at most a sixth of the growth**: of the root of the product, the holders from before
    keep five sixths of what was added since the last time. -/
theorem FeeMinted.sixth (h : FeeMinted p r feeTo liquidity p') (hpos : 0 < liquidity) :
    (p.lp.totalSupply + liquidity) * (5 * sqrt r.k + sqrt p.kLast)
      ≤ 6 * (p.lp.totalSupply * sqrt r.k) := by
  obtain ⟨-, -, hroot, hle⟩ := h.grown hpos
  obtain ⟨d, hd⟩ := Nat.exists_eq_add_of_lt hroot
  have hgrowth : sqrt r.k - sqrt p.kLast = d + 1 := by omega
  rw [hgrowth] at hle
  calc (p.lp.totalSupply + liquidity) * (5 * sqrt r.k + sqrt p.kLast)
      = p.lp.totalSupply * (5 * sqrt r.k + sqrt p.kLast)
        + liquidity * (5 * sqrt r.k + sqrt p.kLast) := Nat.add_mul _ _ _
    _ ≤ p.lp.totalSupply * (5 * sqrt r.k + sqrt p.kLast) + p.lp.totalSupply * (d + 1) :=
        Nat.add_le_add_left hle _
    _ = 6 * (p.lp.totalSupply * sqrt r.k) := by
        rw [hd]
        ring

/-- What `liquidityOf` did: the first deposit locks `MINIMUM_LIQUIDITY` and gets the rest of the
    root of the product; later ones get no more than their proportion of either reserve. -/
theorem liquidityOf_spec (h : p.liquidityOf amount0 amount1 r = .ok (p', liquidity)) :
    p' = { p with lp := p'.lp } ∧
      ((p.lp.totalSupply = 0 ∧ p.lp.mint 0 MINIMUM_LIQUIDITY = .ok p'.lp ∧
          MINIMUM_LIQUIDITY ≤ sqrt (amount0 * amount1) ∧
          liquidity = sqrt (amount0 * amount1) - MINIMUM_LIQUIDITY) ∨
        (p.lp.totalSupply ≠ 0 ∧ p'.lp = p.lp ∧
          liquidity * r.reserve0 ≤ amount0 * p.lp.totalSupply ∧
          liquidity * r.reserve1 ≤ amount1 * p.lp.totalSupply)) := by
  rcases ite_eq_ok.mp h with ⟨hzero, h⟩ | ⟨hsome, h⟩
  · obtain ⟨product, hproduct, h⟩ := bind_eq_ok.mp h
    obtain ⟨root, hroot, h⟩ := bind_eq_ok.mp h
    obtain ⟨lp, hlp, h⟩ := bind_eq_ok.mp h
    obtain ⟨rfl, rfl⟩ := ok_pair h
    obtain ⟨-, rfl⟩ := safeMul_eq_ok.mp hproduct
    obtain ⟨hle, hroot⟩ := safeSub_eq_ok.mp hroot
    exact ⟨rfl, .inl ⟨hzero, hlp, hle, hroot⟩⟩
  · obtain ⟨product0, hproduct0, h⟩ := bind_eq_ok.mp h
    obtain ⟨share0, hshare0, h⟩ := bind_eq_ok.mp h
    obtain ⟨product1, hproduct1, h⟩ := bind_eq_ok.mp h
    obtain ⟨share1, hshare1, h⟩ := bind_eq_ok.mp h
    obtain ⟨rfl, rfl⟩ := ok_pair h
    obtain ⟨-, rfl⟩ := safeMul_eq_ok.mp hproduct0
    obtain ⟨-, rfl⟩ := safeMul_eq_ok.mp hproduct1
    obtain ⟨-, rfl⟩ := div_eq_ok.mp hshare0
    obtain ⟨-, rfl⟩ := div_eq_ok.mp hshare1
    refine ⟨rfl, .inr ⟨hsome, rfl, ?_, ?_⟩⟩
    · exact le_trans (Nat.mul_le_mul_right _ (Nat.min_le_left _ _)) (Nat.div_mul_le_self _ _)
    · exact le_trans (Nat.mul_le_mul_right _ (Nat.min_le_right _ _)) (Nat.div_mul_le_self _ _)

/-- **mint**: what came in over the reserves, the fee, the liquidity, and the reserves set to the
    balances. -/
theorem mint_did (h : p.mint dst balance0 balance1 feeTo now = .ok (p', liquidity)) :
    p.unlocked = true ∧ p.reserves.reserve0 ≤ balance0 ∧ p.reserves.reserve1 ≤ balance1 ∧
      0 < liquidity ∧ ∃ fee p₁ p₂ p₃, FeeMinted { p with unlocked := false } p.reserves feeTo fee p₁ ∧
        p₁.liquidityOf (balance0 - p.reserves.reserve0) (balance1 - p.reserves.reserve1) p.reserves
          = .ok (p₂, liquidity) ∧
        p₂.lp.mint dst liquidity = .ok p₃.lp ∧ p₃ = { p₂ with lp := p₃.lp } ∧
        Settled p₃ balance0 balance1 p.reserves (decide (feeTo ≠ 0)) now p' := by
  obtain ⟨p₀, hlock, h⟩ := bind_eq_ok.mp h
  obtain ⟨in0, hin0, h⟩ := bind_eq_ok.mp h
  obtain ⟨in1, hin1, h⟩ := bind_eq_ok.mp h
  obtain ⟨⟨p₁, feeOn⟩, hfee, h⟩ := bind_eq_ok.mp h
  obtain ⟨⟨p₂, given⟩, hgiven, h⟩ := bind_eq_ok.mp h
  obtain ⟨hpos, h⟩ := failIf_bind_eq_ok.mp h
  obtain ⟨lp, hlp, h⟩ := bind_eq_ok.mp h
  obtain ⟨p₄, hupdate, h⟩ := bind_eq_ok.mp h
  obtain ⟨p₅, hrecord, h⟩ := bind_eq_ok.mp h
  obtain ⟨rfl, rfl⟩ := ok_pair h
  obtain ⟨hunlocked, rfl⟩ := lock_spec hlock
  obtain ⟨hle0, rfl⟩ := safeSub_eq_ok.mp hin0
  obtain ⟨hle1, rfl⟩ := safeSub_eq_ok.mp hin1
  obtain ⟨rfl, fee, hminted⟩ := mintFee_spec hfee
  refine ⟨hunlocked, hle0, hle1, Nat.pos_of_ne_zero hpos, fee, p₁, p₂, { p₂ with lp }, hminted,
    hgiven, hlp, rfl, settled ?_⟩
  exact bind_eq_ok.mpr ⟨p₄, hupdate, bind_eq_ok.mpr ⟨p₅, hrecord, rfl⟩⟩

/-- **burn** before the transfers: the fee, a part of both balances, no more than the proportion of
    the shares the pair holds, and those shares gone. -/
theorem burnStart_did {b : Burn}
    (h : p.burnStart self dst balance0 balance1 feeTo = .ok (p', b)) :
    p.unlocked = true ∧ b.dst = dst ∧ b.feeOn = decide (feeTo ≠ 0) ∧ b.reserves = p.reserves ∧
      0 < b.amount0 ∧ 0 < b.amount1 ∧
      ∃ fee p₁, FeeMinted { p with unlocked := false } p.reserves feeTo fee p₁ ∧
        p₁.lp.totalSupply ≠ 0 ∧
        b.amount0 * p₁.lp.totalSupply ≤ p.lp.balanceOf self * balance0 ∧
        b.amount1 * p₁.lp.totalSupply ≤ p.lp.balanceOf self * balance1 ∧
        p₁.lp.burn self (p.lp.balanceOf self) = .ok p'.lp ∧ p' = { p₁ with lp := p'.lp } := by
  obtain ⟨p₀, hlock, h⟩ := bind_eq_ok.mp h
  obtain ⟨⟨p₁, feeOn⟩, hfee, h⟩ := bind_eq_ok.mp h
  obtain ⟨part0, hpart0, h⟩ := bind_eq_ok.mp h
  obtain ⟨amount0, hamount0, h⟩ := bind_eq_ok.mp h
  obtain ⟨part1, hpart1, h⟩ := bind_eq_ok.mp h
  obtain ⟨amount1, hamount1, h⟩ := bind_eq_ok.mp h
  obtain ⟨hpos, h⟩ := failIf_bind_eq_ok.mp h
  obtain ⟨lp, hlp, h⟩ := bind_eq_ok.mp h
  obtain ⟨rfl, rfl⟩ := ok_pair h
  obtain ⟨hunlocked, rfl⟩ := lock_spec hlock
  obtain ⟨-, rfl⟩ := safeMul_eq_ok.mp hpart0
  obtain ⟨-, rfl⟩ := safeMul_eq_ok.mp hpart1
  obtain ⟨hsupply, rfl⟩ := div_eq_ok.mp hamount0
  obtain ⟨-, rfl⟩ := div_eq_ok.mp hamount1
  obtain ⟨rfl, fee, hminted⟩ := mintFee_spec hfee
  rw [not_or] at hpos
  exact ⟨hunlocked, rfl, rfl, rfl, Nat.pos_of_ne_zero hpos.1, Nat.pos_of_ne_zero hpos.2, fee, p₁,
    hminted, hsupply, Nat.div_mul_le_self _ _, Nat.div_mul_le_self _ _, hlp, rfl⟩

/-- **burn** after the transfers. -/
theorem burnEnd_did {b : Burn} (h : p.burnEnd b balance0 balance1 now = .ok p') :
    Settled p balance0 balance1 b.reserves b.feeOn now p' := settled h

/-- **swap** before the transfers. -/
theorem swapStart_did {amount0Out amount1Out : Nat} {data : Bool} {s : Swap}
    (h : p.swapStart amount0Out amount1Out dst data = .ok (p', s)) :
    p.unlocked = true ∧ p' = { p with unlocked := false } ∧
      s = ⟨amount0Out, amount1Out, dst, data, p.reserves⟩ ∧
      amount0Out < p.reserves.reserve0 ∧ amount1Out < p.reserves.reserve1 := by
  obtain ⟨p₀, hlock, h⟩ := bind_eq_ok.mp h
  obtain ⟨-, h⟩ := failIf_bind_eq_ok.mp h
  obtain ⟨hliquidity, h⟩ := failIf_bind_eq_ok.mp h
  obtain ⟨-, h⟩ := failIf_bind_eq_ok.mp h
  obtain ⟨rfl, rfl⟩ := ok_pair h
  obtain ⟨hunlocked, rfl⟩ := lock_spec hlock
  rw [not_or, not_le, not_le] at hliquidity
  exact ⟨hunlocked, rfl, rfl, hliquidity.1, hliquidity.2⟩

theorem adjusted_spec {balance amountIn a : Nat} (h : adjusted balance amountIn = .ok a) :
    a ≤ balance * 1000 := by
  obtain ⟨thousand, hthousand, h⟩ := bind_eq_ok.mp h
  obtain ⟨three, hthree, h⟩ := bind_eq_ok.mp h
  obtain ⟨-, rfl⟩ := safeMul_eq_ok.mp hthousand
  obtain ⟨-, rfl⟩ := safeSub_eq_ok.mp h
  exact Nat.sub_le _ _

/-- **swap** after the transfers and the callback: the product of the balances is not below the
    product of the reserves, whoever moved the balances and how. -/
theorem swapEnd_did {s : Swap} (h : p.swapEnd s balance0 balance1 now = .ok p') :
    s.reserves.k ≤ balance0 * balance1 ∧
      Settled p balance0 balance1 s.reserves false now p' := by
  obtain ⟨-, h⟩ := failIf_bind_eq_ok.mp h
  obtain ⟨a0, ha0, h⟩ := bind_eq_ok.mp h
  obtain ⟨a1, ha1, h⟩ := bind_eq_ok.mp h
  obtain ⟨product, hproduct, h⟩ := bind_eq_ok.mp h
  obtain ⟨k, hk, h⟩ := bind_eq_ok.mp h
  obtain ⟨hle, h⟩ := failIf_bind_eq_ok.mp h
  refine ⟨?_, settled h⟩
  obtain ⟨k₀, hk₀, hk⟩ := bind_eq_ok.mp hk
  obtain ⟨-, rfl⟩ := safeMul_eq_ok.mp hk₀
  obtain ⟨-, rfl⟩ := safeMul_eq_ok.mp hk
  obtain ⟨-, rfl⟩ := safeMul_eq_ok.mp hproduct
  have hproduct : s.reserves.k * 1000 ^ 2 ≤ balance0 * balance1 * 1000 ^ 2 := by
    calc s.reserves.k * 1000 ^ 2 ≤ a0 * a1 := not_lt.mp hle
      _ ≤ (balance0 * 1000) * (balance1 * 1000) :=
          Nat.mul_le_mul (adjusted_spec ha0) (adjusted_spec ha1)
      _ = balance0 * balance1 * 1000 ^ 2 := by ring
  exact Nat.le_of_mul_le_mul_right hproduct (by norm_num)

/-! ## A swap goes through -/

theorem amountIn_le {balance reserve out : Nat} : amountIn balance reserve out ≤ balance := by
  unfold amountIn
  split <;> omega

theorem adjusted_eq_ok {balance input a : Nat} (hfits : balance < 2 ^ 112) (hle : input ≤ balance) :
    adjusted balance input = .ok a ↔ a = balance * 1000 - input * 3 := by
  have hthousand : balance * 1000 < 2 ^ 256 :=
    lt_of_lt_of_le (Nat.mul_lt_mul_of_pos_right hfits (by decide)) (by norm_num)
  have hthree : input * 3 ≤ balance * 1000 := Nat.mul_le_mul hle (by decide)
  rw [adjusted, safeMul, if_pos hthousand, ok_bind, safeMul,
    if_pos (lt_of_le_of_lt hthree hthousand), ok_bind, safeSub, if_pos hthree]
  exact ⟨fun h => (Except.ok.inj h).symm, fun h => by rw [h]⟩

/-- One side of the product counts for what is left of the reserve, and for what came in less 3 in
    1000. -/
theorem adjusted_ge {balance reserve out paid : Nat} (h : reserve - out + paid ≤ balance) :
    1000 * (reserve - out) + 997 * paid ≤ balance * 1000 - amountIn balance reserve out * 3 := by
  unfold amountIn
  split <;> omega

/-- The side that is paid into. -/
theorem adjusted_paid {reserve paid : Nat} :
    (reserve + paid) * 1000 - amountIn (reserve + paid) reserve 0 * 3 = 1000 * reserve + 997 * paid := by
  unfold amountIn
  split <;> omega

/-- The side that is paid from. -/
theorem adjusted_sent {reserve out : Nat} :
    (reserve - out) * 1000 - amountIn (reserve - out) reserve out * 3 = 1000 * (reserve - out) := by
  unfold amountIn
  split <;> omega

theorem swapStart_ok {amount0Out amount1Out : Nat} {data : Bool} (hunlocked : p.unlocked = true)
    (hsome : 0 < amount0Out ∨ 0 < amount1Out) (h0 : amount0Out < p.reserves.reserve0)
    (h1 : amount1Out < p.reserves.reserve1) (hdst0 : dst ≠ p.token0) (hdst1 : dst ≠ p.token1) :
    p.swapStart amount0Out amount1Out dst data
      = .ok ({ p with unlocked := false }, ⟨amount0Out, amount1Out, dst, data, p.reserves⟩) := by
  have hlocked : ¬ p.unlocked = false := by simp [hunlocked]
  have hnone : ¬ (amount0Out = 0 ∧ amount1Out = 0) := by omega
  rw [swapStart, lock, failIf_neg hlocked, ok_bind, ok_bind, failIf_neg hnone, ok_bind]
  exact bind_eq_ok.mpr ⟨⟨⟩, failIf_eq_ok.mpr (not_or.mpr ⟨not_le.mpr h0, not_le.mpr h1⟩),
    bind_eq_ok.mpr ⟨⟨⟩, failIf_eq_ok.mpr (not_or.mpr ⟨hdst0, hdst1⟩), rfl⟩⟩

/-- The product of two sides below `2 ^ 112` fits. -/
theorem sides_fit {a b : Nat} (ha : a ≤ balance0 * 1000) (hb : b ≤ balance1 * 1000)
    (hfits0 : balance0 < 2 ^ 112) (hfits1 : balance1 < 2 ^ 112) : a * b < 2 ^ 256 := by
  calc a * b ≤ (balance0 * 1000) * (balance1 * 1000) := Nat.mul_le_mul ha hb
    _ ≤ (2 ^ 112 * 1000) * (2 ^ 112 * 1000) :=
        Nat.mul_le_mul (Nat.mul_le_mul_right _ hfits0.le) (Nat.mul_le_mul_right _ hfits1.le)
    _ < 2 ^ 256 := by norm_num

theorem scaledK_ok (r : Reserves) : scaledK r = .ok (r.k * 1000 ^ 2) := by
  have hk : r.k < 2 ^ 256 := lt_of_le_of_lt
    (Nat.mul_le_mul r.fits0.le r.fits1.le) (by norm_num)
  have hscaled : r.k * 1000 ^ 2 < 2 ^ 256 := by
    have h := sides_fit (Nat.le_refl (r.reserve0 * 1000)) (Nat.le_refl (r.reserve1 * 1000))
      r.fits0 r.fits1
    rwa [show r.reserve0 * 1000 * (r.reserve1 * 1000) = r.k * 1000 ^ 2 by rw [Reserves.k]; ring] at h
  exact bind_eq_ok.mpr ⟨r.k, safeMul_eq_ok.mpr ⟨hk, rfl⟩, safeMul_eq_ok.mpr ⟨hscaled, rfl⟩⟩

/-- **When a swap goes through**: something was paid, on one side or the other, and the product of
    what is left and of what was paid less the fee is not below the product of the reserves. -/
theorem swapEnd_ok {s : Swap} {paid0 paid1 : Nat} (hpaid : 0 < paid0 ∨ 0 < paid1)
    (h0 : s.reserves.reserve0 - s.amount0Out + paid0 ≤ balance0)
    (h1 : s.reserves.reserve1 - s.amount1Out + paid1 ≤ balance1)
    (hfits0 : balance0 < 2 ^ 112) (hfits1 : balance1 < 2 ^ 112)
    (hk : s.reserves.k * 1000 ^ 2 ≤ (1000 * (s.reserves.reserve0 - s.amount0Out) + 997 * paid0) *
      (1000 * (s.reserves.reserve1 - s.amount1Out) + 997 * paid1)) :
    ∃ p', p.swapEnd s balance0 balance1 now = .ok p' := by
  have hsome : ¬ (amountIn balance0 s.reserves.reserve0 s.amount0Out = 0 ∧
      amountIn balance1 s.reserves.reserve1 s.amount1Out = 0) := by
    unfold amountIn
    split <;> split <;> omega
  have hupdate : p.update balance0 balance1 s.reserves now = .ok _ := dif_pos ⟨hfits0, hfits1⟩
  refine ⟨_, failIf_bind_eq_ok.mpr ⟨hsome,
    bind_eq_ok.mpr ⟨_, (adjusted_eq_ok hfits0 amountIn_le).mpr rfl,
    bind_eq_ok.mpr ⟨_, (adjusted_eq_ok hfits1 amountIn_le).mpr rfl,
    bind_eq_ok.mpr ⟨_, safeMul_eq_ok.mpr ⟨?_, rfl⟩,
    bind_eq_ok.mpr ⟨_, scaledK_ok _, failIf_bind_eq_ok.mpr ⟨?_, bind_eq_ok.mpr ⟨_, hupdate, rfl⟩⟩⟩⟩⟩⟩⟩⟩
  · exact sides_fit (Nat.sub_le _ _) (Nat.sub_le _ _) hfits0 hfits1
  · exact not_lt.mpr (hk.trans (Nat.mul_le_mul (adjusted_ge h0) (adjusted_ge h1)))

/-- What a swap that went through has passed. -/
theorem swapEnd_k {s : Swap} (h : p.swapEnd s balance0 balance1 now = .ok p')
    (hfits0 : balance0 < 2 ^ 112) (hfits1 : balance1 < 2 ^ 112) :
    s.reserves.k * 1000 ^ 2
      ≤ (balance0 * 1000 - amountIn balance0 s.reserves.reserve0 s.amount0Out * 3) *
        (balance1 * 1000 - amountIn balance1 s.reserves.reserve1 s.amount1Out * 3) := by
  obtain ⟨-, h⟩ := failIf_bind_eq_ok.mp h
  obtain ⟨a0, ha0, h⟩ := bind_eq_ok.mp h
  obtain ⟨a1, ha1, h⟩ := bind_eq_ok.mp h
  obtain ⟨product, hproduct, h⟩ := bind_eq_ok.mp h
  obtain ⟨k, hk, h⟩ := bind_eq_ok.mp h
  obtain ⟨hle, -⟩ := failIf_bind_eq_ok.mp h
  obtain ⟨-, rfl⟩ := safeMul_eq_ok.mp hproduct
  obtain rfl := Except.ok.inj ((scaledK_ok s.reserves).symm.trans hk)
  obtain rfl := (adjusted_eq_ok hfits0 amountIn_le).mp ha0
  obtain rfl := (adjusted_eq_ok hfits1 amountIn_le).mp ha1
  exact not_lt.mp hle

theorem sync_did (h : p.sync balance0 balance1 now = .ok p') :
    p.unlocked = true ∧
      Settled { p with unlocked := false } balance0 balance1 p.reserves false now p' := by
  obtain ⟨p₀, hlock, h⟩ := bind_eq_ok.mp h
  obtain ⟨hunlocked, rfl⟩ := lock_spec hlock
  exact ⟨hunlocked, settled h⟩

end
end GembaSwapPair
end Gemba.GembaSwap
