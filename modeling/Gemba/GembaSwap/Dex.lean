/-
  The exchange over plain tokens: the factory, its pairs, and what they hold.

  Here the tokens are OpenZeppelin's `ERC20`, which call nobody, so a call of a pair is one step: the
  functions of `Pair`, with the transfers done in between.  `Chain` carries what is fixed: the address
  of the factory, and where `CREATE2` puts a contract.  The factory deploys the pair it was compiled
  with; the library computes an address from the hash written into it.
-/
import Gemba.Lib.Movements
import Gemba.GembaSwap.Pair
import Gemba.GembaSwap.Library

namespace Gemba.GembaSwap

open Gemba.Lib Gemba.Evm

/-- The storage of `GembaSwapFactory`. -/
structure GembaSwapFactory where
  feeTo : Address
  feeToSetter : Address
  getPair : Address → Address → Address
  allPairs : List Address

/-- The hash that `pairFor` of the library is written with. -/
def initCodeHash : BitVec 256 :=
  0xb154cd520d99f29f2d52a8c4b7b5236bd8a368ae9030110bf24a28b28b19d83f

/-- What is fixed on a chain. -/
structure Chain where
  /-- The address of the factory. -/
  factory : Address
  /-- Where `CREATE2` of the factory puts the contract of an init code, given by its hash, with the salt
      of two tokens. -/
  contractAt : BitVec 256 → Address → Address → Address
  /-- The hash of `type(GembaSwapPair).creationCode`, which the factory was compiled with. -/
  creationCodeHash : BitVec 256
  /-- The library was compiled for this factory; `Dex.t.sol` checks the two hashes against each other. -/
  sameCode : creationCodeHash = initCodeHash
  ecrecover : Digest → Signature → Address

/-- The address `create2` of the factory gives the pair of two sorted tokens. -/
def Chain.create2 (c : Chain) (token0 token1 : Address) : Address :=
  c.contractAt c.creationCodeHash token0 token1

/-- It is the address the library computes. -/
theorem Chain.contractAt_initCodeHash (c : Chain) (token0 token1 : Address) :
    c.contractAt initCodeHash token0 token1 = c.create2 token0 token1 := by
  rw [Chain.create2, c.sameCode]

/-- The exchange and the tokens. -/
structure Dex where
  factory : GembaSwapFactory
  pairs : Address → Option GembaSwapPair
  tokens : Address → Erc20
  now : Nat

namespace Dex

/-- The pair at an address is now `p`. -/
def setPair (w : Dex) (pair : Address) (p : GembaSwapPair) : Dex :=
  { w with pairs := fun a => if a = pair then some p else w.pairs a }

/-- A token is now `t`. -/
def setToken (w : Dex) (token : Address) (t : Erc20) : Dex :=
  { w with tokens := fun a => if a = token then t else w.tokens a }

/-- `IERC20(token).balanceOf(holder)`. -/
def balanceOf (w : Dex) (token holder : Address) : Nat := (w.tokens token).balances holder

/-- A call to a contract that failed, with the text the caller gives it. -/
def orFail {α : Type} (x : Call α) (text : String) : Call α :=
  match x with
  | .ok a => .ok a
  | .error _ => .error (err text)

/-- `_safeTransfer(token, to, value)` of the pair `pair`. -/
def safeTransfer (w : Dex) (token pair dst : Address) (value : Nat) : Call Dex := do
  let t ← orFail ((w.tokens token).move pair dst value) "GembaSwap: TRANSFER_FAILED"
  .ok (w.setToken token t)

/-- `TransferHelper.safeTransferFrom(token, from, to, value)`, called by `spender`. -/
def safeTransferFrom (w : Dex) (token spender src dst : Address) (value : Nat) : Call Dex := do
  let t ← orFail ((w.tokens token).transferFrom spender src dst value)
    "TransferHelper::transferFrom: transferFrom failed"
  .ok (w.setToken token t)

/-- The contract at the address of a pair; a call to an address without one reverts. -/
def pairAt (w : Dex) (pair : Address) : Call GembaSwapPair := orThrow (w.pairs pair) .external

/-! ## The factory -/

/-- `createPair(tokenA, tokenB)`. -/
def createPair (c : Chain) (w : Dex) (tokenA tokenB : Address) : Call (Dex × Address) := do
  failIf (tokenA = tokenB) (err "GembaSwap: IDENTICAL_ADDRESSES")
  let token0 := (inOrder tokenA tokenB).1
  let token1 := (inOrder tokenA tokenB).2
  failIf (token0 = 0) (err "GembaSwap: ZERO_ADDRESS")
  failIf (w.factory.getPair token0 token1 ≠ 0) (err "GembaSwap: PAIR_EXISTS")
  let pair := c.create2 token0 token1
  -- `create2` onto a contract gives no address, and `initialize` has nothing to call then
  failIf (pair = 0 ∨ (w.pairs pair).isSome = true) .external
  let p ← (GembaSwapPair.new c.factory).initializePair c.factory token0 token1
  let getPair := fun a b =>
    if a = token0 ∧ b = token1 ∨ a = token1 ∧ b = token0 then pair else w.factory.getPair a b
  .ok ({ w.setPair pair p with
    factory := { w.factory with getPair, allPairs := w.factory.allPairs ++ [pair] } }, pair)

/-- `setFeeTo(_feeTo)`. -/
def setFeeTo (w : Dex) (sender feeTo : Address) : Call Dex := do
  failIf (sender ≠ w.factory.feeToSetter) (err "GembaSwap: FORBIDDEN")
  .ok { w with factory := { w.factory with feeTo } }

/-- `setFeeToSetter(_feeToSetter)`. -/
def setFeeToSetter (w : Dex) (sender feeToSetter : Address) : Call Dex := do
  failIf (sender ≠ w.factory.feeToSetter) (err "GembaSwap: FORBIDDEN")
  .ok { w with factory := { w.factory with feeToSetter } }

/-! ## The pairs -/

/-- A call to the LP token of a pair. -/
def lp (c : Chain) (w : Dex) (pair sender : Address) (fn : ERC20.Fn) : Call Dex := do
  let p ← w.pairAt pair
  let lp ← p.lp.call c.ecrecover sender w.now fn
  .ok (w.setPair pair { p with lp })

/-- `mint(to)`. -/
def mint (w : Dex) (pair dst : Address) : Call (Dex × Nat) := do
  let p ← w.pairAt pair
  let (p, liquidity) ← p.mint dst (w.balanceOf p.token0 pair) (w.balanceOf p.token1 pair)
    w.factory.feeTo w.now
  .ok (w.setPair pair p, liquidity)

/-- `burn(to)`. -/
def burn (w : Dex) (pair dst : Address) : Call (Dex × Nat × Nat) := do
  let p ← w.pairAt pair
  let (p, b) ← p.burnStart pair dst (w.balanceOf p.token0 pair) (w.balanceOf p.token1 pair)
    w.factory.feeTo
  let w ← w.safeTransfer p.token0 pair dst b.amount0
  let w ← w.safeTransfer p.token1 pair dst b.amount1
  let p ← p.burnEnd b (w.balanceOf p.token0 pair) (w.balanceOf p.token1 pair) w.now
  .ok (w.setPair pair p, b.amount0, b.amount1)

/-- A transfer that is only made when there is something to send. -/
def sendSome (w : Dex) (token pair dst : Address) (value : Nat) : Call Dex :=
  if 0 < value then w.safeTransfer token pair dst value else .ok w

/-- `swap(amount0Out, amount1Out, to, "")`. -/
def swap (w : Dex) (pair : Address) (amount0Out amount1Out : Nat) (dst : Address) : Call Dex := do
  let p ← w.pairAt pair
  let (p, s) ← p.swapStart amount0Out amount1Out dst false
  let w ← w.sendSome p.token0 pair dst amount0Out
  let w ← w.sendSome p.token1 pair dst amount1Out
  let p ← p.swapEnd s (w.balanceOf p.token0 pair) (w.balanceOf p.token1 pair) w.now
  .ok (w.setPair pair p)

/-- `skim(to)`. -/
def skim (w : Dex) (pair dst : Address) : Call Dex := do
  let p ← w.pairAt pair
  let p ← p.lock
  let surplus0 ← safeSub (w.balanceOf p.token0 pair) p.reserves.reserve0
  let w ← w.safeTransfer p.token0 pair dst surplus0
  let surplus1 ← safeSub (w.balanceOf p.token1 pair) p.reserves.reserve1
  let w ← w.safeTransfer p.token1 pair dst surplus1
  .ok (w.setPair pair p.unlock)

/-- `sync()`. -/
def sync (w : Dex) (pair : Address) : Call Dex := do
  let p ← w.pairAt pair
  let p ← p.sync (w.balanceOf p.token0 pair) (w.balanceOf p.token1 pair) w.now
  .ok (w.setPair pair p)

end Dex

/-! ## What a transfer does -/

section
variable {t t' : Erc20} {src dst spender : Address} {value : Nat}

theorem move_spec (h : t.move src dst value = .ok t') :
    src ≠ 0 ∧ dst ≠ 0 ∧ value ≤ t.balances src ∧ t'.allowances = t.allowances ∧
      ∀ x, t'.balances x + (if src = x then value else 0)
        = t.balances x + if dst = x then value else 0 := by
  obtain ⟨hsrc, h⟩ := failIf_bind_eq_ok.mp h
  obtain ⟨hdst, h⟩ := failIf_bind_eq_ok.mp h
  have hfunds : value ≤ t.balances src := by
    obtain ⟨t₁, hdebit, -⟩ := bind_eq_ok.mp h
    rw [if_neg hsrc] at hdebit
    exact not_lt.mp (failIf_bind_eq_ok.mp hdebit).1
  refine ⟨hsrc, hdst, hfunds, erc20_update_allowances h, fun x => ?_⟩
  have hx := erc20_update_balances h x
  unfold at' at hx
  rw [if_neg hsrc, if_neg hdst] at hx
  simpa only [eq_comm] using hx

/-- A transfer between accounts goes through when there is enough. -/
theorem move_ok (hsrc : src ≠ 0) (hdst : dst ≠ 0) (hfunds : value ≤ t.balances src) :
    ∃ t', t.move src dst value = .ok t' := by
  rw [Erc20.move, failIf_neg hsrc, ok_bind, failIf_neg hdst, ok_bind, Erc20.update, if_neg hsrc,
    failIf_neg (not_lt.mpr hfunds), ok_bind, ok_bind, if_neg hdst]
  exact ⟨_, rfl⟩

/-- What a spender may do: within the allowance, which only it uses up. -/
theorem transferFrom_spec (h : t.transferFrom spender src dst value = .ok t') :
    src ≠ 0 ∧ dst ≠ 0 ∧ value ≤ t.balances src ∧
      (maxUint256 ≤ t.allowances src spender ∨ value ≤ t.allowances src spender) ∧
      (∀ o s, t'.allowances o s ≤ t.allowances o s) ∧
      ∀ x, t'.balances x + (if src = x then value else 0)
        = t.balances x + if dst = x then value else 0 := by
  obtain ⟨t₁, hspend, hmove⟩ := bind_eq_ok.mp h
  obtain ⟨hsrc, hdst, hfunds, hallowances, hbalances⟩ := move_spec hmove
  unfold Erc20.spendAllowance at hspend
  split at hspend
  · obtain ⟨hallowed, hspend⟩ := failIf_bind_eq_ok.mp hspend
    obtain ⟨-, hspend⟩ := failIf_bind_eq_ok.mp hspend
    obtain ⟨-, hspend⟩ := failIf_bind_eq_ok.mp hspend
    injection hspend with hspend
    subst hspend
    refine ⟨hsrc, hdst, hfunds, .inr (not_lt.mp hallowed), fun o s => ?_, hbalances⟩
    rw [hallowances]
    show (if o = src ∧ s = spender then t.allowances src spender - value else t.allowances o s) ≤ _
    split
    · rename_i hc
      rw [hc.1, hc.2]
      exact Nat.sub_le _ _
    · exact Nat.le_refl _
  · rename_i hmax
    injection hspend with hspend
    subst hspend
    refine ⟨hsrc, hdst, hfunds, .inl (not_lt.mp hmax), fun o s => ?_, hbalances⟩
    rw [hallowances]

/-- A spender with an allowance and an owner with funds: the transfer goes through. -/
theorem transferFrom_ok (hsrc : src ≠ 0) (hdst : dst ≠ 0) (hspender : spender ≠ 0)
    (hfunds : value ≤ t.balances src) (hallowed : value ≤ t.allowances src spender) :
    ∃ t', t.transferFrom spender src dst value = .ok t' := by
  rw [Erc20.transferFrom, Erc20.spendAllowance]
  split
  · rw [failIf_neg (not_lt.mpr hallowed), ok_bind, Erc20.approve, failIf_neg hsrc, ok_bind,
      failIf_neg hspender, ok_bind, ok_bind]
    exact move_ok hsrc hdst hfunds
  · exact move_ok hsrc hdst hfunds

end

namespace Dex

section
variable {w w' : Dex} {token pair spender src dst k x : Address} {value : Nat}

@[simp] theorem setPair_tokens (p : GembaSwapPair) : (w.setPair pair p).tokens = w.tokens := rfl
@[simp] theorem setPair_factory (p : GembaSwapPair) : (w.setPair pair p).factory = w.factory := rfl
@[simp] theorem setPair_now (p : GembaSwapPair) : (w.setPair pair p).now = w.now := rfl
@[simp] theorem setToken_pairs (t : Erc20) : (w.setToken token t).pairs = w.pairs := rfl
@[simp] theorem setToken_factory (t : Erc20) : (w.setToken token t).factory = w.factory := rfl
@[simp] theorem setToken_now (t : Erc20) : (w.setToken token t).now = w.now := rfl

theorem setPair_same (p : GembaSwapPair) : (w.setPair pair p).pairs pair = some p := if_pos rfl

theorem setPair_other (p : GembaSwapPair) (hx : x ≠ pair) :
    (w.setPair pair p).pairs x = w.pairs x := if_neg hx

theorem setToken_same (t : Erc20) : (w.setToken token t).tokens token = t := if_pos rfl

theorem setToken_other (t : Erc20) (hx : x ≠ token) :
    (w.setToken token t).tokens x = w.tokens x := if_neg hx

/-- The tokens moved by `ms`, and nothing but tokens changed. -/
structure Transferred (ms : List (Movement Address Address)) (w w' : Dex) : Prop where
  factory : w'.factory = w.factory
  pairs : w'.pairs = w.pairs
  now : w'.now = w.now
  flow : Flow ms w.balanceOf w'.balanceOf
  allowances : ∀ k o s, (w'.tokens k).allowances o s ≤ (w.tokens k).allowances o s

theorem Transferred.refl (w : Dex) : Transferred [] w w :=
  ⟨rfl, rfl, rfl, Flow.refl _, fun _ _ _ => Nat.le_refl _⟩

theorem Transferred.trans {ms ns : List (Movement Address Address)} {w'' : Dex}
    (h : Transferred ms w w') (h' : Transferred ns w' w'') : Transferred (ms ++ ns) w w'' :=
  ⟨h'.factory.trans h.factory, h'.pairs.trans h.pairs, h'.now.trans h.now, h.flow.trans h'.flow,
    fun k o s => (h'.allowances k o s).trans (h.allowances k o s)⟩

/-- One token moved something. -/
theorem transferred_setToken {t : Erc20}
    (hbalances : ∀ x, t.balances x + (if src = x then value else 0)
      = (w.tokens token).balances x + if dst = x then value else 0)
    (hallowances : ∀ o s, t.allowances o s ≤ (w.tokens token).allowances o s) :
    Transferred [⟨token, src, dst, value⟩] w (w.setToken token t) := by
  refine ⟨rfl, rfl, rfl, fun k x => ?_, fun k o s => ?_⟩
  · show ((w.setToken token t).tokens k).balances x + ((if token = k ∧ src = x then value else 0) + 0)
      = (w.tokens k).balances x + ((if token = k ∧ dst = x then value else 0) + 0)
    by_cases hk : token = k
    · subst hk
      rw [setToken_same, Nat.add_zero, Nat.add_zero]
      simpa using hbalances x
    · rw [setToken_other _ (Ne.symm hk)]
      simp [hk]
  · by_cases hk : k = token
    · subst hk
      rw [setToken_same]
      exact hallowances o s
    · rw [setToken_other _ hk]

theorem orFail_eq_ok {α : Type} {y : Call α} {text : String} {a : α} :
    orFail y text = .ok a ↔ y = .ok a := by
  unfold orFail
  split
  · exact Iff.rfl
  · simp

theorem safeTransfer_spec (h : w.safeTransfer token src dst value = .ok w') :
    src ≠ 0 ∧ dst ≠ 0 ∧ Transferred [⟨token, src, dst, value⟩] w w' := by
  obtain ⟨t, ht, h⟩ := bind_eq_ok.mp h
  injection h with h
  obtain ⟨hsrc, hdst, -, hallowances, hbalances⟩ := move_spec (orFail_eq_ok.mp ht)
  rw [← h]
  refine ⟨hsrc, hdst, transferred_setToken hbalances fun o s => ?_⟩
  rw [hallowances]

theorem safeTransfer_ok (hsrc : src ≠ 0) (hdst : dst ≠ 0) (hfunds : value ≤ w.balanceOf token src) :
    ∃ w', w.safeTransfer token src dst value = .ok w' := by
  obtain ⟨t, ht⟩ := move_ok hsrc hdst hfunds
  exact ⟨_, bind_eq_ok.mpr ⟨t, orFail_eq_ok.mpr ht, rfl⟩⟩

theorem safeTransferFrom_spec (h : w.safeTransferFrom token spender src dst value = .ok w') :
    Transferred [⟨token, src, dst, value⟩] w w' ∧
      (maxUint256 ≤ (w.tokens token).allowances src spender ∨
        value ≤ (w.tokens token).allowances src spender) := by
  obtain ⟨t, ht, h⟩ := bind_eq_ok.mp h
  injection h with h
  obtain ⟨-, -, -, hallowed, hallowances, hbalances⟩ := transferFrom_spec (orFail_eq_ok.mp ht)
  rw [← h]
  exact ⟨transferred_setToken hbalances hallowances, hallowed⟩

theorem safeTransferFrom_ok (hsrc : src ≠ 0) (hdst : dst ≠ 0) (hspender : spender ≠ 0)
    (hfunds : value ≤ w.balanceOf token src)
    (hallowed : value ≤ (w.tokens token).allowances src spender) :
    ∃ w', w.safeTransferFrom token spender src dst value = .ok w' := by
  obtain ⟨t, ht⟩ := transferFrom_ok hsrc hdst hspender hfunds hallowed
  exact ⟨_, bind_eq_ok.mpr ⟨t, orFail_eq_ok.mpr ht, rfl⟩⟩

theorem sendSome_spec (h : w.sendSome token src dst value = .ok w') :
    ∃ ms, Transferred ms w w' ∧ (∀ m ∈ ms, m.src = src) ∧ ∀ k x,
      outOf ms k x = (Movement.mk token src dst value).takes k x ∧
      into ms k x = (Movement.mk token src dst value).gives k x := by
  rcases ite_eq_ok.mp h with ⟨-, h⟩ | ⟨hnone, h⟩
  · obtain ⟨-, -, hmoved⟩ := safeTransfer_spec h
    refine ⟨_, hmoved, fun m hm => ?_, fun k x => ⟨Nat.add_zero _, Nat.add_zero _⟩⟩
    rw [List.mem_singleton.mp hm]
  · injection h with h
    subst h
    refine ⟨[], Transferred.refl w, fun m hm => absurd hm List.not_mem_nil, fun k x => ?_⟩
    rw [Nat.eq_zero_of_not_pos hnone]
    exact ⟨(ite_self 0).symm, (ite_self 0).symm⟩

end

end Dex
end Gemba.GembaSwap
