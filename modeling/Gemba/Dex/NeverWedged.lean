/-
  `GembaNativePool` is never emptied and never stuck.

  The first `addLiquidity` mints `MINIMUM_LIQUIDITY` shares to the dead address, which sends nothing:
  nobody has its key.  So they stay, the supply stays above them, and a removal of everything else
  leaves a proportional rest of both reserves.

  1. `Locked n`        — the dead address keeps at least `n` shares, and nobody may spend them;
  2. `Opened`, `Sane`  — the pool was never opened and has nothing, or it is open for good;
  3. `step_sane`       — every operation keeps that;
  4. what follows for the arithmetic: the one division by zero is `removeLiquidity` on a pool that
     was never opened, and no reserve is asked for more than it has.
-/
import Gemba.Evm.Holders
import Gemba.Dex.ShareValue

namespace Gemba.Dex

open Gemba.Lib Gemba.Evm

/-! ## Who sends -/

def LpCall.sender : LpCall → Address
  | .transfer sender _ _ | .approve sender _ _ | .transferFrom sender _ _ _ => sender

/-- The accounts that call the LP token while another account is called. -/
def Callback.senders (cb : Callback) : List Address := cb.lpCalls.map LpCall.sender

/-- The accounts that send a call in an operation. -/
def Op.senders : Op → List Address
  | .addLiquidity msg _ _ _ _ _ pull refund => msg.sender :: (pull.call.senders ++ refund.senders)
  | .removeLiquidity msg _ _ _ _ _ push send => msg.sender :: (push.senders ++ send.senders)
  | .swapExactNativeForTokens msg _ _ _ push => msg.sender :: push.call.senders
  | .swapExactTokensForNative msg _ _ _ _ pull send =>
    msg.sender :: (pull.call.senders ++ send.senders)
  | .lp call => [call.sender]
  | .force _ => []

/-- The dead address sends nothing. -/
def DeadSilent (_ : World) (op : Op) : Prop := deadAddress ∉ op.senders

instance (w : World) (op : Op) : Decidable (DeadSilent w op) :=
  inferInstanceAs (Decidable (deadAddress ∉ op.senders))

/-! ## The locked shares -/

/-- The dead address holds at least `n` shares and has allowed nobody any. -/
structure Locked (n : Nat) (lp : Erc20) : Prop where
  backed : lp.Backed
  held : n ≤ lp.balances deadAddress
  unspendable : ∀ x, lp.allowances deadAddress x = 0

section
variable {self : Address} {p p' : NativePool} {lp lp' : Erc20} {n value : Nat}
  {src dst sender spender : Address}

theorem locked_empty : Locked 0 Erc20.empty := ⟨Erc20.backed_empty, Nat.zero_le _, fun _ => rfl⟩

/-- A movement that takes nothing from the dead address leaves its shares locked. -/
theorem Locked.update (h : Locked n lp) (hup : lp.update src dst value = .ok lp')
    (hsrc : src ≠ deadAddress ∨ value = 0) : Locked n lp' := by
  have hdead := erc20_update_balances hup deadAddress
  have hnone : at' src value deadAddress = 0 := by
    unfold at'
    rcases hsrc with hsrc | rfl
    · exact if_neg (Ne.symm hsrc)
    · rw [ite_self, ite_self]
  refine ⟨h.backed.update (Erc20.update_totalSupply hup) (erc20_update_balances hup), ?_, ?_⟩
  · have := h.held
    omega
  · rw [erc20_update_allowances hup]
    exact h.unspendable

theorem zero_ne_dead : (0 : Address) ≠ deadAddress := by decide

theorem Locked.mint (h : Locked n lp) (hmint : lp.mint dst value = .ok lp') : Locked n lp' := by
  obtain ⟨-, hmint⟩ := failIf_bind_eq_ok.mp hmint
  exact h.update hmint (.inl zero_ne_dead)

/-- Shares minted to the dead address are locked too. -/
theorem Locked.mint_dead (h : Locked n lp) (hmint : lp.mint deadAddress value = .ok lp') :
    Locked (n + value) lp' := by
  obtain ⟨hbacked, -, hunspendable⟩ := h.mint hmint
  obtain ⟨-, hmint⟩ := failIf_bind_eq_ok.mp hmint
  refine ⟨hbacked, ?_, hunspendable⟩
  have hdead := erc20_update_balances hmint deadAddress
  have hgiven : at' deadAddress value deadAddress = value := by
    unfold at'
    rw [if_pos rfl, if_neg (Ne.symm zero_ne_dead)]
  have hnone : at' 0 value deadAddress = 0 := if_neg (Ne.symm zero_ne_dead)
  have := h.held
  omega

theorem Locked.burn (h : Locked n lp) (hburn : lp.burn src value = .ok lp')
    (hsrc : src ≠ deadAddress) : Locked n lp' := by
  obtain ⟨-, hburn⟩ := failIf_bind_eq_ok.mp hburn
  exact h.update hburn (.inl hsrc)

theorem Locked.move (h : Locked n lp) (hmove : lp.move src dst value = .ok lp')
    (hsrc : src ≠ deadAddress ∨ value = 0) : Locked n lp' := by
  obtain ⟨-, hmove⟩ := failIf_bind_eq_ok.mp hmove
  obtain ⟨-, hmove⟩ := failIf_bind_eq_ok.mp hmove
  exact h.update hmove hsrc

theorem Locked.approve (h : Locked n lp) (happ : lp.approve src spender value = .ok lp')
    (hsrc : src ≠ deadAddress ∨ value = 0) : Locked n lp' := by
  obtain ⟨-, happ⟩ := failIf_bind_eq_ok.mp happ
  obtain ⟨-, happ⟩ := failIf_bind_eq_ok.mp happ
  injection happ with happ
  subst happ
  refine ⟨⟨h.backed.nobody, h.backed.supply⟩, h.held, fun x => ?_⟩
  show (if deadAddress = src ∧ x = spender then value else lp.allowances deadAddress x) = 0
  by_cases hc : deadAddress = src ∧ x = spender
  · rw [if_pos hc]
    exact hsrc.resolve_left fun hne => hne hc.1.symm
  · rw [if_neg hc]
    exact h.unspendable x

/-- Nobody spends the allowance of the dead address, except none of it. -/
theorem Locked.transferFrom (h : Locked n lp)
    (hfrom : lp.transferFrom spender src dst value = .ok lp') : Locked n lp' := by
  obtain ⟨lp₁, hspend, hmove⟩ := bind_eq_ok.mp hfrom
  unfold Erc20.spendAllowance at hspend
  by_cases hsrc : src = deadAddress
  · have hmax : 0 < maxUint256 := by decide
    subst hsrc
    rw [h.unspendable, if_pos hmax] at hspend
    obtain ⟨hallowed, hspend⟩ := failIf_bind_eq_ok.mp hspend
    have hvalue : value = 0 := by omega
    exact (h.approve hspend (.inr (Nat.zero_sub _))).move hmove (.inr hvalue)
  · split at hspend
    · obtain ⟨⟨⟩, -, hspend⟩ := bind_eq_ok.mp hspend
      exact (h.approve hspend (.inl hsrc)).move hmove (.inl hsrc)
    · injection hspend with hspend
      subst hspend
      exact h.move hmove (.inl hsrc)

/-- An LP call of anybody else leaves the shares locked. -/
theorem Locked.lpCall {c : LpCall} (h : Locked n lp) (hc : c.run lp = .ok lp')
    (hsender : c.sender ≠ deadAddress) : Locked n lp' := by
  cases c with
  | transfer sender dst value => exact h.move hc (.inl hsender)
  | approve sender spender value => exact h.approve hc (.inl hsender)
  | transferFrom sender src dst value => exact h.transferFrom hc

theorem Locked.lpCalls {calls : List LpCall} (h : Locked n lp)
    (hcalls : deadAddress ∉ calls.map LpCall.sender) : Locked n (runLpCalls lp calls) := by
  induction calls generalizing lp with
  | nil => exact h
  | cons c calls ih =>
    rw [List.map_cons, List.mem_cons, not_or] at hcalls
    show Locked n (runLpCalls ((c.run lp).toOption.getD lp) calls)
    cases hc : c.run lp with
    | error e => exact ih h hcalls.2
    | ok lp' => exact ih (h.lpCall hc (Ne.symm hcalls.1)) hcalls.2

/-! ## What the operations do to the LP token -/

/-- Opening the pool mints the minimum to the dead address. -/
theorem mintFor_locks {amountToken amountNative amountNativeMin a liquidity : Nat}
    (h : p.mintFor 0 amountToken amountNative amountNativeMin = .ok (a, liquidity, p')) :
    p.lp.mint deadAddress minimumLiquidity = .ok p'.lp := by
  rw [NativePool.mintFor, if_pos rfl] at h
  obtain ⟨m, -, h⟩ := bind_eq_ok.mp h
  obtain ⟨l, -, h⟩ := bind_eq_ok.mp h
  obtain ⟨lp, hlp, h⟩ := bind_eq_ok.mp h
  have hp := (Prod.mk.inj (Prod.mk.inj (Except.ok.inj h)).2).2
  rw [← hp]
  exact hlp

/-- A successful `addLiquidity` mints to the recipient, and first to the dead address when it opens
    the pool. -/
theorem addLiquidity_lp {msg : Msg} {desired tokenMin nativeMin : Nat} {dst : Address}
    {deadline : Nat} {pull : Transfer} {refund : Callback} {r : Added}
    (h : p.addLiquidity self msg desired tokenMin nativeMin dst deadline pull refund
      = .ok (p', r)) :
    ∃ lp₁ lp₂, (if p.lp.totalSupply = 0
        then (runLpCalls p.lp pull.call.lpCalls).mint deadAddress minimumLiquidity = .ok lp₁
        else lp₁ = runLpCalls p.lp pull.call.lpCalls) ∧
      lp₁.mint dst r.liquidity = .ok lp₂ ∧
      (p'.lp = lp₂ ∨ p'.lp = runLpCalls lp₂ refund.lpCalls) := by
  obtain ⟨-, h⟩ := failIf_bind_eq_ok.mp h
  obtain ⟨-, h⟩ := failIf_bind_eq_ok.mp h
  obtain ⟨-, h⟩ := failIf_bind_eq_ok.mp h
  obtain ⟨⟨asked, before⟩, -, h⟩ := bind_eq_ok.mp h
  obtain ⟨p₁, hpull, h⟩ := bind_eq_ok.mp h
  obtain ⟨received, -, h⟩ := bind_eq_ok.mp h
  obtain ⟨-, h⟩ := failIf_bind_eq_ok.mp h
  obtain ⟨⟨amountNative, liquidity, p₂⟩, hmint, h⟩ := bind_eq_ok.mp h
  obtain ⟨-, h⟩ := failIf_bind_eq_ok.mp h
  obtain ⟨rT, -, h⟩ := bind_eq_ok.mp h
  obtain ⟨rN, -, h⟩ := bind_eq_ok.mp h
  obtain ⟨lp, hlp, h⟩ := bind_eq_ok.mp h
  obtain ⟨p₃, hrefund, h⟩ := bind_eq_ok.mp h
  obtain ⟨rfl, rfl⟩ := ok_pair h
  obtain ⟨-, rfl⟩ := callOut_eq_ok.mp hpull
  refine ⟨p₂.lp, lp, ?_, hlp, ?_⟩
  · by_cases hs : p.lp.totalSupply = 0
    · rw [if_pos hs]
      rw [show ({ p with balance := p.balance + msg.value } : NativePool).lp.totalSupply = 0 from hs]
        at hmint
      have hlocks := mintFor_locks hmint
      exact hlocks
    · rw [if_neg hs]
      obtain ⟨-, -, -, -, -, rfl⟩ := mintFor_later hs hmint
      rfl
  · by_cases hlt : amountNative < msg.value
    · rw [if_pos hlt] at hrefund
      obtain ⟨-, -, -, rfl⟩ := sendNative_eq_ok.mp hrefund
      exact .inr rfl
    · rw [if_neg hlt] at hrefund
      injection hrefund with hrefund
      subst hrefund
      exact .inl rfl

/-- A successful `removeLiquidity` burns shares of its caller. -/
theorem removeLiquidity_lp {msg : Msg} {liquidity tokenMin nativeMin : Nat} {dst : Address}
    {deadline : Nat} {push send : Callback} {aT aN : Nat}
    (h : p.removeLiquidity self msg liquidity tokenMin nativeMin dst deadline push send
      = .ok (p', aT, aN)) :
    ∃ lp, p.lp.burn msg.sender liquidity = .ok lp ∧
      p'.lp = runLpCalls (runLpCalls lp push.lpCalls) send.lpCalls := by
  obtain ⟨-, h⟩ := failIf_bind_eq_ok.mp h
  obtain ⟨-, h⟩ := failIf_bind_eq_ok.mp h
  obtain ⟨-, h⟩ := failIf_bind_eq_ok.mp h
  obtain ⟨-, h⟩ := failIf_bind_eq_ok.mp h
  obtain ⟨m₁, -, h⟩ := bind_eq_ok.mp h
  obtain ⟨d₁, -, h⟩ := bind_eq_ok.mp h
  obtain ⟨m₂, -, h⟩ := bind_eq_ok.mp h
  obtain ⟨d₂, -, h⟩ := bind_eq_ok.mp h
  obtain ⟨-, h⟩ := failIf_bind_eq_ok.mp h
  obtain ⟨-, h⟩ := failIf_bind_eq_ok.mp h
  obtain ⟨-, h⟩ := failIf_bind_eq_ok.mp h
  obtain ⟨lp, hlp, h⟩ := bind_eq_ok.mp h
  obtain ⟨rT, -, h⟩ := bind_eq_ok.mp h
  obtain ⟨rN, -, h⟩ := bind_eq_ok.mp h
  obtain ⟨p₁, hpush, h⟩ := bind_eq_ok.mp h
  obtain ⟨p₂, hsend, h⟩ := bind_eq_ok.mp h
  injection h with h
  injection h with hp h
  subst hp
  obtain ⟨-, rfl⟩ := callOut_eq_ok.mp hpush
  obtain ⟨-, -, -, rfl⟩ := sendNative_eq_ok.mp hsend
  exact ⟨lp, hlp, rfl⟩

/-- A swap mints and burns nothing. -/
theorem swapExactNativeForTokens_lp {msg : Msg} {outMin : Nat} {dst : Address} {deadline : Nat}
    {push : Transfer} {out : Nat}
    (h : p.swapExactNativeForTokens msg outMin dst deadline push = .ok (p', out)) :
    p'.lp = runLpCalls p.lp push.call.lpCalls := by
  obtain ⟨-, h⟩ := failIf_bind_eq_ok.mp h
  obtain ⟨-, h⟩ := failIf_bind_eq_ok.mp h
  obtain ⟨amountOut, -, h⟩ := bind_eq_ok.mp h
  obtain ⟨-, h⟩ := failIf_bind_eq_ok.mp h
  obtain ⟨rT, -, h⟩ := bind_eq_ok.mp h
  obtain ⟨rN, -, h⟩ := bind_eq_ok.mp h
  obtain ⟨p₁, hpush, h⟩ := bind_eq_ok.mp h
  obtain ⟨received, -, h⟩ := bind_eq_ok.mp h
  obtain ⟨-, h⟩ := failIf_bind_eq_ok.mp h
  obtain ⟨rfl, -⟩ := ok_pair h
  obtain ⟨-, rfl⟩ := callOut_eq_ok.mp hpush
  rfl

theorem swapExactTokensForNative_lp {msg : Msg} {amountIn outMin : Nat} {dst : Address}
    {deadline : Nat} {pull : Transfer} {send : Callback} {out : Nat}
    (h : p.swapExactTokensForNative self msg amountIn outMin dst deadline pull send
      = .ok (p', out)) :
    p'.lp = runLpCalls (runLpCalls p.lp pull.call.lpCalls) send.lpCalls := by
  obtain ⟨-, h⟩ := failIf_bind_eq_ok.mp h
  obtain ⟨-, h⟩ := failIf_bind_eq_ok.mp h
  obtain ⟨-, h⟩ := failIf_bind_eq_ok.mp h
  obtain ⟨-, h⟩ := failIf_bind_eq_ok.mp h
  obtain ⟨p₁, hpull, h⟩ := bind_eq_ok.mp h
  obtain ⟨received, -, h⟩ := bind_eq_ok.mp h
  obtain ⟨amountOut, -, h⟩ := bind_eq_ok.mp h
  obtain ⟨-, h⟩ := failIf_bind_eq_ok.mp h
  obtain ⟨-, h⟩ := failIf_bind_eq_ok.mp h
  obtain ⟨rT, -, h⟩ := bind_eq_ok.mp h
  obtain ⟨rN, -, h⟩ := bind_eq_ok.mp h
  obtain ⟨p₂, hsend, h⟩ := bind_eq_ok.mp h
  obtain ⟨rfl, -⟩ := ok_pair h
  obtain ⟨-, rfl⟩ := callOut_eq_ok.mp hpull
  obtain ⟨-, -, -, rfl⟩ := sendNative_eq_ok.mp hsend
  rfl

/-! ## The invariant -/

/-- A pool with shares: the minimum is locked, and both reserves hold something. -/
structure Opened (p : NativePool) : Prop where
  locked : Locked minimumLiquidity p.lp
  token : 0 < p.reserveToken
  native : 0 < p.reserveNative

/-- A pool nobody ever added liquidity to. -/
structure Unopened (p : NativePool) : Prop where
  locked : Locked 0 p.lp
  supply : p.lp.totalSupply = 0
  token : p.reserveToken = 0
  native : p.reserveNative = 0

/-- **The invariant.** -/
def Sane (p : NativePool) : Prop := Unopened p ∨ Opened p

theorem Opened.supply (h : Opened p) : minimumLiquidity ≤ p.lp.totalSupply :=
  Nat.le_trans h.locked.held (h.locked.backed.le deadAddress)

theorem Opened.supply_ne (h : Opened p) : p.lp.totalSupply ≠ 0 := by
  have := h.supply
  unfold minimumLiquidity at this
  omega

theorem Sane.opened (h : Sane p) (hs : p.lp.totalSupply ≠ 0) : Opened p :=
  h.resolve_left fun hu => hs hu.supply

/-- What a holder's shares stand for is in the reserves. -/
theorem part_le {r : Nat} (h : n ≤ p.lp.totalSupply) : n * r / p.lp.totalSupply ≤ r :=
  Nat.div_le_of_le_mul (Nat.mul_le_mul_right r h)

/-- Fewer shares than there are stand for less than the reserve. -/
theorem part_lt {r : Nat} (hr : 0 < r) (h : n < p.lp.totalSupply) :
    n * r / p.lp.totalSupply < r := by
  rw [Nat.div_lt_iff_lt_mul (by omega), Nat.mul_comm r]
  exact Nat.mul_lt_mul_of_pos_right h hr

/-- A burn that went through took no more than the caller held. -/
theorem burn_le {a : Address} (h : lp.burn a value = .ok lp') : value ≤ lp.balances a := by
  obtain ⟨hne, h⟩ := failIf_bind_eq_ok.mp h
  obtain ⟨lp₁, h, -⟩ := bind_eq_ok.mp h
  rw [if_neg hne] at h
  obtain ⟨⟨⟩, hle, -⟩ := bind_eq_ok.mp h
  rw [failIf_eq_ok] at hle
  omega

/-- **Adding liquidity opens the pool**, or leaves it open. -/
theorem addLiquidity_opened {msg : Msg} {desired tokenMin nativeMin : Nat} {dst : Address}
    {deadline : Nat} {pull : Transfer} {refund : Callback} {r : Added} (hp : Sane p)
    (hpull : deadAddress ∉ pull.call.senders) (hrefund : deadAddress ∉ refund.senders)
    (h : p.addLiquidity self msg desired tokenMin nativeMin dst deadline pull refund
      = .ok (p', r)) : Opened p' := by
  have hspec := addLiquidity_spec h
  obtain ⟨lp₁, lp₂, hfirst, hmint, hlast⟩ := addLiquidity_lp h
  have hlocked : Locked minimumLiquidity lp₁ := by
    by_cases hs : p.lp.totalSupply = 0
    · rw [if_pos hs] at hfirst
      have hp₀ : Locked 0 p.lp := by
        rcases hp with hu | ho
        · exact hu.locked
        · exact absurd hs ho.supply_ne
      have := (hp₀.lpCalls hpull).mint_dead hfirst
      rwa [Nat.zero_add] at this
    · rw [if_neg hs] at hfirst
      rw [hfirst]
      exact (hp.opened hs).locked.lpCalls hpull
  have hminted : Locked minimumLiquidity lp₂ := hlocked.mint hmint
  refine ⟨?_, ?_, ?_⟩
  · rcases hlast with hlast | hlast
    · rw [hlast]
      exact hminted
    · rw [hlast]
      exact hminted.lpCalls hrefund
  · rw [hspec.reserveToken]
    have := hspec.received_pos
    omega
  · -- the native side is positive: it was sent, or the pool had some
    rw [hspec.reserveNative]
    by_cases hs : p.lp.totalSupply = 0
    · obtain ⟨-, hroot⟩ := hspec.first hs
      have hvalue : r.amountNative ≠ 0 := by
        intro hzero
        rw [(hspec.first hs).1] at hzero
        rw [hzero, Nat.mul_zero, Nat.sqrt_zero] at hroot
        unfold minimumLiquidity at hroot
        omega
      omega
    · have := (hspec.later hs).2.1
      omega

/-- **Removing liquidity leaves the pool open**: the locked shares stay, and their part with them. -/
theorem removeLiquidity_opened {msg : Msg} {liquidity tokenMin nativeMin : Nat} {dst : Address}
    {deadline : Nat} {push send : Callback} {aT aN : Nat} (hp : Sane p)
    (hsender : msg.sender ≠ deadAddress) (hpush : deadAddress ∉ push.senders)
    (hsend : deadAddress ∉ send.senders)
    (h : p.removeLiquidity self msg liquidity tokenMin nativeMin dst deadline push send
      = .ok (p', aT, aN)) : Opened p' := by
  obtain ⟨haT, haN, -, hposT, -, hrT, hrN, -, -⟩ := removeLiquidity_spec h
  obtain ⟨lp, hburn, hlp⟩ := removeLiquidity_lp h
  have hs : p.lp.totalSupply ≠ 0 := by
    intro hc
    rw [hc, Nat.div_zero] at haT
    omega
  have ho := hp.opened hs
  have hrest : liquidity < p.lp.totalSupply := by
    have hburned := burn_le hburn
    have htwo := ho.locked.backed.two_le hsender
    have hheld := ho.locked.held
    unfold minimumLiquidity at hheld
    omega
  have hT := part_lt ho.token hrest
  have hN := part_lt ho.native hrest
  rw [← haT] at hT
  rw [← haN] at hN
  refine ⟨?_, by omega, by omega⟩
  rw [hlp]
  exact ((ho.locked.burn hburn hsender).lpCalls hpush).lpCalls hsend

/-- A price is quoted against reserves on both sides only. -/
theorem Sane.opened_of_price {amountIn x y out : Nat} (hp : Sane p)
    (hxy : x = p.reserveToken ∨ x = p.reserveNative) (h : getAmountOut amountIn x y = .ok out) :
    Opened p := by
  obtain ⟨-, hx, -, -⟩ := getAmountOut_eq_ok h
  refine hp.resolve_left fun hu => hx ?_
  rcases hxy with rfl | rfl
  · exact hu.token
  · exact hu.native

/-- **Every operation keeps the pool sane**, and an open pool open. -/
theorem step_sane {w w' : World} {op : Op} (hw : Sane w.pool) (hop : DeadSilent w op)
    (h : step self w op = .ok w') :
    Sane w'.pool ∧ (w.pool.lp.totalSupply ≠ 0 → Opened w'.pool) := by
  cases op with
  | addLiquidity msg desired tokenMin nativeMin dst deadline pull refund =>
    obtain ⟨⟨p, r⟩, hadd, h⟩ := bind_eq_ok.mp h
    injection h with h
    subst h
    obtain ⟨-, hcalls⟩ := not_or.mp (mt List.mem_cons.mpr hop)
    obtain ⟨hpull, hrefund⟩ := not_or.mp (mt List.mem_append.mpr hcalls)
    have ho := addLiquidity_opened hw hpull hrefund hadd
    exact ⟨.inr ho, fun _ => ho⟩
  | removeLiquidity msg liquidity tokenMin nativeMin dst deadline push send =>
    obtain ⟨⟨p, aT, aN⟩, hrem, h⟩ := bind_eq_ok.mp h
    injection h with h
    subst h
    obtain ⟨hsender, hcalls⟩ := not_or.mp (mt List.mem_cons.mpr hop)
    obtain ⟨hpush, hsend⟩ := not_or.mp (mt List.mem_append.mpr hcalls)
    have ho := removeLiquidity_opened hw (Ne.symm hsender) hpush hsend hrem
    exact ⟨.inr ho, fun _ => ho⟩
  | swapExactNativeForTokens msg outMin dst deadline push =>
    obtain ⟨⟨p, out⟩, hswap, h⟩ := bind_eq_ok.mp h
    injection h with h
    subst h
    obtain ⟨-, hpush⟩ := not_or.mp (mt List.mem_cons.mpr hop)
    obtain ⟨hprice, -, hrT, hrN, -, -⟩ := swapExactNativeForTokens_spec hswap
    have ho := hw.opened_of_price (.inr rfl) hprice
    have hlt := (getAmountOut_trade hprice).1
    have ho' : Opened p := by
      refine ⟨?_, by omega, by have := ho.native; omega⟩
      rw [swapExactNativeForTokens_lp hswap]
      exact ho.locked.lpCalls hpush
    exact ⟨.inr ho', fun _ => ho'⟩
  | swapExactTokensForNative msg amountIn outMin dst deadline pull send =>
    obtain ⟨⟨p, out⟩, hswap, h⟩ := bind_eq_ok.mp h
    injection h with h
    subst h
    obtain ⟨-, hcalls⟩ := not_or.mp (mt List.mem_cons.mpr hop)
    obtain ⟨hpull, hsend⟩ := not_or.mp (mt List.mem_append.mpr hcalls)
    obtain ⟨hprice, -, hrT, hrN, -, -⟩ := swapExactTokensForNative_spec hswap
    have ho := hw.opened_of_price (.inl rfl) hprice
    have hlt := (getAmountOut_trade hprice).1
    have ho' : Opened p := by
      refine ⟨?_, by have := ho.token; omega, by omega⟩
      rw [swapExactTokensForNative_lp hswap]
      exact (ho.locked.lpCalls hpull).lpCalls hsend
    exact ⟨.inr ho', fun _ => ho'⟩
  | lp call =>
    obtain ⟨lp, hlp, h⟩ := bind_eq_ok.mp h
    injection h with h
    subst h
    have hsender : call.sender ≠ deadAddress := fun hc => hop (List.mem_singleton.mpr hc.symm)
    rcases hw with hu | ho
    · refine ⟨.inl ⟨hu.locked.lpCall hlp hsender, ?_, hu.token, hu.native⟩, fun hs => ?_⟩
      · exact (LpCall.run_totalSupply hlp).trans hu.supply
      · exact absurd hu.supply hs
    · have ho' : Opened { w.pool with lp := lp } :=
        ⟨ho.locked.lpCall hlp hsender, ho.token, ho.native⟩
      exact ⟨.inr ho', fun _ => ho'⟩
  | force amount =>
    injection h with h
    subst h
    rcases hw with hu | ho
    · exact ⟨.inl ⟨hu.locked, hu.supply, hu.token, hu.native⟩, fun hs => absurd hu.supply hs⟩
    · have ho' : Opened { w.pool with balance := w.pool.balance + amount } :=
        ⟨ho.locked, ho.token, ho.native⟩
      exact ⟨.inr ho', fun _ => ho'⟩

theorem sane_run {balance : Nat} {ops : List Op} {w : World}
    (hrun : Run (step self) DeadSilent ⟨.deployed balance, []⟩ ops w) : Sane w.pool :=
  hrun.inv (fun w => Sane w.pool) (.inl ⟨locked_empty, rfl, rfl, rfl⟩)
    (fun _ _ _ hw hop h => (step_sane hw hop h).1)

/-! ## Divisions -/

/-- The compiler's panic for a division by zero. -/
def divisionPanic : Revert := .panic 0x12

/-- A call that does not divide by zero. -/
def NotDivided {α : Type} (x : Call α) : Prop := x ≠ .error divisionPanic

section
variable {α β : Type} {x : Call α} {f : α → Call β} {c : Prop} [Decidable c] {e : Revert} {a b : Nat}

theorem NotDivided.ok (v : α) : NotDivided (.ok v) := fun h => nomatch h

theorem NotDivided.error (he : e ≠ divisionPanic) : NotDivided (.error e : Call α) := by
  intro h
  injection h with h
  exact he h

theorem NotDivided.bind (hx : NotDivided x) (hf : ∀ v, x = .ok v → NotDivided (f v)) :
    NotDivided (x >>= f) := by
  intro h
  rcases bind_eq_error.mp h with h | ⟨v, hv, h⟩
  · exact hx h
  · exact hf v hv h

theorem NotDivided.failIf (he : e ≠ divisionPanic) : NotDivided (failIf c e) := by
  unfold Gemba.Lib.failIf
  split
  · exact .error he
  · exact .ok _

theorem NotDivided.ite {y : Call α} (hx : c → NotDivided x) (hy : ¬ c → NotDivided y) :
    NotDivided (if c then x else y) := by
  split
  · rename_i h
    exact hx h
  · rename_i h
    exact hy h

theorem NotDivided.add : NotDivided (add a b) := .ite (fun _ => .ok _) fun _ => .error (by decide)

theorem NotDivided.sub : NotDivided (sub a b) := .ite (fun _ => .ok _) fun _ => .error (by decide)

theorem NotDivided.mul : NotDivided (mul a b) := .ite (fun _ => .ok _) fun _ => .error (by decide)

theorem NotDivided.div (hb : b ≠ 0) : NotDivided (div a b) :=
  .ite (fun h => absurd h hb) fun _ => .ok _

/-- `quote` divides by a reserve it has checked. -/
theorem quote_notDivided (amountA reserveA reserveB : Nat) :
    NotDivided (quote amountA reserveA reserveB) := by
  refine .bind (.failIf (by decide)) fun _ _ => ?_
  refine .bind (.failIf (by decide)) fun _ hreserves => ?_
  rw [failIf_eq_ok, not_or] at hreserves
  exact .bind .mul fun _ _ => .div hreserves.1

theorem getAmountOut_notDivided (amountIn reserveIn reserveOut : Nat) :
    NotDivided (getAmountOut amountIn reserveIn reserveOut) := by
  refine .bind (.failIf (by decide)) fun _ _ => ?_
  refine .bind (.failIf (by decide)) fun _ hreserves => ?_
  rw [failIf_eq_ok, not_or] at hreserves
  refine .bind .mul fun fee _ => .bind .mul fun _ _ => .bind .mul fun scaled hscaled => ?_
  refine .bind .add fun sum hsum => .div ?_
  obtain ⟨-, rfl⟩ := mul_eq_ok.mp hscaled
  obtain ⟨-, rfl⟩ := add_eq_ok.mp hsum
  omega

end

/-- No custom error is the panic. -/
theorem custom_ne_panic {name : String} {args : List Nat} :
    Revert.custom name args ≠ divisionPanic := fun h => nomatch h

theorem update_notDivided : NotDivided (lp.update src dst value) := by
  refine .bind ?_ fun _ _ => .ite (fun _ => .ok _) fun _ => .ok _
  refine .ite (fun _ => .bind .add fun _ _ => .ok _) fun _ => ?_
  exact .bind (.failIf custom_ne_panic) fun _ _ => .ok _

theorem mint_notDivided : NotDivided (lp.mint dst value) :=
  .bind (.failIf custom_ne_panic) fun _ _ => update_notDivided

theorem burn_notDivided : NotDivided (lp.burn src value) :=
  .bind (.failIf custom_ne_panic) fun _ _ => update_notDivided

theorem callOut_notDivided {cb : Callback} {failure : Revert} (h : failure ≠ divisionPanic) :
    NotDivided (p.callOut cb failure) :=
  .bind (.failIf h) fun _ _ => .ok _

theorem sendNative_notDivided {amount : Nat} {cb : Callback} :
    NotDivided (p.sendNative self dst amount cb) :=
  .bind (.failIf custom_ne_panic) fun _ _ => .bind (.failIf custom_ne_panic) fun _ _ =>
    callOut_notDivided custom_ne_panic

theorem optimalAmounts_notDivided {desired tokenMin nativeMin nativeIn : Nat} :
    NotDivided (p.optimalAmounts desired tokenMin nativeMin nativeIn) := by
  refine .ite (fun _ => .ok _) fun _ => .bind (quote_notDivided _ _ _) fun _ _ => ?_
  refine .ite (fun _ => .bind (.failIf custom_ne_panic) fun _ _ => .ok _) fun _ => ?_
  exact .bind (quote_notDivided _ _ _) fun _ _ => .bind (.failIf custom_ne_panic) fun _ _ => .ok _

/-- The shares are in proportion to reserves the quote has checked. -/
theorem mintFor_notDivided {supply amountToken amountNative nativeMin : Nat} :
    NotDivided (p.mintFor supply amountToken amountNative nativeMin) := by
  refine .ite (fun _ => ?_) fun _ => ?_
  · exact .bind .mul fun _ _ => .bind .sub fun _ _ => .bind mint_notDivided fun _ _ => .ok _
  · refine .bind (quote_notDivided _ _ _) fun _ hquote => ?_
    obtain ⟨-, hT, hN, -, -⟩ := quote_eq_ok.mp hquote
    refine .bind (.failIf custom_ne_panic) fun _ _ => .bind .mul fun _ _ => ?_
    exact .bind (.div hT) fun _ _ => .bind .mul fun _ _ => .bind (.div hN) fun _ _ => .ok _

theorem addLiquidity_notDivided {msg : Msg} {desired tokenMin nativeMin : Nat} {dst : Address}
    {deadline : Nat} {pull : Transfer} {refund : Callback} :
    NotDivided (p.addLiquidity self msg desired tokenMin nativeMin dst deadline pull refund) := by
  refine .bind (.failIf custom_ne_panic) fun _ _ => .bind (.failIf custom_ne_panic) fun _ _ => ?_
  refine .bind (.failIf custom_ne_panic) fun _ _ => .bind optimalAmounts_notDivided fun _ _ => ?_
  refine .bind (callOut_notDivided (by decide)) fun _ _ => .bind .sub fun _ _ => ?_
  refine .bind (.failIf custom_ne_panic) fun _ _ => .bind mintFor_notDivided fun _ _ => ?_
  refine .bind (.failIf custom_ne_panic) fun _ _ => .bind .add fun _ _ => .bind .add fun _ _ => ?_
  refine .bind mint_notDivided fun _ _ => .bind ?_ fun _ _ => .ok _
  exact .ite (fun _ => sendNative_notDivided) fun _ => .ok _

theorem swapExactNativeForTokens_notDivided {msg : Msg} {outMin : Nat} {dst : Address}
    {deadline : Nat} {push : Transfer} :
    NotDivided (p.swapExactNativeForTokens msg outMin dst deadline push) := by
  refine .bind (.failIf custom_ne_panic) fun _ _ => .bind (.failIf custom_ne_panic) fun _ _ => ?_
  refine .bind (getAmountOut_notDivided _ _ _) fun _ _ => ?_
  refine .bind (.failIf custom_ne_panic) fun _ _ => .bind .sub fun _ _ => .bind .add fun _ _ => ?_
  refine .bind (callOut_notDivided (by decide)) fun _ _ => .bind .sub fun _ _ => ?_
  exact .bind (.failIf custom_ne_panic) fun _ _ => .ok _

theorem swapExactTokensForNative_notDivided {msg : Msg} {amountIn outMin : Nat} {dst : Address}
    {deadline : Nat} {pull : Transfer} {send : Callback} :
    NotDivided (p.swapExactTokensForNative self msg amountIn outMin dst deadline pull send) := by
  refine .bind (.failIf (by decide)) fun _ _ => .bind (.failIf custom_ne_panic) fun _ _ => ?_
  refine .bind (.failIf custom_ne_panic) fun _ _ => .bind (.failIf custom_ne_panic) fun _ _ => ?_
  refine .bind (callOut_notDivided (by decide)) fun _ _ => .bind .sub fun _ _ => ?_
  refine .bind (getAmountOut_notDivided _ _ _) fun _ _ => .bind (.failIf custom_ne_panic) fun _ _ => ?_
  refine .bind (.failIf custom_ne_panic) fun _ _ => .bind .add fun _ _ => .bind .sub fun _ _ => ?_
  exact .bind sendNative_notDivided fun _ _ => .ok _

/-- With shares in existence, `removeLiquidity` divides by their number. -/
theorem removeLiquidity_notDivided {msg : Msg} {liquidity tokenMin nativeMin : Nat} {dst : Address}
    {deadline : Nat} {push send : Callback} (hs : p.lp.totalSupply ≠ 0) :
    NotDivided (p.removeLiquidity self msg liquidity tokenMin nativeMin dst deadline push send) := by
  refine .bind (.failIf (by decide)) fun _ _ => .bind (.failIf custom_ne_panic) fun _ _ => ?_
  refine .bind (.failIf custom_ne_panic) fun _ _ => .bind (.failIf custom_ne_panic) fun _ _ => ?_
  refine .bind .mul fun _ _ => .bind (.div hs) fun _ _ => .bind .mul fun _ _ => ?_
  refine .bind (.div hs) fun _ _ => .bind (.failIf custom_ne_panic) fun _ _ => ?_
  refine .bind (.failIf custom_ne_panic) fun _ _ => .bind (.failIf custom_ne_panic) fun _ _ => ?_
  refine .bind burn_notDivided fun _ _ => .bind .sub fun _ _ => .bind .sub fun _ _ => ?_
  exact .bind (callOut_notDivided (by decide)) fun _ _ => .bind sendNative_notDivided fun _ _ => .ok _

/-- **The one division by zero**: a pool nobody opened, asked with arguments it accepts. -/
theorem removeLiquidity_divides_iff {msg : Msg} {liquidity tokenMin nativeMin : Nat} {dst : Address}
    {deadline : Nat} {push send : Callback} (hp : Sane p) :
    p.removeLiquidity self msg liquidity tokenMin nativeMin dst deadline push send
        = .error divisionPanic ↔
      p.lp.totalSupply = 0 ∧ msg.value = 0 ∧ msg.timestamp ≤ deadline ∧ dst ≠ 0 ∧ liquidity ≠ 0 := by
  constructor
  · intro h
    have hs : p.lp.totalSupply = 0 := by
      by_cases hs : p.lp.totalSupply = 0
      · exact hs
      · exact absurd h (removeLiquidity_notDivided hs)
    have hguard : ∀ {c : Prop} [Decidable c] {e : Revert} {k : PUnit → Call (NativePool × Nat × Nat)},
        e ≠ divisionPanic → (failIf c e >>= k) = .error divisionPanic →
        ¬ c ∧ k ⟨⟩ = .error divisionPanic := by
      intro c _ e k he h
      rcases bind_eq_error.mp h with h | ⟨⟨⟩, hc, h⟩
      · exact absurd (failIf_eq_error h).2.symm he
      · exact ⟨failIf_eq_ok.mp hc, h⟩
    obtain ⟨hvalue, h⟩ := hguard (by decide) h
    obtain ⟨hdeadline, h⟩ := hguard custom_ne_panic h
    obtain ⟨hdst, h⟩ := hguard custom_ne_panic h
    obtain ⟨hliquidity, -⟩ := hguard custom_ne_panic h
    exact ⟨hs, not_not.mp hvalue, by omega, hdst, hliquidity⟩
  · rintro ⟨hs, hvalue, hdeadline, hdst, hliquidity⟩
    have hu : Unopened p := hp.resolve_right fun ho => ho.supply_ne hs
    have hmul : mul liquidity p.reserveToken = .ok 0 := by
      rw [hu.token]
      exact mul_eq_ok.mpr ⟨Nat.two_pow_pos 256, rfl⟩
    unfold NativePool.removeLiquidity
    rw [failIf_neg (not_not.mpr hvalue), ok_bind, failIf_neg (by omega), ok_bind, failIf_neg hdst,
      ok_bind, failIf_neg hliquidity, ok_bind, hmul, ok_bind, hs]
    rfl

/-! ## Runs -/

/-- What holds of a pool that was never wedged. -/
structure NeverWedged (self : Address) (w : World) : Prop where
  /-- Nobody opened it and it has nothing, or it has shares and both reserves. -/
  state : (w.pool.lp.totalSupply = 0 ∧ w.pool.reserveToken = 0 ∧ w.pool.reserveNative = 0) ∨
    (minimumLiquidity ≤ w.pool.lp.totalSupply ∧ 0 < w.pool.reserveToken ∧ 0 < w.pool.reserveNative)
  /-- It opens with more than the minimum, and never falls below it again. -/
  next : ∀ op w', DeadSilent w op → step self w op = .ok w' →
    (w.pool.lp.totalSupply = 0 →
      w'.pool.lp.totalSupply = 0 ∨ minimumLiquidity + 1 ≤ w'.pool.lp.totalSupply) ∧
    (w.pool.lp.totalSupply ≠ 0 → minimumLiquidity ≤ w'.pool.lp.totalSupply)
  /-- Prices, deposits and swaps never divide by zero. -/
  quotes : ∀ a x y, NotDivided (quote a x y) ∧ NotDivided (getAmountOut a x y)
  adds : ∀ msg desired tokenMin nativeMin dst deadline pull refund,
    NotDivided (w.pool.addLiquidity self msg desired tokenMin nativeMin dst deadline pull refund)
  swaps : ∀ msg amountIn outMin dst deadline pull send,
    NotDivided (w.pool.swapExactNativeForTokens msg outMin dst deadline pull) ∧
    NotDivided (w.pool.swapExactTokensForNative self msg amountIn outMin dst deadline pull send)
  /-- A removal does on a pool nobody opened, and only there. -/
  removes : ∀ msg liquidity tokenMin nativeMin dst deadline push send,
    w.pool.removeLiquidity self msg liquidity tokenMin nativeMin dst deadline push send
        = .error divisionPanic ↔
      w.pool.lp.totalSupply = 0 ∧ msg.value = 0 ∧ msg.timestamp ≤ deadline ∧ dst ≠ 0 ∧ liquidity ≠ 0
  /-- A swap takes less than the reserve has. -/
  outputs : ∀ a out,
    (getAmountOut a w.pool.reserveNative w.pool.reserveToken = .ok out → out < w.pool.reserveToken) ∧
    (getAmountOut a w.pool.reserveToken w.pool.reserveNative = .ok out → out < w.pool.reserveNative)
  /-- The part of shares somebody holds is in the reserves. -/
  parts : ∀ a liquidity, liquidity ≤ w.pool.lp.balances a →
    liquidity * w.pool.reserveToken / w.pool.lp.totalSupply ≤ w.pool.reserveToken ∧
    liquidity * w.pool.reserveNative / w.pool.lp.totalSupply ≤ w.pool.reserveNative

/-- A pool opens with more than the minimum. -/
theorem step_opens {w w' : World} {op : Op} (hw : Sane w.pool) (hop : DeadSilent w op)
    (h : step self w op = .ok w') (hs : w.pool.lp.totalSupply = 0) :
    w'.pool.lp.totalSupply = 0 ∨ minimumLiquidity + 1 ≤ w'.pool.lp.totalSupply := by
  have hempty : EmptyUnowned w.pool := fun _ => by
    have hu : Unopened w.pool := hw.resolve_right fun ho => ho.supply_ne hs
    exact ⟨hu.token, hu.native⟩
  by_cases hadd : ∃ msg desired tokenMin nativeMin dst deadline pull refund,
      op = .addLiquidity msg desired tokenMin nativeMin dst deadline pull refund
  · obtain ⟨msg, desired, tokenMin, nativeMin, dst, deadline, pull, refund, rfl⟩ := hadd
    obtain ⟨⟨p, r⟩, hadd, h⟩ := bind_eq_ok.mp h
    injection h with h
    subst h
    have hspec := addLiquidity_spec hadd
    refine .inr ?_
    show minimumLiquidity + 1 ≤ p.lp.totalSupply
    rw [hspec.totalSupply, if_pos hs]
    have := hspec.liquidity_pos
    omega
  · -- every other operation needs shares or mints none
    have hkept := step_kept hempty h
    cases op with
    | addLiquidity msg desired tokenMin nativeMin dst deadline pull refund =>
      exact absurd ⟨_, _, _, _, _, _, _, _, rfl⟩ hadd
    | removeLiquidity msg liquidity tokenMin nativeMin dst deadline push send =>
      obtain ⟨⟨p, aT, aN⟩, hrem, h⟩ := bind_eq_ok.mp h
      obtain ⟨haT, -, -, hposT, -⟩ := removeLiquidity_spec hrem
      rw [hs, Nat.div_zero] at haT
      omega
    | swapExactNativeForTokens msg outMin dst deadline push => exact .inl (hkept.supply.trans hs)
    | swapExactTokensForNative msg amountIn outMin dst deadline pull send =>
      exact .inl (hkept.supply.trans hs)
    | lp call => exact .inl (hkept.supply.trans hs)
    | force amount => exact .inl (hkept.supply.trans hs)

/-- **The pool is never emptied and never wedged**, in any run from deployment in which the dead
    address sends nothing, whatever the token and the recipients do. -/
theorem pool_never_wedged {balance : Nat} {ops : List Op} {w : World}
    (hrun : Run (step self) DeadSilent ⟨.deployed balance, []⟩ ops w) : NeverWedged self w := by
  have hw : Sane w.pool := sane_run hrun
  refine ⟨?_, ?_, fun a x y => ⟨quote_notDivided a x y, getAmountOut_notDivided a x y⟩,
    fun _ _ _ _ _ _ _ _ => addLiquidity_notDivided, ?_,
    fun _ _ _ _ _ _ _ _ => removeLiquidity_divides_iff hw, ?_, ?_⟩
  · rcases hw with hu | ho
    · exact .inl ⟨hu.supply, hu.token, hu.native⟩
    · exact .inr ⟨ho.supply, ho.token, ho.native⟩
  · intro op w' hop h
    exact ⟨step_opens hw hop h, fun hs => ((step_sane hw hop h).2 hs).supply⟩
  · intro msg amountIn outMin dst deadline pull send
    exact ⟨swapExactNativeForTokens_notDivided, swapExactTokensForNative_notDivided⟩
  · intro a out
    exact ⟨fun h => (getAmountOut_trade h).1, fun h => (getAmountOut_trade h).1⟩
  · intro a liquidity hheld
    have hle : liquidity ≤ w.pool.lp.totalSupply := by
      rcases hw with hu | ho
      · exact Nat.le_trans hheld (hu.locked.backed.le a)
      · exact Nat.le_trans hheld (ho.locked.backed.le a)
    exact ⟨part_le hle, part_le hle⟩

end

/-- Alice opens the pool and then removes all she got. -/
def removeAll : Op := .removeLiquidity ⟨alice, 0, 0⟩ 9000 0 0 alice 0 .quiet .quiet

/-- After Alice removed everything that is hers, the locked part is still there. -/
theorem pool_never_wedged_sample :
    NeverWedged poolAddress
      (runTo (step poolAddress) ⟨.deployed 0, []⟩ [openPool, removeAll]) :=
  pool_never_wedged (Run.of_runTo (by decide +kernel) (by decide +kernel))

/-- **A pool nobody opened divides by zero**: the state a run starts in answers a removal of one share
    with the division panic. -/
theorem removal_divides_by_zero :
    ∃ w, Run (step poolAddress) DeadSilent ⟨.deployed 0, []⟩ [] w ∧
      w.pool.removeLiquidity poolAddress ⟨alice, 0, 0⟩ 1 0 0 alice 0 .quiet .quiet
        = .error divisionPanic :=
  ⟨_, Run.nil, rfl⟩

end Gemba.Dex
