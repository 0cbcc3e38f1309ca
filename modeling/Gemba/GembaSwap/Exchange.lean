/-
  The exchange in every run: registry and reserves.

  A run is any sequence of calls to the tokens, the factory, the pairs and the router's functions on
  tokens, by accounts whose key somebody has.  A contract's address is none of these: `Keyed` says that
  the sender of a call is no pair, and not the zero address.  The tokens are plain and call nobody, so
  no call is made within another; the shares of a pair are kept in the pair, and are not traded.

  1. `Registry` — the factory and the pairs agree: a pair is where `CREATE2` puts its two tokens,
                  `getPair` finds it from either side, and `allPairs` lists it once;
  2. `PairOk`   — between calls a pair is unlocked, has what its reserves say, and its LP token is
                  sound;
  3. `Called`   — what one call of a pair did, in one form for all of them;
  4. `Sane`     — all of it together, kept by every operation (`sane_step`) and so in every run
                  (`sane_run`); `exchange_registry` is what it says of the registry.
-/
import Gemba.GembaSwap.Shares
import Gemba.GembaSwap.Router

namespace Gemba.GembaSwap

open Gemba.Lib Gemba.Evm GembaSwapLibrary

/-! ## What holds of the factory and its pairs -/

/-- The tokens of the pair at an address. -/
def Dex.tokensOf (w : Dex) (a : Address) : Option (Address × Address) :=
  (w.pairs a).map fun p => (p.token0, p.token1)

/-- The factory and the pairs agree. -/
structure Registry (c : Chain) (f : GembaSwapFactory)
    (tokensOf : Address → Option (Address × Address)) : Prop where
  home : ∀ a token0 token1, tokensOf a = some (token0, token1) →
    a ≠ 0 ∧ token0 < token1 ∧ token0 ≠ 0 ∧ a = c.create2 token0 token1 ∧ f.getPair token0 token1 = a
  found : ∀ x y, f.getPair x y ≠ 0 → x ≠ y ∧ tokensOf (f.getPair x y) = some (inOrder x y)
  comm : ∀ x y, f.getPair x y = f.getPair y x
  nodup : f.allPairs.Nodup
  listed : ∀ a, a ∈ f.allPairs ↔ (tokensOf a).isSome = true

/-- A pair between two calls. -/
structure PairOk (w : Dex) (a : Address) (p : GembaSwapPair) : Prop where
  unlocked : p.unlocked = true
  covered0 : p.reserves.reserve0 ≤ w.balanceOf p.token0 a
  covered1 : p.reserves.reserve1 ≤ w.balanceOf p.token1 a
  lp : LpSound p.lp

/-- An address where `CREATE2` puts a pair, if there is one yet or not. -/
def PairAddress (c : Chain) (a : Address) : Prop := ∃ token0 token1, a = c.create2 token0 token1

/-- The exchange between two calls. -/
structure Sane (c : Chain) (w : Dex) : Prop where
  registry : Registry c w.factory w.tokensOf
  ok : ∀ a p, w.pairs a = some p → PairOk w a p
  silent : ∀ a, PairAddress c a → ∀ token s, (w.tokens token).allowances a s = 0

section
variable {c : Chain} {w w' w₁ : Dex} {a pair dst sender token src : Address} {p p' : GembaSwapPair}

theorem tokensOf_some (hp : w.pairs a = some p) : w.tokensOf a = some (p.token0, p.token1) := by
  unfold Dex.tokensOf
  rw [hp]
  rfl

theorem pairAt_eq_ok : w.pairAt a = .ok p ↔ w.pairs a = some p := orThrow_eq_ok

/-- The address of a pair is one that `CREATE2` gave. -/
theorem Sane.address (h : Sane c w) (hp : w.pairs a = some p) : a ≠ 0 ∧ PairAddress c a := by
  obtain ⟨hzero, -, -, haddress, -⟩ := h.registry.home _ _ _ (tokensOf_some hp)
  exact ⟨hzero, _, _, haddress⟩

/-! ## The tokens change -/

/-- Nobody took anything from a pair, and nobody allowed to. -/
theorem Sane.tokens (h : Sane c w) (hfactory : w₁.factory = w.factory) (hpairs : w₁.pairs = w.pairs)
    (hle : ∀ a, PairAddress c a → ∀ k, w.balanceOf k a ≤ w₁.balanceOf k a)
    (hsilent : ∀ a, PairAddress c a → ∀ k s, (w₁.tokens k).allowances a s = 0) : Sane c w₁ := by
  have htokensOf : w₁.tokensOf = w.tokensOf := by
    unfold Dex.tokensOf
    rw [hpairs]
  refine ⟨?_, fun a p hp => ?_, hsilent⟩
  · rw [hfactory, htokensOf]
    exact h.registry
  · rw [hpairs] at hp
    have hok := h.ok a p hp
    have haddress := (h.address hp).2
    exact ⟨hok.unlocked, hok.covered0.trans (hle a haddress _), hok.covered1.trans (hle a haddress _),
      hok.lp⟩

/-- Movements that no pair is the source of. -/
theorem Sane.transferred {ms : List (Movement Address Address)} (h : Sane c w)
    (hmoved : Dex.Transferred ms w w₁) (hms : ∀ m ∈ ms, ¬ PairAddress c m.src) : Sane c w₁ := by
  refine h.tokens hmoved.factory hmoved.pairs (fun a haddress k => ?_) fun a haddress k s => ?_
  · exact hmoved.flow.le fun m hm _ hsrc => hms m hm (hsrc ▸ haddress)
  · exact Nat.le_zero.mp ((hmoved.allowances k a s).trans (Nat.le_of_eq (h.silent a haddress k s)))

/-- A transfer by a spender: from a pair only nothing. -/
theorem Sane.transferFrom {t : Erc20} {spender : Address} {value : Nat} (h : Sane c w)
    (ht : (w.tokens token).transferFrom spender src dst value = .ok t) :
    Sane c (w.setToken token t) := by
  obtain ⟨-, -, -, hallowed, hallowances, hbalances⟩ := transferFrom_spec ht
  have hmoved := Dex.transferred_setToken hbalances hallowances
  by_cases hsrc : PairAddress c src
  · -- the pair allowed nobody anything, so nothing moved
    have hvalue : value = 0 := by
      have hnone := h.silent src hsrc token spender
      rw [hnone] at hallowed
      rcases hallowed with hmax | hle
      · exact absurd hmax (by decide)
      · exact Nat.le_zero.mp hle
    refine h.tokens hmoved.factory hmoved.pairs (fun a haddress k => ?_) fun a haddress k s => ?_
    · have hflow := hmoved.flow k a
      rw [outOf_cons, hvalue] at hflow
      have htakes : (Movement.mk token src dst 0).takes k a = 0 := ite_self 0
      rw [htakes] at hflow
      have hrest : outOf ([] : List (Movement Address Address)) k a = 0 := rfl
      omega
    · exact Nat.le_zero.mp
        ((hmoved.allowances k a s).trans (Nat.le_of_eq (h.silent a haddress k s)))
  · exact h.transferred hmoved fun m hm => by rw [List.mem_singleton.mp hm]; exact hsrc

/-! ## A call of a pair -/

/-- A call of a pair: it sent tokens, and it is `p'` now, still the pair it was and as it is to be
    between calls. -/
structure Called (w : Dex) (pair : Address) (p : GembaSwapPair) (w' : Dex) : Prop where
  sent : ∃ ms w₁ p', Dex.Transferred ms w w₁ ∧ (∀ m ∈ ms, m.src = pair) ∧ w' = w₁.setPair pair p' ∧
    p'.token0 = p.token0 ∧ p'.token1 = p.token1 ∧ PairOk w₁ pair p'

theorem Sane.called (h : Sane c w) (hp : w.pairs pair = some p) (hcalled : Called w pair p w') :
    Sane c w' := by
  obtain ⟨ms, w₁, p', hmoved, hms, rfl, htoken0, htoken1, hok⟩ := hcalled.sent
  have htokensOf : (w₁.setPair pair p').tokensOf = w.tokensOf := by
    funext a
    unfold Dex.tokensOf
    by_cases ha : a = pair
    · rw [ha, Dex.setPair_same, hp, Option.map_some, Option.map_some, htoken0, htoken1]
    · rw [Dex.setPair_other _ ha, hmoved.pairs]
  refine ⟨?_, fun a q hq => ?_, fun a haddress k s => ?_⟩
  · rw [htokensOf, Dex.setPair_factory, hmoved.factory]
    exact h.registry
  · by_cases ha : a = pair
    · subst ha
      rw [Dex.setPair_same] at hq
      obtain rfl := Option.some.inj hq
      exact ⟨hok.unlocked, hok.covered0, hok.covered1, hok.lp⟩
    · -- the other pairs lose nothing
      rw [Dex.setPair_other _ ha, hmoved.pairs] at hq
      have hother := h.ok a q hq
      have hle : ∀ k, w.balanceOf k a ≤ w₁.balanceOf k a := fun k =>
        hmoved.flow.le fun m hm _ hsrc => ha (hsrc.symm.trans (hms m hm))
      exact ⟨hother.unlocked, hother.covered0.trans (hle _), hother.covered1.trans (hle _), hother.lp⟩
  · exact Nat.le_zero.mp ((hmoved.allowances k a s).trans (Nat.le_of_eq (h.silent a haddress k s)))

/-- A call that ended with the reserves set to what the pair has. -/
theorem Called.of_settled {ms : List (Movement Address Address)} {q : GembaSwapPair} {r : Reserves}
    {feeOn : Bool} {now : Nat} (hmoved : Dex.Transferred ms w w₁) (hms : ∀ m ∈ ms, m.src = pair)
    (hsettled : GembaSwapPair.Settled q (w₁.balanceOf p.token0 pair) (w₁.balanceOf p.token1 pair) r
      feeOn now p')
    (htoken0 : q.token0 = p.token0) (htoken1 : q.token1 = p.token1) (hlp : LpSound q.lp) :
    Called w pair p (w₁.setPair pair p') := by
  refine ⟨ms, w₁, p', hmoved, hms, rfl, hsettled.token0.trans htoken0,
    hsettled.token1.trans htoken1, hsettled.unlocked, ?_, ?_, ?_⟩
  · rw [hsettled.reserve0, hsettled.token0, htoken0]
  · rw [hsettled.reserve1, hsettled.token1, htoken1]
  · rw [hsettled.lp]
    exact hlp

theorem mint_called {liquidity : Nat} (hok : PairOk w pair p) (hp : w.pairs pair = some p)
    (h : w.mint pair dst = .ok (w', liquidity)) : Called w pair p w' := by
  obtain ⟨q, hq, h⟩ := bind_eq_ok.mp h
  obtain ⟨⟨p', given⟩, hmint, h⟩ := bind_eq_ok.mp h
  obtain ⟨rfl, -⟩ := ok_pair h
  obtain rfl := Option.some.inj ((pairAt_eq_ok.mp hq).symm.trans hp)
  obtain ⟨-, -, -, -, fee, p₁, p₂, p₃, hfee, hgiven, hlp, hrest, hsettled⟩ :=
    GembaSwapPair.mint_did hmint
  have hp₃ : p₃.token0 = q.token0 ∧ p₃.token1 = q.token1 := by
    rw [hrest, (GembaSwapPair.liquidityOf_spec hgiven).1, hfee.rest]
    exact ⟨rfl, rfl⟩
  exact Called.of_settled (Dex.Transferred.refl w) (fun m hm => absurd hm List.not_mem_nil) hsettled
    hp₃.1 hp₃.2 ((hfee.sound hok.lp).deposit hgiven hlp).1

theorem sync_called (hok : PairOk w pair p) (hp : w.pairs pair = some p)
    (h : w.sync pair = .ok w') : Called w pair p w' := by
  obtain ⟨q, hq, h⟩ := bind_eq_ok.mp h
  obtain ⟨p', hsync, h⟩ := bind_eq_ok.mp h
  injection h with h
  subst h
  obtain rfl := Option.some.inj ((pairAt_eq_ok.mp hq).symm.trans hp)
  exact Called.of_settled (Dex.Transferred.refl w) (fun m hm => absurd hm List.not_mem_nil)
    (GembaSwapPair.sync_did hsync).2 rfl rfl hok.lp

theorem burn_called {amount0 amount1 : Nat} (hpair : pair ≠ 0) (hok : PairOk w pair p)
    (hp : w.pairs pair = some p) (h : w.burn pair dst = .ok (w', amount0, amount1)) :
    Called w pair p w' := by
  obtain ⟨q, hq, h⟩ := bind_eq_ok.mp h
  obtain ⟨⟨q₁, b⟩, hburn, h⟩ := bind_eq_ok.mp h
  obtain ⟨w₁, hsend0, h⟩ := bind_eq_ok.mp h
  obtain ⟨w₂, hsend1, h⟩ := bind_eq_ok.mp h
  obtain ⟨p', hend, h⟩ := bind_eq_ok.mp h
  obtain ⟨rfl, -⟩ := ok_pair h
  obtain rfl := Option.some.inj ((pairAt_eq_ok.mp hq).symm.trans hp)
  obtain ⟨-, -, -, -, -, -, fee, p₁, hfee, hsupply, -, -, hlp, hrest⟩ :=
    GembaSwapPair.burnStart_did hburn
  have hq₁ : q₁.token0 = q.token0 ∧ q₁.token1 = q.token1 := by
    rw [hrest, hfee.rest]
    exact ⟨rfl, rfl⟩
  obtain ⟨-, -, hmoved0⟩ := Dex.safeTransfer_spec hsend0
  obtain ⟨-, -, hmoved1⟩ := Dex.safeTransfer_spec hsend1
  have hsettled := GembaSwapPair.burnEnd_did hend
  rw [hq₁.1, hq₁.2] at hsettled
  refine Called.of_settled (hmoved0.trans hmoved1) (fun m hm => ?_) hsettled hq₁.1 hq₁.2
    ((hfee.sound hok.lp).burn hsupply hpair hlp).1
  rcases List.mem_append.mp hm with hm | hm
  · rw [List.mem_singleton.mp hm]
  · rw [List.mem_singleton.mp hm]

theorem swap_called {amount0Out amount1Out : Nat} (hok : PairOk w pair p)
    (hp : w.pairs pair = some p) (h : w.swap pair amount0Out amount1Out dst = .ok w') :
    Called w pair p w' := by
  obtain ⟨q, hq, h⟩ := bind_eq_ok.mp h
  obtain ⟨⟨q₁, s⟩, hstart, h⟩ := bind_eq_ok.mp h
  obtain ⟨w₁, hsend0, h⟩ := bind_eq_ok.mp h
  obtain ⟨w₂, hsend1, h⟩ := bind_eq_ok.mp h
  obtain ⟨p', hend, h⟩ := bind_eq_ok.mp h
  injection h with h
  subst h
  obtain rfl := Option.some.inj ((pairAt_eq_ok.mp hq).symm.trans hp)
  obtain ⟨-, rfl, -, -, -⟩ := GembaSwapPair.swapStart_did hstart
  obtain ⟨ms0, hmoved0, hms0, -⟩ := Dex.sendSome_spec hsend0
  obtain ⟨ms1, hmoved1, hms1, -⟩ := Dex.sendSome_spec hsend1
  refine Called.of_settled (hmoved0.trans hmoved1) (fun m hm => ?_)
    (GembaSwapPair.swapEnd_did hend).2 rfl rfl hok.lp
  rcases List.mem_append.mp hm with hm | hm
  · exact hms0 m hm
  · exact hms1 m hm

theorem lp_called {fn : ERC20.Fn} (hsender : sender ≠ 0) (hok : PairOk w pair p)
    (hp : w.pairs pair = some p) (h : w.lp c pair sender fn = .ok w') : Called w pair p w' := by
  obtain ⟨q, hq, h⟩ := bind_eq_ok.mp h
  obtain ⟨lp, hlp, h⟩ := bind_eq_ok.mp h
  injection h with h
  subst h
  obtain rfl := Option.some.inj ((pairAt_eq_ok.mp hq).symm.trans hp)
  exact ⟨[], w, _, Dex.Transferred.refl w, fun m hm => absurd hm List.not_mem_nil, rfl, rfl, rfl,
    hok.unlocked, hok.covered0, hok.covered1, hok.lp.call hsender hlp⟩

/-- What is over `value` stays. -/
theorem left_over {value rest : Nat} (hmoved : Dex.Transferred [⟨token, src, dst, value⟩] w w')
    (hle : rest + value ≤ w.balanceOf token src) : rest ≤ w'.balanceOf token src := by
  have hflow := hmoved.flow token src
  have htakes : outOf [Movement.mk token src dst value] token src = value := by
    rw [outOf_cons, Movement.takes, if_pos ⟨rfl, rfl⟩]
    rfl
  omega

/-- `skim` sends what there is over the reserves, and nothing of them. -/
theorem skim_called (htokens : p.token0 ≠ p.token1) (hok : PairOk w pair p)
    (hp : w.pairs pair = some p) (h : w.skim pair dst = .ok w') : Called w pair p w' := by
  obtain ⟨q, hq, h⟩ := bind_eq_ok.mp h
  obtain ⟨q₁, hlock, h⟩ := bind_eq_ok.mp h
  obtain ⟨surplus0, hsurplus0, h⟩ := bind_eq_ok.mp h
  obtain ⟨w₁, hsend0, h⟩ := bind_eq_ok.mp h
  obtain ⟨surplus1, hsurplus1, h⟩ := bind_eq_ok.mp h
  obtain ⟨w₂, hsend1, h⟩ := bind_eq_ok.mp h
  injection h with h
  subst h
  obtain rfl := Option.some.inj ((pairAt_eq_ok.mp hq).symm.trans hp)
  obtain ⟨-, rfl⟩ := GembaSwapPair.lock_spec hlock
  obtain ⟨hle0, rfl⟩ := safeSub_eq_ok.mp hsurplus0
  obtain ⟨hle1, rfl⟩ := safeSub_eq_ok.mp hsurplus1
  obtain ⟨-, -, hmoved0⟩ := Dex.safeTransfer_spec hsend0
  obtain ⟨-, -, hmoved1⟩ := Dex.safeTransfer_spec hsend1
  have hkept0 : w₁.balanceOf q.token0 pair ≤ w₂.balanceOf q.token0 pair :=
    hmoved1.flow.le fun m hm hk => by
      rw [List.mem_singleton.mp hm] at hk
      exact absurd hk (Ne.symm htokens)
  have hleft0 : q.reserves.reserve0 ≤ w₁.balanceOf q.token0 pair :=
    left_over hmoved0 (Nat.le_of_eq (Nat.add_sub_cancel' hle0))
  have hleft1 : q.reserves.reserve1 ≤ w₂.balanceOf q.token1 pair :=
    left_over hmoved1 (Nat.le_of_eq (Nat.add_sub_cancel' hle1))
  refine ⟨_, w₂, _, hmoved0.trans hmoved1, fun m hm => ?_, rfl, rfl, rfl, rfl,
    hleft0.trans hkept0, hleft1, hok.lp⟩
  rcases List.mem_append.mp hm with hm | hm
  · rw [List.mem_singleton.mp hm]
  · rw [List.mem_singleton.mp hm]

/-! ## A new pair -/

/-- The registry with one more pair, at an address where there was none. -/
theorem Registry.add {f f' : GembaSwapFactory} {tokensOf : Address → Option (Address × Address)}
    {token0 token1 : Address} (h : Registry c f tokensOf) (hsorted : token0 < token1)
    (hzero : token0 ≠ 0) (hpair : pair = c.create2 token0 token1) (hpair0 : pair ≠ 0)
    (hnone : tokensOf pair = none)
    (hgetPair : ∀ x y, f'.getPair x y =
      if x = token0 ∧ y = token1 ∨ x = token1 ∧ y = token0 then pair else f.getPair x y)
    (hall : f'.allPairs = f.allPairs ++ [pair]) :
    Registry c f' fun a => if a = pair then some (token0, token1) else tokensOf a := by
  have hne : ∀ a t, tokensOf a = some t → a ≠ pair := by
    rintro a t ha rfl
    exact Option.some_ne_none t (ha.symm.trans hnone)
  refine ⟨fun a x y ha => ?_, fun x y hxy => ?_, fun x y => ?_, ?_, fun a => ?_⟩
  · by_cases hap : a = pair
    · rw [if_pos hap] at ha
      obtain ⟨rfl, rfl⟩ := Prod.mk.inj (Option.some.inj ha)
      rw [hgetPair, if_pos (.inl ⟨rfl, rfl⟩), hap]
      exact ⟨hpair0, hsorted, hzero, hpair, rfl⟩
    · rw [if_neg hap] at ha
      obtain ⟨ha0, hlt, hx0, haddress, hfound⟩ := h.home a x y ha
      refine ⟨ha0, hlt, hx0, haddress, ?_⟩
      rw [hgetPair, if_neg ?_]
      · exact hfound
      · rintro (⟨rfl, rfl⟩ | ⟨rfl, rfl⟩)
        · exact hap (haddress.trans hpair.symm)
        · exact absurd hlt (BitVec.lt_asymm hsorted)
  · rw [hgetPair] at hxy ⊢
    by_cases hc : x = token0 ∧ y = token1 ∨ x = token1 ∧ y = token0
    · rw [if_pos hc, if_pos rfl]
      rcases hc with ⟨rfl, rfl⟩ | ⟨rfl, rfl⟩
      · exact ⟨BitVec.ne_of_lt hsorted, by rw [(inOrder_sorted hsorted).1]⟩
      · exact ⟨(BitVec.ne_of_lt hsorted).symm, by rw [(inOrder_sorted hsorted).2]⟩
    · rw [if_neg hc] at hxy ⊢
      obtain ⟨hdistinct, hfound⟩ := h.found x y hxy
      rw [if_neg (hne _ _ hfound)]
      exact ⟨hdistinct, hfound⟩
  · rw [hgetPair, hgetPair, h.comm x y]
    refine if_congr ?_ rfl rfl
    constructor <;> rintro (⟨rfl, rfl⟩ | ⟨rfl, rfl⟩)
    · exact .inr ⟨rfl, rfl⟩
    · exact .inl ⟨rfl, rfl⟩
    · exact .inr ⟨rfl, rfl⟩
    · exact .inl ⟨rfl, rfl⟩
  · rw [hall, List.nodup_append]
    refine ⟨h.nodup, List.nodup_singleton _, fun a ha b hb => ?_⟩
    rw [List.mem_singleton.mp hb]
    obtain ⟨t, ht⟩ := Option.isSome_iff_exists.mp ((h.listed a).mp ha)
    exact hne a t ht
  · rw [hall, List.mem_append, List.mem_singleton, h.listed]
    by_cases hap : a = pair
    · rw [if_pos hap]
      exact iff_of_true (.inr hap) rfl
    · rw [if_neg hap]
      exact or_iff_left hap

theorem Sane.createPair {tokenA tokenB : Address} (h : Sane c w)
    (hnew : w.createPair c tokenA tokenB = .ok (w', pair)) : Sane c w' := by
  obtain ⟨hne, hnew⟩ := failIf_bind_eq_ok.mp hnew
  have hsorted : (inOrder tokenA tokenB).1 < (inOrder tokenA tokenB).2 :=
    (inOrder_spec hne Prod.mk.eta.symm).1
  generalize (inOrder tokenA tokenB).1 = token0 at hnew hsorted
  generalize (inOrder tokenA tokenB).2 = token1 at hnew hsorted
  obtain ⟨hzero, hnew⟩ := failIf_bind_eq_ok.mp hnew
  obtain ⟨-, hnew⟩ := failIf_bind_eq_ok.mp hnew
  obtain ⟨hfree, hnew⟩ := failIf_bind_eq_ok.mp hnew
  obtain ⟨p, hp, hnew⟩ := bind_eq_ok.mp hnew
  obtain ⟨rfl, rfl⟩ := ok_pair hnew
  obtain ⟨-, hp⟩ := failIf_bind_eq_ok.mp hp
  injection hp with hp
  obtain ⟨hpair0, hnone⟩ := not_or.mp hfree
  have hvacant : w.pairs (c.create2 token0 token1) = none := by
    rw [Bool.not_eq_true, Option.isSome_eq_false_iff, Option.isNone_iff_eq_none] at hnone
    exact hnone
  refine ⟨?_, fun a q hq => ?_, h.silent⟩
  · have htokensOf : (w.setPair (c.create2 token0 token1) p).tokensOf
        = fun a => if a = c.create2 token0 token1 then some (token0, token1) else w.tokensOf a := by
      funext a
      show Option.map _ (if a = _ then some p else w.pairs a) = _
      by_cases ha : a = c.create2 token0 token1
      · rw [if_pos ha, if_pos ha, ← hp]
        rfl
      · rw [if_neg ha, if_neg ha]
        rfl
    show Registry c _ (w.setPair (c.create2 token0 token1) p).tokensOf
    rw [htokensOf]
    exact h.registry.add hsorted hzero rfl hpair0 (by rw [Dex.tokensOf, hvacant]; rfl)
      (fun _ _ => rfl) rfl
  · by_cases ha : a = c.create2 token0 token1
    · -- the new pair has nothing and owes nothing
      have hq' : some p = some q := (if_pos ha).symm.trans hq
      rw [← Option.some.inj hq', ← hp]
      exact ⟨rfl, Nat.zero_le _, Nat.zero_le _, lpSound_empty⟩
    · have hq' : w.pairs a = some q := (if_neg ha).symm.trans hq
      have hok := h.ok a q hq'
      exact ⟨hok.unlocked, hok.covered0, hok.covered1, hok.lp⟩

/-! ## Everything that can be done -/

end

/-- An operation.  `issue` is a token's own mint; `swap` is one without data, which calls nobody. -/
inductive Op where
  | issue (token dst : Address) (value : Nat)
  | transfer (token sender dst : Address) (value : Nat)
  | approve (token sender spender : Address) (value : Nat)
  | transferFrom (token sender src dst : Address) (value : Nat)
  | createPair (tokenA tokenB : Address)
  | setFeeTo (sender feeTo : Address)
  | setFeeToSetter (sender feeToSetter : Address)
  | lp (pair sender : Address) (fn : ERC20.Fn)
  | mint (pair dst : Address)
  | burn (pair dst : Address)
  | swap (pair : Address) (amount0Out amount1Out : Nat) (dst : Address)
  | skim (pair dst : Address)
  | sync (pair : Address)
  | addLiquidity (sender tokenA tokenB : Address)
      (amountADesired amountBDesired amountAMin amountBMin : Nat) (dst : Address) (deadline : Nat)
  | removeLiquidity (sender tokenA tokenB : Address) (liquidity amountAMin amountBMin : Nat)
      (dst : Address) (deadline : Nat)
  | removeLiquidityWithPermit (sender tokenA tokenB : Address)
      (liquidity amountAMin amountBMin : Nat) (dst : Address) (deadline : Nat) (approveMax : Bool)
      (sig : Signature)
  | swapExactTokensForTokens (sender : Address) (amountIn amountOutMin : Nat) (path : List Address)
      (dst : Address) (deadline : Nat)
  | swapTokensForExactTokens (sender : Address) (amountOut amountInMax : Nat) (path : List Address)
      (dst : Address) (deadline : Nat)
  | swapExactTokensForTokensSupportingFee (sender : Address) (amountIn amountOutMin : Nat)
      (path : List Address) (dst : Address) (deadline : Nat)
  | later (seconds : Nat)

/-- The accounts that send the calls of an operation to the tokens and the LP tokens. -/
def Op.senders : Op → List Address
  | .transfer _ sender _ _ | .approve _ sender _ _ | .lp _ sender _ => [sender]
  | _ => []

/-- Nobody has the key of a pair, or of the zero address. -/
def Keyed (c : Chain) (_ : Dex) (op : Op) : Prop := ∀ s ∈ op.senders, s ≠ 0 ∧ ¬ PairAddress c s

section
variable (c : Chain) (router : Address)

open GembaSwapRouter02 in
/-- One operation. -/
def step (w : Dex) : Op → Call Dex
  | .issue token dst value => do
    let t ← (w.tokens token).mint dst value
    .ok (w.setToken token t)
  | .transfer token sender dst value => do
    let t ← (w.tokens token).move sender dst value
    .ok (w.setToken token t)
  | .approve token sender spender value => do
    let t ← (w.tokens token).approve sender spender value
    .ok (w.setToken token t)
  | .transferFrom token sender src dst value => do
    let t ← (w.tokens token).transferFrom sender src dst value
    .ok (w.setToken token t)
  | .createPair tokenA tokenB => do
    let (w, _) ← w.createPair c tokenA tokenB
    .ok w
  | .setFeeTo sender feeTo => w.setFeeTo sender feeTo
  | .setFeeToSetter sender feeToSetter => w.setFeeToSetter sender feeToSetter
  | .lp pair sender fn => w.lp c pair sender fn
  | .mint pair dst => do
    let (w, _) ← w.mint pair dst
    .ok w
  | .burn pair dst => do
    let (w, _) ← w.burn pair dst
    .ok w
  | .swap pair amount0Out amount1Out dst => w.swap pair amount0Out amount1Out dst
  | .skim pair dst => w.skim pair dst
  | .sync pair => w.sync pair
  | .addLiquidity sender tokenA tokenB amountADesired amountBDesired amountAMin amountBMin dst
      deadline => do
    let (w, _) ← addLiquidity c router w sender tokenA tokenB amountADesired amountBDesired
      amountAMin amountBMin dst deadline
    .ok w
  | .removeLiquidity sender tokenA tokenB liquidity amountAMin amountBMin dst deadline => do
    let (w, _) ← removeLiquidity c router w sender tokenA tokenB liquidity amountAMin amountBMin dst
      deadline
    .ok w
  | .removeLiquidityWithPermit sender tokenA tokenB liquidity amountAMin amountBMin dst deadline
      approveMax sig => do
    let (w, _) ← removeLiquidityWithPermit c router w sender tokenA tokenB liquidity amountAMin
      amountBMin dst deadline approveMax sig
    .ok w
  | .swapExactTokensForTokens sender amountIn amountOutMin path dst deadline => do
    let (w, _) ← swapExactTokensForTokens c router w sender amountIn amountOutMin path dst deadline
    .ok w
  | .swapTokensForExactTokens sender amountOut amountInMax path dst deadline => do
    let (w, _) ← swapTokensForExactTokens c router w sender amountOut amountInMax path dst deadline
    .ok w
  | .swapExactTokensForTokensSupportingFee sender amountIn amountOutMin path dst deadline =>
    swapExactTokensForTokensSupportingFee c router w sender amountIn amountOutMin path dst deadline
  | .later seconds => .ok { w with now := w.now + seconds }

end

section
variable {c : Chain} {w w' : Dex} {router token pair sender spender src dst : Address} {value : Nat}

theorem Sane.at_pair (h : Sane c w) {p : GembaSwapPair} (hp : w.pairs pair = some p) :
    pair ≠ 0 ∧ p.token0 ≠ p.token1 ∧ PairOk w pair p := by
  obtain ⟨hzero, hlt, -, -, -⟩ := h.registry.home _ _ _ (tokensOf_some hp)
  exact ⟨hzero, BitVec.ne_of_lt hlt, h.ok pair p hp⟩

/-- A call of a pair found it. -/
theorem pairAt_bind {α : Type} {f : GembaSwapPair → Call α} {r : α}
    (h : (w.pairAt pair >>= f) = .ok r) : ∃ p, w.pairs pair = some p := by
  obtain ⟨p, hp, -⟩ := bind_eq_ok.mp h
  exact ⟨p, pairAt_eq_ok.mp hp⟩

theorem Sane.mint {liquidity : Nat} (h : Sane c w) (hm : w.mint pair dst = .ok (w', liquidity)) :
    Sane c w' := by
  obtain ⟨p, hp⟩ := pairAt_bind hm
  exact h.called hp (mint_called (h.at_pair hp).2.2 hp hm)

theorem Sane.burn {amounts : Nat × Nat} (h : Sane c w) (hb : w.burn pair dst = .ok (w', amounts)) :
    Sane c w' := by
  obtain ⟨p, hp⟩ := pairAt_bind hb
  exact h.called hp (burn_called (h.at_pair hp).1 (h.at_pair hp).2.2 hp hb)

theorem Sane.swap {amount0Out amount1Out : Nat} (h : Sane c w)
    (hs : w.swap pair amount0Out amount1Out dst = .ok w') : Sane c w' := by
  obtain ⟨p, hp⟩ := pairAt_bind hs
  exact h.called hp (swap_called (h.at_pair hp).2.2 hp hs)

theorem Sane.skim (h : Sane c w) (hs : w.skim pair dst = .ok w') : Sane c w' := by
  obtain ⟨p, hp⟩ := pairAt_bind hs
  exact h.called hp (skim_called (h.at_pair hp).2.1 (h.at_pair hp).2.2 hp hs)

theorem Sane.sync (h : Sane c w) (hs : w.sync pair = .ok w') : Sane c w' := by
  obtain ⟨p, hp⟩ := pairAt_bind hs
  exact h.called hp (sync_called (h.at_pair hp).2.2 hp hs)

theorem Sane.lp {fn : ERC20.Fn} (h : Sane c w) (hsender : sender ≠ 0)
    (hl : w.lp c pair sender fn = .ok w') : Sane c w' := by
  obtain ⟨p, hp⟩ := pairAt_bind hl
  exact h.called hp (lp_called hsender (h.at_pair hp).2.2 hp hl)

theorem Sane.safeTransferFrom (h : Sane c w)
    (ht : w.safeTransferFrom token spender src dst value = .ok w') : Sane c w' := by
  obtain ⟨t, ht, heq⟩ := bind_eq_ok.mp ht
  injection heq with heq
  rw [← heq]
  exact h.transferFrom (Dex.orFail_eq_ok.mp ht)

/-! ## The router keeps it -/

open GembaSwapRouter02

theorem Sane.prepareLiquidity {tokenA tokenB : Address} {aDesired bDesired aMin bMin : Nat}
    {amounts : Nat × Nat} (h : Sane c w)
    (hp : prepareLiquidity c w tokenA tokenB aDesired bDesired aMin bMin = .ok (w', amounts)) :
    Sane c w' := by
  obtain ⟨w₁, hw₁, hp⟩ := bind_eq_ok.mp hp
  obtain ⟨⟨reserveA, reserveB⟩, -, hp⟩ := bind_eq_ok.mp hp
  obtain ⟨⟨amountA, amountB⟩, -, hp⟩ := bind_eq_ok.mp hp
  obtain ⟨rfl, -⟩ := ok_pair hp
  rcases ite_eq_ok.mp hw₁ with ⟨-, hw₁⟩ | ⟨-, hw₁⟩
  · obtain ⟨⟨w₂, pair⟩, hnew, hw₁⟩ := bind_eq_ok.mp hw₁
    injection hw₁ with hw₁
    rw [← hw₁]
    exact h.createPair hnew
  · injection hw₁ with hw₁
    rw [← hw₁]
    exact h

theorem Sane.addLiquidity {tokenA tokenB : Address} {aDesired bDesired aMin bMin deadline : Nat}
    {r : Nat × Nat × Nat} (h : Sane c w)
    (ha : addLiquidity c router w sender tokenA tokenB aDesired bDesired aMin bMin dst deadline
      = .ok (w', r)) : Sane c w' := by
  obtain ⟨-, -, ha⟩ := bind_eq_ok.mp ha
  obtain ⟨⟨w₁, amountA, amountB⟩, hprepare, ha⟩ := bind_eq_ok.mp ha
  obtain ⟨pair, -, ha⟩ := bind_eq_ok.mp ha
  obtain ⟨w₂, hpayA, ha⟩ := bind_eq_ok.mp ha
  obtain ⟨w₃, hpayB, ha⟩ := bind_eq_ok.mp ha
  obtain ⟨⟨w₄, liquidity⟩, hmint, ha⟩ := bind_eq_ok.mp ha
  obtain ⟨rfl, -⟩ := ok_pair ha
  exact (((h.prepareLiquidity hprepare).safeTransferFrom hpayA).safeTransferFrom hpayB).mint hmint

theorem Sane.removeLiquidity {tokenA tokenB : Address} {liquidity aMin bMin deadline : Nat}
    {r : Nat × Nat} (hrouter : router ≠ 0) (h : Sane c w)
    (hr : removeLiquidity c router w sender tokenA tokenB liquidity aMin bMin dst deadline
      = .ok (w', r)) : Sane c w' := by
  obtain ⟨-, -, hr⟩ := bind_eq_ok.mp hr
  obtain ⟨pair, -, hr⟩ := bind_eq_ok.mp hr
  obtain ⟨w₁, hlp, hr⟩ := bind_eq_ok.mp hr
  obtain ⟨⟨w₂, amount0, amount1⟩, hburn, hr⟩ := bind_eq_ok.mp hr
  obtain ⟨⟨token0, token1⟩, -, hr⟩ := bind_eq_ok.mp hr
  obtain ⟨-, hr⟩ := failIf_bind_eq_ok.mp hr
  obtain ⟨-, hr⟩ := failIf_bind_eq_ok.mp hr
  obtain ⟨rfl, -⟩ := ok_pair hr
  exact (h.lp hrouter hlp).burn hburn

theorem Sane.hop {input output : Address} {amountOut : Nat} (h : Sane c w)
    (hh : hop c w input output amountOut dst = .ok w') : Sane c w' := by
  obtain ⟨⟨token0, token1⟩, -, hh⟩ := bind_eq_ok.mp hh
  obtain ⟨pair, -, hh⟩ := bind_eq_ok.mp hh
  rcases ite_eq_ok.mp hh with ⟨-, hh⟩ | ⟨-, hh⟩
  · exact h.swap hh
  · exact h.swap hh

theorem Sane.swapAlong {amounts : List Nat} {path : List Address} (h : Sane c w)
    (hs : swapAlong c w amounts path dst = .ok w') : Sane c w' := by
  fun_induction GembaSwapRouter02.swapAlong c w amounts path dst with
  | case1 w x amountOut amounts input output path dst ih =>
    obtain ⟨receiver, -, hs⟩ := bind_eq_ok.mp hs
    obtain ⟨w₁, hhop, hs⟩ := bind_eq_ok.mp hs
    exact ih w₁ (h.hop hhop) hs
  | case2 w amounts path dst =>
    injection hs with hs
    rw [← hs]
    exact h

theorem Sane.swapSupportingFee {path : List Address} (h : Sane c w)
    (hs : swapSupportingFee c w path dst = .ok w') : Sane c w' := by
  fun_induction GembaSwapRouter02.swapSupportingFee c w path dst with
  | case1 w input output path dst ih =>
    obtain ⟨amountOutput, -, hs⟩ := bind_eq_ok.mp hs
    obtain ⟨receiver, -, hs⟩ := bind_eq_ok.mp hs
    obtain ⟨w₁, hhop, hs⟩ := bind_eq_ok.mp hs
    exact ih w₁ (h.hop hhop) hs
  | case2 w path dst =>
    injection hs with hs
    rw [← hs]
    exact h

theorem Sane.payFirst {path : List Address} {amount : Nat} (h : Sane c w)
    (hp : payFirst c router w sender path amount = .ok w') : Sane c w' := by
  rcases path with _ | ⟨input, _ | ⟨output, path⟩⟩
  · exact absurd hp (by simp [GembaSwapRouter02.payFirst])
  · exact absurd hp (by simp [GembaSwapRouter02.payFirst])
  · obtain ⟨pair, -, hp⟩ := bind_eq_ok.mp hp
    exact h.safeTransferFrom hp

theorem Sane.swapExactTokensForTokens {amountIn amountOutMin deadline : Nat} {path : List Address}
    {amounts : List Nat} (h : Sane c w)
    (hs : swapExactTokensForTokens c router w sender amountIn amountOutMin path dst deadline
      = .ok (w', amounts)) : Sane c w' := by
  obtain ⟨-, -, hs⟩ := bind_eq_ok.mp hs
  obtain ⟨quoted, -, hs⟩ := bind_eq_ok.mp hs
  obtain ⟨-, hs⟩ := failIf_bind_eq_ok.mp hs
  obtain ⟨w₁, hpay, hs⟩ := bind_eq_ok.mp hs
  obtain ⟨w₂, halong, hs⟩ := bind_eq_ok.mp hs
  obtain ⟨rfl, -⟩ := ok_pair hs
  exact (h.payFirst hpay).swapAlong halong

theorem Sane.swapTokensForExactTokens {amountOut amountInMax deadline : Nat} {path : List Address}
    {amounts : List Nat} (h : Sane c w)
    (hs : swapTokensForExactTokens c router w sender amountOut amountInMax path dst deadline
      = .ok (w', amounts)) : Sane c w' := by
  obtain ⟨-, -, hs⟩ := bind_eq_ok.mp hs
  obtain ⟨quoted, -, hs⟩ := bind_eq_ok.mp hs
  obtain ⟨-, hs⟩ := failIf_bind_eq_ok.mp hs
  obtain ⟨w₁, hpay, hs⟩ := bind_eq_ok.mp hs
  obtain ⟨w₂, halong, hs⟩ := bind_eq_ok.mp hs
  obtain ⟨rfl, -⟩ := ok_pair hs
  exact (h.payFirst hpay).swapAlong halong

theorem Sane.swapExactTokensForTokensSupportingFee {amountIn amountOutMin deadline : Nat}
    {path : List Address} (h : Sane c w)
    (hs : swapExactTokensForTokensSupportingFee c router w sender amountIn amountOutMin path dst
      deadline = .ok w') : Sane c w' := by
  obtain ⟨-, -, hs⟩ := bind_eq_ok.mp hs
  obtain ⟨w₁, hpay, hs⟩ := bind_eq_ok.mp hs
  obtain ⟨w₂, halong, hs⟩ := bind_eq_ok.mp hs
  obtain ⟨gained, -, hs⟩ := bind_eq_ok.mp hs
  obtain ⟨-, hs⟩ := failIf_bind_eq_ok.mp hs
  injection hs with hs
  rw [← hs]
  exact (h.payFirst hpay).swapSupportingFee halong

/-! ## Every operation -/

/-- A token gives out new units. -/
theorem Sane.issue {t : Erc20} (h : Sane c w) (ht : (w.tokens token).mint dst value = .ok t) :
    Sane c (w.setToken token t) := by
  obtain ⟨-, hupdate⟩ := failIf_bind_eq_ok.mp ht
  refine h.tokens rfl rfl (fun a _ k => ?_) fun a haddress k s => ?_
  · by_cases hk : k = token
    · subst hk
      show (w.tokens k).balances a ≤ ((w.setToken k t).tokens k).balances a
      rw [Dex.setToken_same]
      have hx := erc20_update_balances hupdate a
      have hnone : at' 0 value a = 0 := by
        unfold at'
        split <;> rfl
      omega
    · show (w.tokens k).balances a ≤ ((w.setToken token t).tokens k).balances a
      rw [Dex.setToken_other _ hk]
  · by_cases hk : k = token
    · subst hk
      rw [Dex.setToken_same, erc20_update_allowances hupdate]
      exact h.silent a haddress k s
    · rw [Dex.setToken_other _ hk]
      exact h.silent a haddress k s

/-- An account that is no pair approves. -/
theorem Sane.approve {t : Erc20} (h : Sane c w) (hsender : ¬ PairAddress c sender)
    (ht : (w.tokens token).approve sender spender value = .ok t) : Sane c (w.setToken token t) := by
  obtain ⟨-, ht⟩ := failIf_bind_eq_ok.mp ht
  obtain ⟨-, ht⟩ := failIf_bind_eq_ok.mp ht
  injection ht with ht
  subst ht
  refine h.tokens rfl rfl (fun a _ k => ?_) fun a haddress k s => ?_
  · by_cases hk : k = token
    · subst hk
      show (w.tokens k).balances a ≤ ((w.setToken k _).tokens k).balances a
      rw [Dex.setToken_same]
    · show (w.tokens k).balances a ≤ ((w.setToken token _).tokens k).balances a
      rw [Dex.setToken_other _ hk]
  · by_cases hk : k = token
    · subst hk
      rw [Dex.setToken_same]
      show (if a = sender ∧ s = spender then value else (w.tokens k).allowances a s) = 0
      rw [if_neg fun hc : a = sender ∧ s = spender => hsender (hc.1 ▸ haddress)]
      exact h.silent a haddress k s
    · rw [Dex.setToken_other _ hk]
      exact h.silent a haddress k s

/-- The factory's fee and who may set it do not concern the pairs. -/
theorem Sane.factory {f : GembaSwapFactory} (h : Sane c w) (hgetPair : f.getPair = w.factory.getPair)
    (hall : f.allPairs = w.factory.allPairs) : Sane c { w with factory := f } := by
  obtain ⟨hhome, hfound, hcomm, hnodup, hlisted⟩ := h.registry
  refine ⟨⟨?_, ?_, ?_, ?_, ?_⟩, fun a p hp => ?_, h.silent⟩
  · rw [hgetPair]
    exact hhome
  · rw [hgetPair]
    exact hfound
  · rw [hgetPair]
    exact hcomm
  · rw [hall]
    exact hnodup
  · rw [hall]
    exact hlisted
  · have hok := h.ok a p hp
    exact ⟨hok.unlocked, hok.covered0, hok.covered1, hok.lp⟩

/-- **Every operation keeps the exchange sane.** -/
theorem sane_step {op : Op} (hrouter : router ≠ 0) (h : Sane c w) (hkeyed : Keyed c w op)
    (hs : step c router w op = .ok w') : Sane c w' := by
  cases op with
  | issue token dst value =>
    obtain ⟨t, ht, hs⟩ := bind_eq_ok.mp hs
    obtain rfl := Except.ok.inj hs
    exact h.issue ht
  | transfer token sender dst value =>
    obtain ⟨t, ht, hs⟩ := bind_eq_ok.mp hs
    obtain rfl := Except.ok.inj hs
    obtain ⟨-, -, -, hallowances, hbalances⟩ := move_spec ht
    have hmoved := Dex.transferred_setToken hbalances fun o s => by rw [hallowances]
    refine h.transferred hmoved fun m hm => ?_
    rw [List.mem_singleton.mp hm]
    exact (hkeyed sender List.mem_cons_self).2
  | approve token sender spender value =>
    obtain ⟨t, ht, hs⟩ := bind_eq_ok.mp hs
    obtain rfl := Except.ok.inj hs
    exact h.approve (hkeyed sender List.mem_cons_self).2 ht
  | transferFrom token sender src dst value =>
    obtain ⟨t, ht, hs⟩ := bind_eq_ok.mp hs
    obtain rfl := Except.ok.inj hs
    exact h.transferFrom ht
  | createPair tokenA tokenB =>
    obtain ⟨⟨w₁, pair⟩, hnew, hs⟩ := bind_eq_ok.mp hs
    obtain rfl := Except.ok.inj hs
    exact h.createPair hnew
  | setFeeTo sender feeTo =>
    obtain ⟨-, hs⟩ := failIf_bind_eq_ok.mp hs
    obtain rfl := Except.ok.inj hs
    exact h.factory rfl rfl
  | setFeeToSetter sender feeToSetter =>
    obtain ⟨-, hs⟩ := failIf_bind_eq_ok.mp hs
    obtain rfl := Except.ok.inj hs
    exact h.factory rfl rfl
  | lp pair sender fn => exact h.lp (hkeyed sender List.mem_cons_self).1 hs
  | mint pair dst =>
    obtain ⟨⟨w₁, liquidity⟩, hm, hs⟩ := bind_eq_ok.mp hs
    obtain rfl := Except.ok.inj hs
    exact h.mint hm
  | burn pair dst =>
    obtain ⟨⟨w₁, amounts⟩, hb, hs⟩ := bind_eq_ok.mp hs
    obtain rfl := Except.ok.inj hs
    exact h.burn hb
  | swap pair amount0Out amount1Out dst => exact h.swap hs
  | skim pair dst => exact h.skim hs
  | sync pair => exact h.sync hs
  | addLiquidity sender tokenA tokenB aDesired bDesired aMin bMin dst deadline =>
    obtain ⟨⟨w₁, r⟩, ha, hs⟩ := bind_eq_ok.mp hs
    obtain rfl := Except.ok.inj hs
    exact h.addLiquidity ha
  | removeLiquidity sender tokenA tokenB liquidity aMin bMin dst deadline =>
    obtain ⟨⟨w₁, r⟩, hr, hs⟩ := bind_eq_ok.mp hs
    obtain rfl := Except.ok.inj hs
    exact h.removeLiquidity hrouter hr
  | removeLiquidityWithPermit sender tokenA tokenB liquidity aMin bMin dst deadline approveMax sig =>
    obtain ⟨⟨w₁, r⟩, hr, hs⟩ := bind_eq_ok.mp hs
    obtain rfl := Except.ok.inj hs
    obtain ⟨pair, -, hr⟩ := bind_eq_ok.mp hr
    obtain ⟨w₂, hpermit, hr⟩ := bind_eq_ok.mp hr
    exact (h.lp hrouter hpermit).removeLiquidity hrouter hr
  | swapExactTokensForTokens sender amountIn amountOutMin path dst deadline =>
    obtain ⟨⟨w₁, amounts⟩, hswap, hs⟩ := bind_eq_ok.mp hs
    obtain rfl := Except.ok.inj hs
    exact h.swapExactTokensForTokens hswap
  | swapTokensForExactTokens sender amountOut amountInMax path dst deadline =>
    obtain ⟨⟨w₁, amounts⟩, hswap, hs⟩ := bind_eq_ok.mp hs
    obtain rfl := Except.ok.inj hs
    exact h.swapTokensForExactTokens hswap
  | swapExactTokensForTokensSupportingFee sender amountIn amountOutMin path dst deadline =>
    exact h.swapExactTokensForTokensSupportingFee hs
  | later seconds =>
    obtain rfl := Except.ok.inj hs
    exact h.tokens rfl rfl (fun _ _ _ => Nat.le_refl _) h.silent

/-- The factory was just deployed; the tokens are as they are. -/
def Dex.deployed (feeToSetter : Address) (tokens : Address → Erc20) (now : Nat) : Dex :=
  { factory := ⟨0, feeToSetter, fun _ _ => 0, []⟩, pairs := fun _ => none, tokens, now }

/-- Nothing was ever allowed from the address of a pair to come. -/
def Untouched (c : Chain) (tokens : Address → Erc20) : Prop :=
  ∀ a, PairAddress c a → ∀ token s, (tokens token).allowances a s = 0

theorem sane_deployed {feeToSetter : Address} {tokens : Address → Erc20} {now : Nat}
    (h : Untouched c tokens) : Sane c (Dex.deployed feeToSetter tokens now) := by
  refine ⟨⟨fun a x y ha => ?_, fun x y hxy => absurd rfl hxy, fun _ _ => rfl, List.nodup_nil,
    fun a => ?_⟩, fun a p hp => ?_, h⟩
  · exact absurd ha (Option.some_ne_none (x, y)).symm
  · exact iff_of_false List.not_mem_nil Bool.false_ne_true
  · exact absurd hp (Option.some_ne_none p).symm

/-- The exchange is sane in every run. -/
theorem sane_run {feeToSetter : Address} {tokens : Address → Erc20} {now : Nat} {ops : List Op}
    (hrouter : router ≠ 0) (h0 : Untouched c tokens)
    (h : Run (step c router) (Keyed c) (Dex.deployed feeToSetter tokens now) ops w) : Sane c w :=
  Run.inv (Sane c) (sane_deployed h0) (fun _ _ _ hs hk hstep => sane_step hrouter hs hk hstep) h

/-- **The exchange in every run**, by any sequence of operations: calls to plain tokens, to the factory
    and the pairs, and to the functions of the router on tokens.  `getPair` is symmetric, and what it
    finds is the pair of just these two tokens, at the address the library computes for them, which was
    compiled for this factory.  `allPairs` lists every pair, and lists it once.  Every pair is found
    under its tokens, unlocked, with an LP token that is backed, and has of both tokens what its
    reserves say. -/
theorem exchange_registry {feeToSetter : Address} {tokens : Address → Erc20} {now : Nat}
    {ops : List Op} (hrouter : router ≠ 0) (h0 : Untouched c tokens)
    (h : Run (step c router) (Keyed c) (Dex.deployed feeToSetter tokens now) ops w) :
    (∀ x y, w.factory.getPair x y = w.factory.getPair y x) ∧
      (∀ x y, w.factory.getPair x y ≠ 0 → pairFor c x y = .ok (w.factory.getPair x y) ∧
        w.tokensOf (w.factory.getPair x y) = some (inOrder x y)) ∧
      w.factory.allPairs.Nodup ∧ (∀ a, a ∈ w.factory.allPairs ↔ ∃ p, w.pairs a = some p) ∧
      ∀ a p, w.pairs a = some p → w.factory.getPair p.token0 p.token1 = a ∧ p.token0 < p.token1 ∧
        p.unlocked = true ∧ LpSound p.lp ∧ p.reserves.reserve0 ≤ w.balanceOf p.token0 a ∧
        p.reserves.reserve1 ≤ w.balanceOf p.token1 a := by
  have hsane : Sane c w := sane_run hrouter h0 h
  refine ⟨hsane.registry.comm, fun x y hxy => ?_, hsane.registry.nodup, fun a => ?_, fun a p hp => ?_⟩
  · obtain ⟨hne, hfound⟩ := hsane.registry.found x y hxy
    refine ⟨?_, hfound⟩
    obtain ⟨-, -, hzero, haddress, -⟩ :=
      hsane.registry.home _ (inOrder x y).1 (inOrder x y).2 hfound
    rw [pairFor_eq hne hzero, ← haddress]
  · rw [hsane.registry.listed a, Dex.tokensOf, Option.isSome_map, Option.isSome_iff_exists]
  · obtain ⟨-, hlt, -, -, hfound⟩ := hsane.registry.home _ _ _ (tokensOf_some hp)
    have hok := hsane.ok a p hp
    exact ⟨hfound, hlt, hok.unlocked, hok.lp, hok.covered0, hok.covered1⟩

/-- A chain whose pairs are all in the upper half of the addresses. -/
def plainChain : Chain :=
  { factory := 8, creationCodeHash := initCodeHash, sameCode := rfl,
    contractAt := fun hash token0 token1 =>
      (hash.setWidth 160 + token0 + token1) ||| (1 <<< 159)
    ecrecover := fun _ _ => 0 }

theorem plainChain_pairs {a : Address} (h : PairAddress plainChain a) : a.msb = true := by
  obtain ⟨token0, token1, rfl⟩ := h
  show ((initCodeHash.setWidth 160 + token0 + token1) ||| (1 <<< 159)).msb = true
  rw [BitVec.msb_or, Bool.or_eq_true]
  exact .inr (by decide)

/-- Three tokens, and two pairs of them. -/
def plainDeposits : List Op :=
  [.issue 1 5 100000, .issue 2 5 100000, .issue 3 5 100000, .approve 1 5 9 100000,
   .approve 2 5 9 100000, .approve 3 5 9 100000, .addLiquidity 5 1 2 20000 40000 0 0 5 0,
   .addLiquidity 5 2 3 20000 30000 0 0 5 0]

def plainTokens : Address → Erc20 := fun _ => Erc20.empty

def plainDex : Dex := runTo (step plainChain 9) (Dex.deployed 4 plainTokens 0) plainDeposits

/-- Whose calls they are. -/
theorem plainChain_keyed {ops : List Op} (h : ∀ s ∈ ops.flatMap Op.senders, s = 5) :
    ∀ op ∈ ops, ∀ w, Keyed plainChain w op := by
  intro op hop w s hs
  rw [h s (List.mem_flatMap.mpr ⟨op, hop, hs⟩)]
  exact ⟨by decide, fun hpair => absurd (plainChain_pairs hpair) (by decide)⟩

theorem plainDex_run :
    Run (step plainChain 9) (Keyed plainChain) (Dex.deployed 4 plainTokens 0) plainDeposits plainDex := by
  refine Run.of_runTo (allowedM_of_forall (plainChain_keyed fun s hs => ?_)) (by decide +kernel)
  exact List.eq_of_mem_replicate (show s ∈ List.replicate 3 5 from hs)

theorem plainTokens_untouched : Untouched plainChain plainTokens := fun _ _ _ _ => rfl

theorem exchange_registry_sample :
    plainDex.factory.allPairs.Nodup ∧
      pairFor plainChain 3 2 = .ok (plainDex.factory.getPair 3 2) := by
  have hregistry := exchange_registry (by decide) plainTokens_untouched plainDex_run
  exact ⟨hregistry.2.2.1, (hregistry.2.1 3 2 (by decide +kernel)).1⟩

end
end Gemba.GembaSwap
