/-
  Swaps along a path: what is quoted is what happens.

  A swap through several pairs is one payment into the first of them and then a row of hops, each from
  a pair to the next and the last to the receiver; `routeMoves` writes these movements down.

  1. `Routed`          — what a row of hops did: just these movements, and only the pairs of the path;
  2. `hop_routed`      — one hop, whenever it goes through;
  3. `hop_ok`          — and when it does: at a fair amount, with the input already in the pair;
  4. `swapAlong_ok`    — a whole path, by induction on it.  Before each hop the pairs still to come
                         are as they were quoted (`Ready`), and the next one has its input.
-/
import Gemba.GembaSwap.Exchange

namespace Gemba.GembaSwap

open Gemba.Lib Gemba.Evm GembaSwapLibrary

/-! ## A swap of one pair -/

section
variable {w w' : Dex} {pair dst : Address} {p : GembaSwapPair} {amount0Out amount1Out : Nat}

/-- What `swap` sends. -/
def swapMoves (p : GembaSwapPair) (pair dst : Address) (amount0Out amount1Out : Nat) :
    List (Movement Address Address) :=
  [⟨p.token0, pair, dst, amount0Out⟩, ⟨p.token1, pair, dst, amount1Out⟩]

/-- The two sends of `swap`. -/
theorem sendSome_twice {w₁ w₂ : Dex} (h0 : w.sendSome p.token0 pair dst amount0Out = .ok w₁)
    (h1 : w₁.sendSome p.token1 pair dst amount1Out = .ok w₂) :
    ∃ ms, Dex.Transferred ms w w₂ ∧
      Flow (swapMoves p pair dst amount0Out amount1Out) w.balanceOf w₂.balanceOf := by
  obtain ⟨ms0, hmoved0, -, hms0⟩ := Dex.sendSome_spec h0
  obtain ⟨ms1, hmoved1, -, hms1⟩ := Dex.sendSome_spec h1
  have hmoved : Dex.Transferred (ms0 ++ ms1) w w₂ := hmoved0.trans hmoved1
  refine ⟨ms0 ++ ms1, hmoved, hmoved.flow.congr (fun k x => ?_) fun k x => ?_⟩
  · rw [outOf_append, (hms0 k x).1, (hms1 k x).1]
    rfl
  · rw [into_append, (hms0 k x).2, (hms1 k x).2]
    rfl

/-- A swap that goes through sends what it was asked for, and leaves reserves that are the balances. -/
theorem swap_did (hp : w.pairs pair = some p) (h : w.swap pair amount0Out amount1Out dst = .ok w') :
    (0 < amount0Out ∨ 0 < amount1Out) ∧ amount0Out < p.reserves.reserve0 ∧
      amount1Out < p.reserves.reserve1 ∧
      ∃ ms w₁ p', Dex.Transferred ms w w₁ ∧ w' = w₁.setPair pair p' ∧
        Flow (swapMoves p pair dst amount0Out amount1Out) w.balanceOf w₁.balanceOf ∧
        GembaSwapPair.swapEnd { p with unlocked := false }
          ⟨amount0Out, amount1Out, dst, false, p.reserves⟩ (w₁.balanceOf p.token0 pair)
          (w₁.balanceOf p.token1 pair) w₁.now = .ok p' := by
  obtain ⟨q, hq, h⟩ := bind_eq_ok.mp h
  obtain ⟨⟨q₁, s⟩, hstart, h⟩ := bind_eq_ok.mp h
  obtain ⟨w₁, hsend0, h⟩ := bind_eq_ok.mp h
  obtain ⟨w₂, hsend1, h⟩ := bind_eq_ok.mp h
  obtain ⟨p', hend, h⟩ := bind_eq_ok.mp h
  obtain rfl := Except.ok.inj h
  obtain rfl := Option.some.inj ((pairAt_eq_ok.mp hq).symm.trans hp)
  have hsome : 0 < amount0Out ∨ 0 < amount1Out := by
    obtain ⟨q₀, -, hstart⟩ := bind_eq_ok.mp hstart
    obtain ⟨hsome, -⟩ := failIf_bind_eq_ok.mp hstart
    omega
  obtain ⟨-, rfl, rfl, hlt0, hlt1⟩ := GembaSwapPair.swapStart_did hstart
  obtain ⟨ms, hmoved, hflow⟩ := sendSome_twice hsend0 hsend1
  exact ⟨hsome, hlt0, hlt1, ms, w₂, p', hmoved, rfl, hflow, hend⟩

/-- What a swap leaves with the pair. -/
theorem swap_balances {w₁ : Dex}
    (hflow : Flow (swapMoves p pair dst amount0Out amount1Out) w.balanceOf w₁.balanceOf)
    (htokens : p.token0 ≠ p.token1) (hself : dst ≠ pair) :
    w₁.balanceOf p.token0 pair + amount0Out = w.balanceOf p.token0 pair ∧
      w₁.balanceOf p.token1 pair + amount1Out = w.balanceOf p.token1 pair := by
  constructor
  · have hx := hflow p.token0 pair
    rw [swapMoves, outOf_cons, outOf_cons, into_cons, into_cons, takes_mk, takes_mk, gives_mk,
      gives_mk, if_pos ⟨rfl, rfl⟩, if_neg fun hc => htokens hc.1.symm, if_neg fun hc => hself hc.2,
      if_neg fun hc => hself hc.2] at hx
    exact hx
  · have hx := hflow p.token1 pair
    rw [swapMoves, outOf_cons, outOf_cons, into_cons, into_cons, takes_mk, takes_mk, gives_mk,
      gives_mk, if_neg fun hc => htokens hc.1, if_pos ⟨rfl, rfl⟩, if_neg fun hc => hself hc.2,
      if_neg fun hc => hself hc.2, Nat.zero_add] at hx
    exact hx

/-- Sending goes through when there is enough. -/
theorem sendSome_ok {token : Address} {value : Nat} (hpair : pair ≠ 0) (hdst : dst ≠ 0)
    (hfunds : value ≤ w.balanceOf token pair) : ∃ w', w.sendSome token pair dst value = .ok w' := by
  unfold Dex.sendSome
  split
  · exact Dex.safeTransfer_ok hpair hdst hfunds
  · exact ⟨w, rfl⟩

/-- **When a swap of a pair goes through.**  `paid0` and `paid1` are what the pair has over its
    reserves. -/
theorem swap_ok {paid0 paid1 : Nat} (hp : w.pairs pair = some p) (hpair : pair ≠ 0)
    (htokens : p.token0 ≠ p.token1) (hunlocked : p.unlocked = true)
    (hsome : 0 < amount0Out ∨ 0 < amount1Out) (hlt0 : amount0Out < p.reserves.reserve0)
    (hlt1 : amount1Out < p.reserves.reserve1) (hdst : dst ≠ 0) (hself : dst ≠ pair)
    (hdst0 : dst ≠ p.token0) (hdst1 : dst ≠ p.token1) (hpaid : 0 < paid0 ∨ 0 < paid1)
    (h0 : p.reserves.reserve0 + paid0 ≤ w.balanceOf p.token0 pair)
    (h1 : p.reserves.reserve1 + paid1 ≤ w.balanceOf p.token1 pair)
    (hfits0 : w.balanceOf p.token0 pair < 2 ^ 112 + amount0Out)
    (hfits1 : w.balanceOf p.token1 pair < 2 ^ 112 + amount1Out)
    (hk : p.reserves.k * 1000 ^ 2 ≤ (1000 * (p.reserves.reserve0 - amount0Out) + 997 * paid0) *
      (1000 * (p.reserves.reserve1 - amount1Out) + 997 * paid1)) :
    ∃ w', w.swap pair amount0Out amount1Out dst = .ok w' := by
  have hstart : p.swapStart amount0Out amount1Out dst false = .ok _ :=
    GembaSwapPair.swapStart_ok hunlocked hsome hlt0 hlt1 hdst0 hdst1
  obtain ⟨w₁, hsend0⟩ : ∃ w₁, w.sendSome p.token0 pair dst amount0Out = .ok w₁ :=
    sendSome_ok hpair hdst (by omega)
  obtain ⟨ms0, hmoved0, -, hms0⟩ := Dex.sendSome_spec hsend0
  -- the other token is as it was
  have hother : w₁.balanceOf p.token1 pair = w.balanceOf p.token1 pair := by
    have hx := hmoved0.flow p.token1 pair
    rw [(hms0 _ _).1, (hms0 _ _).2, takes_mk, gives_mk,
      if_neg fun hc => htokens hc.1, if_neg fun hc => htokens hc.1] at hx
    exact hx
  obtain ⟨w₂, hsend1⟩ : ∃ w₂, w₁.sendSome p.token1 pair dst amount1Out = .ok w₂ :=
    sendSome_ok hpair hdst (by omega)
  obtain ⟨-, -, hflow⟩ := sendSome_twice hsend0 hsend1
  obtain ⟨hbalance0, hbalance1⟩ := swap_balances hflow htokens hself
  have hleft0 : p.reserves.reserve0 - amount0Out + paid0 ≤ w₂.balanceOf p.token0 pair := by omega
  have hleft1 : p.reserves.reserve1 - amount1Out + paid1 ≤ w₂.balanceOf p.token1 pair := by omega
  obtain ⟨p', hend⟩ : ∃ p', GembaSwapPair.swapEnd { p with unlocked := false }
      ⟨amount0Out, amount1Out, dst, false, p.reserves⟩ (w₂.balanceOf p.token0 pair)
      (w₂.balanceOf p.token1 pair) w₂.now = .ok p' :=
    GembaSwapPair.swapEnd_ok hpaid hleft0 hleft1 (by omega) (by omega) hk
  exact ⟨_, bind_eq_ok.mpr ⟨p, pairAt_eq_ok.mpr hp, bind_eq_ok.mpr ⟨_, hstart,
    bind_eq_ok.mpr ⟨w₁, hsend0, bind_eq_ok.mpr ⟨w₂, hsend1, bind_eq_ok.mpr ⟨p', hend, rfl⟩⟩⟩⟩⟩⟩

end

/-! ## A path -/

/-- Where the pair of two tokens is. -/
def pairOf (c : Chain) (a b : Address) : Address := c.create2 (inOrder a b).1 (inOrder a b).2

/-- The pairs a path goes through. -/
def routePairs (c : Chain) : List Address → List Address
  | a :: b :: path => pairOf c a b :: routePairs c (b :: path)
  | _ => []

/-- Where a hop sends: to the next pair, or to the receiver after the last. -/
def nextStop (c : Chain) (dst b : Address) : List Address → Address
  | next :: _ => pairOf c b next
  | [] => dst

/-- The hops of a path, as movements. -/
def routeMoves (c : Chain) (dst : Address) :
    List Nat → List Address → List (Movement Address Address)
  | _ :: y :: amounts, a :: b :: path =>
    ⟨b, pairOf c a b, nextStop c dst b path, y⟩ :: routeMoves c dst (y :: amounts) (b :: path)
  | _, _ => []

/-- The payment, and then the hops. -/
def tradeMoves (c : Chain) (sender dst : Address) (amounts : List Nat) (path : List Address) :
    List (Movement Address Address) :=
  match path with
  | a :: b :: rest =>
    ⟨a, sender, pairOf c a b, amounts.headD 0⟩ :: routeMoves c dst amounts (a :: b :: rest)
  | _ => []

/-- `P` of every hop: of the amounts in and out, and the tokens.  There is one amount more than there
    are hops, as there is one token more. -/
def Along (P : Nat → Nat → Address → Address → Prop) : List Nat → List Address → Prop
  | x :: y :: amounts, a :: b :: path => P x y a b ∧ Along P (y :: amounts) (b :: path)
  | [_], [_] => True
  | _, _ => False

/-- The factory knows a pair for every two neighbours. -/
abbrev Listed (w : Dex) (path : List Address) : Prop :=
  path.IsChain fun a b => w.factory.getPair a b ≠ 0

/-- The tokens moved by `ms`, and but for the pairs at `as` nothing else happened. -/
structure Routed (ms : List (Movement Address Address)) (as : List Address) (w w' : Dex) : Prop where
  factory : w'.factory = w.factory
  now : w'.now = w.now
  flow : Flow ms w.balanceOf w'.balanceOf
  others : ∀ a, a ∉ as → w'.pairs a = w.pairs a

section
variable {c : Chain} {w w' w₁ : Dex} {a b dst : Address} {x y : Nat} {path as bs : List Address}
  {ms ns : List (Movement Address Address)} {amounts : List Nat}

theorem Routed.trans (h : Routed ms as w w₁) (h' : Routed ns bs w₁ w') :
    Routed (ms ++ ns) (as ++ bs) w w' := by
  refine ⟨h'.factory.trans h.factory, h'.now.trans h.now, h.flow.trans h'.flow, fun a ha => ?_⟩
  rw [List.mem_append, not_or] at ha
  exact (h'.others a ha.2).trans (h.others a ha.1)

theorem Dex.Transferred.routed (h : Dex.Transferred ms w w') : Routed ms [] w w' :=
  ⟨h.factory, h.now, h.flow, fun a _ => congrFun h.pairs a⟩

theorem Listed.frame (h : Listed w path) (hfactory : w'.factory = w.factory) : Listed w' path := by
  unfold Listed
  rw [hfactory]
  exact h

/-- A pair that the factory knows is where it is looked for. -/
theorem Sane.at_listed (h : Sane c w) (hab : w.factory.getPair a b ≠ 0) :
    a ≠ b ∧ (inOrder a b).1 ≠ 0 ∧ pairOf c a b = w.factory.getPair a b ∧
      ∃ p, w.pairs (pairOf c a b) = some p ∧ (p.token0, p.token1) = inOrder a b := by
  obtain ⟨hne, hfound⟩ := h.registry.found a b hab
  obtain ⟨-, -, hzero, haddress, -⟩ := h.registry.home _ (inOrder a b).1 (inOrder a b).2 hfound
  obtain ⟨p, hp, htokens⟩ := Option.map_eq_some_iff.mp hfound
  refine ⟨hne, hzero, haddress.symm, p, ?_, htokens⟩
  rw [pairOf, ← haddress]
  exact hp

/-- One hop is one swap of the pair. -/
theorem hop_eq (hne : a ≠ b) (hzero : (inOrder a b).1 ≠ 0) :
    GembaSwapRouter02.hop c w a b y dst = if a = (inOrder a b).1 then w.swap (pairOf c a b) 0 y dst
      else w.swap (pairOf c a b) y 0 dst := by
  rw [GembaSwapRouter02.hop, sortTokens_ok hne hzero, pairFor_eq hne hzero]
  rfl

theorem hopTo_eq (h : Sane c w) (hlisted : Listed w (b :: path)) :
    GembaSwapRouter02.hopTo c b path dst = .ok (nextStop c dst b path) := by
  cases path with
  | nil => rfl
  | cons next path =>
    obtain ⟨hne, hzero, -, -⟩ := h.at_listed (List.isChain_cons_cons.mp hlisted).1
    exact pairFor_eq hne hzero

/-- Two sorted tokens are the two given, in one order or the other. -/
theorem inOrder_cases (hne : a ≠ b) {p : GembaSwapPair} (h : (p.token0, p.token1) = inOrder a b) :
    (a = (inOrder a b).1 ∧ p.token0 = a ∧ p.token1 = b) ∨
      (a ≠ (inOrder a b).1 ∧ p.token0 = b ∧ p.token1 = a) := by
  obtain ⟨-, ⟨ha, hb⟩ | ⟨ha, hb⟩⟩ := inOrder_spec hne h.symm
  · left
    rw [← h]
    exact ⟨ha, ha.symm, hb.symm⟩
  · right
    rw [← h]
    refine ⟨fun hc => ?_, hb.symm, ha.symm⟩
    exact hne (hc.trans hb.symm)

/-- **A hop sends what it was asked for.** -/
theorem hop_routed (h : Sane c w) (hab : w.factory.getPair a b ≠ 0)
    (hh : GembaSwapRouter02.hop c w a b y dst = .ok w') :
    Routed [⟨b, pairOf c a b, dst, y⟩] [pairOf c a b] w w' := by
  obtain ⟨hne, hzero, -, p, hp, htokens⟩ := h.at_listed hab
  rw [hop_eq hne hzero] at hh
  have hnothing : ∀ token k z : Address, (Movement.mk token (pairOf c a b) dst 0).takes k z = 0 ∧
      (Movement.mk token (pairOf c a b) dst 0).gives k z = 0 :=
    fun _ _ _ => ⟨ite_self 0, ite_self 0⟩
  have hrouted : ∀ {amount0Out amount1Out : Nat},
      w.swap (pairOf c a b) amount0Out amount1Out dst = .ok w' →
      (∀ k z, outOf [Movement.mk b (pairOf c a b) dst y] k z
          = outOf (swapMoves p (pairOf c a b) dst amount0Out amount1Out) k z ∧
        into [Movement.mk b (pairOf c a b) dst y] k z
          = into (swapMoves p (pairOf c a b) dst amount0Out amount1Out) k z) →
      Routed [⟨b, pairOf c a b, dst, y⟩] [pairOf c a b] w w' := by
    intro amount0Out amount1Out hswap hsame
    obtain ⟨-, -, -, ms, w₁, p', hmoved, rfl, hflow, -⟩ := swap_did hp hswap
    refine ⟨hmoved.factory, hmoved.now, ?_, fun z hz => ?_⟩
    · exact hflow.congr (fun k z => (hsame k z).1) fun k z => (hsame k z).2
    · rw [Dex.setPair_other _ (List.mem_singleton.not.mp hz), hmoved.pairs]
  rcases inOrder_cases hne htokens with ⟨hfirst, -, htoken1⟩ | ⟨hsecond, htoken0, -⟩
  · rw [if_pos hfirst] at hh
    refine hrouted hh fun k z => ?_
    rw [swapMoves, htoken1, outOf_cons, outOf_cons, into_cons, into_cons, outOf_cons, into_cons,
      (hnothing _ k z).1, (hnothing _ k z).2, Nat.zero_add, Nat.zero_add]
    exact ⟨rfl, rfl⟩
  · rw [if_neg hsecond] at hh
    refine hrouted hh fun k z => ?_
    rw [swapMoves, htoken0, outOf_cons, outOf_cons, into_cons, into_cons, outOf_cons, into_cons,
      (hnothing _ k z).1, (hnothing _ k z).2, Nat.zero_add, Nat.zero_add]
    exact ⟨rfl, rfl⟩

/-- **A path, whenever it goes through**: its hops, and nothing else. -/
theorem swapAlong_routed (h : Sane c w) (hlisted : Listed w path)
    (hs : GembaSwapRouter02.swapAlong c w amounts path dst = .ok w') :
    Routed (routeMoves c dst amounts path) (routePairs c path) w w' := by
  fun_induction GembaSwapRouter02.swapAlong c w amounts path dst with
  | case1 w x y amounts a b path dst ih =>
    obtain ⟨hab, hrest⟩ := List.isChain_cons_cons.mp hlisted
    obtain ⟨receiver, hreceiver, hs₁⟩ := bind_eq_ok.mp hs
    obtain ⟨w₁, hhop, hs₂⟩ := bind_eq_ok.mp hs₁
    obtain rfl := Except.ok.inj ((hopTo_eq h hrest).symm.trans hreceiver)
    have hfirst := hop_routed h hab hhop
    exact hfirst.trans (ih w₁ (h.hop hhop) (Listed.frame hrest hfirst.factory) hs₂)
  | case2 amounts w path dst hnone =>
    obtain rfl := Except.ok.inj hs
    have hnil : routeMoves c dst amounts path = [] := by
      unfold routeMoves
      split
      · exact (hnone _ _ _ _ _ _ rfl rfl).elim
      · rfl
    rw [hnil]
    exact ⟨rfl, rfl, Flow.refl _, fun _ _ => rfl⟩

/-! ## A hop goes through -/

/-- A hop as it was quoted: `y` of `b` for `x` of `a` is fair, and there is room for it. -/
structure Quoted (c : Chain) (w : Dex) (x y : Nat) (a b : Address) : Prop where
  listed : w.factory.getPair a b ≠ 0
  fair : ∃ r, getReserves c w a b = .ok r ∧ Fair x y r.1 r.2
  some : 0 < y
  roomIn : w.balanceOf a (pairOf c a b) + x < 2 ^ 112
  roomOut : w.balanceOf b (pairOf c a b) < 2 ^ 112 + y

/-- A hop whose input is already in the pair. -/
structure Paid (c : Chain) (w : Dex) (x y : Nat) (a b : Address) : Prop where
  listed : w.factory.getPair a b ≠ 0
  fair : ∃ r, getReserves c w a b = .ok r ∧ Fair x y r.1 r.2 ∧ r.1 + x ≤ w.balanceOf a (pairOf c a b)
  some : 0 < y
  roomIn : w.balanceOf a (pairOf c a b) < 2 ^ 112
  roomOut : w.balanceOf b (pairOf c a b) < 2 ^ 112 + y

/-- The reserves of a pair, that of `a` first. -/
theorem getReserves_eq (hne : a ≠ b) (hzero : (inOrder a b).1 ≠ 0) {p : GembaSwapPair}
    (hp : w.pairs (pairOf c a b) = some p) :
    getReserves c w a b = .ok (if a = (inOrder a b).1 then (p.reserves.reserve0, p.reserves.reserve1)
      else (p.reserves.reserve1, p.reserves.reserve0)) := by
  rw [getReserves, sortTokens_ok hne hzero, pairFor_eq hne hzero]
  show (w.pairAt (pairOf c a b) >>= _) = _
  rw [pairAt_eq_ok.mpr hp]
  rfl

/-- **When a hop goes through.** -/
theorem hop_ok (h : Sane c w) (hpaid : Paid c w x y a b) (hdst : dst ≠ 0)
    (hself : dst ≠ pairOf c a b) (hdstA : dst ≠ a) (hdstB : dst ≠ b) :
    ∃ w', GembaSwapRouter02.hop c w a b y dst = .ok w' := by
  obtain ⟨hne, hzero, -, p, hp, htokens⟩ := h.at_listed hpaid.listed
  obtain ⟨hpair, hdiff, hok⟩ := h.at_pair hp
  obtain ⟨r, hr, hfair, hcover⟩ := hpaid.fair
  obtain rfl := Except.ok.inj ((getReserves_eq hne hzero hp).symm.trans hr)
  have hroomIn := hpaid.roomIn
  have hroomOut := hpaid.roomOut
  rw [hop_eq hne hzero]
  rcases inOrder_cases hne htokens with ⟨hfirst, rfl, rfl⟩ | ⟨hsecond, rfl, rfl⟩
  · rw [if_pos hfirst] at hfair hcover ⊢
    exact swap_ok hp hpair hdiff hok.unlocked (.inr hpaid.some) hfair.funded hfair.left hdst hself
      hdstA hdstB (.inl hfair.paid) hcover hok.covered1 hroomIn hroomOut hfair.scaled
  · rw [if_neg hsecond] at hfair hcover ⊢
    have hk := hfair.scaled
    rw [Nat.mul_comm _ p.reserves.reserve0, Nat.mul_comm (_ + 997 * x)] at hk
    exact swap_ok hp hpair hdiff hok.unlocked (.inl hpaid.some) hfair.left hfair.funded hdst hself
      hdstB hdstA (.inr hfair.paid) hok.covered0 hcover hroomOut hroomIn hk

/-! ## A path goes through -/

theorem Along.imp {P Q : Nat → Nat → Address → Address → Prop} (h : Along P amounts path)
    (himp : ∀ x y a b, pairOf c a b ∈ routePairs c path → P x y a b → Q x y a b) :
    Along Q amounts path := by
  fun_induction Along P amounts path with
  | case1 x y amounts a b path ih =>
    refine ⟨himp x y a b List.mem_cons_self h.1, ih h.2 fun x' y' a' b' hmem => ?_⟩
    exact himp x' y' a' b' (List.mem_cons_of_mem _ hmem)
  | case2 x a => trivial
  | case3 => exact h.elim

/-- The reserves are read from the pair. -/
theorem getReserves_congr (hpairs : w'.pairs (pairOf c a b) = w.pairs (pairOf c a b)) :
    getReserves c w' a b = getReserves c w a b := by
  rw [getReserves, getReserves, pairFor]
  cases hsort : sortTokens a b with
  | error e => rfl
  | ok t =>
    obtain ⟨-, -, ht⟩ := sortTokens_spec hsort
    have hpair : c.contractAt initCodeHash t.1 t.2 = pairOf c a b := by
      rw [c.contractAt_initCodeHash, pairOf, ht]
    show (w'.pairAt (c.contractAt initCodeHash t.1 t.2) >>= _)
      = (w.pairAt (c.contractAt initCodeHash t.1 t.2) >>= _)
    rw [hpair, Dex.pairAt, Dex.pairAt, hpairs]

/-- A quote still holds where the pair is as it was. -/
theorem Quoted.frame (h : Quoted c w x y a b) (hfactory : w'.factory = w.factory)
    (hpairs : w'.pairs (pairOf c a b) = w.pairs (pairOf c a b))
    (hbalances : ∀ k, w'.balanceOf k (pairOf c a b) = w.balanceOf k (pairOf c a b)) :
    Quoted c w' x y a b := by
  refine ⟨?_, ?_, h.some, ?_, ?_⟩
  · rw [hfactory]
    exact h.listed
  · rw [getReserves_congr hpairs]
    exact h.fair
  · rw [hbalances]
    exact h.roomIn
  · rw [hbalances]
    exact h.roomOut

/-- The input comes in. -/
theorem Quoted.paid (h : Quoted c w x y a b) (hsane : Sane c w) (hfactory : w'.factory = w.factory)
    (hpairs : w'.pairs (pairOf c a b) = w.pairs (pairOf c a b))
    (hin : w'.balanceOf a (pairOf c a b) = w.balanceOf a (pairOf c a b) + x)
    (hout : w'.balanceOf b (pairOf c a b) = w.balanceOf b (pairOf c a b)) : Paid c w' x y a b := by
  obtain ⟨hne, hzero, -, p, hp, htokens⟩ := hsane.at_listed h.listed
  have hok := (hsane.at_pair hp).2.2
  obtain ⟨r, hr, hfair⟩ := h.fair
  have hcover : r.1 ≤ w.balanceOf a (pairOf c a b) := by
    obtain rfl := Except.ok.inj ((getReserves_eq hne hzero hp).symm.trans hr)
    rcases inOrder_cases hne htokens with ⟨hfirst, rfl, rfl⟩ | ⟨hsecond, rfl, rfl⟩
    · rw [if_pos hfirst]
      exact hok.covered0
    · rw [if_neg hsecond]
      exact hok.covered1
  refine ⟨?_, ⟨r, ?_, hfair, ?_⟩, h.some, ?_, ?_⟩
  · rw [hfactory]
    exact h.listed
  · rw [getReserves_congr hpairs]
    exact hr
  · rw [hin]
    exact Nat.add_le_add_right hcover x
  · rw [hin]
    exact h.roomIn
  · rw [hout]
    exact h.roomOut

theorem pairOf_address : PairAddress c (pairOf c a b) := ⟨_, _, rfl⟩

/-- On a path that uses no pair twice, a pair further on is neither of the first two. -/
theorem further_on {next z : Address} (hnodup : (routePairs c (a :: b :: next :: path)).Nodup)
    (hmem : z ∈ routePairs c (next :: path)) : z ≠ pairOf c a b ∧ z ≠ pairOf c b next := by
  obtain ⟨hfirst, hrest⟩ := List.nodup_cons.mp hnodup
  exact ⟨fun hc => hfirst (hc ▸ List.mem_cons_of_mem _ hmem),
    fun hc => (List.nodup_cons.mp hrest).1 (hc ▸ hmem)⟩

/-- **A quoted path goes through**, once its first pair has been paid. -/
theorem swapAlong_ok (h : Sane c w) (hpaid : Paid c w x y a b)
    (hquoted : Along (Quoted c w) (y :: amounts) (b :: path))
    (hnodup : (routePairs c (a :: b :: path)).Nodup)
    (htokens : ∀ t ∈ a :: b :: path, ¬ PairAddress c t) (hdst : dst ≠ 0)
    (hdstTokens : dst ∉ a :: b :: path) (hdstPairs : dst ∉ routePairs c (a :: b :: path)) :
    ∃ w', GembaSwapRouter02.swapAlong c w (x :: y :: amounts) (a :: b :: path) dst = .ok w' := by
  induction path generalizing w a b x y amounts with
  | nil =>
    cases amounts with
    | cons z amounts => exact hquoted.elim
    | nil =>
      simp only [List.mem_cons, List.not_mem_nil, or_false, not_or] at hdstTokens
      obtain ⟨w₁, hhop⟩ := hop_ok h hpaid hdst (List.mem_singleton.not.mp hdstPairs) hdstTokens.1
        hdstTokens.2
      exact ⟨w₁, bind_eq_ok.mpr ⟨dst, rfl, bind_eq_ok.mpr ⟨w₁, hhop, rfl⟩⟩⟩
  | cons next path ih =>
    cases amounts with
    | nil => exact hquoted.elim
    | cons z amounts =>
      obtain ⟨hfirst, hrest⟩ := hquoted
      obtain ⟨hpairs, hnodup'⟩ := List.nodup_cons.mp hnodup
      obtain ⟨hne, hzero, -, p, hp, -⟩ := h.at_listed hfirst.listed
      have hstop : GembaSwapRouter02.hopTo c b (next :: path) dst = .ok (pairOf c b next) :=
        pairFor_eq hne hzero
      have hself : pairOf c b next ≠ pairOf c a b := fun hc => hpairs (hc ▸ List.mem_cons_self)
      have hnoToken : ∀ t ∈ a :: b :: next :: path, pairOf c b next ≠ t :=
        fun t ht hc => htokens t ht (hc ▸ pairOf_address)
      obtain ⟨w₁, hhop⟩ := hop_ok h hpaid (h.at_pair hp).1 hself
        (hnoToken a List.mem_cons_self) (hnoToken b (List.mem_cons_of_mem _ List.mem_cons_self))
      have hrouted := hop_routed h hpaid.listed hhop
      -- the next pair has its input, the pairs after it are as they were
      have hnext : Paid c w₁ y z b next := by
        refine hfirst.paid h hrouted.factory (hrouted.others _ ?_) ?_ ?_
        · exact List.mem_singleton.not.mpr hself
        · exact hrouted.flow.received (Ne.symm hself)
        · refine hrouted.flow.untouched fun m hm hk => ?_
          rw [List.mem_singleton.mp hm] at hk
          exact absurd hk hne
      have hready : Along (Quoted c w₁) (z :: amounts) (next :: path) := by
        refine hrest.imp (c := c) fun x' y' a' b' hmem hq => ?_
        obtain ⟨hother, hother'⟩ := further_on hnodup hmem
        refine hq.frame hrouted.factory (hrouted.others _ (List.mem_singleton.not.mpr hother))
          fun k => hrouted.flow.untouched fun m hm _ => ?_
        rw [List.mem_singleton.mp hm]
        exact ⟨Ne.symm hother, Ne.symm hother'⟩
      obtain ⟨w', halong⟩ := ih (h.hop hhop) hnext hready hnodup'
        (fun t ht => htokens t (List.mem_cons_of_mem _ ht))
        (fun hc => hdstTokens (List.mem_cons_of_mem _ hc))
        fun hc => hdstPairs (List.mem_cons_of_mem _ hc)
      exact ⟨w', bind_eq_ok.mpr ⟨_, hstop, bind_eq_ok.mpr ⟨w₁, hhop, halong⟩⟩⟩

/-! ## Quotes -/

/-- What `getAmountsOut` says of a hop. -/
def Answered (c : Chain) (w : Dex) (x y : Nat) (a b : Address) : Prop :=
  ∃ r, getReserves c w a b = .ok r ∧ getAmountOut x r.1 r.2 = .ok y

/-- What either way of quoting says of a hop. -/
def Offered (c : Chain) (w : Dex) (x y : Nat) (a b : Address) : Prop :=
  0 < y ∧ ∃ r, getReserves c w a b = .ok r ∧ Fair x y r.1 r.2

theorem quoteOut_answered (h : quoteOut c w x (a :: path) = .ok amounts) :
    amounts.headD 0 = x ∧ Along (Answered c w) amounts (a :: path) := by
  induction path generalizing a x amounts with
  | nil =>
    obtain rfl := Except.ok.inj h
    exact ⟨rfl, trivial⟩
  | cons b path ih =>
    obtain ⟨r, hr, h⟩ := bind_eq_ok.mp h
    obtain ⟨y, hy, h⟩ := bind_eq_ok.mp h
    obtain ⟨rest, hrest, h⟩ := bind_eq_ok.mp h
    obtain rfl := Except.ok.inj h
    obtain ⟨hhead, hanswered⟩ := ih hrest
    cases rest with
    | nil => exact hanswered.elim
    | cons z rest =>
      obtain rfl : z = y := hhead
      exact ⟨rfl, ⟨r, hr, hy⟩, hanswered⟩

/-- When the last amount is something, all of them are: nothing is quoted for nothing. -/
theorem answered_offered (h : Along (Answered c w) amounts path) (hlast : 0 < amounts.getLastD 0) :
    Along (Offered c w) amounts path := by
  fun_induction Along (Answered c w) amounts path with
  | case1 x y amounts a b path ih =>
    obtain ⟨⟨r, hr, hy⟩, hrest⟩ := h
    have hoffered := ih hrest hlast
    have hpos : 0 < y := by
      rcases amounts with _ | ⟨z, amounts⟩
      · exact hlast
      · rcases path with _ | ⟨d, path⟩
        · exact hrest.elim
        · obtain ⟨r', hr', hfair⟩ := hoffered.1.2
          exact hfair.paid
    exact ⟨⟨hpos, r, hr, getAmountOut_fair hy⟩, hoffered⟩
  | case2 x a => trivial
  | case3 => exact h.elim

theorem quoteIn_offered (h : quoteIn c w y (a :: path) = .ok amounts) :
    amounts.getLastD 0 = y ∧ Along (Offered c w) amounts (a :: path) := by
  induction path generalizing a amounts with
  | nil =>
    obtain rfl := Except.ok.inj h
    exact ⟨rfl, trivial⟩
  | cons b path ih =>
    obtain ⟨rest, hrest, h⟩ := bind_eq_ok.mp h
    obtain ⟨r, hr, h⟩ := bind_eq_ok.mp h
    obtain ⟨x, hx, h⟩ := bind_eq_ok.mp h
    obtain rfl := Except.ok.inj h
    obtain ⟨hlast, hoffered⟩ := ih hrest
    cases rest with
    | nil => exact hoffered.elim
    | cons z rest =>
      exact ⟨hlast, ⟨(getAmountIn_spec hx).1, r, hr, getAmountIn_fair hx⟩, hoffered⟩

/-! ## A trade -/

/-- A trade that can be made: the pairs are there, each is used once and has room, no token of the path
    is a pair itself, the sender can pay, and the receiver is none of the contracts involved. -/
structure Tradable (c : Chain) (router : Address) (w : Dex) (sender dst : Address)
    (amounts : List Nat) (path : List Address) : Prop where
  listed : Listed w path
  once : (routePairs c path).Nodup
  tokens : ∀ t ∈ path, ¬ PairAddress c t
  room : Along (fun x y a b => w.balanceOf a (pairOf c a b) + x < 2 ^ 112 ∧
    w.balanceOf b (pairOf c a b) < 2 ^ 112 + y) amounts path
  payer : sender ≠ 0 ∧ sender ∉ routePairs c path
  funds : amounts.headD 0 ≤ w.balanceOf (path.headD 0) sender
  allowed : amounts.headD 0 ≤ (w.tokens (path.headD 0)).allowances sender router
  receiver : dst ≠ 0 ∧ dst ∉ path ∧ dst ∉ routePairs c path

theorem quoted_along (hoffered : Along (Offered c w) amounts path) (hlisted : Listed w path)
    (hroom : Along (fun x y a b => w.balanceOf a (pairOf c a b) + x < 2 ^ 112 ∧
      w.balanceOf b (pairOf c a b) < 2 ^ 112 + y) amounts path) :
    Along (Quoted c w) amounts path := by
  fun_induction Along (Offered c w) amounts path with
  | case1 x y amounts a b path ih =>
    obtain ⟨hab, hlisted⟩ := List.isChain_cons_cons.mp hlisted
    obtain ⟨⟨hpos, hfair⟩, hoffered⟩ := hoffered
    exact ⟨⟨hab, hfair, hpos, hroom.1.1, hroom.1.2⟩, ih hoffered hlisted hroom.2⟩
  | case2 x a => trivial
  | case3 => exact hoffered.elim

section
variable {router sender : Address}

/-- What the payment did. -/
theorem payFirst_routed (h : Sane c w) (hab : w.factory.getPair a b ≠ 0)
    (hpay : GembaSwapRouter02.payFirst c router w sender (a :: b :: path) x = .ok w') :
    Dex.Transferred [⟨a, sender, pairOf c a b, x⟩] w w' := by
  obtain ⟨hne, hzero, -, -⟩ := h.at_listed hab
  obtain ⟨pair, hpair, hpay⟩ := bind_eq_ok.mp hpay
  obtain rfl := Except.ok.inj ((pairFor_eq hne hzero).symm.trans hpair)
  exact (Dex.safeTransferFrom_spec hpay).1

/-- The payment does not touch the pairs after the first. -/
theorem payment_later {z k : Address} (hmoved : Dex.Transferred [⟨a, sender, pairOf c a b, x⟩] w w')
    (hsender : sender ∉ routePairs c (a :: b :: path))
    (hnodup : (routePairs c (a :: b :: path)).Nodup) (hmem : z ∈ routePairs c (b :: path)) :
    w'.balanceOf k z = w.balanceOf k z := by
  refine hmoved.flow.untouched fun m hm _ => ?_
  obtain rfl := List.mem_singleton.mp hm
  refine ⟨fun hc : sender = z => ?_, fun hc : pairOf c a b = z => ?_⟩
  · exact hsender (hc ▸ List.mem_cons_of_mem _ hmem)
  · exact (List.nodup_cons.mp hnodup).1 (hc ▸ hmem)

/-- **A trade goes through**: the payment, and all hops. -/
theorem trade_ok (hrouter : router ≠ 0) (h : Sane c w)
    (hoffered : Along (Offered c w) amounts (a :: b :: path))
    (htradable : Tradable c router w sender dst amounts (a :: b :: path)) :
    ∃ w₁ w', GembaSwapRouter02.payFirst c router w sender (a :: b :: path) (amounts.headD 0) = .ok w₁ ∧
      GembaSwapRouter02.swapAlong c w₁ amounts (a :: b :: path) dst = .ok w' := by
  have hquoted := quoted_along hoffered htradable.listed htradable.room
  obtain ⟨hsender, hnotPair⟩ := htradable.payer
  obtain ⟨hdst, hdstTokens, hdstPairs⟩ := htradable.receiver
  rcases amounts with _ | ⟨x, _ | ⟨y, amounts⟩⟩
  · exact hquoted.elim
  · exact hquoted.elim
  obtain ⟨hfirst, hrest⟩ := hquoted
  obtain ⟨hne, hzero, -, p, hp, -⟩ := h.at_listed hfirst.listed
  have hself : sender ≠ pairOf c a b := fun hc => hnotPair (hc ▸ List.mem_cons_self)
  obtain ⟨w₁, htransfer⟩ := Dex.safeTransferFrom_ok hsender (h.at_pair hp).1 hrouter htradable.funds
    htradable.allowed
  have hpay : GembaSwapRouter02.payFirst c router w sender (a :: b :: path) x = .ok w₁ :=
    bind_eq_ok.mpr ⟨_, pairFor_eq hne hzero, htransfer⟩
  have hmoved := payFirst_routed h hfirst.listed hpay
  have hpaid : Paid c w₁ x y a b := by
    refine hfirst.paid h hmoved.factory (congrFun hmoved.pairs _) (hmoved.flow.received hself) ?_
    refine hmoved.flow.untouched fun m hm hk => ?_
    rw [List.mem_singleton.mp hm] at hk
    exact absurd hk hne
  have hready : Along (Quoted c w₁) (y :: amounts) (b :: path) := by
    refine hrest.imp (c := c) fun x' y' a' b' hmem hq => ?_
    exact hq.frame hmoved.factory (congrFun hmoved.pairs _) fun k =>
      payment_later hmoved hnotPair htradable.once hmem
  obtain ⟨w', halong⟩ := swapAlong_ok (h.safeTransferFrom htransfer) hpaid hready htradable.once
    htradable.tokens hdst hdstTokens hdstPairs
  exact ⟨w₁, w', hpay, halong⟩

/-- A trade that went through is the payment and the hops. -/
theorem trade_routed (h : Sane c w) (hlisted : Listed w path)
    (hpay : GembaSwapRouter02.payFirst c router w sender path (amounts.headD 0) = .ok w₁)
    (halong : GembaSwapRouter02.swapAlong c w₁ amounts path dst = .ok w') :
    Routed (tradeMoves c sender dst amounts path) (routePairs c path) w w' := by
  rcases path with _ | ⟨a, _ | ⟨b, path⟩⟩
  · exact absurd hpay (by simp [GembaSwapRouter02.payFirst])
  · exact absurd hpay (by simp [GembaSwapRouter02.payFirst])
  have hmoved := payFirst_routed h (List.isChain_cons_cons.mp hlisted).1 hpay
  exact hmoved.routed.trans
    (swapAlong_routed (h.payFirst hpay) (hlisted.frame hmoved.factory) halong)

end

end

/-! ## What is measured is what was quoted -/

/-- The pair has of `a` just its reserve. -/
def Level (c : Chain) (w : Dex) (a b : Address) : Prop :=
  ∃ r, getReserves c w a b = .ok r ∧ w.balanceOf a (pairOf c a b) = r.1

section
variable {c : Chain} {w w' w₁ : Dex} {a b dst router sender : Address} {x y : Nat}
  {path : List Address} {amounts : List Nat}

theorem measure_eq (h : Sane c w) (hab : w.factory.getPair a b ≠ 0)
    {r : Nat × Nat} (hr : getReserves c w a b = .ok r) (hy : getAmountOut x r.1 r.2 = .ok y)
    (hpaid : w.balanceOf a (pairOf c a b) = r.1 + x) :
    GembaSwapRouter02.measure c w a b = .ok y := by
  obtain ⟨hne, hzero, -, -⟩ := h.at_listed hab
  refine bind_eq_ok.mpr ⟨r, hr, bind_eq_ok.mpr ⟨_, pairFor_eq hne hzero, ?_⟩⟩
  refine bind_eq_ok.mpr ⟨x, safeSub_eq_ok.mpr ?_, hy⟩
  show r.1 ≤ w.balanceOf a (pairOf c a b) ∧ x = w.balanceOf a (pairOf c a b) - r.1
  omega

/-- Where every pair to come has just its reserves, and the first has its input over them, each turn
    measures what was quoted: the two loops do the same. -/
theorem swapSupportingFee_eq (h : Sane c w) (hlisted : Listed w (a :: b :: path))
    (hpaid : ∃ r, getReserves c w a b = .ok r ∧ getAmountOut x r.1 r.2 = .ok y ∧
      w.balanceOf a (pairOf c a b) = r.1 + x)
    (hanswered : Along (fun x y a b => Answered c w x y a b ∧ Level c w a b) (y :: amounts) (b :: path))
    (hnodup : (routePairs c (a :: b :: path)).Nodup)
    (hs : GembaSwapRouter02.swapAlong c w (x :: y :: amounts) (a :: b :: path) dst = .ok w') :
    GembaSwapRouter02.swapSupportingFee c w (a :: b :: path) dst = .ok w' := by
  induction path generalizing w a b x y amounts with
  | nil =>
    cases amounts with
    | cons z amounts => exact hanswered.elim
    | nil =>
      obtain ⟨r, hr, hy, hin⟩ := hpaid
      obtain ⟨receiver, hreceiver, hs⟩ := bind_eq_ok.mp hs
      obtain ⟨w₁, hhop, hs⟩ := bind_eq_ok.mp hs
      exact bind_eq_ok.mpr ⟨y, measure_eq h (List.isChain_cons_cons.mp hlisted).1 hr hy hin,
        bind_eq_ok.mpr ⟨receiver, hreceiver, bind_eq_ok.mpr ⟨w₁, hhop, hs⟩⟩⟩
  | cons next path ih =>
    cases amounts with
    | nil => exact hanswered.elim
    | cons z amounts =>
      obtain ⟨hab, hlisted'⟩ := List.isChain_cons_cons.mp hlisted
      obtain ⟨r, hr, hy, hin⟩ := hpaid
      obtain ⟨receiver, hreceiver, hs₁⟩ := bind_eq_ok.mp hs
      obtain ⟨w₁, hhop, hs₂⟩ := bind_eq_ok.mp hs₁
      obtain rfl := Except.ok.inj ((hopTo_eq h hlisted').symm.trans hreceiver)
      have hrouted := hop_routed h hab hhop
      obtain ⟨hpairs, hnodup'⟩ := List.nodup_cons.mp hnodup
      have hself : pairOf c b next ≠ pairOf c a b := fun hc => hpairs (hc ▸ List.mem_cons_self)
      obtain ⟨⟨⟨r₁, hr₁, hz⟩, r₂, hr₂, hlevel⟩, hrest⟩ := hanswered
      obtain rfl := Except.ok.inj (hr₁.symm.trans hr₂)
      have hsame : ∀ a' b', pairOf c a' b' ≠ pairOf c a b →
          getReserves c w₁ a' b' = getReserves c w a' b' := fun a' b' hother =>
        getReserves_congr (hrouted.others _ (List.mem_singleton.not.mpr hother))
      have hnext : ∃ r, getReserves c w₁ b next = .ok r ∧ getAmountOut y r.1 r.2 = .ok z ∧
          w₁.balanceOf b (pairOf c b next) = r.1 + y := by
        refine ⟨r₁, (hsame _ _ hself).trans hr₁, hz, ?_⟩
        rw [← hlevel]
        exact hrouted.flow.received (Ne.symm hself)
      have hready : Along (fun x y a b => Answered c w₁ x y a b ∧ Level c w₁ a b) (z :: amounts)
          (next :: path) := by
        refine hrest.imp (c := c) fun x' y' a' b' hmem hq => ?_
        obtain ⟨hother, hother'⟩ := further_on hnodup hmem
        have hbalance : w₁.balanceOf a' (pairOf c a' b') = w.balanceOf a' (pairOf c a' b') := by
          refine hrouted.flow.untouched fun m hm _ => ?_
          rw [List.mem_singleton.mp hm]
          exact ⟨Ne.symm hother, Ne.symm hother'⟩
        rw [Answered, Level, hsame _ _ hother, hbalance]
        exact hq
      have hlisted₁ : Listed w₁ (b :: next :: path) := by
        unfold Listed
        rw [hrouted.factory]
        exact hlisted'
      have halong := ih (h.hop hhop) hlisted₁ hnext hready hnodup' hs₂
      exact bind_eq_ok.mpr ⟨y, measure_eq h hab hr hy hin,
        bind_eq_ok.mpr ⟨_, hreceiver, bind_eq_ok.mpr ⟨w₁, hhop, halong⟩⟩⟩

theorem routeMoves_src {m : Movement Address Address} (hm : m ∈ routeMoves c dst amounts path) :
    m.src ∈ routePairs c path := by
  fun_induction routeMoves c dst amounts path with
  | case1 x y amounts a b path ih =>
    rcases List.mem_cons.mp hm with rfl | hm
    · exact List.mem_cons_self
    · exact List.mem_cons_of_mem _ (ih hm)
  | case2 => exact absurd hm List.not_mem_nil

/-- The receiver gets the last amount of the last token. -/
theorem routeMoves_received {P : Nat → Nat → Address → Address → Prop}
    (h : Along P (x :: y :: amounts) (a :: b :: path)) (hdst : dst ∉ routePairs c (a :: b :: path)) :
    into (routeMoves c dst (x :: y :: amounts) (a :: b :: path)) ((b :: path).getLastD a) dst
      = (y :: amounts).getLastD x := by
  induction path generalizing a b x y amounts with
  | nil =>
    cases amounts with
    | cons z amounts => exact h.2.elim
    | nil =>
      show (Movement.mk b (pairOf c a b) dst y).gives b dst + 0 = y
      rw [gives_mk, if_pos ⟨rfl, rfl⟩, Nat.add_zero]
  | cons next path ih =>
    cases amounts with
    | nil => exact h.2.elim
    | cons z amounts =>
      have hrest : dst ∉ routePairs c (b :: next :: path) := fun hc =>
        hdst (List.mem_cons_of_mem _ hc)
      have hstop : pairOf c b next ≠ dst := fun hc => hrest (hc ▸ List.mem_cons_self)
      rw [routeMoves, into_cons, nextStop, gives_mk, if_neg fun hc => hstop hc.2, Nat.zero_add]
      exact ih h.2 hrest

/-- What a path leaves with the receiver. -/
theorem swapAlong_received {P : Nat → Nat → Address → Address → Prop} (hsane : Sane c w)
    (hlisted : Listed w (a :: b :: path)) (h : Along P (x :: y :: amounts) (a :: b :: path))
    (hdst : dst ∉ routePairs c (a :: b :: path))
    (hs : GembaSwapRouter02.swapAlong c w (x :: y :: amounts) (a :: b :: path) dst = .ok w') :
    w'.balanceOf ((b :: path).getLastD a) dst
      = w.balanceOf ((b :: path).getLastD a) dst + (y :: amounts).getLastD x := by
  have hflow := (swapAlong_routed hsane hlisted hs).flow ((b :: path).getLastD a) dst
  have hsent : outOf (routeMoves c dst (x :: y :: amounts) (a :: b :: path))
      ((b :: path).getLastD a) dst = 0 :=
    outOf_eq_zero fun m hm _ hc => hdst (hc ▸ routeMoves_src hm)
  rw [hsent, routeMoves_received h hdst, Nat.add_zero] at hflow
  exact hflow

end

/-! ## The router -/

section
variable {c : Chain} {router feeToSetter sender dst : Address} {tokens : Address → Erc20} {w : Dex}
  {path : List Address} {amounts : List Nat} {ops : List Op} {now deadline : Nat}

theorem long_path {α : Type} {e : Revert} {f : PUnit → Call α} {r : α}
    (h : (failIf (path.length < 2) e >>= f) = .ok r) :
    ∃ a b rest, path = a :: b :: rest ∧ f ⟨⟩ = .ok r := by
  obtain ⟨hlong, h⟩ := failIf_bind_eq_ok.mp h
  rcases path with _ | ⟨a, _ | ⟨b, rest⟩⟩
  · exact absurd Nat.zero_lt_two hlong
  · exact absurd Nat.one_lt_two hlong
  · exact ⟨a, b, rest, rfl, h⟩

/-- **What is quoted for an input is what happens**, in every state the exchange can reach, for a
    trade that can be made (`Tradable`).  When the last amount quoted is not nothing and not below the
    minimum, and the deadline has not passed, the swap goes through: it moves exactly the quoted
    amounts, from the sender through the pairs to the receiver, touches no other pair, and leaves
    nothing with the router. -/
theorem swap_exact_in {amountIn amountOutMin : Nat} (hrouter : router ≠ 0) (h0 : Untouched c tokens)
    (h : Run (step c router) (Keyed c) (Dex.deployed feeToSetter tokens now) ops w)
    (hquote : getAmountsOut c w amountIn path = .ok amounts) (hsome : 0 < amounts.getLastD 0)
    (hmin : amountOutMin ≤ amounts.getLastD 0) (htime : w.now ≤ deadline)
    (htradable : Tradable c router w sender dst amounts path) :
    ∃ w', GembaSwapRouter02.swapExactTokensForTokens c router w sender amountIn amountOutMin path dst
        deadline = .ok (w', amounts) ∧
      Routed (tradeMoves c sender dst amounts path) (routePairs c path) w w' := by
  have hsane : Sane c w := sane_run hrouter h0 h
  obtain ⟨a, b, rest, rfl, hout⟩ := long_path hquote
  obtain ⟨-, hanswered⟩ := quoteOut_answered hout
  obtain ⟨w₁, w', hpay, halong⟩ :=
    trade_ok hrouter hsane (answered_offered hanswered hsome) htradable
  refine ⟨w', ?_, trade_routed hsane htradable.listed hpay halong⟩
  rw [GembaSwapRouter02.swapExactTokensForTokens, GembaSwapRouter02.ensure,
    failIf_neg (not_lt.mpr htime), ok_bind, hquote, ok_bind, failIf_neg (not_lt.mpr hmin), ok_bind,
    hpay, ok_bind, halong]
  rfl

theorem plainDex_tokens {path : List Address} (h : (path.all fun t => !t.msb) = true) :
    ∀ t ∈ path, ¬ PairAddress plainChain t := by
  intro t ht hpair
  have hlow := List.all_eq_true.mp h t ht
  rw [plainChain_pairs hpair] at hlow
  exact Bool.false_ne_true hlow

theorem swap_exact_in_sample :
    ∃ w', GembaSwapRouter02.swapExactTokensForTokens plainChain 9 plainDex 5 1000 2500 [1, 2, 3] 6 0
        = .ok (w', [1000, 1899, 2594]) ∧
      Routed (tradeMoves plainChain 5 6 [1000, 1899, 2594] [1, 2, 3])
        (routePairs plainChain [1, 2, 3]) plainDex w' :=
  swap_exact_in (by decide) plainTokens_untouched plainDex_run (by decide +kernel)
    (by decide) (by decide) (by decide +kernel)
    { listed := by decide +kernel
      once := by decide +kernel
      tokens := plainDex_tokens (by decide)
      room := ⟨by decide +kernel, by decide +kernel, trivial⟩
      payer := by decide +kernel
      funds := by decide +kernel
      allowed := by decide +kernel
      receiver := by decide +kernel }

/-- **What is quoted for an output is what happens**, for a trade that can be made and within the
    maximum.  The receiver gets exactly what was wanted. -/
theorem swap_exact_out {amountOut amountInMax : Nat} (hrouter : router ≠ 0) (h0 : Untouched c tokens)
    (h : Run (step c router) (Keyed c) (Dex.deployed feeToSetter tokens now) ops w)
    (hquote : getAmountsIn c w amountOut path = .ok amounts) (hmax : amounts.headD 0 ≤ amountInMax)
    (htime : w.now ≤ deadline) (htradable : Tradable c router w sender dst amounts path) :
    amounts.getLastD 0 = amountOut ∧
      ∃ w', GembaSwapRouter02.swapTokensForExactTokens c router w sender amountOut amountInMax path dst
          deadline = .ok (w', amounts) ∧
        Routed (tradeMoves c sender dst amounts path) (routePairs c path) w w' := by
  have hsane : Sane c w := sane_run hrouter h0 h
  obtain ⟨a, b, rest, rfl, hin⟩ := long_path hquote
  obtain ⟨hlast, hoffered⟩ := quoteIn_offered hin
  obtain ⟨w₁, w', hpay, halong⟩ := trade_ok hrouter hsane hoffered htradable
  refine ⟨hlast, w', ?_, trade_routed hsane htradable.listed hpay halong⟩
  rw [GembaSwapRouter02.swapTokensForExactTokens, GembaSwapRouter02.ensure,
    failIf_neg (not_lt.mpr htime), ok_bind, hquote, ok_bind, failIf_neg (not_lt.mpr hmax), ok_bind,
    hpay, ok_bind, halong]
  rfl

theorem swap_exact_out_sample :
    [1633, 1029, 500].getLastD 0 = 500 ∧
      ∃ w', GembaSwapRouter02.swapTokensForExactTokens plainChain 9 plainDex 5 500 2000 [3, 2, 1] 6 0
          = .ok (w', [1633, 1029, 500]) ∧
        Routed (tradeMoves plainChain 5 6 [1633, 1029, 500] [3, 2, 1])
          (routePairs plainChain [3, 2, 1]) plainDex w' :=
  swap_exact_out (by decide) plainTokens_untouched plainDex_run (by decide +kernel) (by decide)
    (by decide +kernel)
    { listed := by decide +kernel
      once := by decide +kernel
      tokens := plainDex_tokens (by decide)
      room := ⟨by decide +kernel, by decide +kernel, trivial⟩
      payer := by decide +kernel
      funds := by decide +kernel
      allowed := by decide +kernel
      receiver := by decide +kernel }

theorem level_along (h : Along (Answered c w) amounts path)
    (hlevel : path.IsChain (Level c w)) :
    Along (fun x y a b => Answered c w x y a b ∧ Level c w a b) amounts path := by
  fun_induction Along (Answered c w) amounts path with
  | case1 x y amounts a b path ih =>
    obtain ⟨hfirst, hlevel⟩ := List.isChain_cons_cons.mp hlevel
    exact ⟨⟨h.1, hfirst⟩, ih h.2 hlevel⟩
  | case2 x a => trivial
  | case3 => exact h.elim

/-- **For plain tokens the variant for tokens with a fee does the same.**  It quotes nothing
    beforehand, and asks each pair for what its balance has over its reserve.  Along a path of pairs
    that are there, each used once, have just their reserves, and are neither the sender nor the
    receiver, every swap of an exact input that goes through also goes through this way, with the same
    minimum, to the same state. -/
theorem supporting_fee_agrees {amountIn amountOutMin : Nat} {w' : Dex} (hrouter : router ≠ 0)
    (h0 : Untouched c tokens)
    (h : Run (step c router) (Keyed c) (Dex.deployed feeToSetter tokens now) ops w)
    (hlisted : Listed w path) (honce : (routePairs c path).Nodup)
    (hlevel : path.IsChain (Level c w)) (hsender : sender ∉ routePairs c path)
    (hdst : dst ∉ routePairs c path)
    (hs : GembaSwapRouter02.swapExactTokensForTokens c router w sender amountIn amountOutMin path dst
      deadline = .ok (w', amounts)) :
    GembaSwapRouter02.swapExactTokensForTokensSupportingFee c router w sender amountIn amountOutMin
      path dst deadline = .ok w' := by
  have hsane : Sane c w := sane_run hrouter h0 h
  obtain ⟨u, hensure, hs⟩ := bind_eq_ok.mp hs
  obtain ⟨quoted, hquote, hs⟩ := bind_eq_ok.mp hs
  obtain ⟨hmin, hs⟩ := failIf_bind_eq_ok.mp hs
  obtain ⟨w₁, hpay, hs⟩ := bind_eq_ok.mp hs
  obtain ⟨w₂, halong, hs⟩ := bind_eq_ok.mp hs
  obtain ⟨rfl, rfl⟩ := ok_pair hs
  obtain ⟨a, b, rest, rfl, hout⟩ := long_path hquote
  obtain ⟨hhead, hanswered⟩ := quoteOut_answered hout
  have hall := level_along hanswered hlevel
  rcases quoted with _ | ⟨x, _ | ⟨y, amounts⟩⟩
  · exact hanswered.elim
  · exact hanswered.elim
  obtain rfl : x = amountIn := hhead
  obtain ⟨⟨⟨r, hr, hy⟩, r', hr', hreserve⟩, hrest⟩ := hall
  obtain rfl := Except.ok.inj (hr.symm.trans hr')
  have hab := (List.isChain_cons_cons.mp hlisted).1
  have hmoved := payFirst_routed hsane hab hpay
  have hself : sender ≠ pairOf c a b := fun hc => hsender (hc ▸ List.mem_cons_self)
  have hsame : ∀ a' b', getReserves c w₁ a' b' = getReserves c w a' b' := fun a' b' =>
    getReserves_congr (congrFun hmoved.pairs _)
  have hfirst : ∃ r, getReserves c w₁ a b = .ok r ∧ getAmountOut x r.1 r.2 = .ok y ∧
      w₁.balanceOf a (pairOf c a b) = r.1 + x := by
    refine ⟨r, (hsame a b).trans hr, hy, ?_⟩
    rw [← hreserve]
    exact hmoved.flow.received hself
  have hready : Along (fun x y a b => Answered c w₁ x y a b ∧ Level c w₁ a b) (y :: amounts)
      (b :: rest) := by
    refine hrest.imp (c := c) fun x' y' a' b' hmem hq => ?_
    have hbalance : w₁.balanceOf a' (pairOf c a' b') = w.balanceOf a' (pairOf c a' b') :=
      payment_later hmoved hsender honce hmem
    rw [Answered, Level, hsame, hbalance]
    exact hq
  have hlisted₁ : Listed w₁ (a :: b :: rest) := hlisted.frame hmoved.factory
  have hsane₁ : Sane c w₁ := hsane.payFirst hpay
  have hfee := swapSupportingFee_eq hsane₁ hlisted₁ hfirst hready honce halong
  -- the receiver got the last amount, which is not below the minimum
  have hgained : w₂.balanceOf ((a :: b :: rest).getLastD 0) dst
      = w₁.balanceOf ((a :: b :: rest).getLastD 0) dst + (x :: y :: amounts).getLastD 0 := by
    have hreceived := swapAlong_received hsane₁ hlisted₁ hanswered hdst halong
    exact hreceived
  refine bind_eq_ok.mpr ⟨u, hensure, bind_eq_ok.mpr ⟨w₁, hpay, bind_eq_ok.mpr ⟨w₂, hfee, ?_⟩⟩⟩
  refine bind_eq_ok.mpr ⟨_, safeSub_eq_ok.mpr ⟨?_, rfl⟩, failIf_bind_eq_ok.mpr ⟨?_, rfl⟩⟩
  · rw [hgained]
    exact Nat.le_add_right _ _
  · rw [hgained, Nat.add_sub_cancel_left]
    exact hmin

theorem supporting_fee_agrees_sample :
    ∃ w', GembaSwapRouter02.swapExactTokensForTokensSupportingFee plainChain 9 plainDex 5 1000 2500
      [1, 2, 3] 6 0 = .ok w' := by
  obtain ⟨⟨w', amounts⟩, hs⟩ : succeeds (GembaSwapRouter02.swapExactTokensForTokens plainChain 9
      plainDex 5 1000 2500 [1, 2, 3] 6 0) := by decide +kernel
  have hlevel : [1, 2, 3].IsChain (Level plainChain plainDex) := by
    rw [List.isChain_cons_cons, List.isChain_cons_cons]
    have hfirst : Level plainChain plainDex 1 2 :=
      ⟨(20000, 40000), by decide +kernel, by decide +kernel⟩
    have hsecond : Level plainChain plainDex 2 3 :=
      ⟨(20000, 30000), by decide +kernel, by decide +kernel⟩
    exact ⟨hfirst, hsecond, List.isChain_singleton 3⟩
  exact ⟨w', supporting_fee_agrees (by decide) plainTokens_untouched plainDex_run (by decide +kernel)
    (by decide +kernel) hlevel (by decide +kernel) (by decide +kernel) hs⟩

/-- A hop from a pair that has `x` over its reserve of `a`, and just its reserve of `b`, was fair. -/
theorem hop_fair {a b : Address} {x y : Nat} {r : Nat × Nat} {w' : Dex} (hsane : Sane c w)
    (hlisted : w.factory.getPair a b ≠ 0) (hr : getReserves c w a b = .ok r)
    (hin : w.balanceOf a (pairOf c a b) = r.1 + x) (hroom : r.1 + x < 2 ^ 112) (hpaid : 0 < x)
    (hfunded : 0 < r.1) (hlevel : w.balanceOf b (pairOf c a b) = r.2) (hself : dst ≠ pairOf c a b)
    (hhop : GembaSwapRouter02.hop c w a b y dst = .ok w') : 0 < y ∧ Fair x y r.1 r.2 := by
  obtain ⟨hne, hzero, -, p, hp, htokens⟩ := hsane.at_listed hlisted
  obtain ⟨-, hdiff, -⟩ := hsane.at_pair hp
  obtain rfl := Except.ok.inj ((getReserves_eq hne hzero hp).symm.trans hr)
  rw [hop_eq hne hzero] at hhop
  rcases inOrder_cases hne htokens with ⟨hfirst, rfl, rfl⟩ | ⟨hsecond, rfl, rfl⟩
  · rw [if_pos hfirst] at hhop hin hroom hlevel hfunded ⊢
    obtain ⟨hsome, -, hlt, ms, w₁, p', -, -, hflow, hend⟩ := swap_did hp hhop
    obtain ⟨hleft0, hleft1⟩ := swap_balances hflow hdiff hself
    have h0 : w₁.balanceOf p.token0 (pairOf c p.token0 p.token1) = p.reserves.reserve0 + x :=
      hleft0.trans hin
    have h1 : w₁.balanceOf p.token1 (pairOf c p.token0 p.token1) = p.reserves.reserve1 - y :=
      Nat.eq_sub_of_add_eq (hleft1.trans hlevel)
    rw [h0, h1] at hend
    have hk := GembaSwapPair.swapEnd_k hend hroom
      (lt_of_le_of_lt (Nat.sub_le _ _) p.reserves.fits1)
    rw [GembaSwapPair.adjusted_paid, GembaSwapPair.adjusted_sent] at hk
    exact ⟨hsome.resolve_left (Nat.lt_irrefl 0), Fair.of_scaled hpaid hfunded hlt hk⟩
  · rw [if_neg hsecond] at hhop hin hroom hlevel hfunded ⊢
    obtain ⟨hsome, hlt, -, ms, w₁, p', -, -, hflow, hend⟩ := swap_did hp hhop
    obtain ⟨hleft0, hleft1⟩ := swap_balances hflow hdiff hself
    have h0 : w₁.balanceOf p.token0 (pairOf c p.token1 p.token0) = p.reserves.reserve0 - y :=
      Nat.eq_sub_of_add_eq (hleft0.trans hlevel)
    have h1 : w₁.balanceOf p.token1 (pairOf c p.token1 p.token0) = p.reserves.reserve1 + x :=
      hleft1.trans hin
    rw [h0, h1] at hend
    have hk := GembaSwapPair.swapEnd_k hend
      (lt_of_le_of_lt (Nat.sub_le _ _) p.reserves.fits0) hroom
    rw [GembaSwapPair.adjusted_paid, GembaSwapPair.adjusted_sent, Reserves.k,
      Nat.mul_comm p.reserves.reserve0, Nat.mul_comm (1000 * (p.reserves.reserve0 - y))] at hk
    exact ⟨hsome.resolve_right (Nat.lt_irrefl 0), Fair.of_scaled hpaid hfunded hlt hk⟩

/-- **A pair gives its quote, and nothing above it.**  In every state the exchange can reach: when the
    pair of `a` and `b` has `x` of `a` over its reserve, with room for them, and just its reserve of
    `b`, and the receiver is none of the zero address, the pair and the tokens, a swap for `y` of `b`
    goes through if and only if `y` is something and not above the quote for `x`. -/
theorem swap_iff_quoted {a b : Address} {x quote : Nat} {r : Nat × Nat} (hrouter : router ≠ 0)
    (h0 : Untouched c tokens)
    (h : Run (step c router) (Keyed c) (Dex.deployed feeToSetter tokens now) ops w)
    (hlisted : w.factory.getPair a b ≠ 0) (hr : getReserves c w a b = .ok r)
    (hin : w.balanceOf a (pairOf c a b) = r.1 + x) (hroom : r.1 + x < 2 ^ 112)
    (hlevel : w.balanceOf b (pairOf c a b) = r.2) (hquote : getAmountOut x r.1 r.2 = .ok quote)
    (hdst : dst ≠ 0 ∧ dst ≠ pairOf c a b ∧ dst ≠ a ∧ dst ≠ b) (y : Nat) :
    (∃ w', GembaSwapRouter02.hop c w a b y dst = .ok w') ↔ 0 < y ∧ y ≤ quote := by
  have hsane : Sane c w := sane_run hrouter h0 h
  obtain ⟨hne, hzero, -, p, hp, htokens⟩ := hsane.at_listed hlisted
  have hfair := getAmountOut_fair hquote
  have hfits : r.2 < 2 ^ 112 := by
    obtain rfl := Except.ok.inj ((getReserves_eq hne hzero hp).symm.trans hr)
    split
    · exact p.reserves.fits1
    · exact p.reserves.fits0
  constructor
  · rintro ⟨w', hhop⟩
    obtain ⟨hpos, hgiven⟩ := hop_fair hsane hlisted hr hin hroom hfair.paid hfair.funded hlevel
      hdst.2.1 hhop
    exact ⟨hpos, hgiven.le_getAmountOut hquote⟩
  · rintro ⟨hpos, hle⟩
    have hpaid : Paid c w x y a b := by
      refine ⟨hlisted, ⟨r, hr, hfair.mono hle, hin.ge⟩, hpos, ?_, ?_⟩
      · rw [hin]
        exact hroom
      · rw [hlevel]
        exact hfits.trans_le (Nat.le_add_right _ _)
    exact hop_ok hsane hpaid hdst.1 hdst.2.1 hdst.2.2.1 hdst.2.2.2

/-- 500 of the second token come into its pair with the third. -/
def plainPaid : List Op := plainDeposits ++ [.transfer 2 5 (pairOf plainChain 2 3) 500]

theorem swap_iff_quoted_sample :
    (∃ w', GembaSwapRouter02.hop plainChain
      (runTo (step plainChain 9) (Dex.deployed 4 plainTokens 0) plainPaid) 2 3 729 6 = .ok w') ∧
    ¬ ∃ w', GembaSwapRouter02.hop plainChain
      (runTo (step plainChain 9) (Dex.deployed 4 plainTokens 0) plainPaid) 2 3 730 6 = .ok w' := by
  have hrun : Run (step plainChain 9) (Keyed plainChain) (Dex.deployed 4 plainTokens 0) plainPaid
      (runTo (step plainChain 9) (Dex.deployed 4 plainTokens 0) plainPaid) := by
    refine Run.of_runTo (allowedM_of_forall (plainChain_keyed fun s hs => ?_)) (by decide +kernel)
    exact List.eq_of_mem_replicate (show s ∈ List.replicate 4 5 from hs)
  have hquoted : ∀ y, (∃ w', GembaSwapRouter02.hop plainChain
      (runTo (step plainChain 9) (Dex.deployed 4 plainTokens 0) plainPaid) 2 3 y 6 = .ok w')
        ↔ 0 < y ∧ y ≤ 729 :=
    swap_iff_quoted (r := (20000, 30000)) (x := 500) (by decide) plainTokens_untouched hrun
      (by decide +kernel) (by decide +kernel) (by decide +kernel) (by decide) (by decide +kernel)
      (by decide +kernel) (by decide +kernel)
  exact ⟨(hquoted 729).mpr (by decide), fun h => absurd ((hquoted 730).mp h) (by decide)⟩

end
end Gemba.GembaSwap
