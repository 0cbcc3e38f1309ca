/-
  `GembaSwapPair` with the world it runs in: its tokens, the factory's `feeTo`, the clock.

  The functions of `Pair` are put together at their calls out.  A transfer of a token is open code: it
  may call anybody before and after it debits the pair, so a call of the pair waits twice for it, as
  `sending` and as `sent`.  The receiver of a flash swap is waited for as `calling`.  In between anybody
  may send the pair anything; only `lock` keeps them out.

  What the tokens do to the pair's balances by themselves is a message of its own (`tokens`): a
  deposit, a rebase, a token that lies.

  1. `enter`, `resume`, `contract` — the pair as a contract that calls out;
  2. `Job`, `Within` — at most one call of the pair waits, and then the pair is locked; what is kept is
                       said of that call and of what the tokens are still to debit for it;
  3. `Kept.keeps`    — the rule: an invariant is checked once for each thing the pair does, and holds
                       at every point of every run.
-/
import Gemba.Lib.Reentrancy
import Gemba.GembaSwap.Pair

namespace Gemba.GembaSwap

open Gemba.Lib Gemba.Evm

/-! ## The world of a pair -/

/-- The two tokens. -/
inductive Side where
  | token0
  | token1
deriving DecidableEq

/-- The pair and what it sees.  The last three fields are not on the chain: when the reserves were
    last updated, and the two prices summed over the seconds since deployment. -/
structure World where
  pair : GembaSwapPair
  held0 : Nat
  held1 : Nat
  feeTo : Address
  now : Nat
  lastUpdate : Nat
  integral0 : Nat
  integral1 : Nat

namespace World

/-- Right after `createPair`, at `now`. -/
def deployed (factory token0 token1 feeTo : Address) (held0 held1 now : Nat) : World :=
  { pair := { GembaSwapPair.new factory with token0, token1 }, held0, held1, feeTo, now,
    lastUpdate := 0, integral0 := 0, integral1 := 0 }

/-- The pair ended a call with `_update`. -/
def updated (w : World) (p : GembaSwapPair) : World := { w with pair := p, lastUpdate := w.now }

/-- A token debits the pair, which keeps what it sends to itself. -/
def debit (w : World) (self : Address) (side : Side) (dst : Address) (amount : Nat) : World :=
  if dst = self then w
  else match side with
    | .token0 => { w with held0 := w.held0 - amount }
    | .token1 => { w with held1 := w.held1 - amount }

/-- What the pair has of a token. -/
def held (w : World) : Side → Nat
  | .token0 => w.held0
  | .token1 => w.held1

/-- `seconds` pass. -/
def later (w : World) (seconds : Nat) : World :=
  { w with
    now := w.now + seconds
    integral0 := w.integral0
      + GembaSwapPair.price w.pair.reserves.reserve0 w.pair.reserves.reserve1 * seconds
    integral1 := w.integral1
      + GembaSwapPair.price w.pair.reserves.reserve1 w.pair.reserves.reserve0 * seconds }

end World

/-! ## Messages, and what is left of a call that waits -/

/-- A message.  `tokens` is what the tokens do to the pair's balances on their own, `setFeeTo` what
    the factory does; the sender of `mint`, `burn`, `swap`, `skim` and `sync` plays no part. -/
inductive Message where
  | lp (sender : Address) (fn : ERC20.Fn)
  | initializePair (sender token0 token1 : Address)
  | mint (dst : Address)
  | burn (dst : Address)
  | swap (amount0Out amount1Out : Nat) (dst : Address) (data : Bool)
  | skim (dst : Address)
  | sync
  | tokens (held0 held1 : Nat)
  | setFeeTo (feeTo : Address)

/-- What follows a transfer. -/
inductive Next where
  | burn1 (b : GembaSwapPair.Burn)
  | burnEnd (b : GembaSwapPair.Burn)
  | swap1 (s : GembaSwapPair.Swap)
  | swapCall (s : GembaSwapPair.Swap)
  | skim1 (dst : Address)
  | skimEnd

/-- What is left of a call that waits: for a token that has not debited the pair yet, for one that
    has, or for the receiver of a swap. -/
inductive Waiting where
  | sending (side : Side) (dst : Address) (amount : Nat) (next : Next)
  | sent (next : Next)
  | calling (s : GembaSwapPair.Swap)

/-- What the other side does: the token debits, or the call returns, well or not. -/
inductive Answer where
  | debit
  | returned (success : Bool)

section
variable (ecrecover : Digest → Signature → Address) (self : Address)

/-- `swap` once both transfers are done: the receiver is called when there is data. -/
def swapCall (w : World) (s : GembaSwapPair.Swap) : Call (World × Option Waiting) :=
  if s.data then .ok (w, some (.calling s))
  else do
    let p ← w.pair.swapEnd s w.held0 w.held1 w.now
    .ok (w.updated p, none)

/-- `swap` from the second transfer on. -/
def swap1 (w : World) (s : GembaSwapPair.Swap) : Call (World × Option Waiting) :=
  if 0 < s.amount1Out then .ok (w, some (.sending .token1 s.dst s.amount1Out (.swapCall s)))
  else swapCall w s

/-- `swap` from the first transfer on. -/
def swap0 (w : World) (s : GembaSwapPair.Swap) : Call (World × Option Waiting) :=
  if 0 < s.amount0Out then .ok (w, some (.sending .token0 s.dst s.amount0Out (.swap1 s)))
  else swap1 w s

/-- A transfer is over. -/
def proceed (w : World) : Next → Call (World × Option Waiting)
  | .burn1 b => .ok (w, some (.sending .token1 b.dst b.amount1 (.burnEnd b)))
  | .burnEnd b => do
    let p ← w.pair.burnEnd b w.held0 w.held1 w.now
    .ok (w.updated p, none)
  | .swap1 s => swap1 w s
  | .swapCall s => swapCall w s
  | .skim1 dst => do
    let amount ← safeSub w.held1 w.pair.reserves.reserve1
    .ok (w, some (.sending .token1 dst amount .skimEnd))
  | .skimEnd => .ok ({ w with pair := w.pair.unlock }, none)

def enter (w : World) : Message → Call (World × Option Waiting)
  | .lp sender fn => do
    let lp ← w.pair.lp.call ecrecover sender w.now fn
    .ok ({ w with pair := { w.pair with lp } }, none)
  | .initializePair sender token0 token1 => do
    let p ← w.pair.initializePair sender token0 token1
    .ok ({ w with pair := p }, none)
  | .mint dst => do
    let (p, _) ← w.pair.mint dst w.held0 w.held1 w.feeTo w.now
    .ok (w.updated p, none)
  | .burn dst => do
    let (p, b) ← w.pair.burnStart self dst w.held0 w.held1 w.feeTo
    .ok ({ w with pair := p }, some (.sending .token0 dst b.amount0 (.burn1 b)))
  | .swap amount0Out amount1Out dst data => do
    let (p, s) ← w.pair.swapStart amount0Out amount1Out dst data
    swap0 { w with pair := p } s
  | .skim dst => do
    let p ← w.pair.lock
    let amount ← safeSub w.held0 p.reserves.reserve0
    .ok ({ w with pair := p }, some (.sending .token0 dst amount (.skim1 dst)))
  | .sync => do
    let p ← w.pair.sync w.held0 w.held1 w.now
    .ok (w.updated p, none)
  | .tokens held0 held1 => .ok ({ w with held0, held1 }, none)
  | .setFeeTo feeTo => .ok ({ w with feeTo }, none)

/-- A token debits what it was asked to send and no more than there is; a call that fails fails the
    call of the pair. -/
def resume (w : World) : Waiting → Answer → Call (World × Option Waiting)
  | .sending side dst amount next, .debit => do
    failIf (w.held side < amount) (err "GembaSwap: TRANSFER_FAILED")
    .ok (w.debit self side dst amount, some (.sent next))
  | .sent next, .returned success => do
    failIf (success = false) (err "GembaSwap: TRANSFER_FAILED")
    proceed w next
  | .calling s, .returned success => do
    failIf (success = false) .external
    let p ← w.pair.swapEnd s w.held0 w.held1 w.now
    .ok (w.updated p, none)
  | _, _ => .error .external

/-- The pair as a contract that calls out. -/
def contract : Contract Revert World Waiting Message Answer Nat where
  enter := enter ecrecover self
  resume := resume self
  between w seconds := .ok (w.later seconds)

end

/-! ## What a call that waits is doing -/

/-- The call of the pair behind what waits. -/
inductive Job where
  | burn (b : GembaSwapPair.Burn)
  | swap (s : GembaSwapPair.Swap)
  | skim

def Next.job : Next → Job
  | .burn1 b | .burnEnd b => .burn b
  | .swap1 s | .swapCall s => .swap s
  | .skim1 _ | .skimEnd => .skim

/-- What is still to be sent of the second token; of the first nothing is. -/
def Next.ahead : Next → Nat
  | .burn1 b => b.amount1
  | .swap1 s => s.amount1Out
  | _ => 0

def Waiting.job : Waiting → Job
  | .sending _ _ _ next | .sent next => next.job
  | .calling s => .swap s

/-- What the first token is still to debit. -/
def Waiting.todo0 : Waiting → Nat
  | .sending .token0 _ amount _ => amount
  | _ => 0

/-- What the second token is still to debit. -/
def Waiting.todo1 : Waiting → Nat
  | .sending .token1 _ amount next => amount + next.ahead
  | .sending .token0 _ _ next | .sent next => next.ahead
  | .calling _ => 0

/-- An invariant of the pair speaks of the call in progress, if there is one, and of what the two
    tokens are still to debit for it. -/
abbrev Invariant := Option Job → Nat → Nat → World → Prop

/-- `Inv` of the calls that wait: there is at most one, and then the pair is locked. -/
def Within (Inv : Invariant) : List Waiting → World → Prop
  | [], w => w.pair.unlocked = true ∧ Inv none 0 0 w
  | [k], w => w.pair.unlocked = false ∧ Inv (some k.job) k.todo0 k.todo1 w
  | _ :: _ :: _, _ => False

section
variable {ecrecover : Digest → Signature → Address} {self : Address} {Inv : Invariant}
  {A : World → Message → Prop} {w w' : World} {k : Option Waiting} {ks : List Waiting}

/-- **What has to be checked of an invariant**: one condition for each thing the pair does, with the
    call that is in progress, and none about frames. -/
structure Kept (ecrecover : Digest → Signature → Address) (own : Address)
    (A : World → Message → Prop) (Inv : Invariant) : Prop where
  lp : ∀ {o x y w sender fn lp}, Inv o x y w → A w (.lp sender fn) →
    w.pair.lp.call ecrecover sender w.now fn = .ok lp →
    Inv o x y { w with pair := { w.pair with lp } }
  initializePair : ∀ {o x y w token0 token1}, Inv o x y w →
    A w (.initializePair w.pair.factory token0 token1) →
    Inv o x y { w with pair := { w.pair with token0, token1 } }
  tokens : ∀ {o x y w held0 held1}, Inv o x y w → A w (.tokens held0 held1) →
    Inv o x y { w with held0, held1 }
  setFeeTo : ∀ {o x y w feeTo}, Inv o x y w → A w (.setFeeTo feeTo) → Inv o x y { w with feeTo }
  mint : ∀ {w dst p liquidity}, Inv none 0 0 w → A w (.mint dst) →
    w.pair.mint dst w.held0 w.held1 w.feeTo w.now = .ok (p, liquidity) → Inv none 0 0 (w.updated p)
  burn : ∀ {w dst p b}, Inv none 0 0 w → A w (.burn dst) →
    w.pair.burnStart own dst w.held0 w.held1 w.feeTo = .ok (p, b) →
    Inv (some (.burn b)) b.amount0 b.amount1 { w with pair := p }
  burnEnd : ∀ {w b p}, Inv (some (.burn b)) 0 0 w →
    w.pair.burnEnd b w.held0 w.held1 w.now = .ok p → Inv none 0 0 (w.updated p)
  swap : ∀ {w amount0Out amount1Out dst data p s}, Inv none 0 0 w →
    A w (.swap amount0Out amount1Out dst data) →
    w.pair.swapStart amount0Out amount1Out dst data = .ok (p, s) →
    Inv (some (.swap s)) s.amount0Out s.amount1Out { w with pair := p }
  swapEnd : ∀ {w s p}, Inv (some (.swap s)) 0 0 w →
    w.pair.swapEnd s w.held0 w.held1 w.now = .ok p → Inv none 0 0 (w.updated p)
  skim : ∀ {w dst}, Inv none 0 0 w → A w (.skim dst) → w.pair.reserves.reserve0 ≤ w.held0 →
    Inv (some .skim) (w.held0 - w.pair.reserves.reserve0) 0
      { w with pair := { w.pair with unlocked := false } }
  skim1 : ∀ {w}, Inv (some .skim) 0 0 w → w.pair.reserves.reserve1 ≤ w.held1 →
    Inv (some .skim) 0 (w.held1 - w.pair.reserves.reserve1) w
  skimEnd : ∀ {w}, Inv (some .skim) 0 0 w → Inv none 0 0 { w with pair := w.pair.unlock }
  sync : ∀ {w p}, Inv none 0 0 w → A w .sync → w.pair.sync w.held0 w.held1 w.now = .ok p →
    Inv none 0 0 (w.updated p)
  debit0 : ∀ {o x y w dst amount}, Inv o (amount + x) y w → amount ≤ w.held0 →
    Inv o x y (w.debit own .token0 dst amount)
  debit1 : ∀ {o x y w dst amount}, Inv o x (amount + y) w → amount ≤ w.held1 →
    Inv o x y (w.debit own .token1 dst amount)
  later : ∀ {w seconds}, Inv none 0 0 w → Inv none 0 0 (w.later seconds)

/-- Two invariants are kept together. -/
theorem Kept.and {J : Invariant} (hI : Kept ecrecover self A Inv) (hJ : Kept ecrecover self A J) :
    Kept ecrecover self A fun o x y w => Inv o x y w ∧ J o x y w where
  lp h hA hc := ⟨hI.lp h.1 hA hc, hJ.lp h.2 hA hc⟩
  initializePair h hA := ⟨hI.initializePair h.1 hA, hJ.initializePair h.2 hA⟩
  tokens h hA := ⟨hI.tokens h.1 hA, hJ.tokens h.2 hA⟩
  setFeeTo h hA := ⟨hI.setFeeTo h.1 hA, hJ.setFeeTo h.2 hA⟩
  mint h hA hc := ⟨hI.mint h.1 hA hc, hJ.mint h.2 hA hc⟩
  burn h hA hc := ⟨hI.burn h.1 hA hc, hJ.burn h.2 hA hc⟩
  burnEnd h hc := ⟨hI.burnEnd h.1 hc, hJ.burnEnd h.2 hc⟩
  swap h hA hc := ⟨hI.swap h.1 hA hc, hJ.swap h.2 hA hc⟩
  swapEnd h hc := ⟨hI.swapEnd h.1 hc, hJ.swapEnd h.2 hc⟩
  skim h hA hle := ⟨hI.skim h.1 hA hle, hJ.skim h.2 hA hle⟩
  skim1 h hle := ⟨hI.skim1 h.1 hle, hJ.skim1 h.2 hle⟩
  skimEnd h := ⟨hI.skimEnd h.1, hJ.skimEnd h.2⟩
  sync h hA hc := ⟨hI.sync h.1 hA hc, hJ.sync h.2 hA hc⟩
  debit0 h hle := ⟨hI.debit0 h.1 hle, hJ.debit0 h.2 hle⟩
  debit1 h hle := ⟨hI.debit1 h.1 hle, hJ.debit1 h.2 hle⟩
  later h := ⟨hI.later h.1, hJ.later h.2⟩

/-- Fewer messages keep it too. -/
theorem Kept.weaken {B : World → Message → Prop} (hI : Kept ecrecover self A Inv)
    (hBA : ∀ w x, B w x → A w x) : Kept ecrecover self B Inv where
  lp h hB hc := hI.lp h (hBA _ _ hB) hc
  initializePair h hB := hI.initializePair h (hBA _ _ hB)
  tokens h hB := hI.tokens h (hBA _ _ hB)
  setFeeTo h hB := hI.setFeeTo h (hBA _ _ hB)
  mint h hB hc := hI.mint h (hBA _ _ hB) hc
  burn h hB hc := hI.burn h (hBA _ _ hB) hc
  burnEnd h hc := hI.burnEnd h hc
  swap h hB hc := hI.swap h (hBA _ _ hB) hc
  swapEnd h hc := hI.swapEnd h hc
  skim h hB hle := hI.skim h (hBA _ _ hB) hle
  skim1 h hle := hI.skim1 h hle
  skimEnd h := hI.skimEnd h
  sync h hB hc := hI.sync h (hBA _ _ hB) hc
  debit0 h hle := hI.debit0 h hle
  debit1 h hle := hI.debit1 h hle
  later h := hI.later h

theorem Within.free (h : Within Inv ks w) (hfree : w.pair.unlocked = true) :
    ks = [] ∧ Inv none 0 0 w := by
  rcases ks with _ | ⟨k, _ | ⟨k', ks⟩⟩
  · exact ⟨rfl, h.2⟩
  · exact absurd (hfree.symm.trans h.1) (by decide)
  · exact h.elim

/-- A change that no call of the pair makes, and that it may meet at any point. -/
theorem Within.same {w' : World} (h : Within Inv ks w)
    (hunlocked : w'.pair.unlocked = w.pair.unlocked)
    (hsame : ∀ {o x y}, Inv o x y w → Inv o x y w') : Within Inv ks w' := by
  rcases ks with _ | ⟨k, _ | ⟨k', ks⟩⟩
  · exact ⟨hunlocked.trans h.1, hsame h.2⟩
  · exact ⟨hunlocked.trans h.1, hsame h.2⟩
  · exact h

/-- A swap goes on to its next call out, or ends. -/
theorem Kept.swapCall (hk : Kept ecrecover self A Inv) {s : GembaSwapPair.Swap}
    (hlocked : w.pair.unlocked = false) (h : Inv (some (.swap s)) 0 0 w)
    (hgo : swapCall w s = .ok (w', k)) : Within Inv k.toList w' := by
  rcases ite_eq_ok.mp hgo with ⟨-, hgo⟩ | ⟨-, hgo⟩
  · obtain ⟨rfl, rfl⟩ := ok_pair hgo
    exact ⟨hlocked, h⟩
  · obtain ⟨p, hend, hgo⟩ := bind_eq_ok.mp hgo
    obtain ⟨rfl, rfl⟩ := ok_pair hgo
    exact ⟨(GembaSwapPair.swapEnd_did hend).2.unlocked, hk.swapEnd h hend⟩

theorem Kept.swap1 (hk : Kept ecrecover self A Inv) {s : GembaSwapPair.Swap}
    (hlocked : w.pair.unlocked = false) (h : Inv (some (.swap s)) 0 s.amount1Out w)
    (hgo : swap1 w s = .ok (w', k)) : Within Inv k.toList w' := by
  rcases ite_eq_ok.mp hgo with ⟨-, hgo⟩ | ⟨hnone, hgo⟩
  · obtain ⟨rfl, rfl⟩ := ok_pair hgo
    exact ⟨hlocked, h⟩
  · rw [Nat.eq_zero_of_not_pos hnone] at h
    exact hk.swapCall hlocked h hgo

theorem Kept.swap0 (hk : Kept ecrecover self A Inv) {s : GembaSwapPair.Swap}
    (hlocked : w.pair.unlocked = false) (h : Inv (some (.swap s)) s.amount0Out s.amount1Out w)
    (hgo : swap0 w s = .ok (w', k)) : Within Inv k.toList w' := by
  rcases ite_eq_ok.mp hgo with ⟨-, hgo⟩ | ⟨hnone, hgo⟩
  · obtain ⟨rfl, rfl⟩ := ok_pair hgo
    exact ⟨hlocked, h⟩
  · rw [Nat.eq_zero_of_not_pos hnone] at h
    exact hk.swap1 hlocked h hgo

/-- A transfer is over, and the call goes on. -/
theorem Kept.proceed (hk : Kept ecrecover self A Inv) {next : Next}
    (hlocked : w.pair.unlocked = false) (h : Inv (some next.job) 0 next.ahead w)
    (hgo : proceed w next = .ok (w', k)) : Within Inv k.toList w' := by
  cases next with
  | burn1 b =>
    obtain ⟨rfl, rfl⟩ := ok_pair hgo
    exact ⟨hlocked, h⟩
  | burnEnd b =>
    obtain ⟨p, hend, hgo⟩ := bind_eq_ok.mp hgo
    obtain ⟨rfl, rfl⟩ := ok_pair hgo
    exact ⟨(GembaSwapPair.burnEnd_did hend).unlocked, hk.burnEnd h hend⟩
  | swap1 s => exact hk.swap1 hlocked h hgo
  | swapCall s => exact hk.swapCall hlocked h hgo
  | skim1 dst =>
    obtain ⟨amount, hamount, hgo⟩ := bind_eq_ok.mp hgo
    obtain ⟨hle, rfl⟩ := safeSub_eq_ok.mp hamount
    obtain ⟨rfl, rfl⟩ := ok_pair hgo
    exact ⟨hlocked, hk.skim1 h hle⟩
  | skimEnd =>
    obtain ⟨rfl, rfl⟩ := ok_pair hgo
    exact ⟨rfl, hk.skimEnd h⟩

theorem Kept.enter (hk : Kept ecrecover self A Inv) {x : Message} (h : Within Inv ks w)
    (hA : A w x) (hgo : enter ecrecover self w x = .ok (w', k)) :
    Within Inv (k.toList ++ ks) w' := by
  cases x with
  | lp sender fn =>
    obtain ⟨lp, hlp, hgo⟩ := bind_eq_ok.mp hgo
    obtain ⟨rfl, rfl⟩ := ok_pair hgo
    exact h.same rfl fun hI => hk.lp hI hA hlp
  | initializePair sender token0 token1 =>
    obtain ⟨p, hp, hgo⟩ := bind_eq_ok.mp hgo
    obtain ⟨rfl, rfl⟩ := ok_pair hgo
    obtain ⟨hsender, hp⟩ := failIf_bind_eq_ok.mp hp
    injection hp with hp
    rw [not_not] at hsender
    rw [hsender] at hA
    rw [← hp]
    exact h.same rfl fun hI => hk.initializePair hI hA
  | tokens held0 held1 =>
    obtain ⟨rfl, rfl⟩ := ok_pair hgo
    exact h.same rfl fun hI => hk.tokens hI hA
  | setFeeTo feeTo =>
    obtain ⟨rfl, rfl⟩ := ok_pair hgo
    exact h.same rfl fun hI => hk.setFeeTo hI hA
  | mint dst =>
    obtain ⟨⟨p, liquidity⟩, hmint, hgo⟩ := bind_eq_ok.mp hgo
    obtain ⟨rfl, rfl⟩ := ok_pair hgo
    have hdid := GembaSwapPair.mint_did hmint
    obtain ⟨rfl, hI⟩ := h.free hdid.1
    obtain ⟨-, -, -, -, fee, p₁, p₂, p₃, -, -, -, -, hsettled⟩ := hdid
    exact ⟨hsettled.unlocked, hk.mint hI hA hmint⟩
  | burn dst =>
    obtain ⟨⟨p, b⟩, hburn, hgo⟩ := bind_eq_ok.mp hgo
    obtain ⟨rfl, rfl⟩ := ok_pair hgo
    have hdid := GembaSwapPair.burnStart_did hburn
    obtain ⟨rfl, hI⟩ := h.free hdid.1
    obtain ⟨-, -, -, -, -, -, fee, p₁, hfee, -, -, -, -, hrest⟩ := hdid
    refine ⟨?_, hk.burn hI hA hburn⟩
    show p.unlocked = false
    rw [hrest, hfee.rest]
  | swap amount0Out amount1Out dst data =>
    obtain ⟨⟨p, s⟩, hswap, hgo⟩ := bind_eq_ok.mp hgo
    obtain ⟨hfree, hp, hs, -, -⟩ := GembaSwapPair.swapStart_did hswap
    obtain ⟨rfl, hI⟩ := h.free hfree
    rw [List.append_nil]
    exact hk.swap0 (by rw [hp]) (hk.swap hI hA hswap) hgo
  | skim dst =>
    obtain ⟨p, hlock, hgo⟩ := bind_eq_ok.mp hgo
    obtain ⟨amount, hamount, hgo⟩ := bind_eq_ok.mp hgo
    obtain ⟨hfree, rfl⟩ := GembaSwapPair.lock_spec hlock
    obtain ⟨hle, rfl⟩ := safeSub_eq_ok.mp hamount
    obtain ⟨rfl, rfl⟩ := ok_pair hgo
    obtain ⟨rfl, hI⟩ := h.free hfree
    exact ⟨rfl, hk.skim hI hA hle⟩
  | sync =>
    obtain ⟨p, hsync, hgo⟩ := bind_eq_ok.mp hgo
    obtain ⟨rfl, rfl⟩ := ok_pair hgo
    obtain ⟨hfree, hsettled⟩ := GembaSwapPair.sync_did hsync
    obtain ⟨rfl, hI⟩ := h.free hfree
    exact ⟨hsettled.unlocked, hk.sync hI hA hsync⟩

theorem Kept.resume (hk : Kept ecrecover self A Inv) {waiting : Waiting} {answer : Answer}
    (h : Within Inv (waiting :: ks) w) (hgo : resume self w waiting answer = .ok (w', k)) :
    Within Inv (k.toList ++ ks) w' := by
  obtain rfl : ks = [] := by
    rcases ks with _ | ⟨k', ks⟩
    · rfl
    · exact h.elim
  rw [List.append_nil]
  obtain ⟨hlocked, hI⟩ := h
  cases waiting with
  | sending side dst amount next =>
    cases answer with
    | returned success => nomatch hgo
    | debit =>
      obtain ⟨hfunds, hgo⟩ := failIf_bind_eq_ok.mp hgo
      obtain ⟨rfl, rfl⟩ := ok_pair hgo
      have hsame : (w.debit self side dst amount).pair = w.pair := by
        unfold World.debit
        split
        · rfl
        · cases side <;> rfl
      refine ⟨(congrArg GembaSwapPair.unlocked hsame).trans hlocked, ?_⟩
      cases side with
      | token0 => exact hk.debit0 hI (not_lt.mp hfunds)
      | token1 => exact hk.debit1 hI (not_lt.mp hfunds)
  | sent next =>
    cases answer with
    | debit => nomatch hgo
    | returned success =>
      obtain ⟨-, hgo⟩ := failIf_bind_eq_ok.mp hgo
      exact hk.proceed hlocked hI hgo
  | calling s =>
    cases answer with
    | debit => nomatch hgo
    | returned success =>
      obtain ⟨-, hgo⟩ := failIf_bind_eq_ok.mp hgo
      obtain ⟨p, hend, hgo⟩ := bind_eq_ok.mp hgo
      obtain ⟨rfl, rfl⟩ := ok_pair hgo
      exact ⟨(GembaSwapPair.swapEnd_did hend).2.unlocked, hk.swapEnd hI hend⟩

/-- **The rule for the pair**: what each of its operations keeps holds at every point of every run,
    under the lock. -/
theorem Kept.keeps (hk : Kept ecrecover self A Inv) :
    (contract ecrecover self).Keeps A (fun _ => True) (Within Inv) where
  enter h hA hgo := hk.enter h hA hgo
  resume h hgo := hk.resume h hgo
  between := by
    intro w seconds w' h _ hgo
    obtain rfl := Except.ok.inj hgo
    exact ⟨h.1, hk.later h.2⟩

end
end Gemba.GembaSwap
