/-
  The slippage floors of `GembaNativePool.addLiquidity`.

  On a positive supply the amounts are decided twice: at the pool's ratio before the tokens are pulled
  (`optimalAmounts`), and once more for what arrived (`settledAmounts`).  Each floor is checked where its
  amount is derived from the other one, so `amountTokenMin` is never held against what arrived: with a
  token that keeps a fee it is honoured exactly when the fee is within the slippage the caller allowed
  (`floors_honoured_iff`).

  For a token without a fee the second quote is taken for a repetition of the first.  It is one when the
  desired tokens fit into the value.  When the value decides, the tokens are rounded down and the value
  is quoted from them again, and comes out the same only if nothing was rounded off
  (`requote_noop_iff`).
-/
import Gemba.Dex.NativePool

namespace Gemba.Dex

open Gemba.Lib Gemba.Evm

/-- What the token is asked for on a positive supply: the desired amount, if the value is worth it, else
    what the value is worth. -/
def NativePool.asked (p : NativePool) (amountTokenDesired nativeIn : Nat) : Nat :=
  if amountTokenDesired * p.reserveNative / p.reserveToken ≤ nativeIn then amountTokenDesired
  else nativeIn * p.reserveToken / p.reserveNative

/-- What arrived of a pull. -/
def Transfer.received (t : Transfer) : Nat := t.balAfter - t.balBefore

/-- What a fee token keeps of the amount it is asked for. -/
def Transfer.fee (t : Transfer) (asked : Nat) : Nat := asked - t.received

/-- The amounts an `addLiquidity` on a positive supply settles on, when `received` of the tokens asked
    for arrive: the native side is quoted again. -/
def NativePool.settledAmounts (p : NativePool)
    (amountTokenDesired amountTokenMin amountNativeMin nativeIn : Nat) (received : Nat → Nat) :
    Call (Nat × Nat) := do
  let (asked, _) ← p.optimalAmounts amountTokenDesired amountTokenMin amountNativeMin nativeIn
  let amountToken := received asked
  failIf (amountToken = 0) (err "ZeroAmount")
  let nativeNeeded ← quote amountToken p.reserveToken p.reserveNative
  failIf (nativeNeeded < amountNativeMin) (err "InsufficientNativeAmount")
  .ok (amountToken, nativeNeeded)

/-- The two errors of the slippage floors. -/
def SlippageError (e : Revert) : Prop :=
  e = err "InsufficientTokenAmount" ∨ e = err "InsufficientNativeAmount"

section
variable {self : Address} {p p' : NativePool} {desired tokenMin nativeMin nativeIn a n : Nat}
  {msg : Msg} {dst : Address} {deadline : Nat} {pull : Transfer} {refund : Callback} {r : Added}

/-! ## The first quote -/

/-- **The amounts at the pool's ratio**: the desired tokens and their worth, or the tokens the value is
    worth and the value.  The floor that is checked is the one of the amount that was quoted. -/
theorem optimalAmounts_eq_ok (hs : p.lp.totalSupply ≠ 0) :
    p.optimalAmounts desired tokenMin nativeMin nativeIn = .ok (a, n) ↔
      ∃ optimal, quote desired p.reserveToken p.reserveNative = .ok optimal ∧
        ((optimal ≤ nativeIn ∧ nativeMin ≤ optimal ∧ a = desired ∧ n = optimal) ∨
          (nativeIn < optimal ∧ quote nativeIn p.reserveNative p.reserveToken = .ok a ∧
            tokenMin ≤ a ∧ n = nativeIn)) := by
  rw [NativePool.optimalAmounts, if_neg hs, bind_eq_ok]
  refine exists_congr fun optimal => and_congr_right fun _ => ?_
  by_cases hfits : optimal ≤ nativeIn
  · rw [if_pos hfits, failIf_bind_eq_ok, not_lt]
    constructor
    · rintro ⟨hmin, h⟩
      obtain ⟨rfl, rfl⟩ := ok_pair h
      exact .inl ⟨hfits, hmin, rfl, rfl⟩
    · rintro (⟨-, hmin, rfl, rfl⟩ | ⟨hlt, -⟩)
      · exact ⟨hmin, rfl⟩
      · omega
  · rw [if_neg hfits, bind_eq_ok]
    constructor
    · rintro ⟨tokenOptimal, hquote, h⟩
      obtain ⟨hmin, h⟩ := failIf_bind_eq_ok.mp h
      obtain ⟨rfl, rfl⟩ := ok_pair h
      exact .inr ⟨not_le.mp hfits, hquote, not_lt.mp hmin, rfl⟩
    · rintro (⟨hle, -⟩ | ⟨-, hquote, hmin, rfl⟩)
      · exact absurd hle hfits
      · exact ⟨a, hquote, failIf_bind_eq_ok.mpr ⟨not_lt.mpr hmin, rfl⟩⟩

/-- The tokens asked for. -/
theorem optimalAmounts_asked (hs : p.lp.totalSupply ≠ 0)
    (h : p.optimalAmounts desired tokenMin nativeMin nativeIn = .ok (a, n)) :
    a = p.asked desired nativeIn := by
  obtain ⟨optimal, hquote, hcase⟩ := (optimalAmounts_eq_ok hs).mp h
  obtain ⟨-, -, -, -, rfl⟩ := quote_eq_ok.mp hquote
  unfold NativePool.asked
  rcases hcase with ⟨hfits, -, rfl, -⟩ | ⟨hlt, hquote', -, -⟩
  · rw [if_pos hfits]
  · obtain ⟨-, -, -, -, rfl⟩ := quote_eq_ok.mp hquote'
    rw [if_neg (not_le.mpr hlt)]

/-- They are not below the floor, if the desired ones are not. -/
theorem optimalAmounts_floor (hs : p.lp.totalSupply ≠ 0) (hT : tokenMin ≤ desired)
    (h : p.optimalAmounts desired tokenMin nativeMin nativeIn = .ok (a, n)) : tokenMin ≤ a := by
  obtain ⟨optimal, -, hcase⟩ := (optimalAmounts_eq_ok hs).mp h
  rcases hcase with ⟨-, -, rfl, -⟩ | ⟨-, -, hmin, -⟩
  · exact hT
  · exact hmin

/-! ## The second quote -/

/-- A successful `addLiquidity` on a positive supply returns the amounts it settles on. -/
theorem addLiquidity_settled (hs : p.lp.totalSupply ≠ 0)
    (h : p.addLiquidity self msg desired tokenMin nativeMin dst deadline pull refund = .ok (p', r)) :
    p.settledAmounts desired tokenMin nativeMin msg.value (fun _ => pull.received)
      = .ok (r.amountToken, r.amountNative) := by
  obtain ⟨-, h⟩ := failIf_bind_eq_ok.mp h
  obtain ⟨-, h⟩ := failIf_bind_eq_ok.mp h
  obtain ⟨-, h⟩ := failIf_bind_eq_ok.mp h
  obtain ⟨⟨asked, before⟩, hopt, h⟩ := bind_eq_ok.mp h
  obtain ⟨p₁, hpull, h⟩ := bind_eq_ok.mp h
  obtain ⟨received, hreceived, h⟩ := bind_eq_ok.mp h
  obtain ⟨hpos, h⟩ := failIf_bind_eq_ok.mp h
  obtain ⟨⟨needed, liquidity, p₂⟩, hmint, h⟩ := bind_eq_ok.mp h
  obtain ⟨-, h⟩ := failIf_bind_eq_ok.mp h
  obtain ⟨rT, -, h⟩ := bind_eq_ok.mp h
  obtain ⟨rN, -, h⟩ := bind_eq_ok.mp h
  obtain ⟨lp, -, h⟩ := bind_eq_ok.mp h
  obtain ⟨p₃, -, h⟩ := bind_eq_ok.mp h
  obtain ⟨-, rfl⟩ := ok_pair h
  obtain ⟨-, rfl⟩ := callOut_eq_ok.mp hpull
  obtain ⟨-, rfl⟩ := sub_eq_ok.mp hreceived
  rw [NativePool.mintFor, if_neg (show p.lp.totalSupply ≠ 0 from hs)] at hmint
  obtain ⟨nativeNeeded, hquote, hmint⟩ := bind_eq_ok.mp hmint
  obtain ⟨hmin, hmint⟩ := failIf_bind_eq_ok.mp hmint
  obtain ⟨m₁, -, hmint⟩ := bind_eq_ok.mp hmint
  obtain ⟨d₁, -, hmint⟩ := bind_eq_ok.mp hmint
  obtain ⟨m₂, -, hmint⟩ := bind_eq_ok.mp hmint
  obtain ⟨d₂, -, hmint⟩ := bind_eq_ok.mp hmint
  obtain ⟨rfl, -⟩ := ok_pair hmint
  refine bind_eq_ok.mpr ⟨(asked, before), hopt, ?_⟩
  refine failIf_bind_eq_ok.mpr ⟨hpos, bind_eq_ok.mpr ⟨nativeNeeded, hquote, ?_⟩⟩
  exact failIf_bind_eq_ok.mpr ⟨hmin, rfl⟩

/-- What settled amounts satisfy. -/
theorem settledAmounts_eq_ok {received : Nat → Nat} :
    p.settledAmounts desired tokenMin nativeMin nativeIn received = .ok (a, n) ↔
      ∃ asked before, p.optimalAmounts desired tokenMin nativeMin nativeIn = .ok (asked, before) ∧
        a = received asked ∧ quote a p.reserveToken p.reserveNative = .ok n ∧ nativeMin ≤ n := by
  constructor
  · intro h
    obtain ⟨⟨asked, before⟩, hopt, h⟩ := bind_eq_ok.mp h
    obtain ⟨-, h⟩ := failIf_bind_eq_ok.mp h
    obtain ⟨needed, hquote, h⟩ := bind_eq_ok.mp h
    obtain ⟨hmin, h⟩ := failIf_bind_eq_ok.mp h
    obtain ⟨rfl, rfl⟩ := ok_pair h
    exact ⟨asked, before, hopt, rfl, hquote, not_lt.mp hmin⟩
  · rintro ⟨asked, before, hopt, rfl, hquote, hmin⟩
    refine bind_eq_ok.mpr ⟨(asked, before), hopt, ?_⟩
    refine failIf_bind_eq_ok.mpr ⟨(quote_eq_ok.mp hquote).1, bind_eq_ok.mpr ⟨n, hquote, ?_⟩⟩
    exact failIf_bind_eq_ok.mpr ⟨not_lt.mpr hmin, rfl⟩

/-! ## The floors -/

/-- **When the floors are honoured.**  Of a call that succeeds on a positive supply: exactly when what
    the token keeps of the amount asked for is within the slippage allowed on it. -/
theorem floors_honoured_iff (hs : p.lp.totalSupply ≠ 0) (hT : tokenMin ≤ desired)
    (h : p.addLiquidity self msg desired tokenMin nativeMin dst deadline pull refund = .ok (p', r)) :
    (tokenMin ≤ r.amountToken ∧ nativeMin ≤ r.amountNative) ↔
      pull.fee (p.asked desired msg.value) ≤ p.asked desired msg.value - tokenMin := by
  obtain ⟨asked, before, hopt, hreceived, -, hmin⟩ :=
    settledAmounts_eq_ok.mp (addLiquidity_settled hs h)
  have hle := optimalAmounts_floor hs hT hopt
  rw [← optimalAmounts_asked hs hopt, Transfer.fee, hreceived]
  constructor
  · rintro ⟨htoken, -⟩
    omega
  · intro hfee
    exact ⟨by omega, hmin⟩

end

/-! ### A pool -/

/-- A pool that was opened with 3,000 agmb and this many tokens, of which 1,000 arrived. -/
def unevenPool (sent : Nat) : NativePool :=
  (runTo (step poolAddress) ⟨.deployed 0, []⟩
    [.addLiquidity ⟨alice, 3000, 0⟩ sent 0 0 alice 0 ⟨0, .quiet, 1000⟩ .quiet]).pool

/-- Alice adds 100 tokens and 300 agmb, with this floor for the tokens; the token keeps a tenth. -/
def addWithFee (tokenMin : Nat) : Call (NativePool × Added) :=
  (unevenPool 1111).addLiquidity poolAddress ⟨alice, 300, 0⟩ 100 tokenMin 0 alice 0
    ⟨1000, .quiet, 1090⟩ .quiet

/-- A fee of 10 is within the slippage of 10. -/
theorem floors_honoured_iff_fee : ∃ p' r, addWithFee 90 = .ok (p', r) ∧ 90 ≤ r.amountToken := by
  obtain ⟨⟨p', r⟩, h⟩ : succeeds (addWithFee 90) := by decide +kernel
  have hfloors := (floors_honoured_iff (by decide +kernel) (by decide) h).mpr (by decide +kernel)
  exact ⟨p', r, h, hfloors.1⟩

/-- **A fee below the floor.**  The caller wants 100 of the 100 tokens credited, or nothing; 90 are. -/
theorem fee_breaks_floor : (unevenPool 1111).lp.totalSupply ≠ 0 ∧
    ∃ p' r, addWithFee 100 = .ok (p', r) ∧ ¬ 100 ≤ r.amountToken := by
  refine ⟨by decide +kernel, ?_⟩
  have hview : (addWithFee 100).map (fun x => x.2.amountToken) = .ok 90 := by decide +kernel
  cases h : addWithFee 100 with
  | error e =>
    rw [h] at hview
    nomatch hview
  | ok x =>
    rw [h] at hview
    injection hview with hview
    have hninety : x.2.amountToken = 90 := hview
    exact ⟨x.1, x.2, rfl, by omega⟩

section
variable {self : Address} {p p' : NativePool} {desired tokenMin nativeMin nativeIn a n : Nat}
  {msg : Msg} {dst : Address} {deadline : Nat} {pull : Transfer} {refund : Callback} {r : Added}

/-! ## A token without a fee -/

/-- An `addLiquidity` that gets as far as the amounts, with a token that delivers what it is asked. -/
structure Standard (p : NativePool) (msg : Msg) (desired : Nat) (dst : Address) (deadline : Nat)
    (pull : Transfer) : Prop where
  inTime : msg.timestamp ≤ deadline
  dst_ne : dst ≠ 0
  amounts : msg.value ≠ 0 ∧ desired ≠ 0
  pulled : pull.call.succeeds = true
  delivered : pull.balAfter = pull.balBefore + p.asked desired msg.value

/-- What `addLiquidity` does for the settled amounts `a` and `n`; `p` is the pool after the pull. -/
def NativePool.addSettled (self : Address) (p : NativePool) (supply : Nat) (msg : Msg) (dst : Address)
    (refund : Callback) (a n : Nat) : Call (NativePool × Added) := do
  let byToken ← div (← mul a supply) p.reserveToken
  let byNative ← div (← mul n supply) p.reserveNative
  failIf (min byToken byNative = 0) (err "InsufficientLiquidityMinted")
  let p := p.update (← add p.reserveToken a) (← add p.reserveNative n)
  let lp ← p.lp.mint dst (min byToken byNative)
  let p := { p with lp := lp }
  let p ← (if n < msg.value then p.sendNative self msg.sender (msg.value - n) refund else .ok p)
  .ok (p, ⟨a, n, min byToken byNative⟩)

/-- **With a standard token** `addLiquidity` settles on the amounts of two quotes in a row, and then adds
    them. -/
theorem addLiquidity_standard (hs : p.lp.totalSupply ≠ 0)
    (hcall : Standard p msg desired dst deadline pull) :
    p.addLiquidity self msg desired tokenMin nativeMin dst deadline pull refund =
      p.settledAmounts desired tokenMin nativeMin msg.value id >>= fun x =>
        NativePool.addSettled self
          { p with balance := p.balance + msg.value + pull.call.forced,
                   lp := runLpCalls p.lp pull.call.lpCalls }
          p.lp.totalSupply msg dst refund x.1 x.2 := by
  obtain ⟨hvalue, hdesired⟩ := hcall.amounts
  unfold NativePool.addLiquidity NativePool.settledAmounts
  dsimp only
  rw [failIf_neg (not_lt.mpr hcall.inTime), ok_bind, failIf_neg hcall.dst_ne, ok_bind,
    failIf_neg (by rw [not_or]; exact ⟨hvalue, hdesired⟩), ok_bind]
  show (p.optimalAmounts desired tokenMin nativeMin msg.value >>= _) = _
  cases hopt : p.optimalAmounts desired tokenMin nativeMin msg.value with
  | error e => rfl
  | ok x =>
    obtain ⟨asked, before⟩ := x
    have hpull : ({ p with balance := p.balance + msg.value } : NativePool).callOut pull.call .external
        = .ok { p with balance := p.balance + msg.value + pull.call.forced,
                       lp := runLpCalls p.lp pull.call.lpCalls } :=
      callOut_eq_ok.mpr ⟨hcall.pulled, rfl⟩
    have hreceived : sub pull.balAfter pull.balBefore = .ok asked := by
      rw [sub_eq_ok, hcall.delivered, optimalAmounts_asked hs hopt]
      omega
    rw [ok_bind, ok_bind]
    dsimp only
    rw [hpull, ok_bind, hreceived, ok_bind]
    dsimp only [id]
    by_cases hzero : asked = 0
    · rw [failIf, if_pos hzero]
      rfl
    rw [failIf_neg hzero, ok_bind, ok_bind, NativePool.mintFor, if_neg hs]
    dsimp only
    cases quote asked p.reserveToken p.reserveNative with
    | error e => rfl
    | ok needed =>
      rw [ok_bind, ok_bind]
      by_cases hlow : needed < nativeMin
      · rw [failIf, if_pos hlow]
        rfl
      · rw [failIf_neg hlow, ok_bind, ok_bind]
        simp only [bind_assoc, ok_bind]
        rfl

/-! ### Whatever comes after the amounts is no slippage error -/

/-- The call does not stop with a slippage error. -/
def NoSlippage {α : Type} (x : Call α) : Prop := ∀ e, x = .error e → ¬ SlippageError e

theorem NoSlippage.bind {α β : Type} {x : Call α} {f : α → Call β} (hx : NoSlippage x)
    (hf : ∀ a, NoSlippage (f a)) : NoSlippage (x >>= f) := by
  intro e h
  rcases bind_eq_error.mp h with h | ⟨a, -, h⟩
  · exact hx e h
  · exact hf a e h

theorem noSlippage_ok {α : Type} (a : α) : NoSlippage (.ok a : Call α) := fun _ h => nomatch h

theorem noSlippage_error {α : Type} {e : Revert} (he : ¬ SlippageError e) :
    NoSlippage (.error e : Call α) := by
  intro e' h
  injection h with h
  rw [← h]
  exact he

theorem noSlippage_ite {α : Type} {c : Prop} [Decidable c] {x y : Call α} (hx : NoSlippage x)
    (hy : NoSlippage y) : NoSlippage (if c then x else y) := by
  split
  · exact hx
  · exact hy

theorem not_slippageError {e : Revert} (ht : e ≠ err "InsufficientTokenAmount")
    (hn : e ≠ err "InsufficientNativeAmount") : ¬ SlippageError e := not_or.mpr ⟨ht, hn⟩

theorem noSlippage_failIf {c : Prop} [Decidable c] {e : Revert} (he : ¬ SlippageError e) :
    NoSlippage (failIf c e) := noSlippage_ite (noSlippage_error he) (noSlippage_ok _)

theorem not_slippage_panic (code : Nat) : ¬ SlippageError (.panic code) :=
  not_slippageError (fun h => nomatch h) (fun h => nomatch h)

theorem noSlippage_mul (a b : Nat) : NoSlippage (mul a b) :=
  noSlippage_ite (noSlippage_ok _) (noSlippage_error (not_slippage_panic _))

theorem noSlippage_add (a b : Nat) : NoSlippage (add a b) :=
  noSlippage_ite (noSlippage_ok _) (noSlippage_error (not_slippage_panic _))

theorem noSlippage_div (a b : Nat) : NoSlippage (div a b) :=
  noSlippage_ite (noSlippage_error (not_slippage_panic _)) (noSlippage_ok _)

theorem noSlippage_mint (lp : Erc20) (hdst : dst ≠ 0) (value : Nat) :
    NoSlippage (lp.mint dst value) := by
  unfold Erc20.mint Erc20.update
  rw [failIf_neg hdst, ok_bind, if_pos rfl]
  refine ((noSlippage_add _ _).bind fun _ => noSlippage_ok _).bind fun lp => ?_
  rw [if_neg hdst]
  exact noSlippage_ok _

theorem noSlippage_sendNative (p : NativePool) (amount : Nat) (cb : Callback) :
    NoSlippage (p.sendNative self dst amount cb) := by
  have hsend : ¬ SlippageError (err "NativeSendFailed") := not_slippageError (by decide) (by decide)
  exact (noSlippage_failIf hsend).bind fun _ => (noSlippage_failIf hsend).bind fun _ =>
    (noSlippage_failIf hsend).bind fun _ => noSlippage_ok _

theorem noSlippage_addSettled (hdst : dst ≠ 0) (supply : Nat) :
    NoSlippage (NativePool.addSettled self p supply msg dst refund a n) := by
  have hminted : ¬ SlippageError (err "InsufficientLiquidityMinted") :=
    not_slippageError (by decide) (by decide)
  unfold NativePool.addSettled
  refine (noSlippage_mul _ _).bind fun _ => (noSlippage_div _ _).bind fun _ => ?_
  refine (noSlippage_mul _ _).bind fun _ => (noSlippage_div _ _).bind fun _ => ?_
  refine (noSlippage_failIf hminted).bind fun _ => ?_
  refine (noSlippage_add _ _).bind fun _ => (noSlippage_add _ _).bind fun _ => ?_
  refine (noSlippage_mint _ hdst _).bind fun _ => ?_
  exact (noSlippage_ite (noSlippage_sendNative _ _ _) (noSlippage_ok _)).bind fun _ => noSlippage_ok _

/-- With a standard token `addLiquidity` stops at a floor when the two quotes do. -/
theorem addLiquidity_slippage_iff (hs : p.lp.totalSupply ≠ 0)
    (hcall : Standard p msg desired dst deadline pull) {e : Revert} (he : SlippageError e) :
    p.addLiquidity self msg desired tokenMin nativeMin dst deadline pull refund = .error e ↔
      p.settledAmounts desired tokenMin nativeMin msg.value id = .error e := by
  rw [addLiquidity_standard hs hcall, bind_eq_error]
  constructor
  · rintro (h | ⟨x, -, h⟩)
    · exact h
    · exact absurd he (noSlippage_addSettled hcall.dst_ne _ e h)
  · exact .inl

/-! ### When the second quote repeats the first -/

/-- The two quotes agree: on the amounts, and on which floor stops the call. -/
structure NativePool.RequoteIsNoOp (p : NativePool) (desired tokenMin nativeMin nativeIn : Nat) :
    Prop where
  amounts : ∀ x, p.settledAmounts desired tokenMin nativeMin nativeIn id = .ok x →
    p.optimalAmounts desired tokenMin nativeMin nativeIn = .ok x
  floors : ∀ e, SlippageError e →
    (p.settledAmounts desired tokenMin nativeMin nativeIn id = .error e ↔
      p.optimalAmounts desired tokenMin nativeMin nativeIn = .error e)

/-- The value decides, and the tokens it is worth are asked for. -/
structure NativePool.ValueDecides (p : NativePool) (desired tokenMin nativeIn : Nat) : Prop where
  desired_fits : desired * p.reserveNative < 2 ^ 256
  value_fits : nativeIn * p.reserveToken < 2 ^ 256
  decides : nativeIn < desired * p.reserveNative / p.reserveToken
  some_tokens : 0 < nativeIn * p.reserveToken / p.reserveNative
  floor : tokenMin ≤ nativeIn * p.reserveToken / p.reserveNative

/-- The tokens a value is worth are worth the value again exactly when nothing was rounded off. -/
theorem quote_back_iff {v rT rN : Nat} (hT : 0 < rT) :
    v * rT / rN * rN / rT = v ↔ rN ∣ v * rT := by
  constructor
  · intro h
    have hle : v * rT ≤ v * rT / rN * rN := by
      have hback := Nat.div_mul_le_self (v * rT / rN * rN) rT
      rw [h] at hback
      exact hback
    exact ⟨v * rT / rN, by
      rw [Nat.mul_comm rN]
      exact Nat.le_antisymm hle (Nat.div_mul_le_self _ _)⟩
  · intro h
    rw [Nat.div_mul_cancel h, Nat.mul_div_cancel v hT]

/-- Where the first quote stops the call, there is no second. -/
theorem requoteIsNoOp_of_error {e : Revert}
    (h : p.optimalAmounts desired tokenMin nativeMin nativeIn = .error e) :
    p.RequoteIsNoOp desired tokenMin nativeMin nativeIn := by
  have hsettled : p.settledAmounts desired tokenMin nativeMin nativeIn id = .error e := by
    rw [NativePool.settledAmounts, h]
    rfl
  constructor
  · intro x hx
    rw [hsettled] at hx
    nomatch hx
  · intro e' _
    rw [hsettled, h]

/-- Where nothing is asked for, the call stops before the second quote, and at no floor. -/
theorem requoteIsNoOp_of_nothing
    (h : p.optimalAmounts desired tokenMin nativeMin nativeIn = .ok (0, n)) :
    p.RequoteIsNoOp desired tokenMin nativeMin nativeIn := by
  have hsettled : p.settledAmounts desired tokenMin nativeMin nativeIn id
      = .error (err "ZeroAmount") := by
    rw [NativePool.settledAmounts, h]
    rfl
  constructor
  · intro x hx
    rw [hsettled] at hx
    nomatch hx
  · intro e he
    rw [hsettled, h]
    refine iff_of_false (fun h => ?_) (fun h => nomatch h)
    injection h with h
    rw [← h] at he
    exact not_slippageError (by decide) (by decide) he

/-- Where both quotes are made, they agree if the second gives the first one's native side, and that
    meets its floor. -/
theorem requoteIsNoOp_iff_of_ok {needed : Nat}
    (h : p.optimalAmounts desired tokenMin nativeMin nativeIn = .ok (a, n))
    (hquote : quote a p.reserveToken p.reserveNative = .ok needed) :
    p.RequoteIsNoOp desired tokenMin nativeMin nativeIn ↔ needed = n ∧ nativeMin ≤ needed := by
  have hsettled : p.settledAmounts desired tokenMin nativeMin nativeIn id
      = failIf (needed < nativeMin) (err "InsufficientNativeAmount") >>= fun _ => .ok (a, needed) := by
    rw [NativePool.settledAmounts, h, ok_bind]
    dsimp only [id]
    rw [failIf_neg (quote_eq_ok.mp hquote).1, ok_bind, hquote, ok_bind]
  by_cases hlow : needed < nativeMin
  · rw [failIf, if_pos hlow] at hsettled
    refine iff_of_false (fun hno => ?_) (fun hc => absurd hlow (not_lt.mpr hc.2))
    -- the second quote stops the call at a floor that the first one passed
    have hstop := (hno.floors _ (.inr rfl)).mp hsettled
    rw [h] at hstop
    cases hstop
  · rw [failIf_neg hlow, ok_bind] at hsettled
    constructor
    · intro hno
      have hsame := hno.amounts _ hsettled
      rw [h] at hsame
      exact ⟨(ok_pair hsame).2.symm, not_lt.mp hlow⟩
    · rintro ⟨rfl, -⟩
      constructor
      · intro x hx
        rw [h, ← hsettled]
        exact hx
      · intro e _
        rw [hsettled, h]

/-- An `addLiquidity` returns the amounts of the two quotes, and stops at a floor when they do. -/
structure SettlesOn (self : Address) (p : NativePool) (msg : Msg) (desired tokenMin nativeMin : Nat)
    (dst : Address) (deadline : Nat) (pull : Transfer) (refund : Callback) : Prop where
  returned : ∀ p' r,
    p.addLiquidity self msg desired tokenMin nativeMin dst deadline pull refund = .ok (p', r) →
    p.settledAmounts desired tokenMin nativeMin msg.value id = .ok (r.amountToken, r.amountNative)
  stopped : ∀ e, SlippageError e →
    (p.addLiquidity self msg desired tokenMin nativeMin dst deadline pull refund = .error e ↔
      p.settledAmounts desired tokenMin nativeMin msg.value id = .error e)

theorem addLiquidity_settlesOn (hs : p.lp.totalSupply ≠ 0)
    (hcall : Standard p msg desired dst deadline pull) :
    SettlesOn self p msg desired tokenMin nativeMin dst deadline pull refund := by
  refine ⟨fun p' r h => ?_, fun e he => addLiquidity_slippage_iff hs hcall he⟩
  obtain ⟨asked, before, hopt, hreceived, hquote, hmin⟩ :=
    settledAmounts_eq_ok.mp (addLiquidity_settled hs h)
  refine settledAmounts_eq_ok.mpr ⟨asked, before, hopt, ?_, hquote, hmin⟩
  -- a standard token delivered what it was asked for
  rw [hreceived, Transfer.received, hcall.delivered, optimalAmounts_asked hs hopt, id]
  omega

/-- Where the value decides, the first quote gives the tokens it is worth, and the value. -/
theorem optimalAmounts_of_decides (hs : p.lp.totalSupply ≠ 0) (hT : 0 < p.reserveToken)
    (h : p.ValueDecides desired tokenMin nativeIn) :
    p.optimalAmounts desired tokenMin nativeMin nativeIn
      = .ok (nativeIn * p.reserveToken / p.reserveNative, nativeIn) := by
  have hN : p.reserveNative ≠ 0 := by
    intro hzero
    have hsome := h.some_tokens
    rw [hzero, Nat.div_zero] at hsome
    exact absurd hsome (Nat.lt_irrefl 0)
  have hdesired : desired ≠ 0 := by
    rintro rfl
    have hdecides := h.decides
    rw [Nat.zero_mul, Nat.zero_div] at hdecides
    exact absurd hdecides (Nat.not_lt_zero _)
  have hvalue : nativeIn ≠ 0 := by
    rintro rfl
    have hsome := h.some_tokens
    rw [Nat.zero_mul, Nat.zero_div] at hsome
    exact absurd hsome (Nat.lt_irrefl 0)
  exact (optimalAmounts_eq_ok hs).mpr
    ⟨_, quote_eq_ok.mpr ⟨hdesired, (Nat.ne_of_gt hT), hN, h.desired_fits, rfl⟩,
      .inr ⟨h.decides, quote_eq_ok.mpr ⟨hvalue, hN, (Nat.ne_of_gt hT), h.value_fits, rfl⟩, h.floor, rfl⟩⟩

/-- **When the second quote repeats the first.**  With a token without a fee `addLiquidity` does what
    the two quotes say; and they agree exactly when, wherever the value decides, the tokens it is worth
    come out even and the value meets its own floor. -/
theorem requote_noop_iff (hs : p.lp.totalSupply ≠ 0) (hT : 0 < p.reserveToken) :
    (∀ self msg dst deadline pull refund, msg.value = nativeIn →
      Standard p msg desired dst deadline pull →
      SettlesOn self p msg desired tokenMin nativeMin dst deadline pull refund) ∧
    (p.RequoteIsNoOp desired tokenMin nativeMin nativeIn ↔
      (p.ValueDecides desired tokenMin nativeIn →
        p.reserveNative ∣ nativeIn * p.reserveToken ∧ nativeMin ≤ nativeIn)) := by
  refine ⟨fun self msg dst deadline pull refund _ hcall => addLiquidity_settlesOn hs hcall, ?_⟩
  cases hopt : p.optimalAmounts desired tokenMin nativeMin nativeIn with
  | error e =>
    refine iff_of_true (requoteIsNoOp_of_error hopt) fun hdecides => ?_
    rw [optimalAmounts_of_decides hs hT hdecides] at hopt
    nomatch hopt
  | ok x =>
    obtain ⟨a, n⟩ := x
    obtain ⟨optimal, hquote, hcase⟩ := (optimalAmounts_eq_ok hs).mp hopt
    obtain ⟨-, -, hN, hfits, hoptimal⟩ := quote_eq_ok.mp hquote
    rcases hcase with ⟨hle, hmin, rfl, rfl⟩ | ⟨hlt, hquote', hfloor, hn⟩
    · refine iff_of_true ((requoteIsNoOp_iff_of_ok hopt hquote).mpr ⟨rfl, hmin⟩) fun hdecides => ?_
      exact absurd (hoptimal ▸ hle) (not_le.mpr hdecides.decides)
    · obtain rfl : nativeIn = n := hn.symm
      obtain ⟨-, -, -, hvalue, rfl⟩ := quote_eq_ok.mp hquote'
      by_cases hzero : nativeIn * p.reserveToken / p.reserveNative = 0
      · rw [hzero] at hopt
        refine iff_of_true (requoteIsNoOp_of_nothing hopt) fun hdecides => ?_
        exact absurd hzero (Nat.ne_of_gt hdecides.some_tokens)
      · have hdecides : p.ValueDecides desired tokenMin nativeIn :=
          ⟨hfits, hvalue, hoptimal ▸ hlt, Nat.pos_of_ne_zero hzero, hfloor⟩
        have hback : quote (nativeIn * p.reserveToken / p.reserveNative) p.reserveToken p.reserveNative
            = .ok (nativeIn * p.reserveToken / p.reserveNative * p.reserveNative / p.reserveToken) :=
          quote_eq_ok.mpr ⟨hzero, (Nat.ne_of_gt hT), hN,
            lt_of_le_of_lt (Nat.div_mul_le_self _ _) hvalue, rfl⟩
        rw [requoteIsNoOp_iff_of_ok hopt hback, quote_back_iff hT]
        constructor
        · rintro ⟨hdvd, hmin⟩ -
          rw [(quote_back_iff hT).mpr hdvd] at hmin
          exact ⟨hdvd, hmin⟩
        · intro h
          obtain ⟨hdvd, hmin⟩ := h hdecides
          rw [(quote_back_iff hT).mpr hdvd]
          exact ⟨hdvd, hmin⟩

end

/-- Alice adds up to 1,000 tokens for 100 agmb, with this floor for the agmb; the token delivers the 33
    it is asked for. -/
def addForHundred (nativeMin : Nat) : Call (NativePool × Added) :=
  (unevenPool 1000).addLiquidity poolAddress ⟨alice, 100, 0⟩ 1000 0 nativeMin alice 0
    ⟨1000, .quiet, 1033⟩ .quiet

/-- 300 agmb are worth 100 tokens, which are worth 300 agmb. -/
theorem requote_noop_iff_even : (unevenPool 1000).RequoteIsNoOp 1000 0 300 300 :=
  (requote_noop_iff (by decide +kernel) (by decide +kernel)).2.mpr fun _ => by
    decide +kernel

/-- **The second quote is not the first.**  For 100 agmb the first quote takes 33 tokens and all 100 agmb;
    the token delivers the 33, and the call takes 99; with a floor of 100 it reverts. -/
theorem requote_shrinks :
    Standard (unevenPool 1000) ⟨alice, 100, 0⟩ 1000 alice 0 ⟨1000, .quiet, 1033⟩ ∧
    (unevenPool 1000).optimalAmounts 1000 0 0 100 = .ok (33, 100) ∧
    (∃ p' r, addForHundred 0 = .ok (p', r) ∧ r.amountToken = 33 ∧ r.amountNative = 99) ∧
    (unevenPool 1000).optimalAmounts 1000 0 100 100 = .ok (33, 100) ∧
    addForHundred 100 = .error (err "InsufficientNativeAmount") := by
  have hstandard : Standard (unevenPool 1000) ⟨alice, 100, 0⟩ 1000 alice 0 ⟨1000, .quiet, 1033⟩ :=
    ⟨by decide, by decide, by decide, rfl, by decide +kernel⟩
  refine ⟨hstandard, by decide +kernel, ?_, by decide +kernel, ?_⟩
  · have hview : (addForHundred 0).map (fun x => (x.2.amountToken, x.2.amountNative)) = .ok (33, 99) := by
      decide +kernel
    cases h : addForHundred 0 with
    | error e =>
      rw [h] at hview
      nomatch hview
    | ok x =>
      rw [h] at hview
      obtain ⟨htoken, hnative⟩ := ok_pair hview
      exact ⟨x.1, x.2, rfl, htoken, hnative⟩
  · have hview : (addForHundred 100).map (fun _ => ()) = .error (err "InsufficientNativeAmount") := by
      decide +kernel
    cases h : addForHundred 100 with
    | error e =>
      rw [h] at hview
      injection hview with hview
      rw [hview]
    | ok x =>
      rw [h] at hview
      nomatch hview

end Gemba.Dex
