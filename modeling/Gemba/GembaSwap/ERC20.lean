/-
  `GembaSwapERC20`: the LP token a pair is.

  The contract is compiled with Solidity 0.5, whose arithmetic wraps; the library `SafeMath` checks
  what it is used for.  `nonces[owner]++` is not checked and wraps.  Unlike `ERC20` of OpenZeppelin the
  token lets the zero address hold a balance, and that is where the pair locks its first liquidity.

  The digest a `permit` signs is kept as what goes into it, and `ecrecover` is a parameter.

  1. `transfer_balances`, … — what a call does to the balances;
  2. `Backed`               — the balances sum to the supply, kept by every call;
  3. `Locked`               — what the zero address has stays there.
-/
import Gemba.Lib.Totals
import Gemba.Evm.Holders

namespace Gemba.GembaSwap

open Gemba.Lib Gemba.Evm

/-! ## SafeMath -/

/-- `x.add(y)`: the wrapped sum is not below `x` exactly when it did not wrap. -/
def safeAdd (x y : Nat) : Call Nat :=
  if x + y < 2 ^ 256 then .ok (x + y) else .error (err "ds-math-add-overflow")

/-- `x.sub(y)`. -/
def safeSub (x y : Nat) : Call Nat :=
  if y ≤ x then .ok (x - y) else .error (err "ds-math-sub-underflow")

/-- `x.mul(y)`. -/
def safeMul (x y : Nat) : Call Nat :=
  if x * y < 2 ^ 256 then .ok (x * y) else .error (err "ds-math-mul-overflow")

@[simp] theorem safeAdd_eq_ok {x y z : Nat} :
    safeAdd x y = .ok z ↔ x + y < 2 ^ 256 ∧ z = x + y := by
  unfold safeAdd
  split
  · rename_i h
    rw [Except.ok.injEq]
    exact ⟨fun hz => ⟨h, hz.symm⟩, fun hz => hz.2.symm⟩
  · rename_i h
    exact iff_of_false (fun hz => nomatch hz) fun hz => h hz.1

@[simp] theorem safeSub_eq_ok {x y z : Nat} : safeSub x y = .ok z ↔ y ≤ x ∧ z = x - y := by
  unfold safeSub
  split
  · rename_i h
    rw [Except.ok.injEq]
    exact ⟨fun hz => ⟨h, hz.symm⟩, fun hz => hz.2.symm⟩
  · rename_i h
    exact iff_of_false (fun hz => nomatch hz) fun hz => h hz.1

@[simp] theorem safeMul_eq_ok {x y z : Nat} :
    safeMul x y = .ok z ↔ x * y < 2 ^ 256 ∧ z = x * y := by
  unfold safeMul
  split
  · rename_i h
    rw [Except.ok.injEq]
    exact ⟨fun hz => ⟨h, hz.symm⟩, fun hz => hz.2.symm⟩
  · rename_i h
    exact iff_of_false (fun hz => nomatch hz) fun hz => h hz.1

/-! ## The token -/

/-- The storage of `GembaSwapERC20`. -/
structure ERC20 where
  totalSupply : Nat
  balanceOf : Address → Nat
  allowance : Address → Address → Nat
  nonces : Address → Nat

/-- What a `permit` signs, besides the domain. -/
structure Digest where
  owner : Address
  spender : Address
  value : Nat
  nonce : Nat
  deadline : Nat
deriving DecidableEq

/-- `(v, r, s)`. -/
structure Signature where
  v : Nat
  r : Nat
  s : Nat
deriving DecidableEq

namespace ERC20

/-- A token nobody holds. -/
def empty : ERC20 := ⟨0, fun _ => 0, fun _ _ => 0, fun _ => 0⟩

/-- Set one balance. -/
def setBalance (t : ERC20) (a : Address) (v : Nat) : ERC20 :=
  { t with balanceOf := fun x => if x = a then v else t.balanceOf x }

/-- `_mint(to, value)`. -/
def mint (t : ERC20) (dst : Address) (value : Nat) : Call ERC20 := do
  let supply ← safeAdd t.totalSupply value
  let t := { t with totalSupply := supply }
  let balance ← safeAdd (t.balanceOf dst) value
  .ok (t.setBalance dst balance)

/-- `_burn(from, value)`. -/
def burn (t : ERC20) (src : Address) (value : Nat) : Call ERC20 := do
  let balance ← safeSub (t.balanceOf src) value
  let t := t.setBalance src balance
  let supply ← safeSub t.totalSupply value
  .ok { t with totalSupply := supply }

/-- `approve(spender, value)`, which is `_approve` of the sender. -/
def approve (t : ERC20) (owner spender : Address) (value : Nat) : ERC20 :=
  { t with allowance := fun o s => if o = owner ∧ s = spender then value else t.allowance o s }

/-- `transfer(to, value)`, which is `_transfer` from the sender. -/
def transfer (t : ERC20) (src dst : Address) (value : Nat) : Call ERC20 := do
  let debited ← safeSub (t.balanceOf src) value
  let t := t.setBalance src debited
  let credited ← safeAdd (t.balanceOf dst) value
  .ok (t.setBalance dst credited)

/-- `transferFrom(from, to, value)`: an infinite allowance is not used up. -/
def transferFrom (t : ERC20) (sender src dst : Address) (value : Nat) : Call ERC20 := do
  let t ← (if t.allowance src sender ≠ maxUint256 then do
      let left ← safeSub (t.allowance src sender) value
      .ok (t.approve src sender left)
    else .ok t : Call ERC20)
  t.transfer src dst value

/-- `permit(owner, spender, value, deadline, v, r, s)`. -/
def permit (ecrecover : Digest → Signature → Address) (t : ERC20) (owner spender : Address)
    (value deadline : Nat) (sig : Signature) (now : Nat) : Call ERC20 := do
  failIf (deadline < now) (err "GembaSwap: EXPIRED")
  let digest : Digest := ⟨owner, spender, value, t.nonces owner, deadline⟩
  let t := { t with nonces := fun a => if a = owner then (t.nonces owner + 1) % 2 ^ 256 else t.nonces a }
  let recoveredAddress := ecrecover digest sig
  failIf (recoveredAddress = 0 ∨ recoveredAddress ≠ owner) (err "GembaSwap: INVALID_SIGNATURE")
  .ok (t.approve owner spender value)

/-- A call of an account to the token. -/
inductive Fn where
  | approve (spender : Address) (value : Nat)
  | transfer (dst : Address) (value : Nat)
  | transferFrom (src dst : Address) (value : Nat)
  | permit (owner spender : Address) (value deadline : Nat) (sig : Signature)
deriving DecidableEq

def call (ecrecover : Digest → Signature → Address) (t : ERC20) (sender : Address) (now : Nat) :
    Fn → Call ERC20
  | .approve spender value => .ok (t.approve sender spender value)
  | .transfer dst value => t.transfer sender dst value
  | .transferFrom src dst value => t.transferFrom sender src dst value
  | .permit owner spender value deadline sig =>
    t.permit ecrecover owner spender value deadline sig now

/-! ## What a call does to the balances -/

section
variable {t t' : ERC20} {src dst sender : Address} {value now : Nat} {fn : Fn}
  {ecrecover : Digest → Signature → Address}

theorem mint_spec (h : t.mint dst value = .ok t') :
    t'.totalSupply = t.totalSupply + value ∧ t'.totalSupply < 2 ^ 256 ∧ t'.allowance = t.allowance ∧
      ∀ x, t'.balanceOf x = t.balanceOf x + if x = dst then value else 0 := by
  obtain ⟨supply, hsupply, h⟩ := bind_eq_ok.mp h
  obtain ⟨balance, hbalance, h⟩ := bind_eq_ok.mp h
  injection h with h
  subst h
  obtain ⟨hfits, rfl⟩ := safeAdd_eq_ok.mp hsupply
  obtain ⟨-, rfl⟩ := safeAdd_eq_ok.mp hbalance
  refine ⟨rfl, hfits, rfl, fun x => ?_⟩
  by_cases hx : x = dst
  · subst hx
    simp [setBalance]
  · simp [setBalance, hx]

theorem burn_spec (h : t.burn src value = .ok t') :
    t'.totalSupply + value = t.totalSupply ∧ t'.allowance = t.allowance ∧
      ∀ x, t'.balanceOf x + (if x = src then value else 0) = t.balanceOf x := by
  obtain ⟨balance, hbalance, h⟩ := bind_eq_ok.mp h
  obtain ⟨supply, hsupply, h⟩ := bind_eq_ok.mp h
  injection h with h
  subst h
  obtain ⟨hheld, rfl⟩ := safeSub_eq_ok.mp hbalance
  obtain ⟨hle, rfl⟩ := safeSub_eq_ok.mp hsupply
  refine ⟨Nat.sub_add_cancel hle, rfl, fun x => ?_⟩
  by_cases hx : x = src
  · subst hx
    simp [setBalance, Nat.sub_add_cancel hheld]
  · simp [setBalance, hx]

theorem transfer_spec (h : t.transfer src dst value = .ok t') :
    t'.totalSupply = t.totalSupply ∧ t'.allowance = t.allowance ∧
      ∀ x, t'.balanceOf x + (if x = src then value else 0)
        = t.balanceOf x + if x = dst then value else 0 := by
  obtain ⟨debited, hdebited, h⟩ := bind_eq_ok.mp h
  obtain ⟨credited, hcredited, h⟩ := bind_eq_ok.mp h
  injection h with h
  subst h
  obtain ⟨hheld, rfl⟩ := safeSub_eq_ok.mp hdebited
  obtain ⟨-, rfl⟩ := safeAdd_eq_ok.mp hcredited
  refine ⟨rfl, rfl, fun x => ?_⟩
  by_cases hdst : x = dst
  · subst hdst
    by_cases hsrc : x = src
    · subst hsrc
      simp [setBalance, Nat.sub_add_cancel hheld]
    · simp [setBalance, hsrc]
  · by_cases hsrc : x = src
    · subst hsrc
      simp [setBalance, hdst, Nat.sub_add_cancel hheld]
    · simp [setBalance, hsrc, hdst]

/-- A `transferFrom` is within the allowance, and is a transfer. -/
theorem transferFrom_spec (h : t.transferFrom sender src dst value = .ok t') :
    (t.allowance src sender = maxUint256 ∨ value ≤ t.allowance src sender) ∧
      t'.totalSupply = t.totalSupply ∧ ∀ x, t'.balanceOf x + (if x = src then value else 0)
        = t.balanceOf x + if x = dst then value else 0 := by
  obtain ⟨t₁, hspend, h⟩ := bind_eq_ok.mp h
  obtain ⟨hsupply, -, hbalances⟩ := transfer_spec h
  rcases ite_eq_ok.mp hspend with ⟨-, hspend⟩ | ⟨hmax, hspend⟩
  · obtain ⟨left, hleft, hspend⟩ := bind_eq_ok.mp hspend
    injection hspend with hspend
    subst hspend
    exact ⟨.inr (safeSub_eq_ok.mp hleft).1, hsupply, hbalances⟩
  · injection hspend with hspend
    subst hspend
    exact ⟨.inl (not_not.mp hmax), hsupply, hbalances⟩

theorem permit_spec {owner spender : Address} {deadline : Nat} {sig : Signature}
    (h : t.permit ecrecover owner spender value deadline sig now = .ok t') :
    now ≤ deadline ∧ owner ≠ 0 ∧
      ecrecover ⟨owner, spender, value, t.nonces owner, deadline⟩ sig = owner ∧
      t'.totalSupply = t.totalSupply ∧ t'.balanceOf = t.balanceOf ∧
      ∀ o s, t'.allowance o s = if o = owner ∧ s = spender then value else t.allowance o s := by
  obtain ⟨hdeadline, h⟩ := failIf_bind_eq_ok.mp h
  obtain ⟨hrecovered, h⟩ := failIf_bind_eq_ok.mp h
  injection h with h
  subst h
  rw [not_or, not_not] at hrecovered
  obtain ⟨hzero, howner⟩ := hrecovered
  refine ⟨not_lt.mp hdeadline, ?_, howner, rfl, rfl, fun _ _ => rfl⟩
  intro h0
  exact hzero (howner.trans h0)

/-- No call of an account mints or burns. -/
theorem call_totalSupply (h : t.call ecrecover sender now fn = .ok t') :
    t'.totalSupply = t.totalSupply := by
  cases fn with
  | approve spender value =>
    injection h with h
    rw [← h]
    rfl
  | transfer dst value => exact (transfer_spec h).1
  | transferFrom src dst value => exact (transferFrom_spec h).2.1
  | permit owner spender value deadline sig => exact (permit_spec h).2.2.2.1

/-! ## The balances sum to the supply -/

/-- Every share belongs to somebody. -/
def Backed (t : ERC20) : Prop := t.totalSupply = ∑ a, t.balanceOf a

theorem backed_empty : Backed empty := Finset.sum_const_zero.symm

theorem Backed.mint (hb : Backed t) (h : t.mint dst value = .ok t') : Backed t' := by
  obtain ⟨hsupply, -, -, hbalances⟩ := mint_spec h
  rw [Backed, hsupply, sum_credit hbalances, hb]

theorem Backed.burn (hb : Backed t) (h : t.burn src value = .ok t') : Backed t' := by
  obtain ⟨hsupply, -, hbalances⟩ := burn_spec h
  have hsum := sum_debit hbalances
  rw [Backed] at hb ⊢
  omega

theorem Backed.moved (hb : Backed t) (hsupply : t'.totalSupply = t.totalSupply)
    (hbalances : ∀ x, t'.balanceOf x + (if x = src then value else 0)
      = t.balanceOf x + if x = dst then value else 0) : Backed t' := by
  rw [Backed, hsupply, sum_move hbalances, hb]

theorem Backed.call (hb : Backed t) (h : t.call ecrecover sender now fn = .ok t') : Backed t' := by
  cases fn with
  | approve spender value =>
    injection h with h
    subst h
    exact hb
  | transfer dst value =>
    obtain ⟨hsupply, -, hbalances⟩ := transfer_spec h
    exact hb.moved hsupply hbalances
  | transferFrom src dst value =>
    obtain ⟨-, hsupply, hbalances⟩ := transferFrom_spec h
    exact hb.moved hsupply hbalances
  | permit owner spender value deadline sig =>
    obtain ⟨-, -, -, hsupply, hbalances, -⟩ := permit_spec h
    rw [Backed, hsupply, hbalances, hb]

/-- What one account has is part of the supply. -/
theorem Backed.le (hb : Backed t) (a : Address) : t.balanceOf a ≤ t.totalSupply := by
  rw [hb]
  exact Finset.single_le_sum (fun x _ => Nat.zero_le (t.balanceOf x)) (Finset.mem_univ a)

/-! ## What the zero address has stays there -/

/-- The zero address has at least `n`, and nobody may spend it. -/
structure Locked (n : Nat) (t : ERC20) : Prop where
  held : n ≤ t.balanceOf 0
  unspendable : ∀ s, t.allowance 0 s = 0

variable {n : Nat}

theorem locked_empty : Locked 0 empty := ⟨Nat.zero_le _, fun _ => rfl⟩

theorem Locked.mint (hl : Locked n t) (h : t.mint dst value = .ok t') : Locked n t' := by
  obtain ⟨-, -, hallowance, hbalances⟩ := mint_spec h
  refine ⟨?_, fun s => by rw [hallowance]; exact hl.unspendable s⟩
  rw [hbalances]
  exact le_trans hl.held (Nat.le_add_right _ _)

/-- What is minted to the zero address is locked too. -/
theorem Locked.mint_zero (hl : Locked n t) (h : t.mint 0 value = .ok t') : Locked (n + value) t' := by
  obtain ⟨-, -, hallowance, hbalances⟩ := mint_spec h
  refine ⟨?_, fun s => by rw [hallowance]; exact hl.unspendable s⟩
  rw [hbalances, if_pos rfl]
  exact Nat.add_le_add_right hl.held _

theorem Locked.burn (hl : Locked n t) (h : t.burn src value = .ok t') (hsrc : src ≠ 0) :
    Locked n t' := by
  obtain ⟨-, hallowance, hbalances⟩ := burn_spec h
  refine ⟨?_, fun s => by rw [hallowance]; exact hl.unspendable s⟩
  have hzero := hbalances 0
  rw [if_neg (Ne.symm hsrc), Nat.add_zero] at hzero
  rw [hzero]
  exact hl.held

/-- Nothing is taken from the zero address by a transfer of others, or of nothing. -/
theorem Locked.held_of_moved (hl : Locked n t) (hsrc : src ≠ 0 ∨ value = 0)
    (hbalances : ∀ x, t'.balanceOf x + (if x = src then value else 0)
      = t.balanceOf x + if x = dst then value else 0) : n ≤ t'.balanceOf 0 := by
  have hheld := hl.held
  have hzero := hbalances 0
  have hnone : (if (0 : Address) = src then value else 0) = 0 := by
    rcases hsrc with hsrc | rfl
    · exact if_neg (Ne.symm hsrc)
    · exact ite_self 0
  omega

/-- **No call of another account takes anything from the zero address**, whose key nobody has and for
    which `ecrecover` vouches for nothing. -/
theorem Locked.call (hl : Locked n t) (hsender : sender ≠ 0)
    (h : t.call ecrecover sender now fn = .ok t') : Locked n t' := by
  cases fn with
  | approve spender value =>
    injection h with h
    subst h
    refine ⟨hl.held, fun s => ?_⟩
    show (if (0 : Address) = sender ∧ s = spender then value else t.allowance 0 s) = 0
    rw [if_neg (fun hc => hsender hc.1.symm)]
    exact hl.unspendable s
  | transfer dst value =>
    obtain ⟨-, hallowance, hbalances⟩ := transfer_spec h
    refine ⟨hl.held_of_moved (.inl hsender) hbalances, fun s => ?_⟩
    rw [hallowance]
    exact hl.unspendable s
  | transferFrom src dst value =>
    obtain ⟨hallowed, -, hbalances⟩ := transferFrom_spec h
    have hsrc : src ≠ 0 ∨ value = 0 := by
      by_cases hsrc : src = 0
      · rw [hsrc, hl.unspendable] at hallowed
        rcases hallowed with hmax | hle
        · exact absurd hmax (by decide)
        · exact .inr (Nat.le_zero.mp hle)
      · exact .inl hsrc
    refine ⟨hl.held_of_moved hsrc hbalances, fun s => ?_⟩
    obtain ⟨t₁, hspend, h⟩ := bind_eq_ok.mp h
    rw [(transfer_spec h).2.1]
    rcases ite_eq_ok.mp hspend with ⟨-, hspend⟩ | ⟨-, hspend⟩
    · obtain ⟨left, hleft, hspend⟩ := bind_eq_ok.mp hspend
      injection hspend with hspend
      subst hspend
      show (if (0 : Address) = src ∧ s = sender then left else t.allowance 0 s) = 0
      by_cases hc : (0 : Address) = src ∧ s = sender
      · obtain ⟨hle, rfl⟩ := safeSub_eq_ok.mp hleft
        rw [if_pos hc, ← hc.1, hl.unspendable]
        exact Nat.zero_sub _
      · rw [if_neg hc]
        exact hl.unspendable s
    · injection hspend with hspend
      subst hspend
      exact hl.unspendable s
  | permit owner spender value deadline sig =>
    obtain ⟨-, howner, -, -, hbalances, hallowance⟩ := permit_spec h
    refine ⟨?_, fun s => ?_⟩
    · rw [hbalances]
      exact hl.held
    · rw [hallowance, if_neg (fun hc => howner hc.1.symm)]
      exact hl.unspendable s

end
end ERC20
end Gemba.GembaSwap
