/-
  OpenZeppelin's `ERC20`: balances, allowances and the total supply.

  Mints, burns and transfers are one function, `Erc20.update`, as in the library.  Where the library
  adds to a balance or takes from the supply unchecked, because a balance never exceeds the supply,
  the model adds and subtracts plainly.

  What the contracts built on it use: the total supply moves only by mint and burn
  (`update_totalSupply` and its instances).
-/
import Gemba.Evm.Basic

namespace Gemba.Evm

open Gemba.Lib

/-- The storage of an `ERC20`. -/
structure Erc20 where
  balances : Address → Nat
  allowances : Address → Address → Nat
  totalSupply : Nat

namespace Erc20

/-- A token nobody holds. -/
def empty : Erc20 := ⟨fun _ => 0, fun _ _ => 0, 0⟩

/-- Set one balance. -/
def setBalance (s : Erc20) (a : Address) (v : Nat) : Erc20 :=
  { s with balances := fun x => if x = a then v else s.balances x }

/-- `_update(from, to, value)`: a mint when `from` is the zero address, a burn when `to` is. -/
def update (s : Erc20) (src dst : Address) (value : Nat) : Call Erc20 := do
  let s ← (if src = 0 then do
      let supply ← add s.totalSupply value
      .ok { s with totalSupply := supply }
    else do
      failIf (s.balances src < value)
        (.custom "ERC20InsufficientBalance" [src.toNat, s.balances src, value])
      .ok (s.setBalance src (s.balances src - value)) : Call Erc20)
  if dst = 0 then .ok { s with totalSupply := s.totalSupply - value }
  else .ok (s.setBalance dst (s.balances dst + value))

/-- `_mint(account, value)`. -/
def mint (s : Erc20) (account : Address) (value : Nat) : Call Erc20 := do
  failIf (account = 0) (.custom "ERC20InvalidReceiver" [0])
  s.update 0 account value

/-- `_burn(account, value)`. -/
def burn (s : Erc20) (account : Address) (value : Nat) : Call Erc20 := do
  failIf (account = 0) (.custom "ERC20InvalidSender" [0])
  s.update account 0 value

/-- `_transfer(from, to, value)`. -/
def move (s : Erc20) (src dst : Address) (value : Nat) : Call Erc20 := do
  failIf (src = 0) (.custom "ERC20InvalidSender" [0])
  failIf (dst = 0) (.custom "ERC20InvalidReceiver" [0])
  s.update src dst value

/-- `_approve(owner, spender, value)`. -/
def approve (s : Erc20) (owner spender : Address) (value : Nat) : Call Erc20 := do
  failIf (owner = 0) (.custom "ERC20InvalidApprover" [0])
  failIf (spender = 0) (.custom "ERC20InvalidSpender" [0])
  .ok { s with allowances := fun o x => if o = owner ∧ x = spender then value else s.allowances o x }

/-- `_spendAllowance(owner, spender, value)`: an infinite allowance is not spent. -/
def spendAllowance (s : Erc20) (owner spender : Address) (value : Nat) : Call Erc20 :=
  if s.allowances owner spender < maxUint256 then do
    failIf (s.allowances owner spender < value)
      (.custom "ERC20InsufficientAllowance" [spender.toNat, s.allowances owner spender, value])
    s.approve owner spender (s.allowances owner spender - value)
  else .ok s

/-- `transferFrom(from, to, value)`, called by `spender`. -/
def transferFrom (s : Erc20) (spender src dst : Address) (value : Nat) : Call Erc20 := do
  let s ← s.spendAllowance src spender value
  s.move src dst value

/-! ## The total supply -/

/-- A mint adds to the supply, a burn takes from it, a transfer leaves it. -/
theorem update_totalSupply {s s' : Erc20} {src dst : Address} {value : Nat}
    (h : s.update src dst value = .ok s') :
    s'.totalSupply = (s.totalSupply + if src = 0 then value else 0) - if dst = 0 then value else 0 := by
  obtain ⟨s₁, h₁, h₂⟩ := bind_eq_ok.mp h
  have hfirst : s₁.totalSupply = s.totalSupply + if src = 0 then value else 0 := by
    by_cases hsrc : src = 0
    · rw [if_pos hsrc] at h₁ ⊢
      obtain ⟨supply, hadd, h₁⟩ := bind_eq_ok.mp h₁
      injection h₁ with h₁
      subst h₁
      exact (add_eq_ok.mp hadd).2
    · rw [if_neg hsrc] at h₁ ⊢
      obtain ⟨-, h₁⟩ := failIf_bind_eq_ok.mp h₁
      injection h₁ with h₁
      subst h₁
      rfl
  by_cases hdst : dst = 0
  · rw [if_pos hdst] at h₂ ⊢
    injection h₂ with h₂
    subst h₂
    show s₁.totalSupply - value = _
    rw [hfirst]
  · rw [if_neg hdst] at h₂ ⊢
    injection h₂ with h₂
    subst h₂
    show s₁.totalSupply = _
    rw [hfirst]
    rfl

theorem mint_totalSupply {s s' : Erc20} {account : Address} {value : Nat}
    (h : s.mint account value = .ok s') : s'.totalSupply = s.totalSupply + value := by
  obtain ⟨hne, h⟩ := failIf_bind_eq_ok.mp h
  have := update_totalSupply h
  rwa [if_pos rfl, if_neg hne, Nat.sub_zero] at this

theorem burn_totalSupply {s s' : Erc20} {account : Address} {value : Nat}
    (h : s.burn account value = .ok s') : s'.totalSupply = s.totalSupply - value := by
  obtain ⟨hne, h⟩ := failIf_bind_eq_ok.mp h
  have := update_totalSupply h
  rwa [if_neg hne, if_pos rfl, Nat.add_zero] at this

theorem move_totalSupply {s s' : Erc20} {src dst : Address} {value : Nat}
    (h : s.move src dst value = .ok s') : s'.totalSupply = s.totalSupply := by
  obtain ⟨⟨⟩, hsrc, h⟩ := bind_eq_ok.mp h
  obtain ⟨⟨⟩, hdst, h⟩ := bind_eq_ok.mp h
  rw [failIf_eq_ok] at hsrc hdst
  have := update_totalSupply h
  rwa [if_neg hsrc, if_neg hdst, Nat.add_zero, Nat.sub_zero] at this

theorem approve_totalSupply {s s' : Erc20} {owner spender : Address} {value : Nat}
    (h : s.approve owner spender value = .ok s') : s'.totalSupply = s.totalSupply := by
  obtain ⟨-, h⟩ := failIf_bind_eq_ok.mp h
  obtain ⟨-, h⟩ := failIf_bind_eq_ok.mp h
  injection h with h
  rw [← h]

theorem transferFrom_totalSupply {s s' : Erc20} {spender src dst : Address} {value : Nat}
    (h : s.transferFrom spender src dst value = .ok s') : s'.totalSupply = s.totalSupply := by
  obtain ⟨s₁, h₁, h₂⟩ := bind_eq_ok.mp h
  have hspend : s₁.totalSupply = s.totalSupply := by
    unfold spendAllowance at h₁
    split at h₁
    · obtain ⟨⟨⟩, -, h₁⟩ := bind_eq_ok.mp h₁
      exact approve_totalSupply h₁
    · injection h₁ with h₁
      rw [h₁]
  rw [move_totalSupply h₂, hspend]

end Erc20
end Gemba.Evm
