/-
  Who holds what: the balances of a token sum to its supply.

  There are finitely many accounts, so "the sum of all balances" is a finite sum over them.  A transfer
  takes from one account and gives to another, a mint and a burn do half of that
  (`erc20_update_balances`); the zero address stands for neither side and holds nothing.
-/
import Mathlib.Data.BitVec
import Mathlib.Algebra.BigOperators.Group.Finset.Piecewise
import Mathlib.Algebra.Order.BigOperators.Group.Finset
import Gemba.Evm.Erc20

namespace Gemba.Evm

open Gemba.Lib

/-- There are finitely many accounts. -/
instance : Fintype Address := Fintype.ofEquiv (Fin (2 ^ 160)) BitVec.equivFin.symm.toEquiv

/-- `value` at the account `a`; the zero address holds nothing. -/
def at' (a : Address) (value : Nat) : Address → Nat :=
  fun x => if x = a then if a = 0 then 0 else value else 0

section
variable {e e' : Erc20} {src dst : Address} {value : Nat}

/-- The balances after an update. -/
theorem erc20_update_balances (h : e.update src dst value = .ok e') (x : Address) :
    e'.balances x + at' src value x = e.balances x + at' dst value x := by
  obtain ⟨e₁, h₁, h₂⟩ := bind_eq_ok.mp h
  have hlose : ∀ x, e₁.balances x + at' src value x = e.balances x := by
    intro x
    unfold at'
    by_cases hsrc : src = 0
    · rw [if_pos hsrc] at h₁
      obtain ⟨supply, -, h₁⟩ := bind_eq_ok.mp h₁
      injection h₁ with h₁
      rw [← h₁, if_pos hsrc, ite_self]
      rfl
    · rw [if_neg hsrc] at h₁
      obtain ⟨hfunds, h₁⟩ := failIf_bind_eq_ok.mp h₁
      rw [not_lt] at hfunds
      injection h₁ with h₁
      rw [← h₁, if_neg hsrc]
      show (if x = src then e.balances src - value else e.balances x) + _ = _
      by_cases hx : x = src
      · rw [if_pos hx, if_pos hx, hx]
        omega
      · rw [if_neg hx, if_neg hx, Nat.add_zero]
  have hgain : e'.balances x = e₁.balances x + at' dst value x := by
    unfold at'
    by_cases hdst : dst = 0
    · rw [if_pos hdst] at h₂
      injection h₂ with h₂
      rw [← h₂, if_pos hdst, ite_self]
      rfl
    · rw [if_neg hdst] at h₂
      injection h₂ with h₂
      rw [← h₂, if_neg hdst]
      show (if x = dst then e₁.balances dst + value else e₁.balances x) = _
      by_cases hx : x = dst
      · rw [if_pos hx, if_pos hx, hx]
      · rw [if_neg hx, if_neg hx, Nat.add_zero]
  have hx := hlose x
  omega

theorem erc20_update_allowances (h : e.update src dst value = .ok e') :
    e'.allowances = e.allowances := by
  obtain ⟨e₁, h₁, h₂⟩ := bind_eq_ok.mp h
  have hfirst : e₁.allowances = e.allowances := by
    by_cases hsrc : src = 0
    · rw [if_pos hsrc] at h₁
      obtain ⟨supply, -, h₁⟩ := bind_eq_ok.mp h₁
      injection h₁ with h₁
      rw [← h₁]
    · rw [if_neg hsrc] at h₁
      obtain ⟨-, h₁⟩ := failIf_bind_eq_ok.mp h₁
      injection h₁ with h₁
      rw [← h₁]
      rfl
  by_cases hdst : dst = 0
  · rw [if_pos hdst] at h₂
    injection h₂ with h₂
    rw [← h₂]
    exact hfirst
  · rw [if_neg hdst] at h₂
    injection h₂ with h₂
    rw [← h₂]
    exact hfirst

theorem sum_at (a : Address) (v : Nat) : ∑ x, at' a v x = if a = 0 then 0 else v := by
  unfold at'
  rw [Finset.sum_ite_eq' Finset.univ a, if_pos (Finset.mem_univ a)]

/-- Nothing is at the zero address. -/
theorem at_zero (a : Address) (v : Nat) : at' a v 0 = 0 := by
  unfold at'
  by_cases ha : (0 : Address) = a
  · rw [if_pos ha, if_pos ha.symm]
  · rw [if_neg ha]

namespace Erc20

/-- The balances sum to the supply, and the zero address holds nothing. -/
structure Backed (e : Erc20) : Prop where
  nobody : e.balances 0 = 0
  supply : e.totalSupply = ∑ a, e.balances a

theorem backed_empty : Backed empty := ⟨rfl, Finset.sum_const_zero.symm⟩

/-- The supply moves with the balances. -/
theorem Backed.update (h : Backed e)
    (hsupply : e'.totalSupply = (e.totalSupply + if src = 0 then value else 0)
      - if dst = 0 then value else 0)
    (hbalances : ∀ x, e'.balances x + at' src value x = e.balances x + at' dst value x) :
    Backed e' := by
  constructor
  · have hzero := hbalances 0
    rw [at_zero, at_zero, h.nobody] at hzero
    exact hzero
  · have hsum : ∑ x, e'.balances x + (if src = 0 then 0 else value)
        = ∑ x, e.balances x + if dst = 0 then 0 else value := by
      rw [← sum_at, ← sum_at, ← Finset.sum_add_distrib, ← Finset.sum_add_distrib]
      exact Finset.sum_congr rfl fun x _ => hbalances x
    rw [hsupply, h.supply]
    by_cases hsrc : src = 0
    · by_cases hd0 : dst = 0
      · rw [if_pos hsrc, if_pos hd0] at hsum ⊢
        omega
      · rw [if_pos hsrc, if_neg hd0] at hsum ⊢
        omega
    · by_cases hd0 : dst = 0
      · rw [if_neg hsrc, if_pos hd0] at hsum ⊢
        omega
      · rw [if_neg hsrc, if_neg hd0] at hsum ⊢
        omega

/-- What an account holds is part of the supply. -/
theorem Backed.le (h : Backed e) (a : Address) : e.balances a ≤ e.totalSupply := by
  rw [h.supply]
  exact Finset.single_le_sum (fun x _ => Nat.zero_le (e.balances x)) (Finset.mem_univ a)

/-- What two accounts hold is part of the supply. -/
theorem Backed.two_le (h : Backed e) {a b : Address} (hab : a ≠ b) :
    e.balances a + e.balances b ≤ e.totalSupply := by
  rw [h.supply, ← Finset.sum_pair hab]
  exact Finset.sum_le_sum_of_subset (Finset.subset_univ _)

end Erc20
end
end Gemba.Evm
