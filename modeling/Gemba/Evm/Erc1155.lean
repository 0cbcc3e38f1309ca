/-
  OpenZeppelin's `ERC1155`: balances of many tokens in one contract.

  Mints, burns and transfers are one loop, `Erc1155.update`.  Where the library goes on to ask a receiver
  with code whether it accepts, the functions here stop: the contract that inherits them says what is
  waited for.

  `supply` is what all accounts hold of a token; the `_supply` lemmas say how each function moves it.
-/
import Gemba.Lib.Totals
import Gemba.Evm.Holders

namespace Gemba.Evm

open Gemba.Lib

/-- The storage of an `ERC1155`. -/
structure Erc1155 where
  balances : Nat → Address → Nat
  operatorApprovals : Address → Address → Bool

namespace Erc1155

/-- Tokens nobody holds. -/
def empty : Erc1155 := ⟨fun _ _ => 0, fun _ _ => false⟩

/-- Set one balance. -/
def setBalance (t : Erc1155) (id : Nat) (a : Address) (v : Nat) : Erc1155 :=
  { t with balances := fun i x => if i = id ∧ x = a then v else t.balances i x }

/-- One round of the loop of `_update`. -/
def updateOne (t : Erc1155) (src dst : Address) (id value : Nat) : Call Erc1155 := do
  let t ← (if src ≠ 0 then do
      failIf (t.balances id src < value)
        (.custom "ERC1155InsufficientBalance" [src.toNat, t.balances id src, value, id])
      .ok (t.setBalance id src (t.balances id src - value))
    else .ok t : Call Erc1155)
  if dst ≠ 0 then do
    let balance ← add (t.balances id dst) value
    .ok (t.setBalance id dst balance)
  else .ok t

/-- The loop of `_update`. -/
def updateEach (t : Erc1155) (src dst : Address) : List (Nat × Nat) → Call Erc1155
  | [] => .ok t
  | (id, value) :: rest => do
    let t ← t.updateOne src dst id value
    t.updateEach src dst rest

/-- `_update(from, to, ids, values)`. -/
def update (t : Erc1155) (src dst : Address) (ids values : List Nat) : Call Erc1155 := do
  failIf (ids.length ≠ values.length) (.custom "ERC1155InvalidArrayLength" [ids.length, values.length])
  t.updateEach src dst (ids.zip values)

/-- `_mint(to, id, value)`, up to the acceptance check. -/
def mint (t : Erc1155) (dst : Address) (id value : Nat) : Call Erc1155 := do
  failIf (dst = 0) (.custom "ERC1155InvalidReceiver" [0])
  t.update 0 dst [id] [value]

/-- `_burn(from, id, value)`. -/
def burn (t : Erc1155) (src : Address) (id value : Nat) : Call Erc1155 := do
  failIf (src = 0) (.custom "ERC1155InvalidSender" [0])
  t.update src 0 [id] [value]

/-- `safeBatchTransferFrom(from, to, ids, values)` of `sender`, up to the acceptance check. -/
def safeBatchTransferFrom (t : Erc1155) (sender src dst : Address) (ids values : List Nat) :
    Call Erc1155 := do
  failIf (src ≠ sender ∧ t.operatorApprovals src sender = false)
    (.custom "ERC1155MissingApprovalForAll" [sender.toNat, src.toNat])
  failIf (dst = 0) (.custom "ERC1155InvalidReceiver" [0])
  failIf (src = 0) (.custom "ERC1155InvalidSender" [0])
  t.update src dst ids values

/-- `safeTransferFrom(from, to, id, value)`: a batch of one. -/
def safeTransferFrom (t : Erc1155) (sender src dst : Address) (id value : Nat) : Call Erc1155 :=
  t.safeBatchTransferFrom sender src dst [id] [value]

/-- `setApprovalForAll(operator, approved)`. -/
def setApprovalForAll (t : Erc1155) (sender operator : Address) (approved : Bool) : Call Erc1155 := do
  failIf (operator = 0) (.custom "ERC1155InvalidOperator" [0])
  .ok { t with operatorApprovals := fun a o =>
          if a = sender ∧ o = operator then approved else t.operatorApprovals a o }

/-- What all accounts hold of the token `id`.  Nothing may try to add it up. -/
@[irreducible] def supply (t : Erc1155) (id : Nat) : Nat := ∑ a, t.balances id a

/-! ## What moves the supply -/

theorem supply_eq (t : Erc1155) (id : Nat) : t.supply id = ∑ a, t.balances id a := by
  unfold supply
  rfl

theorem supply_empty (id : Nat) : empty.supply id = 0 := by
  rw [supply_eq]
  exact Finset.sum_const_zero

/-- The supply is a matter of the balances. -/
theorem supply_congr {t t' : Erc1155} (h : t'.balances = t.balances) (id : Nat) :
    t'.supply id = t.supply id := by
  rw [supply_eq, supply_eq, h]

section
variable {t t' : Erc1155} {sender src dst : Address} {id value j : Nat}

/-- One round takes `value` from one account and gives it to the other. -/
theorem updateOne_balances (h : t.updateOne src dst id value = .ok t') (x : Address) :
    t'.balances j x + (if j = id then at' src value x else 0)
      = t.balances j x + if j = id then at' dst value x else 0 := by
  obtain ⟨t₁, h₁, h₂⟩ := bind_eq_ok.mp h
  have hlose : t₁.balances j x + (if j = id then at' src value x else 0) = t.balances j x := by
    unfold at'
    by_cases hsrc : src = 0
    · rw [if_neg (not_not.mpr hsrc)] at h₁
      injection h₁ with h₁
      rw [← h₁, if_pos hsrc, ite_self, ite_self, Nat.add_zero]
    · rw [if_pos hsrc] at h₁
      obtain ⟨hfunds, h₁⟩ := failIf_bind_eq_ok.mp h₁
      injection h₁ with h₁
      rw [← h₁, if_neg hsrc]
      show (if j = id ∧ x = src then t.balances id src - value else t.balances j x) + _ = _
      by_cases hj : j = id
      · by_cases hx : x = src
        · rw [if_pos ⟨hj, hx⟩, if_pos hj, if_pos hx, hj, hx]
          exact Nat.sub_add_cancel (not_lt.mp hfunds)
        · rw [if_neg (fun h => hx h.2), if_pos hj, if_neg hx, Nat.add_zero]
      · rw [if_neg (fun h => hj h.1), if_neg hj, Nat.add_zero]
  have hgain : t'.balances j x = t₁.balances j x + if j = id then at' dst value x else 0 := by
    unfold at'
    by_cases hdst : dst = 0
    · rw [if_neg (not_not.mpr hdst)] at h₂
      injection h₂ with h₂
      rw [← h₂, if_pos hdst, ite_self, ite_self, Nat.add_zero]
    · rw [if_pos hdst] at h₂
      obtain ⟨balance, hadd, h₂⟩ := bind_eq_ok.mp h₂
      obtain ⟨-, rfl⟩ := add_eq_ok.mp hadd
      injection h₂ with h₂
      rw [← h₂, if_neg hdst]
      show (if j = id ∧ x = dst then t₁.balances id dst + value else t₁.balances j x) = _
      by_cases hj : j = id
      · by_cases hx : x = dst
        · rw [if_pos ⟨hj, hx⟩, if_pos hj, if_pos hx, hj, hx]
        · rw [if_neg (fun h => hx h.2), if_pos hj, if_neg hx, Nat.add_zero]
      · rw [if_neg (fun h => hj h.1), if_neg hj, Nat.add_zero]
  rw [hgain, ← hlose]
  omega

/-- What one round does to a supply: a mint adds to it, a burn takes from it. -/
theorem updateOne_supply (h : t.updateOne src dst id value = .ok t') :
    t'.supply j + (if j = id then if src = 0 then 0 else value else 0)
      = t.supply j + if j = id then if dst = 0 then 0 else value else 0 := by
  have hsum := sum_balance (updateOne_balances (j := j) h)
  rw [supply_eq, supply_eq]
  by_cases hj : j = id
  · simp only [if_pos hj] at hsum ⊢
    rw [sum_at, sum_at] at hsum
    exact hsum
  · simp only [if_neg hj, Finset.sum_const_zero] at hsum ⊢
    exact hsum

/-- A transfer between accounts keeps every supply. -/
theorem updateEach_supply (hsrc : src ≠ 0) (hdst : dst ≠ 0) {moves : List (Nat × Nat)}
    (h : t.updateEach src dst moves = .ok t') : t'.supply j = t.supply j := by
  induction moves generalizing t with
  | nil => rw [Except.ok.inj h]
  | cons move rest ih =>
    obtain ⟨t₁, h₁, h⟩ := bind_eq_ok.mp h
    have hone := updateOne_supply (j := j) h₁
    rw [if_neg hsrc, if_neg hdst] at hone
    exact (ih h).trans (Nat.add_right_cancel hone)

/-- A batch of one. -/
theorem update_one (h : t.update src dst [id] [value] = .ok t') :
    t.updateOne src dst id value = .ok t' := by
  obtain ⟨-, h⟩ := failIf_bind_eq_ok.mp h
  obtain ⟨t₁, h₁, h⟩ := bind_eq_ok.mp h
  injection h with h
  rw [h₁, h]

theorem mint_supply (h : t.mint dst id value = .ok t') :
    t'.supply j = t.supply j + if j = id then value else 0 := by
  obtain ⟨hdst, h⟩ := failIf_bind_eq_ok.mp h
  have hone := updateOne_supply (j := j) (update_one h)
  rw [if_pos rfl, if_neg hdst, ite_self, Nat.add_zero] at hone
  exact hone

theorem burn_supply (h : t.burn src id value = .ok t') :
    t'.supply j + (if j = id then value else 0) = t.supply j := by
  obtain ⟨hsrc, h⟩ := failIf_bind_eq_ok.mp h
  have hone := updateOne_supply (j := j) (update_one h)
  rw [if_neg hsrc, if_pos rfl, ite_self, Nat.add_zero] at hone
  exact hone

theorem safeBatchTransferFrom_supply {ids values : List Nat}
    (h : t.safeBatchTransferFrom sender src dst ids values = .ok t') : t'.supply j = t.supply j := by
  obtain ⟨-, h⟩ := failIf_bind_eq_ok.mp h
  obtain ⟨hdst, h⟩ := failIf_bind_eq_ok.mp h
  obtain ⟨hsrc, h⟩ := failIf_bind_eq_ok.mp h
  obtain ⟨-, h⟩ := failIf_bind_eq_ok.mp h
  exact updateEach_supply hsrc hdst h

theorem setApprovalForAll_supply {operator : Address} {approved : Bool}
    (h : t.setApprovalForAll sender operator approved = .ok t') : t'.supply j = t.supply j := by
  obtain ⟨-, h⟩ := failIf_bind_eq_ok.mp h
  exact supply_congr (by rw [← Except.ok.inj h]) j

end
end Erc1155
end Gemba.Evm
