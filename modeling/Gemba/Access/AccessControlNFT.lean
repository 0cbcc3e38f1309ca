/-
  `AccessControlNFT`: soulbound capability tokens, one zone a token id.

  A holder has a capability or has not: `hasAccess` is all that the backend sees of the contract, and
  `grantAccess` and `revokeAccess` set it for one holder and one zone (`grantAccess_spec`,
  `revokeAccess_spec`).  Transfers between holders revert, and roles are taken as they stand.
-/
import Gemba.Lib.Runs
import Gemba.Evm.AccessControl
import Gemba.Evm.Erc1155

namespace Gemba.Access

open Gemba.Lib Gemba.Evm

def ISSUER_ROLE : Nat := 0x114e74f6ea3bd819998f78687bfcb11b140da08e9b7d222fa9c1f1ba1f2aa122

/-- The storage of the contract. -/
structure AccessControlNFT extends Erc1155, AccessControl

namespace AccessControlNFT

/-- `constructor(admin)`. -/
def construct (admin : Address) : Call AccessControlNFT := do
  failIf (admin = 0) (err "ZeroAddress")
  .ok { toErc1155 := .empty
        toAccessControl := AccessControl.empty.setRole AccessControl.DEFAULT_ADMIN_ROLE admin true }

/-- `grantAccess(holder, zone)`. -/
def grantAccess (n : AccessControlNFT) (sender holder : Address) (zone : Nat) :
    Call AccessControlNFT := do
  n.onlyRole ISSUER_ROLE sender
  failIf (holder = 0) (err "ZeroAddress")
  failIf (n.balances zone holder ≠ 0) (err "AlreadyGranted")
  let tokens ← n.mint holder zone 1
  .ok { n with toErc1155 := tokens }

/-- `revokeAccess(holder, zone)`. -/
def revokeAccess (n : AccessControlNFT) (sender holder : Address) (zone : Nat) :
    Call AccessControlNFT := do
  n.onlyRole ISSUER_ROLE sender
  failIf (n.balances zone holder = 0) (err "NotGranted")
  let tokens ← n.burn holder zone 1
  .ok { n with toErc1155 := tokens }

/-- A call to the contract that can change it: transfers revert, and approvals matter to nothing. -/
inductive Fn where
  | grantAccess (holder : Address) (zone : Nat)
  | revokeAccess (holder : Address) (zone : Nat)
  | role (fn : RoleFn)
deriving DecidableEq

def call (n : AccessControlNFT) : Address × Fn → Call AccessControlNFT
  | (sender, .grantAccess holder zone) => n.grantAccess sender holder zone
  | (sender, .revokeAccess holder zone) => n.revokeAccess sender holder zone
  | (sender, .role fn) => do
    let roles ← n.change sender fn
    .ok { n with toAccessControl := roles }

/-- `hasAccess(holder, zone)`. -/
def hasAccess (n : AccessControlNFT) (holder : Address) (zone : Nat) : Bool :=
  n.balances zone holder ≠ 0

section
variable {n n' : AccessControlNFT} {sender holder : Address} {zone : Nat}

/-- A capability is there once or not at all. -/
def Single (n : AccessControlNFT) : Prop := ∀ z a, n.balances z a ≤ 1

/-- One of a token comes to an account, or goes. -/
theorem one_at (hholder : holder ≠ 0) (a : Address) :
    at' holder 1 a = if a = holder then 1 else 0 := by
  unfold at'
  rw [if_neg hholder]

theorem zero_at (a : Address) : at' (0 : Address) 1 a = 0 := by
  unfold at'
  rw [if_pos rfl, ite_self]

theorem grantAccess_balances (h : n.grantAccess sender holder zone = .ok n') :
    n.balances zone holder = 0 ∧
    ∀ z a, n'.balances z a = n.balances z a + if z = zone ∧ a = holder then 1 else 0 := by
  obtain ⟨-, h⟩ := failIf_bind_eq_ok.mp h
  obtain ⟨hholder, h⟩ := failIf_bind_eq_ok.mp h
  obtain ⟨hnew, h⟩ := failIf_bind_eq_ok.mp h
  obtain ⟨tokens, hmint, h⟩ := bind_eq_ok.mp h
  obtain rfl := Except.ok.inj h
  obtain ⟨-, hmint⟩ := failIf_bind_eq_ok.mp hmint
  refine ⟨not_not.mp hnew, fun z a => ?_⟩
  have hz := Erc1155.updateOne_balances (j := z) (Erc1155.update_one hmint) a
  rw [zero_at, one_at hholder, ite_self, Nat.add_zero, ← ite_and] at hz
  exact hz

theorem revokeAccess_balances (h : n.revokeAccess sender holder zone = .ok n') :
    n.balances zone holder ≠ 0 ∧
    ∀ z a, n'.balances z a + (if z = zone ∧ a = holder then 1 else 0) = n.balances z a := by
  obtain ⟨-, h⟩ := failIf_bind_eq_ok.mp h
  obtain ⟨hthere, h⟩ := failIf_bind_eq_ok.mp h
  obtain ⟨tokens, hburn, h⟩ := bind_eq_ok.mp h
  obtain rfl := Except.ok.inj h
  obtain ⟨hholder, hburn⟩ := failIf_bind_eq_ok.mp hburn
  refine ⟨hthere, fun z a => ?_⟩
  have hz := Erc1155.updateOne_balances (j := z) (Erc1155.update_one hburn) a
  rw [zero_at, one_at hholder, ite_self, Nat.add_zero, ← ite_and] at hz
  exact hz

theorem single_construct {admin : Address} (h : construct admin = .ok n) : n.Single := by
  obtain ⟨-, h⟩ := failIf_bind_eq_ok.mp h
  obtain rfl := Except.ok.inj h
  exact fun _ _ => Nat.zero_le 1

theorem Single.grant (hs : n.Single) (h : n.grantAccess sender holder zone = .ok n') :
    n'.Single := by
  obtain ⟨hnew, hbalances⟩ := grantAccess_balances h
  intro z a
  rw [hbalances]
  split
  · rename_i hza
    rw [hza.1, hza.2, hnew]
  · exact hs z a

theorem Single.revoke (hs : n.Single) (h : n.revokeAccess sender holder zone = .ok n') :
    n'.Single := by
  obtain ⟨-, hbalances⟩ := revokeAccess_balances h
  intro z a
  have hz := hbalances z a
  have hle := hs z a
  omega

/-- **Capabilities are single** in every contract that was deployed, whatever was called. -/
theorem single_run {admin : Address} {calls : List (Address × Fn)} {n₀ : AccessControlNFT}
    (hdeploy : construct admin = .ok n₀) (h : Run call (fun _ _ => True) n₀ calls n) : n.Single := by
  refine Run.inv Single (single_construct hdeploy) ?_ h
  rintro t ⟨sender, fn⟩ u hs - hcall
  cases fn with
  | grantAccess holder zone => exact hs.grant hcall
  | revokeAccess holder zone => exact hs.revoke hcall
  | role fn =>
    obtain ⟨roles, -, hcall⟩ := bind_eq_ok.mp hcall
    obtain rfl := Except.ok.inj hcall
    exact hs

/-- A grant gives the one capability, which was not there. -/
theorem grantAccess_spec (h : n.grantAccess sender holder zone = .ok n') :
    n.hasAccess holder zone = false ∧
    ∀ a z, n'.hasAccess a z = true ↔ (a = holder ∧ z = zone) ∨ n.hasAccess a z = true := by
  obtain ⟨hnew, hbalances⟩ := grantAccess_balances h
  refine ⟨decide_eq_false (not_not.mpr hnew), fun a z => ?_⟩
  unfold hasAccess
  rw [decide_eq_true_iff, decide_eq_true_iff, hbalances]
  by_cases hza : z = zone ∧ a = holder
  · rw [if_pos hza]
    exact ⟨fun _ => .inl hza.symm, fun _ => Nat.succ_ne_zero _⟩
  · rw [if_neg hza]
    exact ⟨.inr, fun h => h.resolve_left fun hab => hza hab.symm⟩

/-- A revocation takes the one capability, which was there. -/
theorem revokeAccess_spec (hs : n.Single) (h : n.revokeAccess sender holder zone = .ok n') :
    n.hasAccess holder zone = true ∧
    ∀ a z, n'.hasAccess a z = true ↔ n.hasAccess a z = true ∧ ¬ (a = holder ∧ z = zone) := by
  obtain ⟨hthere, hbalances⟩ := revokeAccess_balances h
  refine ⟨decide_eq_true hthere, fun a z => ?_⟩
  unfold hasAccess
  rw [decide_eq_true_iff, decide_eq_true_iff]
  have hz := hbalances z a
  have hle := hs z a
  by_cases hza : z = zone ∧ a = holder
  · rw [if_pos hza] at hz
    exact ⟨fun hne => absurd (by omega) hne, fun h => absurd hza.symm h.2⟩
  · rw [if_neg hza] at hz
    rw [← hz]
    exact ⟨fun hne => ⟨hne, fun hab => hza hab.symm⟩, fun h => h.1⟩

/-- An issuer can revoke what is there, and nobody else anything. -/
theorem revokeAccess_succeeds : succeeds (n.revokeAccess sender holder zone) ↔
    n.hasRole ISSUER_ROLE sender = true ∧ holder ≠ 0 ∧ n.balances zone holder ≠ 0 := by
  constructor
  · rintro ⟨n', h⟩
    obtain ⟨hrole, h⟩ := failIf_bind_eq_ok.mp h
    obtain ⟨hthere, h⟩ := failIf_bind_eq_ok.mp h
    obtain ⟨tokens, hburn, -⟩ := bind_eq_ok.mp h
    obtain ⟨hholder, -⟩ := failIf_bind_eq_ok.mp hburn
    exact ⟨by rwa [Bool.not_eq_false] at hrole, hholder, hthere⟩
  · rintro ⟨hrole, hholder, hthere⟩
    have hburn : n.burn holder zone 1
        = .ok (n.toErc1155.setBalance zone holder (n.balances zone holder - 1)) := by
      unfold Erc1155.burn Erc1155.update
      rw [failIf_neg hholder, ok_bind, failIf_neg (fun hne : [zone].length ≠ [1].length => hne rfl),
        ok_bind]
      show (do let t ← n.updateOne holder 0 zone 1; t.updateEach holder 0 []) = _
      unfold Erc1155.updateOne
      rw [if_pos hholder, failIf_neg (by omega), ok_bind, ok_bind, if_neg (not_not.mpr rfl)]
      rfl
    refine ⟨{ n with
      toErc1155 := n.toErc1155.setBalance zone holder (n.balances zone holder - 1) }, ?_⟩
    unfold revokeAccess AccessControl.onlyRole
    rw [failIf_neg (by rw [hrole]; exact Bool.noConfusion), ok_bind, failIf_neg hthere, ok_bind, hburn,
      ok_bind]

/-- After a revocation the others can be revoked as before, and this one cannot. -/
theorem revokeAccess_after (hs : n.Single) (h : n.revokeAccess sender holder zone = .ok n')
    {issuer a : Address} {z : Nat} : succeeds (n'.revokeAccess issuer a z) ↔
      succeeds (n.revokeAccess issuer a z) ∧ ¬ (a = holder ∧ z = zone) := by
  have hroles : n'.hasRole = n.hasRole := by
    obtain ⟨-, h⟩ := failIf_bind_eq_ok.mp h
    obtain ⟨-, h⟩ := failIf_bind_eq_ok.mp h
    obtain ⟨tokens, -, h⟩ := bind_eq_ok.mp h
    injection h with h
    rw [← h]
  have hhas := (revokeAccess_spec hs h).2 a z
  unfold hasAccess at hhas
  rw [decide_eq_true_iff, decide_eq_true_iff] at hhas
  rw [revokeAccess_succeeds, revokeAccess_succeeds, hroles, hhas, and_assoc, and_assoc]

end
end AccessControlNFT
end Gemba.Access
