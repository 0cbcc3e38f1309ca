/-
  `WGMB`: wrapped native GMB.

  `withdraw` has no reentrancy lock: it debits the caller and then sends, and the caller may call
  anything before it returns.  So the contract is stepped as one that calls out, and what holds is
  said of every store on the way, the ones in the middle of a withdrawal included.

  The world keeps, beside the storage, the native balance, the GMB that came without a deposit (forced
  sends, and what the address held before), and the list of what owners approved and spenders moved.

    `Moves`        what a `transferFrom` does to the balances
    `Backed`       the balances and the GMB that came without a deposit make up the native balance
    `Permitted`    what a spender moved and may still move is within what was approved
-/
import Gemba.Lib.Reentrancy
import Gemba.Lib.Totals
import Gemba.Evm.Holders

namespace Gemba.Dex

open Gemba.Lib Gemba.Evm

/-- The storage of the contract. -/
structure WGMB where
  balanceOf : Address → Nat
  allowance : Address → Address → Nat

namespace WGMB

/-- Set one balance. -/
def setBalance (t : WGMB) (a : Address) (v : Nat) : WGMB :=
  { t with balanceOf := fun x => if x = a then v else t.balanceOf x }

/-- Set one allowance. -/
def setAllowance (t : WGMB) (owner spender : Address) (v : Nat) : WGMB :=
  { t with allowance := fun o s => if o = owner ∧ s = spender then v else t.allowance o s }

/-- `deposit()`, and `receive`, which calls it. -/
def deposit (t : WGMB) (sender : Address) (value : Nat) : Call WGMB := do
  let balance ← add (t.balanceOf sender) value
  .ok (t.setBalance sender balance)

/-- `withdraw(wad)`, up to the send. -/
def withdraw (t : WGMB) (sender : Address) (wad : Nat) : Call WGMB := do
  failIf (t.balanceOf sender < wad) (err "InsufficientBalance")
  let balance ← sub (t.balanceOf sender) wad
  .ok (t.setBalance sender balance)

/-- `approve(spender, value)`. -/
def approve (t : WGMB) (sender spender : Address) (value : Nat) : WGMB :=
  t.setAllowance sender spender value

/-- The allowance a `transferFrom` uses up: none of one's own, none of an infinite one. -/
def spend (t : WGMB) (sender src : Address) (value : Nat) : Call WGMB :=
  if src = sender then .ok t
  else if t.allowance src sender = maxUint256 then .ok t
  else do
    failIf (t.allowance src sender < value) (err "InsufficientAllowance")
    let allowed ← sub (t.allowance src sender) value
    .ok (t.setAllowance src sender allowed)

/-- `transferFrom(from, to, value)`. -/
def transferFrom (t : WGMB) (sender src dst : Address) (value : Nat) : Call WGMB := do
  failIf (t.balanceOf src < value) (err "InsufficientBalance")
  let t ← t.spend sender src value
  let debited ← sub (t.balanceOf src) value
  let t := t.setBalance src debited
  let credited ← add (t.balanceOf dst) value
  .ok (t.setBalance dst credited)

/-- `transfer(to, value)`. -/
def transfer (t : WGMB) (sender dst : Address) (value : Nat) : Call WGMB :=
  t.transferFrom sender sender dst value

/-- Nobody holds anything. -/
def empty : WGMB := ⟨fun _ => 0, fun _ _ => 0⟩

end WGMB

/-! ## The contract among the others -/

/-- What happened between an owner and a spender. -/
inductive Dealing where
  | approval (owner spender : Address) (value : Nat)
  | move (owner spender : Address) (value : Nat)
deriving DecidableEq, Repr

/-- The token, its native balance, the part of it that was never deposited, and the dealings. -/
structure Wrapped where
  token : WGMB
  balance : Nat
  forced : Nat
  dealings : List Dealing

namespace Wrapped

/-- The contract as it is deployed, at an address that may hold native GMB already. -/
def deployed (balance : Nat) : Wrapped := ⟨.empty, balance, balance, []⟩

/-- A call to the contract, or native GMB forced onto it. -/
inductive Message where
  /-- `deposit()`, or a plain send. -/
  | deposit (sender : Address) (value : Nat)
  | withdraw (sender : Address) (wad : Nat)
  | approve (sender spender : Address) (value : Nat)
  | transfer (sender dst : Address) (value : Nat)
  | transferFrom (sender src dst : Address) (value : Nat)
  | force (amount : Nat)
deriving DecidableEq

/-- A withdrawal waits for its caller to take the native GMB. -/
inductive Waiting where
  | send
deriving DecidableEq

/-- What a `transferFrom` adds to the dealings: nothing, for one's own tokens. -/
def moveOf (sender src : Address) (value : Nat) : List Dealing :=
  if src = sender then [] else [.move src sender value]

/-- A message, up to the send. -/
def enter (w : Wrapped) : Message → Call (Wrapped × Option Waiting)
  | .deposit sender value => do
    let token ← w.token.deposit sender value
    .ok ({ w with token, balance := w.balance + value }, none)
  | .withdraw sender wad => do
    let token ← w.token.withdraw sender wad
    failIf (w.balance < wad) (err "NativeSendFailed")
    .ok ({ w with token, balance := w.balance - wad }, some .send)
  | .approve sender spender value => do
    failIf (maxUint256 < value) .external -- not a `uint256`
    .ok ({ w with token := w.token.approve sender spender value,
                  dealings := w.dealings ++ [.approval sender spender value] }, none)
  | .transfer sender dst value => do
    let token ← w.token.transfer sender dst value
    .ok ({ w with token, dealings := w.dealings ++ moveOf sender sender value }, none)
  | .transferFrom sender src dst value => do
    let token ← w.token.transferFrom sender src dst value
    .ok ({ w with token, dealings := w.dealings ++ moveOf sender src value }, none)
  | .force amount =>
    .ok ({ w with balance := w.balance + amount, forced := w.forced + amount }, none)

/-- The receiver of a withdrawal returned. -/
def resume (w : Wrapped) (_ : Waiting) (ok : Bool) : Call (Wrapped × Option Waiting) := do
  failIf (!ok) (err "NativeSendFailed")
  .ok (w, none)

/-- The contract as one that calls out; nothing of it depends on the time. -/
def contract : Contract Revert Wrapped Waiting Message Bool Unit :=
  ⟨enter, resume, fun w _ => .ok w⟩

abbrev State := Machine Wrapped Waiting
abbrev Step := Event Message Bool Unit

end Wrapped

/-! ## What the functions do -/

namespace WGMB

variable {t t' : WGMB} {sender src dst : Address} {value wad : Nat}

theorem deposit_spec (h : t.deposit sender value = .ok t') :
    (∀ x, t'.balanceOf x = t.balanceOf x + if x = sender then value else 0) ∧
      t'.allowance = t.allowance := by
  obtain ⟨balance, hadd, h⟩ := bind_eq_ok.mp h
  obtain ⟨-, rfl⟩ := add_eq_ok.mp hadd
  injection h with h
  subst h
  refine ⟨fun x => ?_, rfl⟩
  show (if x = sender then t.balanceOf sender + value else t.balanceOf x) = _
  by_cases hx : x = sender
  · rw [if_pos hx, if_pos hx, hx]
  · rw [if_neg hx, if_neg hx, Nat.add_zero]

theorem withdraw_spec (h : t.withdraw sender wad = .ok t') :
    (∀ x, t'.balanceOf x + (if x = sender then wad else 0) = t.balanceOf x) ∧
      t'.allowance = t.allowance := by
  obtain ⟨-, h⟩ := failIf_bind_eq_ok.mp h
  obtain ⟨balance, hsub, h⟩ := bind_eq_ok.mp h
  obtain ⟨hle, rfl⟩ := sub_eq_ok.mp hsub
  injection h with h
  subst h
  refine ⟨fun x => ?_, rfl⟩
  show (if x = sender then t.balanceOf sender - wad else t.balanceOf x) + _ = _
  by_cases hx : x = sender
  · rw [if_pos hx, if_pos hx, hx]
    omega
  · rw [if_neg hx, if_neg hx, Nat.add_zero]

/-- **What a `transferFrom` does.**  The value moves, if only to where it was; the allowance of a
    spender who is not the owner shrinks by it, unless it is infinite. -/
structure Moves (t t' : WGMB) (sender src dst : Address) (value : Nat) : Prop where
  balances : ∀ x, t'.balanceOf x + (if x = src then value else 0)
    = t.balanceOf x + if x = dst then value else 0
  others : ∀ o s, ¬ (o = src ∧ s = sender) → t'.allowance o s = t.allowance o s
  own : src = sender → t'.allowance = t.allowance
  spent : src ≠ sender → t.allowance src sender ≠ maxUint256 →
    t'.allowance src sender + value = t.allowance src sender

theorem spend_spec (h : t.spend sender src value = .ok t') :
    t'.balanceOf = t.balanceOf ∧
    (∀ o s, ¬ (o = src ∧ s = sender) → t'.allowance o s = t.allowance o s) ∧
    (src = sender → t'.allowance = t.allowance) ∧
    (src ≠ sender → t.allowance src sender ≠ maxUint256 →
      t'.allowance src sender + value = t.allowance src sender) := by
  unfold spend at h
  by_cases hown : src = sender
  · rw [if_pos hown] at h
    injection h with h
    subst h
    exact ⟨rfl, fun _ _ _ => rfl, fun _ => rfl, fun hne => absurd hown hne⟩
  rw [if_neg hown] at h
  by_cases hmax : t.allowance src sender = maxUint256
  · rw [if_pos hmax] at h
    injection h with h
    subst h
    exact ⟨rfl, fun _ _ _ => rfl, fun _ => rfl, fun _ hne => absurd hmax hne⟩
  · rw [if_neg hmax] at h
    obtain ⟨-, h⟩ := failIf_bind_eq_ok.mp h
    obtain ⟨allowed, hsub, h⟩ := bind_eq_ok.mp h
    obtain ⟨hle, rfl⟩ := sub_eq_ok.mp hsub
    injection h with h
    subst h
    refine ⟨rfl, fun o s hos => if_neg hos, fun he => absurd he hown, fun _ _ => ?_⟩
    show (if src = src ∧ sender = sender then _ else _) + value = _
    rw [if_pos ⟨rfl, rfl⟩]
    omega

theorem transferFrom_moves (h : t.transferFrom sender src dst value = .ok t') :
    Moves t t' sender src dst value := by
  obtain ⟨-, h⟩ := failIf_bind_eq_ok.mp h
  obtain ⟨t₁, hspend, h⟩ := bind_eq_ok.mp h
  obtain ⟨debited, hdebit, h⟩ := bind_eq_ok.mp h
  obtain ⟨credited, hcredit, h⟩ := bind_eq_ok.mp h
  obtain ⟨hle, rfl⟩ := sub_eq_ok.mp hdebit
  obtain ⟨-, rfl⟩ := add_eq_ok.mp hcredit
  obtain ⟨hbalances, hothers, hown, hspent⟩ := spend_spec hspend
  injection h with h
  subst h
  refine ⟨fun x => ?_, hothers, hown, hspent⟩
  show (if x = dst then (if dst = src then t₁.balanceOf src - value else t₁.balanceOf dst) + value
    else if x = src then t₁.balanceOf src - value else t₁.balanceOf x) + _ = _
  rw [hbalances] at hle ⊢
  by_cases hxd : x = dst
  · by_cases hds : dst = src
    · rw [if_pos hxd, if_pos hxd, if_pos hds, if_pos (hxd.trans hds), hxd, hds]
      omega
    · rw [if_pos hxd, if_pos hxd, if_neg hds, if_neg (fun hc => hds (hxd.symm.trans hc)), hxd,
        Nat.add_zero]
  · rw [if_neg hxd, if_neg hxd]
    by_cases hxs : x = src
    · rw [if_pos hxs, if_pos hxs, hxs]
      omega
    · rw [if_neg hxs, if_neg hxs]

/-- **A transfer to oneself changes no balance.** -/
theorem Moves.self (h : Moves t t' sender src src value) : t'.balanceOf = t.balanceOf := by
  funext x
  have hx := h.balances x
  omega

end WGMB

/-! ## The invariants -/

namespace Wrapped

/-- What an owner approved to a spender by one dealing. -/
def approvedBy (owner spender : Address) : Dealing → Nat
  | .approval o s value => if o = owner ∧ s = spender then value else 0
  | .move _ _ _ => 0

/-- What a spender moved of an owner's tokens by one dealing. -/
def movedBy (owner spender : Address) : Dealing → Nat
  | .approval _ _ _ => 0
  | .move o s value => if o = owner ∧ s = spender then value else 0

/-- What an owner approved to a spender in total. -/
def approvedIn (ds : List Dealing) (owner spender : Address) : Nat :=
  (ds.map (approvedBy owner spender)).sum

/-- What a spender moved of an owner's tokens in total. -/
def movedIn (ds : List Dealing) (owner spender : Address) : Nat :=
  (ds.map (movedBy owner spender)).sum

/-- An owner approved the largest amount once, which stands for no limit. -/
def Unlimited (ds : List Dealing) (owner spender : Address) : Prop :=
  .approval owner spender maxUint256 ∈ ds

/-- The native balance is what the accounts hold and what was never deposited. -/
def Backed (w : Wrapped) : Prop := ∑ a, w.token.balanceOf a + w.forced = w.balance

/-- What was moved and may still be moved is within what was approved, or there is no limit. -/
def Permitted (w : Wrapped) : Prop := ∀ o s, Unlimited w.dealings o s ∨
  (movedIn w.dealings o s + w.token.allowance o s ≤ approvedIn w.dealings o s ∧
    w.token.allowance o s < maxUint256)

section
variable {w : Wrapped} {token : WGMB} {sender spender src dst owner : Address} {value : Nat}
  {ds es : List Dealing}

theorem approvedIn_append : approvedIn (ds ++ es) owner spender
    = approvedIn ds owner spender + approvedIn es owner spender := by
  unfold approvedIn
  rw [List.map_append, List.sum_append]

theorem movedIn_append : movedIn (ds ++ es) owner spender
    = movedIn ds owner spender + movedIn es owner spender := by
  unfold movedIn
  rw [List.map_append, List.sum_append]

theorem Unlimited.append (h : Unlimited ds owner spender) : Unlimited (ds ++ es) owner spender :=
  List.mem_append_left es h

/-- Dealings that are not about the two add nothing to what was approved and moved between them. -/
theorem moveOf_others {o s : Address} (h : ¬ (o = src ∧ s = sender)) :
    movedIn (moveOf sender src value) o s = 0 := by
  unfold moveOf movedIn
  by_cases hown : src = sender
  · rw [if_pos hown]
    rfl
  · rw [if_neg hown]
    show (if src = o ∧ sender = s then value else 0) + 0 = 0
    rw [if_neg fun hc => h ⟨hc.1.symm, hc.2.symm⟩]

/-- A transfer approves nothing. -/
theorem moveOf_approved {o s : Address} : approvedIn (moveOf sender src value) o s = 0 := by
  unfold moveOf
  split <;> rfl

/-- **A transfer stays within the allowance.** -/
theorem Permitted.move (h : Permitted w) (hm : w.token.Moves token sender src dst value) :
    Permitted { w with token, dealings := w.dealings ++ moveOf sender src value } := by
  intro o s
  show Unlimited (w.dealings ++ _) o s ∨ (movedIn (w.dealings ++ _) o s + token.allowance o s
    ≤ approvedIn (w.dealings ++ _) o s ∧ token.allowance o s < maxUint256)
  rcases h o s with hu | ⟨hsum, hlt⟩
  · exact .inl hu.append
  · right
    rw [movedIn_append, approvedIn_append, moveOf_approved, Nat.add_zero]
    by_cases hos : o = src ∧ s = sender
    · obtain ⟨rfl, rfl⟩ := hos
      by_cases hown : o = s
      · -- one's own tokens need no allowance
        rw [hm.own hown]
        unfold moveOf
        rw [if_pos hown]
        exact ⟨hsum, hlt⟩
      · have hspent := hm.spent hown (Nat.ne_of_lt hlt)
        have hone : movedIn (moveOf s o value) o s = value := by
          unfold moveOf movedIn
          rw [if_neg hown]
          show (if o = o ∧ s = s then value else 0) + 0 = value
          rw [if_pos ⟨rfl, rfl⟩]
          rfl
        rw [hone]
        omega
    · rw [moveOf_others hos, hm.others o s hos]
      exact ⟨hsum, hlt⟩

/-- An approval replaces the allowance, and adds to what was approved. -/
theorem Permitted.approve (h : Permitted w) (hvalue : value ≤ maxUint256) :
    Permitted { w with token := w.token.approve owner spender value,
                       dealings := w.dealings ++ [.approval owner spender value] } := by
  intro o s
  show Unlimited (w.dealings ++ _) o s ∨ (movedIn (w.dealings ++ _) o s
    + (if o = owner ∧ s = spender then value else w.token.allowance o s)
    ≤ approvedIn (w.dealings ++ _) o s
    ∧ (if o = owner ∧ s = spender then value else w.token.allowance o s) < maxUint256)
  rcases h o s with hu | ⟨hsum, hlt⟩
  · exact .inl hu.append
  · have hmoved : movedIn (w.dealings ++ [.approval owner spender value]) o s
        = movedIn w.dealings o s := by
      rw [movedIn_append]
      rfl
    have happroved : approvedIn (w.dealings ++ [.approval owner spender value]) o s
        = approvedIn w.dealings o s + if owner = o ∧ spender = s then value else 0 := by
      rw [approvedIn_append]
      rfl
    rw [hmoved, happroved]
    by_cases hos : o = owner ∧ s = spender
    · obtain ⟨rfl, rfl⟩ := hos
      rw [if_pos ⟨rfl, rfl⟩]
      rcases Nat.lt_or_eq_of_le hvalue with hv | rfl
      · right
        rw [if_pos ⟨rfl, rfl⟩]
        omega
      · exact .inl (List.mem_append_right _ List.mem_cons_self)
    · right
      rw [if_neg hos, if_neg fun hc => hos ⟨hc.1.symm, hc.2.symm⟩]
      exact ⟨hsum, hlt⟩

end

/-! ## Every message -/

/-- Both invariants. -/
structure Kept (w : Wrapped) : Prop where
  backed : Backed w
  permitted : Permitted w

/-- A transfer keeps both. -/
theorem Kept.move {w : Wrapped} {token : WGMB} {sender src dst : Address} {value : Nat}
    (h : Kept w) (hm : w.token.Moves token sender src dst value) :
    Kept { w with token, dealings := w.dealings ++ moveOf sender src value } := by
  refine ⟨?_, h.permitted.move hm⟩
  show ∑ a, token.balanceOf a + w.forced = w.balance
  rw [sum_move hm.balances]
  exact h.backed

/-- **Every message keeps both**, also in the middle of a withdrawal: its debit and its send come
    together. -/
theorem enter_kept {w w' : Wrapped} {x : Message} {k : Option Waiting} (h : Kept w)
    (henter : enter w x = .ok (w', k)) : Kept w' := by
  have hbacked := h.backed
  unfold Backed at hbacked
  cases x with
  | deposit sender value =>
    obtain ⟨token, hdeposit, henter⟩ := bind_eq_ok.mp henter
    obtain ⟨rfl, -⟩ := ok_pair henter
    obtain ⟨hbalances, hallowance⟩ := WGMB.deposit_spec hdeposit
    constructor
    · show ∑ a, token.balanceOf a + w.forced = w.balance + value
      rw [sum_credit hbalances]
      omega
    · intro o s
      show _ ∨ (_ + token.allowance o s ≤ _ ∧ token.allowance o s < _)
      rw [hallowance]
      exact h.permitted o s
  | withdraw sender wad =>
    obtain ⟨token, hwithdraw, henter⟩ := bind_eq_ok.mp henter
    obtain ⟨hfunds, henter⟩ := failIf_bind_eq_ok.mp henter
    obtain ⟨rfl, -⟩ := ok_pair henter
    obtain ⟨hbalances, hallowance⟩ := WGMB.withdraw_spec hwithdraw
    have hsum := sum_debit hbalances
    constructor
    · show ∑ a, token.balanceOf a + w.forced = w.balance - wad
      omega
    · intro o s
      show _ ∨ (_ + token.allowance o s ≤ _ ∧ token.allowance o s < _)
      rw [hallowance]
      exact h.permitted o s
  | approve sender spender value =>
    obtain ⟨hvalue, henter⟩ := failIf_bind_eq_ok.mp henter
    obtain ⟨rfl, -⟩ := ok_pair henter
    exact ⟨h.backed, h.permitted.approve (by omega)⟩
  | transfer sender dst value =>
    obtain ⟨token, htransfer, henter⟩ := bind_eq_ok.mp henter
    obtain ⟨rfl, -⟩ := ok_pair henter
    exact h.move (WGMB.transferFrom_moves htransfer)
  | transferFrom sender src dst value =>
    obtain ⟨token, htransfer, henter⟩ := bind_eq_ok.mp henter
    obtain ⟨rfl, -⟩ := ok_pair henter
    exact h.move (WGMB.transferFrom_moves htransfer)
  | force amount =>
    obtain ⟨rfl, -⟩ := ok_pair henter
    refine ⟨?_, h.permitted⟩
    show ∑ a, w.token.balanceOf a + (w.forced + amount) = w.balance + amount
    omega

theorem kept : contract.Keeps (fun _ _ => True) (fun _ => True) fun _ w => Kept w where
  enter := fun h _ henter => enter_kept h henter
  resume := by
    intro _ w k ok w' k' h hresume
    obtain ⟨-, hresume⟩ := failIf_bind_eq_ok.mp hresume
    obtain ⟨rfl, -⟩ := ok_pair hresume
    exact h
  between := by
    intro w _ w' h _ hbetween
    injection hbetween with hbetween
    subst hbetween
    exact h

/-! ## Runs -/

/-- A deposit, and a withdrawal whose receiver moves the rest before it takes the native GMB. -/
def sampleSteps : List Step :=
  [.call (.deposit 1 10), .call (.approve 1 2 4), .call (.withdraw 1 3), .call (.transfer 1 1 7),
   .call (.transferFrom 2 1 3 4), .answer true, .call (.withdraw 3 4), .answer true]

end Wrapped
end Gemba.Dex
