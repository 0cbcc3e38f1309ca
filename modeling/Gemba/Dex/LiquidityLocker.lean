/-
  `LiquidityLocker`: tokens locked until a time, and paid back to who locked them.

  `lock` records what really arrived, as the difference of two balances around a call to the token;
  `withdraw` marks the lock and then calls the token.  The token may call anything before it returns,
  so the locker is stepped as a contract that calls out.  Beside its storage the world keeps the time,
  what the locker holds of every token, and the payouts that were taken off it.

  Plan.

  1. The functions, and the contract they are stepped as.
  2. `Books`: the locks that are not withdrawn, and a payout the token has not taken yet, fit into
     what the locker holds; while `lock` waits, they fit into the balance it measured before.
  3. `Grows`: a lock keeps its owner, token and amount, and its unlock time only moves up.
-/
import Mathlib.Algebra.BigOperators.Group.Finset.Basic
import Mathlib.Algebra.Ring.Nat
import Gemba.Lib.Reentrancy
import Gemba.Lib.Totals
import Gemba.Evm.Basic

namespace Gemba.Dex

open Gemba.Lib Gemba.Evm

/-- A lock. -/
structure Lock where
  owner : Address
  token : Address
  amount : Nat
  unlockTime : UInt64
  withdrawn : Bool
deriving DecidableEq, Repr

/-- A lock keeps its owner, token and amount, is unlocked no earlier, and once withdrawn stays so. -/
structure Lock.Grows (k k' : Lock) : Prop where
  owner : k'.owner = k.owner
  token : k'.token = k.token
  amount : k'.amount = k.amount
  later : k.unlockTime ≤ k'.unlockTime
  withdrawn : k.withdrawn = true → k'.withdrawn = true

theorem Lock.Grows.refl (k : Lock) : k.Grows k := ⟨rfl, rfl, rfl, UInt64.le_refl _, id⟩

theorem Lock.Grows.trans {k₁ k₂ k₃ : Lock} (h : k₁.Grows k₂) (h' : k₂.Grows k₃) : k₁.Grows k₃ :=
  ⟨h'.owner.trans h.owner, h'.token.trans h.token, h'.amount.trans h.amount,
    UInt64.le_trans h.later h'.later, fun hw => h'.withdrawn (h.withdrawn hw)⟩

/-- The storage of the locker. -/
structure LiquidityLocker where
  locks : Nat → Lock
  nextLockId : Nat
  userLockIds : Address → List Nat
  /-- The reentrancy guard is entered. -/
  entered : Bool

/-- A transfer out of the locker, with the time of its withdrawal. -/
structure Payout where
  lockId : Nat
  token : Address
  receiver : Address
  amount : Nat
  time : Nat
deriving DecidableEq, Repr

namespace LiquidityLocker

/-- The storage as deployed. -/
def construct : LiquidityLocker := ⟨fun _ => ⟨0, 0, 0, 0, false⟩, 0, fun _ => [], false⟩

/-- Write one lock. -/
def setLock (l : LiquidityLocker) (id : Nat) (k : Lock) : LiquidityLocker :=
  { l with locks := fun i => if i = id then k else l.locks i }

def nonReentrant (l : LiquidityLocker) : Call PUnit :=
  failIf l.entered (err "ReentrancyGuardReentrantCall")

/-- `lock(token, amount, unlockTime)`, up to `safeTransferFrom`. -/
def lock (l : LiquidityLocker) (now : Nat) (token : Address) (amount : Nat) (unlockTime : UInt64) :
    Call LiquidityLocker := do
  l.nonReentrant
  failIf (token = 0) (err "ZeroAddress")
  failIf (amount = 0) (err "ZeroAmount")
  failIf (unlockTime.toNat ≤ now) (err "UnlockInPast")
  .ok { l with entered := true }

/-- The rest of `lock`, on the balances around the transfer. -/
def lockReceived (l : LiquidityLocker) (sender token : Address) (unlockTime : UInt64)
    (balBefore balAfter : Nat) : Call LiquidityLocker := do
  let received ← sub balAfter balBefore
  failIf (received = 0) (err "ZeroAmount")
  let lockId := l.nextLockId
  let next ← add lockId 1
  .ok { l.setLock lockId ⟨sender, token, received, unlockTime, false⟩ with
        nextLockId := next
        userLockIds := fun u => if u = sender then l.userLockIds u ++ [lockId] else l.userLockIds u
        entered := false }

/-- `withdraw(lockId)`, up to `safeTransfer`, with the payout it asks the token for. -/
def withdraw (l : LiquidityLocker) (now : Nat) (sender : Address) (lockId : Nat) :
    Call (LiquidityLocker × Payout) := do
  l.nonReentrant
  let k := l.locks lockId
  failIf (k.owner ≠ sender) (err "NotLockOwner")
  failIf k.withdrawn (err "AlreadyWithdrawn")
  failIf (now < k.unlockTime.toNat) (err "StillLocked")
  .ok ({ l.setLock lockId { k with withdrawn := true } with entered := true },
    ⟨lockId, k.token, k.owner, k.amount, now⟩)

/-- `extend(lockId, newUnlockTime)`. -/
def extend (l : LiquidityLocker) (sender : Address) (lockId : Nat) (newUnlockTime : UInt64) :
    Call LiquidityLocker := do
  let k := l.locks lockId
  failIf (k.owner ≠ sender) (err "NotLockOwner")
  failIf k.withdrawn (err "AlreadyWithdrawn")
  failIf (newUnlockTime ≤ k.unlockTime) (err "CannotShorten")
  .ok (l.setLock lockId { k with unlockTime := newUnlockTime })

/-! ## What a call that went through did -/

section
variable {l l' : LiquidityLocker} {now : Nat} {sender token : Address} {amount lockId : Nat}
  {unlockTime : UInt64}

theorem setLock_same (l : LiquidityLocker) (id : Nat) (k : Lock) : (l.setLock id k).locks id = k :=
  if_pos rfl

theorem setLock_other {id i : Nat} (h : i ≠ id) (l : LiquidityLocker) (k : Lock) :
    (l.setLock id k).locks i = l.locks i :=
  if_neg h

theorem lock_spec (h : l.lock now token amount unlockTime = .ok l') :
    l.entered = false ∧ l' = { l with entered := true } := by
  obtain ⟨hguard, h⟩ := failIf_bind_eq_ok.mp h
  obtain ⟨-, h⟩ := failIf_bind_eq_ok.mp h
  obtain ⟨-, h⟩ := failIf_bind_eq_ok.mp h
  obtain ⟨-, h⟩ := failIf_bind_eq_ok.mp h
  injection h with h
  exact ⟨Bool.eq_false_iff.mpr hguard, h.symm⟩

theorem lockReceived_spec {balBefore balAfter : Nat}
    (h : l.lockReceived sender token unlockTime balBefore balAfter = .ok l') :
    balBefore ≤ balAfter ∧
    l' = { l.setLock l.nextLockId ⟨sender, token, balAfter - balBefore, unlockTime, false⟩ with
           nextLockId := l.nextLockId + 1
           userLockIds := fun u =>
             if u = sender then l.userLockIds u ++ [l.nextLockId] else l.userLockIds u
           entered := false } := by
  obtain ⟨received, hsub, h⟩ := bind_eq_ok.mp h
  obtain ⟨-, h⟩ := failIf_bind_eq_ok.mp h
  obtain ⟨next, hadd, h⟩ := bind_eq_ok.mp h
  obtain ⟨hle, rfl⟩ := sub_eq_ok.mp hsub
  obtain ⟨-, rfl⟩ := add_eq_ok.mp hadd
  injection h with h
  exact ⟨hle, h.symm⟩

theorem withdraw_spec {p : Payout} (h : l.withdraw now sender lockId = .ok (l', p)) :
    l.entered = false ∧ (l.locks lockId).owner = sender ∧ (l.locks lockId).withdrawn = false ∧
    (l.locks lockId).unlockTime.toNat ≤ now ∧
    l' = { l.setLock lockId { l.locks lockId with withdrawn := true } with entered := true } ∧
    p = ⟨lockId, (l.locks lockId).token, (l.locks lockId).owner, (l.locks lockId).amount, now⟩ := by
  obtain ⟨hguard, h⟩ := failIf_bind_eq_ok.mp h
  obtain ⟨howner, h⟩ := failIf_bind_eq_ok.mp h
  obtain ⟨hwithdrawn, h⟩ := failIf_bind_eq_ok.mp h
  obtain ⟨hlocked, h⟩ := failIf_bind_eq_ok.mp h
  obtain ⟨hl, hp⟩ := ok_pair h
  exact ⟨Bool.eq_false_iff.mpr hguard, not_not.mp howner, Bool.eq_false_iff.mpr hwithdrawn,
    not_lt.mp hlocked, hl.symm, hp.symm⟩

theorem extend_spec (h : l.extend sender lockId unlockTime = .ok l') :
    (l.locks lockId).withdrawn = false ∧ (l.locks lockId).unlockTime < unlockTime ∧
    l' = l.setLock lockId { l.locks lockId with unlockTime := unlockTime } := by
  obtain ⟨-, h⟩ := failIf_bind_eq_ok.mp h
  obtain ⟨hwithdrawn, h⟩ := failIf_bind_eq_ok.mp h
  obtain ⟨hlater, h⟩ := failIf_bind_eq_ok.mp h
  injection h with h
  exact ⟨Bool.eq_false_iff.mpr hwithdrawn, UInt64.not_le.mp hlater, h.symm⟩

end

/-! ## What is locked -/

/-- What the lock `id` keeps of `token`. -/
def owes (l : LiquidityLocker) (token : Address) (id : Nat) : Nat :=
  if (l.locks id).token = token ∧ (l.locks id).withdrawn = false then (l.locks id).amount else 0

/-- The amounts of the locks of `token` that are not withdrawn. -/
def locked (l : LiquidityLocker) (token : Address) : Nat :=
  ∑ id ∈ Finset.range l.nextLockId, l.owes token id

section
variable {l l' : LiquidityLocker} {token : Address} {id : Nat}

/-- A lock that only changes its unlock time keeps what it kept. -/
theorem locked_extend (t : UInt64) :
    (l.setLock id { l.locks id with unlockTime := t }).locked token = l.locked token := by
  refine Finset.sum_congr rfl fun i _ => ?_
  unfold owes
  by_cases hi : i = id
  · rw [hi, setLock_same]
  · rw [setLock_other hi]

/-- A lock that is withdrawn keeps nothing any more. -/
theorem locked_withdraw (hid : id < l.nextLockId) (hw : (l.locks id).withdrawn = false)
    (hl : l'.locks = (l.setLock id { l.locks id with withdrawn := true }).locks)
    (hnext : l'.nextLockId = l.nextLockId) :
    l'.locked token + (if (l.locks id).token = token then (l.locks id).amount else 0)
      = l.locked token := by
  unfold locked
  rw [hnext]
  refine sum_debit_mem (Finset.mem_range.mpr hid) fun i _ => ?_
  unfold owes
  rw [hl]
  by_cases hi : i = id
  · rw [hi, setLock_same, if_pos rfl, if_neg (fun h => Bool.noConfusion h.2), Nat.zero_add]
    exact if_congr (and_iff_left hw).symm rfl rfl
  · rw [setLock_other hi, if_neg hi, Nat.add_zero]

/-- A new lock keeps its amount, beside the others. -/
theorem locked_add {k : Lock} (hk : k.withdrawn = false)
    (hl : l'.locks = (l.setLock l.nextLockId k).locks) (hnext : l'.nextLockId = l.nextLockId + 1) :
    l'.locked token = l.locked token + if k.token = token then k.amount else 0 := by
  unfold locked
  rw [hnext, Finset.sum_range_succ]
  have hold : ∑ i ∈ Finset.range l.nextLockId, l'.owes token i
      = ∑ i ∈ Finset.range l.nextLockId, l.owes token i := by
    refine Finset.sum_congr rfl fun i hi => ?_
    unfold owes
    rw [hl, setLock_other (Nat.ne_of_lt (Finset.mem_range.mp hi))]
  have hnew : l'.owes token l.nextLockId = if k.token = token then k.amount else 0 := by
    unfold owes
    rw [hl, setLock_same]
    exact if_congr (and_iff_left hk) rfl rfl
  rw [hold, hnew]

end

/-! ## What only grows -/

/-- No lock goes away, and each of them grows. -/
structure Grows (l l' : LiquidityLocker) : Prop where
  ids : l.nextLockId ≤ l'.nextLockId
  locks : ∀ id < l.nextLockId, (l.locks id).Grows (l'.locks id)

theorem Grows.refl (l : LiquidityLocker) : Grows l l :=
  ⟨Nat.le_refl _, fun id _ => .refl (l.locks id)⟩

theorem Grows.trans {l₁ l₂ l₃ : LiquidityLocker} (h : Grows l₁ l₂) (h' : Grows l₂ l₃) :
    Grows l₁ l₃ where
  ids := h.ids.trans h'.ids
  locks id hid := (h.locks id hid).trans (h'.locks id (hid.trans_le h.ids))

/-- One lock is written, and grows. -/
theorem Grows.setLock {l : LiquidityLocker} {id : Nat} {k : Lock} (h : (l.locks id).Grows k) :
    Grows l (l.setLock id k) := by
  refine ⟨Nat.le_refl _, fun i _ => ?_⟩
  by_cases hi : i = id
  · rw [hi, setLock_same]
    exact h
  · rw [setLock_other hi]
    exact .refl _

end LiquidityLocker

namespace Locker

open LiquidityLocker (setLock_same setLock_other lock_spec lockReceived_spec withdraw_spec extend_spec
  locked_extend locked_withdraw locked_add)

/-! ## The locker as a contract -/

/-- The locker, the time, what it holds of each token, and the payouts that left it. -/
structure World where
  locker : LiquidityLocker
  now : Nat
  held : Address → Nat
  paid : List Payout

/-- A call to the locker, or a transfer of a token to it by whatever call. -/
inductive Message where
  | lock (sender token : Address) (amount : Nat) (unlockTime : UInt64)
  | withdraw (sender : Address) (lockId : Nat)
  | extend (sender : Address) (lockId : Nat) (newUnlockTime : UInt64)
  | arrive (token : Address) (amount : Nat)
deriving DecidableEq

/-- What a call is waiting for. -/
inductive Waiting where
  /-- `safeTransferFrom`, of `lock`. -/
  | receiving (sender token : Address) (unlockTime : UInt64) (balBefore : Nat)
  /-- `safeTransfer`, of `withdraw`. -/
  | sending (p : Payout)
  /-- The same, after the token took the amount off the locker. -/
  | sent (p : Payout)
deriving DecidableEq

/-- What the token does for the call that waits. -/
inductive Answer where
  /-- It takes the amount it was asked to transfer off the locker. -/
  | debit
  /-- It returns. -/
  | returned (ok : Bool)
deriving DecidableEq

/-- A message, up to the call to the token.  Nobody calls from the zero address. -/
def enter (w : World) : Message → Call (World × Option Waiting)
  | .lock sender token amount unlockTime => do
    failIf (sender = 0) .external
    let locker ← w.locker.lock w.now token amount unlockTime
    .ok ({ w with locker }, some (.receiving sender token unlockTime (w.held token)))
  | .withdraw sender lockId => do
    failIf (sender = 0) .external
    let (locker, p) ← w.locker.withdraw w.now sender lockId
    .ok ({ w with locker }, some (.sending p))
  | .extend sender lockId newUnlockTime => do
    failIf (sender = 0) .external
    let locker ← w.locker.extend sender lockId newUnlockTime
    .ok ({ w with locker }, none)
  | .arrive token amount => do
    let balance ← add (w.held token) amount
    .ok ({ w with held := fun t => if t = token then balance else w.held t }, none)

/-- The token goes on.  It debits a transfer out before it returns, once and by the amount stated. -/
def resume (w : World) : Waiting → Answer → Call (World × Option Waiting)
  | .receiving sender token unlockTime balBefore, .returned ok => do
    failIf (!ok) (.custom "SafeERC20FailedOperation" [token.toNat])
    let locker ← w.locker.lockReceived sender token unlockTime balBefore (w.held token)
    .ok ({ w with locker }, none)
  | .sending p, .debit => do
    failIf (w.held p.token < p.amount) .external
    .ok ({ w with held := fun t => if t = p.token then w.held t - p.amount else w.held t
                  paid := w.paid ++ [p] }, some (.sent p))
  | .sent p, .returned ok => do
    failIf (!ok) (.custom "SafeERC20FailedOperation" [p.token.toNat])
    .ok ({ w with locker := { w.locker with entered := false } }, none)
  | _, _ => .error .external

/-- The locker as a contract that calls out; between transactions time passes. -/
def contract : Contract Revert World Waiting Message Answer Nat :=
  ⟨enter, resume, fun w seconds => .ok { w with now := w.now + seconds }⟩

abbrev State := Machine World Waiting
abbrev Step := Event Message Answer Nat

/-- The locker as deployed, at a time and with the tokens its address already had. -/
def deployed (now : Nat) (held : Address → Nat) : World := ⟨.construct, now, held, []⟩

/-! ## The invariant -/

/-- The payout that a call which waits is still to get. -/
def Waiting.payout : Waiting → Option Payout
  | .sending p => some p
  | _ => none

/-- The payouts the tokens have not taken yet. -/
def sending (ks : List Waiting) : List Payout := ks.filterMap Waiting.payout

/-- What of `token` is about to leave. -/
def leaving (ks : List Waiting) (token : Address) : Nat :=
  ((sending ks).map fun p => if p.token = token then p.amount else 0).sum

/-- A payout is what its lock says, to its owner, and not before its time. -/
structure Pays (l : LiquidityLocker) (p : Payout) : Prop where
  known : p.lockId < l.nextLockId
  withdrawn : (l.locks p.lockId).withdrawn = true
  token : p.token = (l.locks p.lockId).token
  receiver : p.receiver = (l.locks p.lockId).owner
  amount : p.amount = (l.locks p.lockId).amount
  time : (l.locks p.lockId).unlockTime.toNat ≤ p.time

theorem Pays.same {l l' : LiquidityLocker} {p : Payout} (h : Pays l p)
    (hnext : l.nextLockId ≤ l'.nextLockId) (hl : l'.locks p.lockId = l.locks p.lockId) : Pays l' p := by
  constructor
  · exact h.known.trans_le hnext
  · rw [hl]
    exact h.withdrawn
  · rw [hl]
    exact h.token
  · rw [hl]
    exact h.receiver
  · rw [hl]
    exact h.amount
  · rw [hl]
    exact h.time

/-- **The books** of the locker.  The guard lets one call wait at a time; while it is `lock`, what was
    locked before fits into the balance it measured. -/
structure Books (ks : List Waiting) (w : World) : Prop where
  guard : ks.length = if w.locker.entered then 1 else 0
  unknown : ∀ id, w.locker.nextLockId ≤ id → (w.locker.locks id).owner = 0
  listed : ∀ u, (w.locker.userLockIds u).Nodup ∧
    ∀ id, id ∈ w.locker.userLockIds u ↔ id < w.locker.nextLockId ∧ (w.locker.locks id).owner = u
  owed : ∀ token, w.locker.locked token + leaving ks token ≤ w.held token
  measured : ∀ sender token unlockTime balBefore, .receiving sender token unlockTime balBefore ∈ ks →
    w.locker.locked token ≤ balBefore
  once : ((w.paid ++ sending ks).map Payout.lockId).Nodup
  paid : ∀ p ∈ w.paid ++ sending ks, Pays w.locker p
  onTime : ∀ p ∈ sending ks, p.time = w.now

section
variable {ks : List Waiting} {w w' : World}

/-- The guard is free: no call waits. -/
theorem Books.free (h : Books ks w) (he : w.locker.entered = false) : ks = [] := by
  have hlen := h.guard
  rw [he] at hlen
  exact List.eq_nil_of_length_eq_zero hlen

/-- A call waits: it is the only one. -/
theorem Books.alone {k : Waiting} (h : Books (k :: ks) w) : ks = [] := by
  have hlen := h.guard
  rw [List.length_cons] at hlen
  refine List.eq_nil_of_length_eq_zero ?_
  split at hlen <;> omega

theorem books_deployed (now : Nat) (held : Address → Nat) : Books [] (deployed now held) where
  guard := rfl
  unknown _ _ := rfl
  listed _ := ⟨List.nodup_nil, fun _ =>
    ⟨fun h => absurd h List.not_mem_nil, fun h => absurd h.1 (Nat.not_lt_zero _)⟩⟩
  owed _ := Nat.zero_le _
  measured _ _ _ _ h := absurd h List.not_mem_nil
  once := List.nodup_nil
  paid _ h := absurd h List.not_mem_nil
  onTime _ h := absurd h List.not_mem_nil

/-- `lock` measures the balance and waits. -/
theorem Books.lock {sender token : Address} {unlockTime : UInt64} (h : Books [] w) :
    Books [.receiving sender token unlockTime (w.held token)]
      { w with locker := { w.locker with entered := true } } where
  guard := rfl
  unknown := h.unknown
  listed := h.listed
  owed := h.owed
  measured s t u b hmem := by
    obtain ⟨rfl, rfl, rfl, rfl⟩ := Waiting.receiving.inj (List.mem_singleton.mp hmem)
    exact h.owed t
  once := h.once
  paid p hp := (h.paid p hp).same (Nat.le_refl _) rfl
  onTime _ hp := absurd hp List.not_mem_nil

/-- **The transfer in returned.**  What arrived is over the balance that was measured, and what was
    locked before is under it. -/
theorem Books.received {sender token : Address} {unlockTime : UInt64} {balBefore : Nat}
    {l' : LiquidityLocker} (h : Books [.receiving sender token unlockTime balBefore] w)
    (hrec : w.locker.lockReceived sender token unlockTime balBefore (w.held token) = .ok l') :
    Books [] { w with locker := l' } := by
  have hmeasured := h.measured _ _ _ _ List.mem_cons_self
  obtain ⟨hle, hl'⟩ := lockReceived_spec hrec
  have hnext : l'.nextLockId = w.locker.nextLockId + 1 := by rw [hl']
  have hlocks : l'.locks = (w.locker.setLock w.locker.nextLockId
      ⟨sender, token, w.held token - balBefore, unlockTime, false⟩).locks := by rw [hl']
  have hold : ∀ id, id ≠ w.locker.nextLockId → l'.locks id = w.locker.locks id := by
    intro id hid
    rw [hlocks, setLock_other hid]
  refine ⟨by rw [hl']; rfl, ?_, ?_, ?_, ?_, h.once, ?_, ?_⟩
  · intro id hid
    rw [hnext] at hid
    rw [hold id (Nat.ne_of_gt hid)]
    exact h.unknown id (Nat.le_of_succ_le hid)
  · intro u
    obtain ⟨hnodup, hmem⟩ := h.listed u
    have hfresh : w.locker.nextLockId ∉ w.locker.userLockIds u :=
      fun hin => Nat.lt_irrefl _ ((hmem _).mp hin).1
    have hids : l'.userLockIds u = if u = sender then w.locker.userLockIds u ++ [w.locker.nextLockId]
        else w.locker.userLockIds u := by rw [hl']
    show (l'.userLockIds u).Nodup ∧ ∀ id, id ∈ l'.userLockIds u ↔ _
    rw [hids]
    constructor
    · split
      · rw [← List.concat_eq_append]
        exact hnodup.concat hfresh
      · exact hnodup
    · intro id
      show _ ↔ id < l'.nextLockId ∧ (l'.locks id).owner = u
      rw [hnext]
      by_cases hid : id = w.locker.nextLockId
      · rw [hid, hlocks, setLock_same]
        by_cases hu : u = sender
        · rw [if_pos hu]
          exact ⟨fun _ => ⟨Nat.lt_succ_self _, hu.symm⟩,
            fun _ => List.mem_append_right _ (List.mem_singleton_self _)⟩
        · rw [if_neg hu]
          exact ⟨fun hin => absurd hin hfresh, fun heq => absurd heq.2.symm hu⟩
      · have hlt : id < w.locker.nextLockId + 1 ↔ id < w.locker.nextLockId := by omega
        rw [hold id hid, hlt, ← hmem id]
        split
        · rw [List.mem_append, List.mem_singleton]
          exact or_iff_left hid
        · exact Iff.rfl
  · intro t
    have howed := h.owed t
    show l'.locked t + 0 ≤ w.held t
    rw [locked_add rfl hlocks hnext]
    by_cases ht : token = t
    · subst ht
      rw [if_pos rfl]
      show w.locker.locked token + (w.held token - balBefore) + 0 ≤ w.held token
      omega
    · rw [if_neg ht]
      exact howed
  · exact fun _ _ _ _ hmem => absurd hmem List.not_mem_nil
  · intro p hp
    have hpays := h.paid p hp
    exact hpays.same (by rw [hnext]; exact Nat.le_succ _) (hold _ (Nat.ne_of_lt hpays.known))
  · exact fun _ hp => absurd hp List.not_mem_nil

/-- **A withdrawal starts**: the lock is marked, and what it kept is about to leave. -/
theorem Books.withdraw {sender : Address} {lockId : Nat} {l' : LiquidityLocker} {p : Payout}
    (h : Books [] w) (hsender : sender ≠ 0)
    (hw : w.locker.withdraw w.now sender lockId = .ok (l', p)) :
    Books [.sending p] { w with locker := l' } := by
  obtain ⟨-, howner, hopen, htime, hl', hp⟩ := withdraw_spec hw
  have hid : lockId < w.locker.nextLockId := by
    by_contra hge
    exact hsender (howner.symm.trans (h.unknown lockId (not_lt.mp hge)))
  have hlocks : l'.locks =
      (w.locker.setLock lockId { w.locker.locks lockId with withdrawn := true }).locks := by rw [hl']
  have hnext : l'.nextLockId = w.locker.nextLockId := by rw [hl']; rfl
  have hown : ∀ id, (l'.locks id).owner = (w.locker.locks id).owner := by
    intro id
    rw [hlocks]
    by_cases hi : id = lockId
    · rw [hi, setLock_same]
    · rw [setLock_other hi]
  -- the lock was open, so nothing was paid for it before
  have hne : ∀ q ∈ w.paid ++ sending [], q.lockId ≠ lockId := by
    intro q hq heq
    have hdone := (h.paid q hq).withdrawn
    rw [heq, hopen] at hdone
    nomatch hdone
  have hpaid : w.paid ++ sending [.sending p] = (w.paid ++ sending []) ++ [p] := by
    rw [List.append_assoc]
    rfl
  refine ⟨by rw [hl']; rfl, ?_, ?_, ?_, ?_, ?_, ?_, ?_⟩
  · intro id hge
    rw [hown]
    exact h.unknown id (hnext ▸ hge)
  · intro u
    have hids : l'.userLockIds u = w.locker.userLockIds u := by rw [hl']; rfl
    show (l'.userLockIds u).Nodup ∧ ∀ id, id ∈ l'.userLockIds u ↔
      id < l'.nextLockId ∧ (l'.locks id).owner = u
    rw [hids, hnext]
    refine ⟨(h.listed u).1, fun id => ?_⟩
    rw [hown]
    exact (h.listed u).2 id
  · intro t
    have hsum : l'.locked t + (if (w.locker.locks lockId).token = t
        then (w.locker.locks lockId).amount else 0) = w.locker.locked t :=
      locked_withdraw hid hopen hlocks hnext
    have howed := h.owed t
    show l'.locked t + ((if p.token = t then p.amount else 0) + 0) ≤ w.held t
    rw [hp, Nat.add_zero, hsum]
    exact howed
  · intro _ _ _ _ hmem
    nomatch List.mem_singleton.mp hmem
  · show ((w.paid ++ sending [.sending p]).map Payout.lockId).Nodup
    rw [hpaid, List.map_append, List.map_singleton, ← List.concat_eq_append]
    refine h.once.concat fun hmem => ?_
    obtain ⟨q, hq, heq⟩ := List.mem_map.mp hmem
    exact hne q hq (heq.trans (by rw [hp]))
  · show ∀ q ∈ w.paid ++ sending [.sending p], Pays l' q
    rw [hpaid]
    intro q hq
    rcases List.mem_append.mp hq with hq | hq
    · refine (h.paid q hq).same (Nat.le_of_eq hnext.symm) ?_
      rw [hlocks, setLock_other (hne q hq)]
    · obtain rfl := List.mem_singleton.mp hq
      rw [hp]
      constructor
      · rw [hnext]
        exact hid
      all_goals rw [hlocks, setLock_same]
      exact htime
  · intro q hq
    obtain rfl := List.mem_singleton.mp hq
    rw [hp]

/-- An extension touches an open lock, and only its time. -/
theorem Books.extend {sender : Address} {lockId : Nat} {unlockTime : UInt64} {l' : LiquidityLocker}
    (h : Books ks w) (he : w.locker.extend sender lockId unlockTime = .ok l') :
    Books ks { w with locker := l' } := by
  obtain ⟨hopen, -, rfl⟩ := extend_spec he
  have hown : ∀ id, ((w.locker.setLock lockId
      { w.locker.locks lockId with unlockTime := unlockTime }).locks id).owner
        = (w.locker.locks id).owner := by
    intro id
    by_cases hi : id = lockId
    · rw [hi, setLock_same]
    · rw [setLock_other hi]
  refine ⟨h.guard, ?_, ?_, ?_, ?_, h.once, ?_, h.onTime⟩
  · intro id hge
    rw [hown]
    exact h.unknown id hge
  · intro u
    refine ⟨(h.listed u).1, fun id => ?_⟩
    rw [hown]
    exact (h.listed u).2 id
  · intro t
    rw [locked_extend]
    exact h.owed t
  · intro s t u b hmem
    rw [locked_extend]
    exact h.measured s t u b hmem
  · intro p hp
    have hpays := h.paid p hp
    refine hpays.same (Nat.le_refl _) (setLock_other (fun heq => ?_) _ _)
    have hdone := hpays.withdrawn
    rw [heq, hopen] at hdone
    nomatch hdone

/-- The balances change, to what still covers the locks and what is about to leave. -/
theorem Books.balances {held : Address → Nat} (h : Books ks w)
    (howed : ∀ token, w.locker.locked token + leaving ks token ≤ held token) :
    Books ks { w with held } :=
  ⟨h.guard, h.unknown, h.listed, howed, h.measured, h.once, h.paid, h.onTime⟩

/-- **The token takes a payout off**: it changes sides, and the balance loses as much. -/
theorem Books.debit {p : Payout} (h : Books (.sending p :: ks) w) :
    Books (.sent p :: ks)
      { w with held := fun t => if t = p.token then w.held t - p.amount else w.held t
               paid := w.paid ++ [p] } := by
  have hsame : w.paid ++ [p] ++ sending (.sent p :: ks) = w.paid ++ sending (.sending p :: ks) := by
    rw [List.append_assoc]
    rfl
  refine ⟨h.guard, h.unknown, h.listed, ?_, ?_, ?_, ?_, ?_⟩
  · intro t
    have howed : w.locker.locked t + ((if p.token = t then p.amount else 0) + leaving ks t) ≤ w.held t :=
      h.owed t
    show w.locker.locked t + leaving ks t ≤ if t = p.token then w.held t - p.amount else w.held t
    by_cases ht : t = p.token
    · rw [if_pos ht.symm] at howed
      rw [if_pos ht]
      omega
    · rw [if_neg (Ne.symm ht)] at howed
      rw [if_neg ht]
      omega
  · intro s t u b hmem
    rcases List.mem_cons.mp hmem with heq | hmem
    · nomatch heq
    · exact h.measured s t u b (List.mem_cons_of_mem _ hmem)
  · show ((w.paid ++ [p] ++ sending (.sent p :: ks)).map Payout.lockId).Nodup
    rw [hsame]
    exact h.once
  · show ∀ q ∈ w.paid ++ [p] ++ sending (.sent p :: ks), Pays w.locker q
    rw [hsame]
    exact h.paid
  · exact fun q hq => h.onTime q (List.mem_cons_of_mem _ hq)

/-- The transfer out returned. -/
theorem Books.returned {p : Payout} (h : Books [.sent p] w) :
    Books [] { w with locker := { w.locker with entered := false } } where
  guard := rfl
  unknown := h.unknown
  listed := h.listed
  owed := h.owed
  measured _ _ _ _ hmem := absurd hmem List.not_mem_nil
  once := h.once
  paid q hq := (h.paid q hq).same (Nat.le_refl _) rfl
  onTime _ hq := absurd hq List.not_mem_nil

/-- Time passes while no call waits. -/
theorem Books.later (h : Books [] w) (now : Nat) : Books [] { w with now } :=
  ⟨h.guard, h.unknown, h.listed, h.owed, h.measured, h.once, h.paid,
    fun _ hp => absurd hp List.not_mem_nil⟩

end

/-! ## Every message and every answer -/

/-- What a message that went in did. -/
inductive Entered (w : World) : World → Option Waiting → Prop where
  | lock {sender token : Address} {unlockTime : UInt64} (hfree : w.locker.entered = false) :
      Entered w { w with locker := { w.locker with entered := true } }
        (some (.receiving sender token unlockTime (w.held token)))
  | withdraw {sender : Address} {lockId : Nat} {l' : LiquidityLocker} {p : Payout}
      (hsender : sender ≠ 0) (h : w.locker.withdraw w.now sender lockId = .ok (l', p)) :
      Entered w { w with locker := l' } (some (.sending p))
  | extend {sender : Address} {lockId : Nat} {unlockTime : UInt64} {l' : LiquidityLocker}
      (h : w.locker.extend sender lockId unlockTime = .ok l') : Entered w { w with locker := l' } none
  | arrive {held : Address → Nat} (h : ∀ t, w.held t ≤ held t) : Entered w { w with held } none

theorem enter_entered {w w' : World} {x : Message} {k : Option Waiting}
    (h : enter w x = .ok (w', k)) : Entered w w' k := by
  cases x with
  | lock sender token amount unlockTime =>
    obtain ⟨-, h⟩ := failIf_bind_eq_ok.mp h
    obtain ⟨l', hlock, h⟩ := bind_eq_ok.mp h
    obtain ⟨hfree, rfl⟩ := lock_spec hlock
    obtain ⟨rfl, rfl⟩ := ok_pair h
    exact .lock hfree
  | withdraw sender lockId =>
    obtain ⟨hsender, h⟩ := failIf_bind_eq_ok.mp h
    obtain ⟨⟨l', p⟩, hw, h⟩ := bind_eq_ok.mp h
    obtain ⟨rfl, rfl⟩ := ok_pair h
    exact .withdraw hsender hw
  | extend sender lockId newUnlockTime =>
    obtain ⟨-, h⟩ := failIf_bind_eq_ok.mp h
    obtain ⟨l', he, h⟩ := bind_eq_ok.mp h
    obtain ⟨rfl, rfl⟩ := ok_pair h
    exact .extend he
  | arrive token amount =>
    obtain ⟨balance, hadd, h⟩ := bind_eq_ok.mp h
    obtain ⟨-, rfl⟩ := add_eq_ok.mp hadd
    obtain ⟨rfl, rfl⟩ := ok_pair h
    refine .arrive fun t => ?_
    by_cases ht : t = token
    · rw [if_pos ht, ht]
      exact Nat.le_add_right _ _
    · rw [if_neg ht]

/-- What an answer did to the call that waited. -/
inductive Resumed (w : World) : Waiting → Answer → World → Option Waiting → Prop where
  | received {sender token : Address} {unlockTime : UInt64} {balBefore : Nat} {l' : LiquidityLocker}
      {ok : Bool}
      (h : w.locker.lockReceived sender token unlockTime balBefore (w.held token) = .ok l') :
      Resumed w (.receiving sender token unlockTime balBefore) (.returned ok)
        { w with locker := l' } none
  | debited {p : Payout} (hfunds : p.amount ≤ w.held p.token) :
      Resumed w (.sending p) .debit
        { w with held := fun t => if t = p.token then w.held t - p.amount else w.held t
                 paid := w.paid ++ [p] } (some (.sent p))
  | returned {p : Payout} {ok : Bool} :
      Resumed w (.sent p) (.returned ok)
        { w with locker := { w.locker with entered := false } } none

theorem resume_resumed {w w' : World} {k : Waiting} {answer : Answer} {k' : Option Waiting}
    (h : resume w k answer = .ok (w', k')) : Resumed w k answer w' k' := by
  cases k with
  | receiving sender token unlockTime balBefore =>
    cases answer with
    | debit => nomatch h
    | returned ok =>
      obtain ⟨-, h⟩ := failIf_bind_eq_ok.mp h
      obtain ⟨l', hrec, h⟩ := bind_eq_ok.mp h
      obtain ⟨rfl, rfl⟩ := ok_pair h
      exact .received hrec
  | sending p =>
    cases answer with
    | debit =>
      obtain ⟨hfunds, h⟩ := failIf_bind_eq_ok.mp h
      obtain ⟨rfl, rfl⟩ := ok_pair h
      exact .debited (not_lt.mp hfunds)
    | returned ok => nomatch h
  | sent p =>
    cases answer with
    | debit => nomatch h
    | returned ok =>
      obtain ⟨-, h⟩ := failIf_bind_eq_ok.mp h
      obtain ⟨rfl, rfl⟩ := ok_pair h
      exact .returned

theorem books_kept : contract.Keeps (fun _ _ => True) (fun _ => True) Books where
  enter := by
    intro ks w x w' k h _ henter
    cases enter_entered henter with
    | lock hfree =>
      obtain rfl := h.free hfree
      exact h.lock
    | withdraw hsender hw =>
      obtain rfl := h.free (withdraw_spec hw).1
      exact h.withdraw hsender hw
    | extend he => exact h.extend he
    | arrive hle => exact h.balances fun t => (h.owed t).trans (hle t)
  resume := by
    intro ks w k answer w' k' h hresume
    cases resume_resumed hresume with
    | received hrec =>
      obtain rfl := h.alone
      exact h.received hrec
    | debited _ => exact h.debit
    | returned =>
      obtain rfl := h.alone
      exact h.returned
  between := by
    intro w seconds w' h _ hbetween
    obtain rfl := Except.ok.inj hbetween
    exact h.later _

/-- **The locks only grow**, whatever the contract does. -/
theorem locks_grow : contract.Moves (fun w w' => w.locker.Grows w'.locker) where
  enter := by
    intro w x w' k henter
    cases enter_entered henter with
    | lock _ => exact ⟨Nat.le_refl _, fun id _ => .refl (w.locker.locks id)⟩
    | @withdraw sender lockId l' p _ hw =>
      obtain ⟨-, -, -, -, rfl, -⟩ := withdraw_spec hw
      have hgrows : w.locker.Grows
          (w.locker.setLock lockId { w.locker.locks lockId with withdrawn := true }) :=
        .setLock ⟨rfl, rfl, rfl, UInt64.le_refl _, fun _ => rfl⟩
      exact ⟨hgrows.ids, hgrows.locks⟩
    | extend he =>
      obtain ⟨-, hlater, rfl⟩ := extend_spec he
      exact .setLock ⟨rfl, rfl, rfl, UInt64.le_of_lt hlater, id⟩
    | arrive _ => exact .refl w.locker
  resume := by
    intro w k answer w' k' hresume
    cases resume_resumed hresume with
    | received hrec =>
      obtain ⟨-, rfl⟩ := lockReceived_spec hrec
      refine ⟨Nat.le_succ _, fun id hid => ?_⟩
      show (w.locker.locks id).Grows ((w.locker.setLock _ _).locks id)
      rw [setLock_other (Nat.ne_of_lt hid)]
      exact .refl _
    | debited _ => exact .refl w.locker
    | returned => exact ⟨Nat.le_refl _, fun id _ => .refl (w.locker.locks id)⟩
  between := by
    intro w seconds w' hbetween
    obtain rfl := Except.ok.inj hbetween
    exact .refl w.locker

/-! ## Runs -/

/-- A token that debits takes off the payout which waits, and nothing else. -/
theorem debit_recorded {m u : State} (h : contract.step m (.answer .debit) = .ok u) :
    ∃ p ∈ sending (pending m.frames), u.store.paid = m.store.paid ++ [p] ∧
      u.store.locker = m.store.locker ∧ u.store.now = m.store.now ∧
      ∀ token, u.store.held token + (if token = p.token then p.amount else 0) = m.store.held token := by
  cases Contract.step_happened h with
  | done _ hresume => nomatch resume_resumed hresume
  | again hm hresume =>
    cases resume_resumed hresume with
    | @debited p hfunds =>
      refine ⟨p, by rw [hm]; exact List.mem_cons_self, rfl, rfl, rfl, fun t => ?_⟩
      show (if t = p.token then m.store.held t - p.amount else m.store.held t) + _ = _
      by_cases ht : t = p.token
      · rw [if_pos ht, if_pos ht, ht]
        exact Nat.sub_add_cancel hfunds
      · rw [if_neg ht, if_neg ht, Nat.add_zero]

/-- **The locker is safe**, in every run from deployment over tokens whose transfers debit what they
    state, at every point of it.  The locks of a token that are not withdrawn, and what is about to
    leave, fit into what the locker holds of it.  A lock is paid at most once: the token takes off
    its amount, to its owner, at a time its unlock time has come.  As long as the open calls stay
    open the locks only grow: no id is written over, no unlock time comes down.  Every id is listed
    once, under its owner. -/
theorem locker_safe {now : Nat} {held : Address → Nat} {es : List Step} {m : State}
    (hrun : Run contract.step (fun _ _ => True) ⟨deployed now held, []⟩ es m) :
    (∀ token, m.store.locker.locked token + leaving (pending m.frames) token ≤ m.store.held token) ∧
    ((m.store.paid.map Payout.lockId).Nodup ∧ (∀ p ∈ m.store.paid, Pays m.store.locker p) ∧
      ∀ u, contract.step m (.answer .debit) = .ok u →
        ∃ p, u.store.paid = m.store.paid ++ [p] ∧ p.time = u.store.now ∧ Pays u.store.locker p ∧
          ∀ token, u.store.held token + (if token = p.token then p.amount else 0)
            = m.store.held token) ∧
    (∀ later m', Run contract.step (fun t _ => m.frames.length ≤ t.frames.length) m later m' →
      m.frames.length ≤ m'.frames.length → m.store.locker.Grows m'.store.locker) ∧
    ∀ u, (m.store.locker.userLockIds u).Nodup ∧ ∀ id, id ∈ m.store.locker.userLockIds u ↔
      id < m.store.locker.nextLockId ∧ (m.store.locker.locks id).owner = u := by
  have h : Books (pending m.frames) m.store := books_kept.run_all (books_deployed now held) hrun
  refine ⟨h.owed, ⟨?_, fun p hp => h.paid p (List.mem_append_left _ hp), ?_⟩, ?_, h.listed⟩
  · have honce := h.once
    rw [List.map_append] at honce
    exact honce.of_append_left
  · intro u hu
    obtain ⟨p, hp, hpaid, hlocker, hnow, hheld⟩ := debit_recorded hu
    rw [hlocker, hnow]
    exact ⟨p, hpaid, h.onTime p hp, h.paid p (List.mem_append_right _ hp), hheld⟩
  · exact fun later m' hlater hopen =>
      locks_grow.run (fun w => .refl w.locker) (fun h h' => h.trans h') (fun _ _ h => h) hlater hopen

/-- Two locks of a token with a fee, an extension from inside the transfer, and a withdrawal. -/
def sampleSteps : List Step :=
  [.call (.lock 1 7 100 50), .call (.arrive 7 98), .answer (.returned true),
   .call (.lock 2 7 40 60), .call (.extend 1 0 70), .call (.arrive 7 39), .answer (.returned true),
   .between 75, .call (.withdraw 1 0), .answer .debit, .call (.extend 2 1 90),
   .answer (.returned true)]

theorem locker_safe_sample :
    (runTo contract.step ⟨deployed 10 fun _ => 0, []⟩ sampleSteps).store.paid = [⟨0, 7, 1, 98, 85⟩] ∧
    (runTo contract.step ⟨deployed 10 fun _ => 0, []⟩ sampleSteps).store.locker.locked 7 ≤
      (runTo contract.step ⟨deployed 10 fun _ => 0, []⟩ sampleSteps).store.held 7 := by
  have hrun : Run contract.step (fun _ _ => True) ⟨deployed 10 fun _ => 0, []⟩ sampleSteps
      (runTo contract.step ⟨deployed 10 fun _ => 0, []⟩ sampleSteps) :=
    Run.of_runTo (allowedM_of_forall fun _ _ _ => trivial) (by decide +kernel)
  exact ⟨by decide +kernel, (Nat.le_add_right _ _).trans ((locker_safe hrun).1 7)⟩

end Locker
end Gemba.Dex
