/-
  The worker that drains `revocation_outbox`: `outbox.js`, for one tenant.

  A run lists the oldest pending rows, at most `limit` of them, and revokes each on the chain; a row whose
  revocation fails stays pending, where it is.  Here the database answers and a call to the chain fails
  only when it must, and no rows come in: what is asked is how far the runs get.

  A row is stuck when its revocation fails now (the capability is gone, the key is no issuer's any more,
  or the call does not get to the chain at all), and when an older pending row takes its capability away
  first.  That is known from the start (`Stuck`), and no run changes it for the rows that stay
  (`stuck_run`), so the runs are the passes of a retry queue (`runs_passes`).  Stuck rows at the old end
  use up the limit of every run: `attempted_iff` says which rows are attempted in time, and which ever.

  The rows are in the order of `created_at`, which no two share.
-/
import Gemba.Lib.RetryQueue
import Gemba.Access.Erasure

namespace Gemba.Access

open Gemba.Lib Gemba.Evm

/-- A row of `revocation_outbox`. -/
structure Row where
  id : Nat
  cap : Cap
  /-- `retried_at` is set. -/
  retried : Bool
deriving DecidableEq, Repr

/-- The outbox of a tenant, oldest row first, and the chain; then which rows were attempted, and which
    of them revoked a capability, in that order. -/
structure Tenant where
  rows : List Row
  nft : AccessControlNFT
  attempts : List Nat
  revoked : List Nat

/-- Before any run. -/
def Tenant.start (rows : List Row) (nft : AccessControlNFT) : Tenant := ⟨rows, nft, [], []⟩

/-- The chain client: its key, and whether a call for the capability gets to the chain. -/
structure Client where
  issuer : Address
  reaches : Cap → Bool

/-- What a run answers. -/
structure Tally where
  ok : Nat
  failed : Nat
  total : Nat
deriving DecidableEq, Repr

namespace Tenant

/-- The rows with `retried_at IS NULL`. -/
def pending (t : Tenant) : List Row := t.rows.filter fun row => !row.retried

/-- `listPendingRevocations(limit)`. -/
def listPendingRevocations (t : Tenant) (limit : Nat) : List Row := t.pending.take limit

/-- `markRevocationRetried(id)`. -/
def markRevocationRetried (t : Tenant) (id : Nat) : Tenant :=
  { t with rows := t.rows.map fun row => if row.id = id then { row with retried := true } else row }

/-- `chain.revokeAccess(row.wallet, row.zone)` by the key `issuer`, once it is on the chain. -/
def revokeAccess (issuer : Address) (t : Tenant) (row : Row) : Call Tenant := do
  let nft ← t.nft.revokeAccess issuer row.cap.wallet row.cap.zone
  .ok { t with nft, revoked := t.revoked ++ [row.id] }

/-- The body of the loop: whether it ended well, and the tenant afterwards. -/
def processRow (c : Client) (t : Tenant) (row : Row) : Bool × Tenant :=
  let t := { t with attempts := t.attempts ++ [row.id] }
  if c.reaches row.cap = false then (false, t)
  else match t.revokeAccess c.issuer row with
    | .error _ => (false, t)
    | .ok t => (true, t.markRevocationRetried row.id)

/-- The loop. -/
def processEach (c : Client) : List Row → Tally → Tenant → Tally × Tenant
  | [], tally, t => (tally, t)
  | row :: rows, tally, t =>
    match t.processRow c row with
    | (true, t) => processEach c rows { tally with ok := tally.ok + 1 } t
    | (false, t) => processEach c rows { tally with failed := tally.failed + 1 } t

/-- `processOutboxFor(repo, chain, limit)`. -/
def processOutboxFor (c : Client) (limit : Nat) (t : Tenant) : Tally × Tenant :=
  let pending := t.listPendingRevocations limit
  processEach c pending ⟨0, 0, pending.length⟩ t

/-- The tenant after some runs. -/
def runs (c : Client) (limit : Nat) (t : Tenant) : Nat → Tenant
  | 0 => t
  | j + 1 => (processOutboxFor c limit (runs c limit t j)).2

/-- The revocation of the capability would succeed now. -/
def revocable (c : Client) (t : Tenant) (cap : Cap) : Bool :=
  c.reaches cap && decide (succeeds (t.nft.revokeAccess c.issuer cap.wallet cap.zone))

end Tenant

/-! ## Which rows are stuck -/

/-- `y` is ahead of `x` in the queue. -/
def Ahead (q : List Row) (y x : Row) : Prop := [y, x].Sublist q

/-- **The row is stuck**: its revocation fails, or an older row will have done it. -/
def Stuck (revocable : Cap → Bool) (q : List Row) (x : Row) : Prop :=
  revocable x.cap = false ∨ ∃ y ∈ q, y.cap = x.cap ∧ Ahead q y x

instance (q : List Row) (y x : Row) : Decidable (Ahead q y x) :=
  inferInstanceAs (Decidable (List.Sublist _ _))

instance (revocable : Cap → Bool) (q : List Row) (x : Row) : Decidable (Stuck revocable q x) :=
  inferInstanceAs (Decidable (_ ∨ _))

/-- The rows of a tenant that are stuck. -/
def Tenant.stuck (c : Client) (t : Tenant) (x : Row) : Bool := decide (Stuck (t.revocable c) t.pending x)

section
variable {q a b xs : List Row} {x y z : Row} {f : Cap → Bool}

theorem ahead_mem (h : Ahead q y x) : y ∈ q ∧ x ∈ q :=
  ⟨h.subset List.mem_cons_self, h.subset (List.mem_cons_of_mem y (List.mem_singleton_self x))⟩

theorem ahead_append :
    Ahead (a ++ b) y x ↔ Ahead a y x ∨ (y ∈ a ∧ x ∈ b) ∨ Ahead b y x := by
  unfold Ahead
  constructor
  · intro h
    obtain ⟨l₁, l₂, hsplit, ha, hb⟩ := List.sublist_append_iff.mp h
    -- where the two are cut
    rcases l₁ with _ | ⟨u, _ | ⟨v, l₁⟩⟩
    · rw [List.nil_append] at hsplit
      exact .inr (.inr (hsplit ▸ hb))
    · injection hsplit with hu hl
      subst hu hl
      exact .inr (.inl ⟨List.singleton_sublist.mp ha, List.singleton_sublist.mp hb⟩)
    · injection hsplit with hu hl
      injection hl with hv hl
      obtain ⟨rfl, rfl⟩ := List.append_eq_nil_iff.mp hl.symm
      subst hu hv
      exact .inl ha
  · rintro (h | ⟨hy, hx⟩ | h)
    · exact h.trans (List.sublist_append_left a b)
    · exact List.Sublist.append (List.singleton_sublist.mpr hy) (List.singleton_sublist.mpr hx)
    · exact h.trans (List.sublist_append_right a b)

theorem ahead_singleton : ¬ Ahead [z] y x := by
  intro h
  have hlen := h.length_le
  exact absurd hlen (by decide : ¬ 2 ≤ 1)

/-- Stuck behind the first row of a queue. -/
theorem stuck_cons (hx : x ∈ xs) :
    Stuck f (z :: xs) x ↔ z.cap = x.cap ∨ Stuck f xs x := by
  unfold Stuck
  have hahead : ∀ y, Ahead (z :: xs) y x ↔ (y = z ∧ x ∈ xs) ∨ Ahead xs y x := by
    intro y
    rw [← List.singleton_append, ahead_append, or_iff_right ahead_singleton, List.mem_singleton]
  constructor
  · rintro (hno | ⟨y, -, hcap, hy⟩)
    · exact .inr (.inl hno)
    · rcases (hahead y).mp hy with ⟨rfl, -⟩ | hy
      · exact .inl hcap
      · exact .inr (.inr ⟨y, (ahead_mem hy).1, hcap, hy⟩)
  · rintro (hcap | hno | ⟨y, hmem, hcap, hy⟩)
    · exact .inr ⟨z, List.mem_cons_self, hcap, (hahead z).mpr (.inl ⟨rfl, hx⟩)⟩
    · exact .inl hno
    · exact .inr ⟨y, List.mem_cons_of_mem z hmem, hcap, (hahead y).mpr (.inr hy)⟩

/-- The first row of a queue is behind nobody. -/
theorem stuck_head (hx : x ∉ xs) : Stuck f (x :: xs) x ↔ f x.cap = false := by
  unfold Stuck
  refine or_iff_left ?_
  rintro ⟨y, -, -, hy⟩
  rw [← List.singleton_append, ahead_append] at hy
  rcases hy with hy | ⟨-, hin⟩ | hy
  · exact ahead_singleton hy
  · exact hx hin
  · exact hx (ahead_mem hy).2

/-- A row of the front of a queue is stuck in the front. -/
theorem stuck_front (hnodup : (a ++ b).Nodup) (hx : x ∈ a) : Stuck f (a ++ b) x ↔ Stuck f a x := by
  have hnot : x ∉ b := fun hb => List.disjoint_of_nodup_append hnodup hx hb
  have hahead : ∀ y, Ahead (a ++ b) y x ↔ Ahead a y x := by
    intro y
    rw [ahead_append]
    refine or_iff_left ?_
    rintro (⟨-, hin⟩ | hy)
    · exact hnot hin
    · exact hnot (ahead_mem hy).2
  unfold Stuck
  refine or_congr_right ⟨?_, ?_⟩
  · rintro ⟨y, -, hcap, hy⟩
    have hy := (hahead y).mp hy
    exact ⟨y, (ahead_mem hy).1, hcap, hy⟩
  · rintro ⟨y, hmem, hcap, hy⟩
    exact ⟨y, List.mem_append_left b hmem, hcap, (hahead y).mpr hy⟩

/-- A row of the back of a queue is stuck behind all of the front. -/
theorem stuck_back (hnodup : (a ++ b).Nodup) (hx : x ∈ b) :
    Stuck f (a ++ b) x ↔ (∃ y ∈ a, y.cap = x.cap) ∨ Stuck f b x := by
  induction a with
  | nil =>
    refine (or_iff_right ?_).symm
    rintro ⟨y, hy, -⟩
    exact absurd hy List.not_mem_nil
  | cons z a ih =>
    rw [List.cons_append, stuck_cons (List.mem_append_right a hx), ih (List.nodup_cons.mp hnodup).2]
    constructor
    · rintro (hz | ⟨y, hy, hcap⟩ | hb)
      · exact .inl ⟨z, List.mem_cons_self, hz⟩
      · exact .inl ⟨y, List.mem_cons_of_mem z hy, hcap⟩
      · exact .inr hb
    · rintro (⟨y, hy, hcap⟩ | hb)
      · rcases List.mem_cons.mp hy with rfl | hy
        · exact .inl hcap
        · exact .inr (.inl ⟨y, hy, hcap⟩)
      · exact .inr (.inr hb)

end

/-! ## One run -/

namespace Tenant

section
variable {c : Client} {t t' : Tenant} {x row : Row} {kept todo rest : List Row} {cap : Cap} {limit : Nat}

/-- The rows keep their primary keys apart. -/
def Keyed (t : Tenant) : Prop := (t.rows.map Row.id).Nodup

theorem Keyed.pending (h : t.Keyed) : (t.pending.map Row.id).Nodup :=
  h.sublist (List.filter_sublist.map Row.id)

theorem mark_ids (t : Tenant) (id : Nat) :
    (t.markRevocationRetried id).rows.map Row.id = t.rows.map Row.id := by
  unfold markRevocationRetried
  rw [List.map_map]
  refine List.map_congr_left fun row _ => ?_
  show (if row.id = id then { row with retried := true } else row).id = row.id
  split
  · rfl
  · rfl

/-- A marked row is no longer pending. -/
theorem mark_pending (t : Tenant) (id : Nat) :
    (t.markRevocationRetried id).pending = t.pending.filter fun row => decide (row.id ≠ id) := by
  unfold markRevocationRetried Tenant.pending
  dsimp only
  induction t.rows with
  | nil => rfl
  | cons row rows ih =>
    rw [List.map_cons, List.filter_cons, List.filter_cons]
    by_cases hid : row.id = id
    · rw [if_pos hid, if_neg Bool.noConfusion, ih]
      split
      · exact (List.filter_cons_of_neg (by rw [decide_eq_true_eq]; exact not_not.mpr hid)).symm
      · rfl
    · rw [if_neg hid, ih]
      split
      · rw [List.filter_cons, if_pos (decide_eq_true hid)]
      · rfl

theorem revocable_iff : t.revocable c cap = true ↔
    c.reaches cap = true ∧ succeeds (t.nft.revokeAccess c.issuer cap.wallet cap.zone) := by
  unfold revocable
  rw [Bool.and_eq_true, decide_eq_true_eq]

theorem processRow_fails (h : t.revocable c row.cap = false) :
    t.processRow c row = (false, { t with attempts := t.attempts ++ [row.id] }) := by
  unfold processRow
  dsimp only
  by_cases hreaches : c.reaches row.cap = false
  · rw [if_pos hreaches]
  · rw [if_neg hreaches]
    have hno : ¬ succeeds (t.nft.revokeAccess c.issuer row.cap.wallet row.cap.zone) := fun hyes => by
      rw [revocable_iff.mpr ⟨by rwa [Bool.not_eq_false] at hreaches, hyes⟩] at h
      nomatch h
    unfold revokeAccess
    cases hrevoke : t.nft.revokeAccess c.issuer row.cap.wallet row.cap.zone with
    | ok nft => exact absurd ⟨nft, hrevoke⟩ hno
    | error e => rfl

theorem processRow_revokes (h : t.revocable c row.cap = true) :
    ∃ nft, t.nft.revokeAccess c.issuer row.cap.wallet row.cap.zone = .ok nft ∧
      t.processRow c row = (true, (⟨t.rows, nft, t.attempts ++ [row.id],
        t.revoked ++ [row.id]⟩ : Tenant).markRevocationRetried row.id) := by
  obtain ⟨hreaches, nft, hrevoke⟩ := revocable_iff.mp h
  refine ⟨nft, hrevoke, ?_⟩
  unfold processRow revokeAccess
  dsimp only
  rw [if_neg (by rw [hreaches]; exact Bool.noConfusion), hrevoke, ok_bind]

theorem processEach_fails (h : t.revocable c row.cap = false) (rows : List Row) (tally : Tally) :
    processEach c (row :: rows) tally t = processEach c rows { tally with failed := tally.failed + 1 }
      { t with attempts := t.attempts ++ [row.id] } := by
  rw [processEach, processRow_fails h]

/-- A revocation takes one capability out of reach. -/
theorem revocable_after {nft : AccessControlNFT} (hsingle : t.nft.Single)
    (h : t.nft.revokeAccess c.issuer row.cap.wallet row.cap.zone = .ok nft) (ht' : t'.nft = nft) :
    t'.revocable c cap = true ↔ t.revocable c cap = true ∧ row.cap ≠ cap := by
  rw [revocable_iff, revocable_iff, ht', AccessControlNFT.revokeAccess_after hsingle h, and_assoc]
  have hcap : (¬ (cap.wallet = row.cap.wallet ∧ cap.zone = row.cap.zone)) ↔ row.cap ≠ cap := by
    obtain ⟨wallet, zone⟩ := cap
    obtain ⟨id, ⟨wallet', zone'⟩, retried⟩ := row
    rw [ne_eq, Cap.mk.injEq, @eq_comm _ wallet, @eq_comm _ zone]
  rw [hcap]

/-- **What the loop does**: of the rows it is given the stuck ones stay where they are, and their
    capabilities are gone. -/
structure Processed (c : Client) (t t' : Tenant) (kept todo rest : List Row) : Prop where
  single : t'.nft.Single
  ids : t'.rows.map Row.id = t.rows.map Row.id
  pending : t'.pending = kept ++ todo.filter (fun x => decide (Stuck (t.revocable c) todo x)) ++ rest
  revocable : ∀ cap, t'.revocable c cap = true ↔ t.revocable c cap = true ∧ ∀ x ∈ todo, x.cap ≠ cap
  attempts : t'.attempts = t.attempts ++ todo.map Row.id

theorem processEach_spec (hsingle : t.nft.Single) (hkeyed : t.Keyed)
    (hpending : t.pending = kept ++ todo ++ rest) (tally : Tally) :
    Processed c t (processEach c todo tally t).2 kept todo rest := by
  induction todo generalizing kept t tally with
  | nil =>
    refine ⟨hsingle, rfl, hpending, fun cap => ?_, (List.append_nil _).symm⟩
    exact (and_iff_left fun x hx => absurd hx List.not_mem_nil).symm
  | cons x todo ih =>
    have hnodup : ((kept ++ x :: todo ++ rest).map Row.id).Nodup := hpending ▸ hkeyed.pending
    have hother : ∀ y, y ∈ kept ∨ y ∈ todo ∨ y ∈ rest → y.id ≠ x.id := by
      rw [List.append_assoc, List.map_append, List.cons_append, List.map_cons] at hnodup
      have hout := List.nodup_middle.mp hnodup
      intro y hy hid
      refine (List.nodup_cons.mp hout).1 ?_
      rw [← List.map_append, ← hid]
      refine List.mem_map_of_mem ?_
      rw [List.mem_append, List.mem_append]
      exact hy
    have hfresh : x ∉ todo := fun hx => hother x (.inr (.inl hx)) rfl
    cases hx : t.revocable c x.cap with
    | false =>
      -- the row stays, and nothing else has changed
      have hpending' : { t with attempts := t.attempts ++ [x.id] }.pending
          = kept ++ [x] ++ todo ++ rest := by
        rw [List.append_assoc kept]
        exact hpending
      have hspec := ih (t := { t with attempts := t.attempts ++ [x.id] }) hsingle hkeyed hpending'
        { tally with failed := tally.failed + 1 }
      rw [processEach_fails hx]
      refine ⟨hspec.single, hspec.ids, ?_, fun cap => ?_, ?_⟩
      · have hstays := (stuck_head hfresh).mpr hx
        rw [hspec.pending, List.filter_cons, if_pos (decide_eq_true hstays), List.append_assoc kept]
        refine congrArg (fun l => kept ++ x :: l ++ rest) (List.filter_congr fun z hz => ?_)
        refine decide_eq_decide.mpr ((stuck_cons hz).trans (or_iff_right_of_imp fun hcap => .inl ?_)).symm
        rw [← hcap]
        exact hx
      · rw [hspec.revocable, List.forall_mem_cons]
        refine and_congr_right fun hcap => (and_iff_right fun hsame => ?_).symm
        rw [hsame] at hx
        exact Bool.noConfusion (hx.symm.trans hcap)
      · rw [hspec.attempts]
        exact (List.append_cons _ _ _).symm
    | true =>
      obtain ⟨nft, hrevoke, hrow⟩ := processRow_revokes hx
      obtain ⟨t₁, ht₁⟩ : ∃ t₁, (⟨t.rows, nft, t.attempts ++ [x.id],
          t.revoked ++ [x.id]⟩ : Tenant).markRevocationRetried x.id = t₁ := ⟨_, rfl⟩
      have hids : t₁.rows.map Row.id = t.rows.map Row.id := by
        rw [← ht₁, mark_ids]
      have hnft : t₁.nft = nft := by rw [← ht₁]; rfl
      have hattempts : t₁.attempts = t.attempts ++ [x.id] := by rw [← ht₁]; rfl
      have hgone : t₁.pending = kept ++ todo ++ rest := by
        have hkeeps : ∀ l : List Row, (∀ y ∈ l, y.id ≠ x.id) →
            l.filter (fun row => decide (row.id ≠ x.id)) = l := fun l hl =>
          List.filter_eq_self.mpr fun y hy => decide_eq_true (hl y hy)
        rw [← ht₁, mark_pending]
        show t.pending.filter _ = _
        rw [hpending, List.filter_append, List.filter_append,
          hkeeps kept fun y hy => hother y (.inl hy), hkeeps rest fun y hy => hother y (.inr (.inr hy)),
          List.filter_cons_of_neg (by rw [decide_eq_true_eq]; exact not_not.mpr rfl),
          hkeeps todo fun y hy => hother y (.inr (.inl hy))]
      have hkeyed₁ : Keyed t₁ := by
        unfold Keyed
        rw [hids]
        exact hkeyed
      have hspec := ih (t := t₁) (hnft ▸ hsingle.revoke hrevoke) hkeyed₁ hgone
        { tally with ok := tally.ok + 1 }
      have hafter : ∀ cap, t₁.revocable c cap = true ↔ t.revocable c cap = true ∧ x.cap ≠ cap :=
        fun cap => revocable_after hsingle hrevoke hnft
      rw [ht₁] at hrow
      have hstep : processEach c (x :: todo) tally t
          = processEach c todo { tally with ok := tally.ok + 1 } t₁ := by
        rw [processEach, hrow]
      rw [hstep]
      refine ⟨hspec.single, hspec.ids.trans hids, ?_, fun cap => ?_, ?_⟩
      · rw [hspec.pending, List.filter_cons_of_neg]
        · refine congrArg (fun l => kept ++ l ++ rest) (List.filter_congr fun z hz => ?_)
          refine decide_eq_decide.mpr (Iff.trans ?_ (stuck_cons hz).symm)
          unfold Stuck
          rw [← Bool.not_eq_true, hafter, ← Bool.not_eq_true, not_and_or, not_not, or_comm (a := ¬ _),
            or_assoc]
        · rw [decide_eq_true_eq, stuck_head hfresh, hx]
          exact Bool.noConfusion
      · rw [hspec.revocable, hafter, List.forall_mem_cons, and_assoc]
      · rw [hspec.attempts, hattempts]
        exact (List.append_cons _ _ _).symm

/-- One run, on the rows it lists. -/
theorem processOutboxFor_spec (hsingle : t.nft.Single) (hkeyed : t.Keyed) :
    Processed c t (processOutboxFor c limit t).2 [] (t.pending.take limit) (t.pending.drop limit) :=
  processEach_spec hsingle hkeyed (List.take_append_drop limit t.pending).symm _

/-- **A run is a pass**: the oldest rows are attempted, and the stuck ones keep their place. -/
theorem pending_run (hsingle : t.nft.Single) (hkeyed : t.Keyed) :
    (processOutboxFor c limit t).2.pending = RetryQueue.pass limit (t.stuck c) t.pending := by
  have hnodup : (t.pending.take limit ++ t.pending.drop limit).Nodup := by
    rw [List.take_append_drop]
    exact List.Nodup.of_map _ hkeyed.pending
  rw [(processOutboxFor_spec hsingle hkeyed).pending, List.nil_append]
  refine congrArg (· ++ t.pending.drop limit) (List.filter_congr fun x hx => ?_)
  refine decide_eq_decide.mpr ?_
  have hfront := stuck_front (f := t.revocable c) hnodup hx
  rw [List.take_append_drop] at hfront
  exact hfront.symm

/-- **A row that stays is stuck after the run if it was before.** -/
theorem stuck_run (hsingle : t.nft.Single) (hkeyed : t.Keyed)
    (hx : x ∈ (processOutboxFor c limit t).2.pending) :
    (processOutboxFor c limit t).2.stuck c x = t.stuck c x := by
  have hspec : Processed c t (processOutboxFor c limit t).2 [] _ _ := processOutboxFor_spec hsingle hkeyed
  have hnodup : (t.pending.take limit ++ t.pending.drop limit).Nodup := by
    rw [List.take_append_drop]
    exact List.Nodup.of_map _ hkeyed.pending
  have hpending := hspec.pending
  rw [List.nil_append] at hpending
  obtain ⟨front, hfront⟩ : ∃ front, (t.pending.take limit).filter (fun x =>
      decide (Stuck (t.revocable c) (t.pending.take limit) x)) = front := ⟨_, rfl⟩
  rw [hfront] at hpending
  have hsub : ∀ y ∈ front, y ∈ t.pending.take limit := fun y hy => List.mem_of_mem_filter (hfront ▸ hy)
  have hnodup' : (front ++ t.pending.drop limit).Nodup := by
    refine hnodup.sublist (List.Sublist.append ?_ (List.Sublist.refl _))
    rw [← hfront]
    exact List.filter_sublist
  -- the capabilities of the front are gone
  have hafter : ∀ cap, (processOutboxFor c limit t).2.revocable c cap = false ↔
      t.revocable c cap = false ∨ ∃ y ∈ t.pending.take limit, y.cap = cap := by
    intro cap
    rw [← Bool.not_eq_true, hspec.revocable, not_and_or, Bool.not_eq_true]
    simp only [not_forall, not_not, exists_prop]
  have hwhole : Stuck (t.revocable c) (t.pending.take limit ++ t.pending.drop limit) x
      ↔ Stuck (t.revocable c) t.pending x := by rw [List.take_append_drop]
  refine decide_eq_decide.mpr (Iff.trans ?_ hwhole)
  rw [hpending] at hx ⊢
  rcases List.mem_append.mp hx with hx | hx
  · have hwas : Stuck (t.revocable c) (t.pending.take limit) x := by
      rw [← hfront] at hx
      exact of_decide_eq_true (List.mem_filter.mp hx).2
    exact iff_of_true (.inl ((hafter _).mpr (.inr ⟨x, hsub x hx, rfl⟩)))
      ((stuck_front hnodup (hsub x hx)).mpr hwas)
  · rw [stuck_back hnodup' hx, stuck_back hnodup hx]
    unfold Stuck
    rw [hafter]
    constructor
    · rintro (⟨y, hy, hcap⟩ | (hno | hgone) | hahead)
      · exact .inl ⟨y, hsub y hy, hcap⟩
      · exact .inr (.inl hno)
      · exact .inl hgone
      · exact .inr (.inr hahead)
    · rintro (hgone | hno | hahead)
      · exact .inr (.inl (.inr hgone))
      · exact .inr (.inl (.inl hno))
      · exact .inr (.inr hahead)

/-! ## All the runs -/

/-- The tenant after `j` runs, as the retry queue has it. -/
structure After (c : Client) (limit : Nat) (t t' : Tenant) (j : Nat) : Prop where
  single : t'.nft.Single
  keyed : t'.Keyed
  pending : t'.pending = RetryQueue.passes limit (t.stuck c) t.pending j
  stuck : ∀ x ∈ t'.pending, t'.stuck c x = t.stuck c x
  attempts : ∀ id, id ∈ t'.attempts ↔ id ∈ t.attempts ∨
    ∃ i < j, ∃ x ∈ (RetryQueue.passes limit (t.stuck c) t.pending i).take limit, x.id = id

/-- **The runs are the passes.** -/
theorem runs_passes (hsingle : t.nft.Single) (hkeyed : t.Keyed) (j : Nat) :
    After c limit t (runs c limit t j) j := by
  induction j with
  | zero =>
    refine ⟨hsingle, hkeyed, rfl, fun _ _ => rfl, fun id => (or_iff_left ?_).symm⟩
    rintro ⟨i, hi, -⟩
    exact Nat.not_lt_zero i hi
  | succ j ih =>
    have hspec : Processed c _ (processOutboxFor c limit (runs c limit t j)).2 [] _ _ :=
      processOutboxFor_spec ih.single ih.keyed
    rw [runs]
    refine ⟨hspec.single, ?_, ?_, fun x hx => ?_, fun id => ?_⟩
    · unfold Keyed
      rw [hspec.ids]
      exact ih.keyed
    · rw [pending_run ih.single ih.keyed, RetryQueue.pass_congr ih.stuck, ih.pending]
      rfl
    · have hstays : x ∈ (runs c limit t j).pending := by
        rw [pending_run ih.single ih.keyed] at hx
        have hsub : RetryQueue.passes limit ((runs c limit t j).stuck c) (runs c limit t j).pending 1
            ⊆ (runs c limit t j).pending := RetryQueue.passes_subset _ 1
        exact hsub hx
      rw [stuck_run ih.single ih.keyed hx, ih.stuck x hstays]
    · rw [hspec.attempts, List.mem_append, ih.attempts, List.mem_map, ih.pending, or_assoc]
      refine or_congr_right ?_
      constructor
      · rintro (⟨i, hi, hx⟩ | hx)
        · exact ⟨i, Nat.lt_succ_of_lt hi, hx⟩
        · exact ⟨j, Nat.lt_succ_self j, hx⟩
      · rintro ⟨i, hi, hx⟩
        rcases Nat.lt_succ_iff_lt_or_eq.mp hi with hi | rfl
        · exact .inl ⟨i, hi, hx⟩
        · exact .inr hx

end

/-- `⌈pending / limit⌉`. -/
def roundsFor (t : Tenant) (limit : Nat) : Nat := (t.pending.length + limit - 1) / limit

/-- **Which rows are attempted**, whatever is in the outbox and on the chain.  Within
    `⌈pending / limit⌉` runs it is the rows that the passes reach: each run goes over the stuck rows it
    has met, and as far beyond them as the limit leaves.  At all, it is the rows with fewer than `limit`
    stuck ones ahead of them. -/
theorem attempted_iff {admin : Address} {deployed nft : AccessControlNFT}
    {calls : List (Address × AccessControlNFT.Fn)} {rows : List Row} {row : Row}
    (hdeploy : AccessControlNFT.construct admin = .ok deployed)
    (hcalls : Run AccessControlNFT.call (fun _ _ => True) deployed calls nft)
    (hids : (rows.map Row.id).Nodup) (hrow : row ∈ (start rows nft).pending) (c : Client)
    (limit : Nat) :
    (row.id ∈ (runs c limit (start rows nft) ((start rows nft).roundsFor limit)).attempts ↔
      row ∈ (start rows nft).pending.take (RetryQueue.reach limit ((start rows nft).stuck c)
        (start rows nft).pending ((start rows nft).roundsFor limit))) ∧
    ∀ older younger, (start rows nft).pending = older ++ row :: younger →
      ((∃ m, row.id ∈ (runs c limit (start rows nft) m).attempts) ↔
        older.countP ((start rows nft).stuck c) < limit) := by
  have hsingle : (start rows nft).nft.Single := AccessControlNFT.single_run hdeploy hcalls
  have hkeyed : (start rows nft).Keyed := hids
  obtain ⟨t, ht⟩ : ∃ t, start rows nft = t := ⟨_, rfl⟩
  have hnone : t.attempts = [] := by rw [← ht]; rfl
  rw [ht] at hsingle hkeyed hrow ⊢
  have hall : ∀ m, row.id ∈ (runs c limit t m).attempts ↔
      row ∈ t.pending.take (RetryQueue.reach limit (t.stuck c) t.pending m) := by
    intro m
    rw [(runs_passes hsingle hkeyed m).attempts, hnone, or_iff_right List.not_mem_nil,
      ← RetryQueue.mem_attempts_iff]
    refine exists_congr fun i => and_congr_right fun _ => ⟨?_, fun hx => ⟨row, hx, rfl⟩⟩
    rintro ⟨x, hx, hid⟩
    have hin : x ∈ t.pending := RetryQueue.passes_subset _ _ (List.mem_of_mem_take hx)
    rwa [List.inj_on_of_nodup_map hkeyed.pending hin hrow hid] at hx
  refine ⟨hall _, fun older younger hsplit => ?_⟩
  have hnodup : (older ++ row :: younger).Nodup := hsplit ▸ List.Nodup.of_map _ hkeyed.pending
  have hnot : row ∉ older := fun hin => List.disjoint_of_nodup_append hnodup hin List.mem_cons_self
  rw [← RetryQueue.reached_iff (x := row) (b := younger)]
  refine exists_congr fun m => ?_
  rw [hall, hsplit]
  -- the row is the first one after the older ones
  generalize RetryQueue.reach limit (t.stuck c) (older ++ row :: younger) m = far
  rw [List.take_append, List.mem_append, or_iff_right fun hin => hnot (List.mem_of_mem_take hin)]
  constructor
  · intro hin
    by_contra hfar
    rw [Nat.sub_eq_zero_of_le (Nat.le_of_not_lt hfar)] at hin
    exact List.not_mem_nil hin
  · intro hfar
    obtain ⟨k, hk⟩ : ∃ k, far - older.length = k + 1 := ⟨far - older.length - 1, by omega⟩
    rw [hk]
    exact List.mem_cons_self

/-- Key 2, with a chain that can be reached. -/
def sampleClient : Client := ⟨2, fun _ => true⟩

/-- 2 is an issuer, and the account 5 may enter the zone 7. -/
def grantedCalls : List (Address × AccessControlNFT.Fn) := sampleCalls ++ [(2, .grantAccess 5 7)]

def grantedNft : AccessControlNFT := runTo AccessControlNFT.call sampleDeployed grantedCalls

/-- A capability that is gone, and one that is there. -/
def mixedRows : List Row := [⟨0, ⟨5, 8⟩, false⟩, ⟨1, ⟨5, 7⟩, false⟩]

theorem granted_run :
    Run AccessControlNFT.call (fun _ _ => True) sampleDeployed grantedCalls grantedNft :=
  Run.of_runTo (allowedM_of_forall fun _ _ _ => trivial) (by decide +kernel)

theorem attempted_iff_mixed :
    1 ∈ (runs sampleClient 2 (start mixedRows grantedNft) 1).attempts := by
  have hrow : (⟨1, ⟨5, 7⟩, false⟩ : Row) ∈ (start mixedRows grantedNft).pending := by decide
  have hdeploy : AccessControlNFT.construct 1 = .ok sampleDeployed := rfl
  have hiff := attempted_iff hdeploy granted_run (by decide) hrow sampleClient 2
  exact hiff.1.mpr (by decide +kernel)

/-- **One stuck row starves another.** -/
theorem stuck_row_starves : ¬ ∀ (c : Client) (limit : Nat) (rows : List Row) (admin : Address)
    (deployed nft : AccessControlNFT) (calls : List (Address × AccessControlNFT.Fn)),
    1 ≤ limit → AccessControlNFT.construct admin = .ok deployed →
    Run AccessControlNFT.call (fun _ _ => True) deployed calls nft → (rows.map Row.id).Nodup →
    ∀ row ∈ (start rows nft).pending, (start rows nft).revocable c row.cap = true →
      row.id ∈ (runs c limit (start rows nft) ((start rows nft).roundsFor limit)).attempts := by
  intro h
  have hattempted := h sampleClient 1 mixedRows 1 sampleDeployed grantedNft grantedCalls le_rfl rfl
    granted_run (by decide) ⟨1, ⟨5, 7⟩, false⟩ (by decide) (by decide +kernel)
  exact absurd hattempted (by decide +kernel)

end Tenant

end Gemba.Access
