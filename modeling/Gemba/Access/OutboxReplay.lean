/-
  The outbox worker among others: how often a row revokes.

  A run lists its rows once and then works them off, each with two awaits: the revocation on the chain,
  and the mark in the database.  Nothing is held in between, and runs overlap, since the timer does not
  wait for the last one.  So a row may be on the list of several runs, and a row whose mark failed comes
  back with the next listing, though its revocation succeeded.  A revocation whose await throws may also
  be on its way still, and be mined when nobody waits for it.

  That alone does no harm, since a revocation of what is not there reverts.  It takes a grant of the same
  capability in between, and then the row takes away what it was never about (`replayed`).  Where every
  grant finds the rows that have revoked its capability marked and on nobody's list (`NoReplay`), no row
  revokes twice: what a row has revoked is gone, or the row is done with (`Once.settled`).
-/
import Gemba.Access.Outbox

namespace Gemba.Access.OutboxReplay

open Gemba.Lib Gemba.Evm

/-- A run of the worker. -/
structure Worker where
  /-- The row whose mark is awaited. -/
  marking : Option Nat
  /-- The rows it has still to revoke; it is at the first one, if no mark is awaited. -/
  rest : List Row
deriving DecidableEq, Repr

/-- The tenant, the runs under way, and the rows whose revocation is on its way with nobody waiting. -/
structure State where
  tenant : Tenant
  workers : List Worker
  sent : List Row

/-- The rows that may still be revoked without being listed again. -/
def State.todo (s : State) : List Row := s.sent ++ s.workers.flatMap Worker.rest

/-- What happens next. -/
inductive Event where
  /-- A run begins, and its listing is read. -/
  | list (limit : Nat)
  /-- The revocation a run waits for ends. -/
  | revoke (i : Nat) (o : Outcome)
  /-- It throws, and the transaction is on its way. -/
  | leave (i : Nat)
  /-- Such a transaction is mined. -/
  | mine (j : Nat)
  /-- Such a transaction will never be mined. -/
  | drop (j : Nat)
  /-- The mark a run waits for ends. -/
  | mark (i : Nat) (o : Outcome)
  /-- A run ends where it stands. -/
  | die (i : Nat)
  /-- Anybody calls the contract; the backend grants capabilities. -/
  | call (sender : Address) (fn : AccessControlNFT.Fn)
  /-- `recordFailedRevocation` of an erasure. -/
  | record (id : Nat) (cap : Cap)
deriving DecidableEq

/-- A run whose revocation of `row` ends with `o`: what it did, and the row whose mark is next. -/
def Worker.revoke (issuer : Address) (t : Tenant) (row : Row) (o : Outcome) : Tenant × Option Nat :=
  let t := { t with attempts := t.attempts ++ [row.id] }
  if o = .refused then (t, none)
  else match t.revokeAccess issuer row with
    | .error _ => (t, none)
    | .ok t => (t, if o = .done then some row.id else none)

/-- One step; the key of the backend is `issuer`. -/
def step (issuer : Address) (s : State) : Event → Except Unit State
  | .list limit => .ok { s with workers := s.workers ++ [⟨none, s.tenant.listPendingRevocations limit⟩] }
  | .revoke i o =>
    match s.workers[i]? with
    | some ⟨none, row :: rest⟩ =>
      let (tenant, marking) := Worker.revoke issuer s.tenant row o
      .ok ⟨tenant, s.workers.set i ⟨marking, rest⟩, s.sent⟩
    | _ => .error ()
  | .leave i =>
    match s.workers[i]? with
    | some ⟨none, row :: rest⟩ => .ok ⟨s.tenant, s.workers.set i ⟨none, rest⟩, s.sent ++ [row]⟩
    | _ => .error ()
  | .mine j =>
    match s.sent[j]? with
    | some row =>
      .ok ⟨(s.tenant.revokeAccess issuer row).toOption.getD s.tenant, s.workers, s.sent.eraseIdx j⟩
    | none => .error ()
  | .drop j =>
    match s.sent[j]? with
    | some _ => .ok { s with sent := s.sent.eraseIdx j }
    | none => .error ()
  | .mark i o =>
    match s.workers[i]? with
    | some ⟨some id, rest⟩ =>
      .ok ⟨if o = .refused then s.tenant else s.tenant.markRevocationRetried id,
        s.workers.set i ⟨none, rest⟩, s.sent⟩
    | _ => .error ()
  | .die i =>
    match s.workers[i]? with
    | some _ => .ok { s with workers := s.workers.eraseIdx i }
    | none => .error ()
  | .call sender fn =>
    match s.tenant.nft.call (sender, fn) with
    | .ok nft => .ok { s with tenant := { s.tenant with nft } }
    | .error _ => .error ()
  | .record id cap =>
    if id ∈ s.tenant.rows.map Row.id then .error ()
    else .ok { s with tenant := { s.tenant with rows := s.tenant.rows ++ [⟨id, cap, false⟩] } }

/-! ## A run on its own -/

/-- The body of the loop, as a run does it that nothing disturbs. -/
theorem row_alone (c : Client) (t : Tenant) (ws : List Worker) (sent rest : List Row) (row : Row) :
    ∃ es, runM (step c.issuer) ⟨t, ws ++ [⟨none, row :: rest⟩], sent⟩ es
      = .ok ⟨(t.processRow c row).2, ws ++ [⟨none, rest⟩], sent⟩ := by
  have hlast : ∀ w : Worker, (ws ++ [w])[ws.length]? = some w := fun w => List.getElem?_concat_length
  have hset : ∀ w w' : Worker, (ws ++ [w]).set ws.length w' = ws ++ [w'] := fun w w' => by
    rw [List.set_append_right _ _ (Nat.le_refl _), Nat.sub_self, List.set_cons_zero]
  have hrevoke : ∀ o, step c.issuer ⟨t, ws ++ [⟨none, row :: rest⟩], sent⟩ (.revoke ws.length o)
      = .ok ⟨(Worker.revoke c.issuer t row o).1, ws ++ [⟨(Worker.revoke c.issuer t row o).2, rest⟩],
        sent⟩ := by
    intro o
    unfold step
    dsimp only
    rw [hlast]
    dsimp only
    rw [hset]
  unfold Tenant.processRow
  dsimp only
  by_cases hreaches : c.reaches row.cap = false
  -- the call does not get to the chain
  · refine ⟨[.revoke ws.length .refused], ?_⟩
    rw [runM, hrevoke, ok_bind, if_pos hreaches]
    rfl
  · rw [if_neg hreaches]
    cases hchain : Tenant.revokeAccess c.issuer { t with attempts := t.attempts ++ [row.id] } row with
    | error e =>
      refine ⟨[.revoke ws.length .done], ?_⟩
      have hfails : Worker.revoke c.issuer t row .done
          = ({ t with attempts := t.attempts ++ [row.id] }, none) := by
        unfold Worker.revoke
        dsimp only
        rw [if_neg Outcome.noConfusion, hchain]
      rw [runM, hrevoke, ok_bind, hfails]
      rfl
    | ok t' =>
      refine ⟨[.revoke ws.length .done, .mark ws.length .done], ?_⟩
      have hdone : Worker.revoke c.issuer t row .done = (t', some row.id) := by
        unfold Worker.revoke
        dsimp only
        rw [if_neg Outcome.noConfusion, hchain]
        rfl
      have hmark : step c.issuer ⟨t', ws ++ [⟨some row.id, rest⟩], sent⟩ (.mark ws.length .done)
          = .ok ⟨t'.markRevocationRetried row.id, ws ++ [⟨none, rest⟩], sent⟩ := by
        unfold step
        dsimp only
        rw [hlast]
        dsimp only
        rw [hset, if_neg Outcome.noConfusion]
      rw [runM, hrevoke, ok_bind, hdone, runM, hmark]
      rfl

/-- **`processOutboxFor` is a run that nothing disturbs.** -/
theorem run_alone (c : Client) (limit : Nat) (s : State) :
    ∃ (es : List Event) (s' : State), runM (step c.issuer) s es = .ok s' ∧
      s'.tenant = (s.tenant.processOutboxFor c limit).2 := by
  have hloop : ∀ (rows : List Row) (t : Tenant) (tally : Tally),
      ∃ es, runM (step c.issuer) ⟨t, s.workers ++ [⟨none, rows⟩], s.sent⟩ es
        = .ok ⟨(Tenant.processEach c rows tally t).2, s.workers ++ [⟨none, []⟩], s.sent⟩ := by
    intro rows
    induction rows with
    | nil => exact fun t tally => ⟨[], rfl⟩
    | cons row rows ih =>
      intro t tally
      obtain ⟨es, hes⟩ := row_alone c t s.workers s.sent rows row
      have hnext : ∃ tally', (Tenant.processEach c (row :: rows) tally t).2
          = (Tenant.processEach c rows tally' (t.processRow c row).2).2 := by
        rw [Tenant.processEach]
        rcases t.processRow c row with ⟨_ | _, t'⟩
        · exact ⟨_, rfl⟩
        · exact ⟨_, rfl⟩
      obtain ⟨tally', hnext⟩ := hnext
      obtain ⟨es', hes'⟩ := ih (t.processRow c row).2 tally'
      refine ⟨es ++ es', ?_⟩
      rw [runM_append, hes, ok_bind, hes', hnext]
  obtain ⟨es, hes⟩ := hloop (s.tenant.listPendingRevocations limit) s.tenant
    ⟨0, 0, (s.tenant.listPendingRevocations limit).length⟩
  have hrun : runM (step c.issuer) s (.list limit :: es) = .ok ⟨(s.tenant.processOutboxFor c limit).2,
      s.workers ++ [⟨none, []⟩], s.sent⟩ := hes
  exact ⟨_, _, hrun, rfl⟩

/-! ## How often a row revokes -/

/-- The row has its mark, and will not be revoked unless it is listed again. -/
def Finished (s : State) (row : Row) : Prop := row.retried = true ∧ row.id ∉ s.todo.map Row.id

/-- **No grant brings back what a row may revoke again.** -/
def NoReplay (s : State) : Event → Prop
  | .call _ (.grantAccess holder zone) =>
    ∀ row ∈ s.tenant.rows, row.cap = ⟨holder, zone⟩ → row.id ∈ s.tenant.revoked → Finished s row
  | _ => True

instance (s : State) (row : Row) : Decidable (Finished s row) := inferInstanceAs (Decidable (_ ∧ _))

instance NoReplay.decidable (s : State) : DecidablePred (NoReplay s)
  | .call _ (.grantAccess _ _) => inferInstanceAs (Decidable (∀ row ∈ s.tenant.rows, _))
  | .call _ (.revokeAccess _ _) => .isTrue trivial
  | .call _ (.role _) => .isTrue trivial
  | .list _ => .isTrue trivial
  | .revoke _ _ => .isTrue trivial
  | .leave _ => .isTrue trivial
  | .mine _ => .isTrue trivial
  | .drop _ => .isTrue trivial
  | .mark _ _ => .isTrue trivial
  | .die _ => .isTrue trivial
  | .record _ _ => .isTrue trivial

/-- `hasAccess` of a capability. -/
def State.has (s : State) (cap : Cap) : Bool := s.tenant.nft.hasAccess cap.wallet cap.zone

/-- **No row has revoked twice, and none will.** -/
structure Once (s : State) : Prop where
  single : s.tenant.nft.Single
  keyed : s.tenant.Keyed
  /-- What may be revoked are rows of the table. -/
  known : ∀ x ∈ s.todo, ∃ row ∈ s.tenant.rows, row.id = x.id ∧ row.cap = x.cap
  /-- What a row has revoked is gone, or the row is done with. -/
  settled : ∀ row ∈ s.tenant.rows, row.id ∈ s.tenant.revoked → s.has row.cap = true → Finished s row
  recorded : ∀ id ∈ s.tenant.revoked, id ∈ s.tenant.rows.map Row.id
  once : s.tenant.revoked.Nodup

section
variable {issuer : Address} {s s' : State} {t : Tenant} {workers : List Worker} {nft : AccessControlNFT}
  {cap : Cap} {id : Nat} {row x : Row} {rest : List Row} {w : Worker} {i : Nat}

/-- Rows of one table with one key are one row. -/
theorem same_row (hkeyed : t.Keyed) (hrow : row ∈ t.rows) (hx : x ∈ t.rows) (hid : row.id = x.id) :
    row = x := List.inj_on_of_nodup_map hkeyed hrow hx hid

/-- Less to do is no harm. -/
theorem Once.fewer (h : Once s) {sent : List Row}
    (hfewer : ∀ x ∈ (⟨s.tenant, workers, sent⟩ : State).todo, x ∈ s.todo) :
    Once ⟨s.tenant, workers, sent⟩ := by
  refine ⟨h.single, h.keyed, fun x hx => h.known x (hfewer x hx), fun row hrow hrevoked hhas => ?_,
    h.recorded, h.once⟩
  obtain ⟨hretried, hout⟩ := h.settled row hrow hrevoked hhas
  refine ⟨hretried, fun hin => ?_⟩
  obtain ⟨x, hx, hid⟩ := List.mem_map.mp hin
  exact hout (List.mem_map.mpr ⟨x, hfewer x hx, hid⟩)

/-- A run that goes on has the rest of its list to do. -/
theorem todo_goes_on {w' : Worker} (hw : s.workers[i]? = some w) (hsub : ∀ x ∈ w'.rest, x ∈ w.rest)
    (hx : x ∈ (s.workers.set i w').flatMap Worker.rest) : x ∈ s.workers.flatMap Worker.rest := by
  obtain ⟨v, hv, hin⟩ := List.mem_flatMap.mp hx
  rcases List.mem_or_eq_of_mem_set hv with hv | hv
  · exact List.mem_flatMap.mpr ⟨v, hv, hin⟩
  · rw [hv] at hin
    exact List.mem_flatMap.mpr ⟨w, List.mem_of_getElem? hw, hsub x hin⟩

theorem Once.goes_on (h : Once s) {w' : Worker} (hw : s.workers[i]? = some w)
    (hsub : ∀ x ∈ w'.rest, x ∈ w.rest) : Once ⟨s.tenant, s.workers.set i w', s.sent⟩ := by
  refine h.fewer fun x hx => ?_
  rcases List.mem_append.mp hx with hx | hx
  · exact List.mem_append_left _ hx
  · exact List.mem_append_right _ (todo_goes_on hw hsub hx)

/-- The chain moves: what comes to be there was revoked by no row that is not done with. -/
theorem Once.chain (h : Once s) (hsingle : nft.Single)
    (hnew : ∀ row ∈ s.tenant.rows, row.id ∈ s.tenant.revoked → s.has row.cap = false →
      nft.hasAccess row.cap.wallet row.cap.zone = true → Finished s row) :
    Once { s with tenant := { s.tenant with nft } } := by
  refine ⟨hsingle, h.keyed, h.known, fun row hrow hrevoked hhas => ?_, h.recorded, h.once⟩
  cases hold : s.has row.cap with
  | true => exact h.settled row hrow hrevoked hold
  | false => exact hnew row hrow hrevoked hold hhas

/-- **A row that revokes has not revoked before.** -/
theorem Once.first (h : Once s) (hx : x ∈ s.todo) (hhas : s.has x.cap = true) :
    x.id ∉ s.tenant.revoked := by
  intro hrevoked
  obtain ⟨row, hrow, hid, hcap⟩ := h.known x hx
  rw [← hid] at hrevoked
  rw [← hcap] at hhas
  have hfinished := h.settled row hrow hrevoked hhas
  exact hfinished.2 (List.mem_map.mpr ⟨x, hx, hid.symm⟩)

/-- A row revokes. -/
theorem Once.revokes (h : Once s) (hx : x ∈ s.todo) {t : Tenant}
    (hrevoke : s.tenant.revokeAccess issuer x = .ok t) : Once { s with tenant := t } := by
  obtain ⟨nft, hnft, ht⟩ := bind_eq_ok.mp hrevoke
  injection ht with ht
  subst ht
  obtain ⟨hhas, hafter⟩ := AccessControlNFT.revokeAccess_spec h.single hnft
  have hfirst := h.first hx hhas
  obtain ⟨own, hown, hid, hcap⟩ := h.known x hx
  refine ⟨h.single.revoke hnft, h.keyed, h.known, fun row hrow hrevoked hstill => ?_,
    fun id hin => ?_, ?_⟩
  · obtain ⟨hwas, hother⟩ := (hafter row.cap.wallet row.cap.zone).mp hstill
    rcases List.mem_append.mp hrevoked with hrevoked | hrevoked
    · exact h.settled row hrow hrevoked hwas
    -- its own capability is gone
    · have hsame := same_row h.keyed hrow hown ((List.mem_singleton.mp hrevoked).trans hid.symm)
      rw [hsame, hcap] at hother
      exact absurd ⟨rfl, rfl⟩ hother
  · rcases List.mem_append.mp hin with hin | hin
    · exact h.recorded id hin
    · rw [List.mem_singleton.mp hin, ← hid]
      exact List.mem_map_of_mem hown
  · refine List.nodup_append.mpr ⟨h.once, List.nodup_singleton _, fun a ha b hb hab => ?_⟩
    rw [hab, List.mem_singleton.mp hb] at ha
    exact hfirst ha

/-- A row gets its mark. -/
theorem Once.marked (h : Once s) (id : Nat) :
    Once { s with tenant := s.tenant.markRevocationRetried id } := by
  have hids := Tenant.mark_ids s.tenant id
  -- every row is a row of before, with its key and its capability, and retried if it was
  have hfrom : ∀ row ∈ (s.tenant.markRevocationRetried id).rows, ∃ old ∈ s.tenant.rows,
      old.id = row.id ∧ old.cap = row.cap ∧ (old.retried = true → row.retried = true) := by
    intro row hrow
    obtain ⟨old, hold, hmark⟩ := List.mem_map.mp hrow
    refine ⟨old, hold, ?_⟩
    rw [← hmark]
    split
    · exact ⟨rfl, rfl, fun _ => rfl⟩
    · exact ⟨rfl, rfl, fun h => h⟩
  refine ⟨h.single, ?_, fun x hx => ?_, fun row hrow hrevoked hhas => ?_, ?_, h.once⟩
  · show ((s.tenant.markRevocationRetried id).rows.map Row.id).Nodup
    rw [hids]
    exact h.keyed
  · obtain ⟨old, hold, hid, hcap⟩ := h.known x hx
    refine ⟨_, List.mem_map_of_mem hold, ?_⟩
    split
    · exact ⟨hid, hcap⟩
    · exact ⟨hid, hcap⟩
  · obtain ⟨old, hold, hid, hcap, hretried⟩ := hfrom row hrow
    have hfinished : Finished s old := by
      refine h.settled old hold ?_ ?_
      · rw [hid]
        exact hrevoked
      · rw [hcap]
        exact hhas
    refine ⟨hretried hfinished.1, ?_⟩
    rw [← hid]
    exact hfinished.2
  · intro i hi
    rw [hids]
    exact h.recorded i hi

/-- A run begins: it lists no row that is done with. -/
theorem Once.lists (h : Once s) (limit : Nat) :
    Once { s with workers := s.workers ++ [⟨none, s.tenant.listPendingRevocations limit⟩] } := by
  have hpending : ∀ x ∈ s.tenant.listPendingRevocations limit, x ∈ s.tenant.rows ∧ x.retried = false := by
    intro x hx
    obtain ⟨hrow, hnot⟩ := List.mem_filter.mp (List.mem_of_mem_take hx)
    rw [Bool.not_eq_true'] at hnot
    exact ⟨hrow, hnot⟩
  have htodo : ∀ x, x ∈ (⟨s.tenant, s.workers ++ [⟨none, s.tenant.listPendingRevocations limit⟩],
      s.sent⟩ : State).todo → x ∈ s.todo ∨ x ∈ s.tenant.listPendingRevocations limit := by
    intro x hx
    unfold State.todo at hx
    rw [List.flatMap_append, ← List.append_assoc] at hx
    rcases List.mem_append.mp hx with hx | hx
    · exact .inl hx
    · rw [List.flatMap_singleton] at hx
      exact .inr hx
  refine ⟨h.single, h.keyed, fun x hx => ?_, fun row hrow hrevoked hhas => ?_, h.recorded, h.once⟩
  · rcases htodo x hx with hx | hx
    · exact h.known x hx
    · exact ⟨x, (hpending x hx).1, rfl, rfl⟩
  · obtain ⟨hretried, hout⟩ := h.settled row hrow hrevoked hhas
    refine ⟨hretried, fun hin => ?_⟩
    obtain ⟨x, hx, hid⟩ := List.mem_map.mp hin
    rcases htodo x hx with hx | hx
    · exact hout (List.mem_map.mpr ⟨x, hx, hid⟩)
    · obtain ⟨hxrow, hnot⟩ := hpending x hx
      rw [same_row h.keyed hxrow hrow hid, hretried] at hnot
      nomatch hnot

/-- An erasure records a failed revocation. -/
theorem Once.records (h : Once s) (hfresh : id ∉ s.tenant.rows.map Row.id) :
    Once { s with tenant := { s.tenant with rows := s.tenant.rows ++ [⟨id, cap, false⟩] } } := by
  refine ⟨h.single, ?_, fun x hx => ?_, fun row hrow hrevoked hhas => ?_, fun i hi => ?_, h.once⟩
  · show ((s.tenant.rows ++ [(⟨id, cap, false⟩ : Row)]).map Row.id).Nodup
    rw [List.map_append]
    refine List.nodup_append.mpr ⟨h.keyed, List.nodup_singleton _, fun a ha b hb hab => hfresh ?_⟩
    rw [hab, List.mem_singleton.mp hb] at ha
    exact ha
  · obtain ⟨row, hrow, hsame⟩ := h.known x hx
    exact ⟨row, List.mem_append_left _ hrow, hsame⟩
  · rcases List.mem_append.mp hrow with hrow | hrow
    · exact h.settled row hrow hrevoked hhas
    · rw [List.mem_singleton.mp hrow] at hrevoked
      exact absurd (h.recorded _ hrevoked) hfresh
  · rw [List.map_append]
    exact List.mem_append_left _ (h.recorded i hi)

/-- A call to the contract. -/
theorem Once.called (h : Once s) {sender : Address} {fn : AccessControlNFT.Fn}
    (he : NoReplay s (.call sender fn)) (hcall : s.tenant.nft.call (sender, fn) = .ok nft) :
    Once { s with tenant := { s.tenant with nft } } := by
  cases fn with
  | grantAccess holder zone =>
    refine h.chain (h.single.grant hcall) fun row hrow hrevoked hnot hhas => ?_
    rcases ((AccessControlNFT.grantAccess_spec hcall).2 _ _).mp hhas with ⟨hwallet, hzone⟩ | hwas
    · refine he row hrow ?_ hrevoked
      rw [← hwallet, ← hzone]
    · exact Bool.noConfusion (hnot.symm.trans hwas)
  | revokeAccess holder zone =>
    refine h.chain (h.single.revoke hcall) fun row hrow hrevoked hnot hhas => ?_
    have hwas := ((AccessControlNFT.revokeAccess_spec h.single hcall).2 _ _).mp hhas
    exact Bool.noConfusion (hnot.symm.trans hwas.1)
  | role fn =>
    obtain ⟨roles, -, hcall⟩ := bind_eq_ok.mp hcall
    injection hcall with hcall
    subst hcall
    exact h.chain h.single fun row hrow hrevoked hnot hhas => Bool.noConfusion (hnot.symm.trans hhas)

/-- The revocation of a row ends, whatever came of it. -/
theorem Once.tried (h : Once s) (hx : x ∈ s.todo) (o : Outcome) :
    Once { s with tenant := (Worker.revoke issuer s.tenant x o).1 } := by
  have hattempted : Once { s with tenant := { s.tenant with attempts := s.tenant.attempts ++ [x.id] } } :=
    ⟨h.single, h.keyed, h.known, h.settled, h.recorded, h.once⟩
  unfold Worker.revoke
  dsimp only
  by_cases ho : o = .refused
  · rw [if_pos ho]
    exact hattempted
  · rw [if_neg ho]
    cases hrevoke : Tenant.revokeAccess issuer
        { s.tenant with attempts := s.tenant.attempts ++ [x.id] } x with
    | error e => exact hattempted
    | ok t => exact hattempted.revokes hx hrevoke

/-- **A step keeps it.** -/
theorem once_step {e : Event} (h : Once s) (he : NoReplay s e) (hs : step issuer s e = .ok s') :
    Once s' := by
  unfold step at hs
  cases e with
  | list limit =>
    injection hs with hs
    subst hs
    exact h.lists limit
  | revoke i o =>
    dsimp only at hs
    split at hs
    · rename_i row rest hw
      injection hs with hs
      subst hs
      have hrow : row ∈ s.todo := List.mem_append_right _
        (List.mem_flatMap.mpr ⟨_, List.mem_of_getElem? hw, List.mem_cons_self⟩)
      exact (h.tried hrow o).goes_on hw fun x hx => List.mem_cons_of_mem row hx
    · nomatch hs
  | leave i =>
    dsimp only at hs
    split at hs
    · rename_i row rest hw
      injection hs with hs
      subst hs
      refine h.fewer fun x hx => ?_
      rcases List.mem_append.mp hx with hx | hx
      · rcases List.mem_append.mp hx with hx | hx
        · exact List.mem_append_left _ hx
        -- the row itself was on the list
        · rw [List.mem_singleton.mp hx]
          exact List.mem_append_right _
            (List.mem_flatMap.mpr ⟨_, List.mem_of_getElem? hw, List.mem_cons_self⟩)
      · exact List.mem_append_right _ (todo_goes_on hw (fun x hx => List.mem_cons_of_mem row hx) hx)
    · nomatch hs
  | mine j =>
    dsimp only at hs
    split at hs
    · rename_i row hrow
      injection hs with hs
      subst hs
      have hmined :
          Once { s with tenant := (s.tenant.revokeAccess issuer row).toOption.getD s.tenant } := by
        cases hrevoke : s.tenant.revokeAccess issuer row with
        | error e => exact h
        | ok t => exact h.revokes (List.mem_append_left _ (List.mem_of_getElem? hrow)) hrevoke
      refine hmined.fewer fun x hx => ?_
      rcases List.mem_append.mp hx with hx | hx
      · exact List.mem_append_left _ (List.mem_of_mem_eraseIdx hx)
      · exact List.mem_append_right _ hx
    · nomatch hs
  | drop j =>
    dsimp only at hs
    split at hs
    · injection hs with hs
      subst hs
      refine h.fewer fun x hx => ?_
      rcases List.mem_append.mp hx with hx | hx
      · exact List.mem_append_left _ (List.mem_of_mem_eraseIdx hx)
      · exact List.mem_append_right _ hx
    · nomatch hs
  | mark i o =>
    dsimp only at hs
    split at hs
    · rename_i id rest hw
      injection hs with hs
      subst hs
      have hmarked : Once { s with
          tenant := if o = .refused then s.tenant else s.tenant.markRevocationRetried id } := by
        split
        · exact h
        · exact h.marked id
      exact hmarked.goes_on hw fun x hx => hx
    · nomatch hs
  | die i =>
    dsimp only at hs
    split at hs
    · injection hs with hs
      subst hs
      refine h.fewer fun x hx => ?_
      rcases List.mem_append.mp hx with hx | hx
      · exact List.mem_append_left _ hx
      · obtain ⟨w, hw, hin⟩ := List.mem_flatMap.mp hx
        exact List.mem_append_right _ (List.mem_flatMap.mpr ⟨w, List.mem_of_mem_eraseIdx hw, hin⟩)
    · nomatch hs
  | call sender fn =>
    dsimp only at hs
    split at hs
    · rename_i nft hcall
      injection hs with hs
      subst hs
      exact h.called he hcall
    · nomatch hs
  | record id cap =>
    dsimp only at hs
    split at hs
    · nomatch hs
    · rename_i hfresh
      injection hs with hs
      subst hs
      exact h.records hfresh

end

/-- Rows, and no run under way. -/
def start (rows : List Row) (nft : AccessControlNFT) : State := ⟨.start rows nft, [], []⟩

/-- **A row revokes at most once**, in every run whose grants find the rows that revoked the capability
    before marked and not to be revoked again: whatever overlaps, fails or comes late. -/
theorem revoked_once {admin issuer : Address} {deployed nft : AccessControlNFT}
    {calls : List (Address × AccessControlNFT.Fn)} {rows : List Row} {es : List Event} {s : State}
    (hdeploy : AccessControlNFT.construct admin = .ok deployed)
    (hcalls : Run AccessControlNFT.call (fun _ _ => True) deployed calls nft)
    (hids : (rows.map Row.id).Nodup) (hrun : Run (step issuer) NoReplay (start rows nft) es s) :
    s.tenant.revoked.Nodup := by
  have hstart : Once (start rows nft) :=
    ⟨AccessControlNFT.single_run hdeploy hcalls, hids, nofun, nofun, nofun, List.nodup_nil⟩
  exact (Run.inv Once hstart (fun _ _ _ h he hs => once_step h he hs) hrun).once

/-- A capability that is there, to be revoked. -/
def oneRow : List Row := [⟨1, ⟨5, 7⟩, false⟩]

/-- Two runs overlap; when both are done with the row, the capability is granted again. -/
def overlapping : List Event :=
  [.list 100, .list 100, .revoke 0 .done, .revoke 1 .done, .mark 0 .done, .call 2 (.grantAccess 5 7),
   .list 100]

theorem revoked_once_overlapping :
    (runTo (step 2) (start oneRow Tenant.grantedNft) overlapping).tenant.revoked = [1] ∧
    (runTo (step 2) (start oneRow Tenant.grantedNft) overlapping).tenant.revoked.Nodup := by
  have hdeploy : AccessControlNFT.construct 1 = .ok sampleDeployed := rfl
  have hrun : Run (step 2) NoReplay (start oneRow Tenant.grantedNft) overlapping
      (runTo (step 2) (start oneRow Tenant.grantedNft) overlapping) :=
    Run.of_runTo (by decide +kernel) (by decide +kernel)
  exact ⟨by decide +kernel, revoked_once hdeploy Tenant.granted_run (by decide) hrun⟩

/-- The mark fails, the capability is granted again, and the next run takes it away. -/
def replay : List Event :=
  [.list 100, .revoke 0 .done, .mark 0 .refused, .call 2 (.grantAccess 5 7), .list 100, .revoke 1 .done]

/-- **A row that revokes twice.** -/
theorem replayed : ¬ ∀ (issuer admin : Address) (deployed nft : AccessControlNFT)
    (calls : List (Address × AccessControlNFT.Fn)) (rows : List Row) (es : List Event) (s : State),
    AccessControlNFT.construct admin = .ok deployed →
    Run AccessControlNFT.call (fun _ _ => True) deployed calls nft → (rows.map Row.id).Nodup →
    Run (step issuer) (fun _ _ => True) (start rows nft) es s → s.tenant.revoked.Nodup := by
  intro h
  have hrun : Run (step 2) (fun _ _ => True) (start oneRow Tenant.grantedNft) replay
      (runTo (step 2) (start oneRow Tenant.grantedNft) replay) :=
    Run.of_runTo (allowedM_of_forall fun _ _ _ => trivial) (by decide +kernel)
  have hnodup := h 2 1 sampleDeployed Tenant.grantedNft Tenant.grantedCalls oneRow replay _ rfl
    Tenant.granted_run (by decide) hrun
  exact absurd hnodup (by decide +kernel)

end Gemba.Access.OutboxReplay
