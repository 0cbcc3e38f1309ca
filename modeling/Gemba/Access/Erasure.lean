/-
  The access-control backend: `POST /capabilities` and `DELETE /employees/:id` for one employee.

  Both handlers are sequences of awaits, each a database transaction of its own or a call to the chain,
  with nothing held in between.  A request that is under way is the await it is at, with what it has read
  so far; any request may go on next, in any order, and each await may succeed, fail, or fail after it had
  its effect.  A request may also end where it stands, when its process does.

  One tenant and one employee are modelled, without the worker that drains the outbox later.

  Plan.

  1. The tables and the awaits, and one step of the backend.
  2. `Careful`: which steps lose track of a capability.
  3. Where all steps are careful, an erased employee leaves every capability revoked, recorded, or on the
     list of a request that is still at it (`tracked_step`); a step that is not careful leaves an orphan
     (`orphan_made`), and an orphan stays one (`orphan_stays`).
-/
import Gemba.Lib.Runs
import Gemba.Access.AccessControlNFT

namespace Gemba.Access

open Gemba.Lib Gemba.Evm

/-- A capability, as the chain and the outbox know it. -/
structure Cap where
  wallet : Address
  zone : Nat
deriving DecidableEq, Repr

/-- How an await ends. -/
inductive Outcome where
  /-- It had its effect and returned. -/
  | done
  /-- It had no effect and threw. -/
  | refused
  /-- It had its effect and threw. -/
  | lost
deriving DecidableEq, Repr

/-- The await a request is at.  The first three are `POST /capabilities`, the others
    `DELETE /employees/:id`. -/
inductive Request where
  | getEmployeeWallet (zone : Nat)
  | grantAccess (cap : Cap)
  | createCapability (cap : Cap)
  | getEmployeeCapabilities
  | deleteEmployee (caps : List Cap)
  | revokeAccess (cap : Cap) (rest : List Cap)
  | recordFailedRevocation (cap : Cap) (rest : List Cap)
deriving DecidableEq, Repr

/-- The rows of one employee, the chain, the requests under way, and the capabilities that were ever
    granted through the backend. -/
structure Backend where
  /-- The wallet of the employee, as long as the row is there. -/
  employee : Option Address
  /-- The zones of the capability rows, none of them revoked. -/
  capabilities : List Nat
  /-- The pending rows of `revocation_outbox`. -/
  outbox : List Cap
  nft : AccessControlNFT
  requests : List Request
  granted : List Cap

namespace Backend

/-- `hasAccess(wallet, zone)`. -/
def has (b : Backend) (cap : Cap) : Bool := b.nft.hasAccess cap.wallet cap.zone

/-- `createCapability`: the foreign key wants the employee. -/
def createCapability (b : Backend) (zone : Nat) : Backend :=
  if b.employee = none then b else { b with capabilities := b.capabilities ++ [zone] }

/-- `getEmployeeCapabilities`: the rows joined with their employee. -/
def getEmployeeCapabilities (b : Backend) : List Cap :=
  match b.employee with
  | some wallet => b.capabilities.map fun zone => ⟨wallet, zone⟩
  | none => []

/-- `deleteEmployee`, which cascades to the capabilities. -/
def deleteEmployee (b : Backend) : Backend := { b with employee := none, capabilities := [] }

/-- `recordFailedRevocation`. -/
def recordFailedRevocation (b : Backend) (cap : Cap) : Backend := { b with outbox := b.outbox ++ [cap] }

end Backend

namespace Request

/-- The loop of `eraseEmployee`, on the capabilities that are left. -/
def revoking : List Cap → Option Request
  | [] => none
  | cap :: rest => some (.revokeAccess cap rest)

/-- The await ends with `o`: what it did, and the next one of the same request. -/
def run (issuer : Address) (b : Backend) (o : Outcome) : Request → Backend × Option Request
  | .getEmployeeWallet zone =>
    match o, b.employee with
    | .done, some wallet => (b, some (.grantAccess ⟨wallet, zone⟩))
    | _, _ => (b, none)
  | .grantAccess cap =>
    if o = .refused then (b, none)
    else match b.nft.grantAccess issuer cap.wallet cap.zone with
      | .error _ => (b, none)
      | .ok nft => ({ b with nft, granted := b.granted ++ [cap] },
          if o = .done then some (.createCapability cap) else none)
  | .createCapability cap => (if o = .refused then b else b.createCapability cap.zone, none)
  | .getEmployeeCapabilities =>
    (b, if o = .done then some (.deleteEmployee b.getEmployeeCapabilities) else none)
  | .deleteEmployee caps =>
    (if o = .refused then b else b.deleteEmployee, if o = .done then revoking caps else none)
  | .revokeAccess cap rest =>
    if o = .refused then (b, some (.recordFailedRevocation cap rest))
    else match b.nft.revokeAccess issuer cap.wallet cap.zone with
      | .error _ => (b, some (.recordFailedRevocation cap rest))
      | .ok nft => ({ b with nft },
          if o = .done then revoking rest else some (.recordFailedRevocation cap rest))
  -- an error of the outbox is swallowed
  | .recordFailedRevocation cap rest =>
    (if o = .refused then b else b.recordFailedRevocation cap, revoking rest)

end Request

/-- What happens next. -/
inductive Event where
  /-- `POST /capabilities` for the zone. -/
  | post (zone : Nat)
  /-- `DELETE /employees/:id`. -/
  | delete
  /-- The await of one request ends. -/
  | advance (i : Nat) (o : Outcome)
  /-- One request ends where it stands. -/
  | die (i : Nat)
deriving DecidableEq, Repr

/-- One step of the backend, whose key on the chain is `issuer`. -/
def step (issuer : Address) (b : Backend) : Event → Except Unit Backend
  | .post zone => .ok { b with requests := b.requests ++ [.getEmployeeWallet zone] }
  | .delete => .ok { b with requests := b.requests ++ [.getEmployeeCapabilities] }
  | .advance i o =>
    match b.requests[i]? with
    | none => .error ()
    | some r => .ok { (r.run issuer b o).1 with
        requests := b.requests.eraseIdx i ++ (r.run issuer b o).2.toList }
  | .die i =>
    match b.requests[i]? with
    | none => .error ()
    | some _ => .ok { b with requests := b.requests.eraseIdx i }

/-- An employee with that wallet and no capabilities, before any request. -/
def start (wallet : Address) (nft : AccessControlNFT) (outbox : List Cap) : Backend :=
  ⟨some wallet, [], outbox, nft, [], []⟩

/-! ## Which steps lose track of a capability -/

/-- The capabilities that a request is still to revoke or to record. -/
def Request.todo : Request → List Cap
  | .deleteEmployee caps => caps
  | .revokeAccess cap rest | .recordFailedRevocation cap rest => cap :: rest
  | _ => []

/-- A capability is recorded, or on the list of a request. -/
def Handled (outbox : List Cap) (requests : List Request) (cap : Cap) : Prop :=
  cap ∈ outbox ∨ ∃ r ∈ requests, cap ∈ r.todo

instance (outbox : List Cap) (requests : List Request) (cap : Cap) :
    Decidable (Handled outbox requests cap) := inferInstanceAs (Decidable (_ ∨ _))

/-- A request keeps track, beside the `others`.
    No grant takes effect once the employee is erased.  The employee is erased only by a request that
    read every capability there is, and goes on.  Of an erased employee, no record fails that nothing
    else makes up for. -/
def Request.Careful (issuer : Address) (b : Backend) (others : List Request) (o : Outcome) :
    Request → Prop
  | .grantAccess cap =>
    b.employee = none → o ≠ .refused → succeeds (b.nft.grantAccess issuer cap.wallet cap.zone) →
      Handled b.outbox others cap
  | .deleteEmployee caps =>
    (b.employee = none ∨ o ≠ .refused) → ∀ cap ∈ b.granted, b.has cap = true →
      (o = .done ∧ cap ∈ caps) ∨ Handled b.outbox others cap
  | .recordFailedRevocation cap rest =>
    b.employee = none → o = .refused → cap ∈ b.granted → b.has cap = true →
      cap ∈ rest ∨ Handled b.outbox others cap
  | _ => True

/-- **The steps that keep track.**  A request of an erased employee that ends early had nothing on its
    list that only it took care of. -/
def Careful (issuer : Address) (b : Backend) : Event → Prop
  | .advance i o => ∀ r ∈ b.requests[i]?, r.Careful issuer b (b.requests.eraseIdx i) o
  | .die i =>
    b.employee = none → ∀ cap ∈ b.granted, b.has cap = true →
      Handled b.outbox (b.requests.eraseIdx i) cap
  | _ => True

instance Request.Careful.decidable (issuer : Address) (b : Backend) (others : List Request)
    (o : Outcome) : DecidablePred (Request.Careful issuer b others o)
  | .grantAccess _ => inferInstanceAs (Decidable (_ → _ → _ → _))
  | .deleteEmployee _ => inferInstanceAs (Decidable (_ → ∀ cap ∈ b.granted, _ → _))
  | .recordFailedRevocation _ _ => inferInstanceAs (Decidable (_ → _ → _ → _ → _))
  | .getEmployeeWallet _ => .isTrue trivial
  | .createCapability _ => .isTrue trivial
  | .getEmployeeCapabilities => .isTrue trivial
  | .revokeAccess _ _ => .isTrue trivial

instance Careful.decidable (issuer : Address) (b : Backend) : DecidablePred (Careful issuer b)
  | .advance i _ => inferInstanceAs (Decidable (∀ r ∈ b.requests[i]?, _))
  | .die _ => inferInstanceAs (Decidable (_ → ∀ cap ∈ b.granted, _ → _))
  | .post _ => .isTrue trivial
  | .delete => .isTrue trivial

/-- An orphan: a capability of an erased employee that is on the chain, not recorded, and on the list of
    no request. -/
structure Orphan (b : Backend) (cap : Cap) : Prop where
  erased : b.employee = none
  granted : cap ∈ b.granted
  has : b.has cap = true
  lost : ¬ Handled b.outbox b.requests cap

/-! ## One step -/

/-- What is left on the list of a request that goes on with `next`. -/
def todoOf (next : Option Request) : List Cap := next.elim [] Request.todo

theorem todoOf_revoking (caps : List Cap) : todoOf (Request.revoking caps) = caps := by
  cases caps <;> rfl

section
variable {issuer : Address} {b b' : Backend} {o : Outcome} {r : Request} {next : Option Request}
  {cap : Cap} {i : Nat} {outbox : List Cap} {requests others : List Request}

/-- A request is handled by itself, or by what is beside it. -/
theorem handled_split (hr : requests[i]? = some r) :
    Handled outbox requests cap ↔ cap ∈ r.todo ∨ Handled outbox (requests.eraseIdx i) cap := by
  have hmem : ∀ q, q ∈ requests ↔ q = r ∨ q ∈ requests.eraseIdx i := by
    intro q
    rw [List.mem_eraseIdx_iff_getElem?]
    constructor
    · intro hq
      obtain ⟨j, hj⟩ := List.mem_iff_getElem?.mp hq
      by_cases hji : j = i
      · rw [hji, hr] at hj
        exact .inl (Option.some.inj hj).symm
      · exact .inr ⟨j, hji, hj⟩
    · rintro (rfl | ⟨j, -, hj⟩)
      · exact List.mem_of_getElem? hr
      · exact List.mem_of_getElem? hj
  unfold Handled
  constructor
  · rintro (h | ⟨q, hq, hcap⟩)
    · exact .inr (.inl h)
    · rcases (hmem q).mp hq with rfl | hq
      · exact .inl hcap
      · exact .inr (.inr ⟨q, hq, hcap⟩)
  · rintro (h | h | ⟨q, hq, hcap⟩)
    · exact .inr ⟨r, (hmem r).mpr (.inl rfl), h⟩
    · exact .inl h
    · exact .inr ⟨q, (hmem q).mpr (.inr hq), hcap⟩

theorem handled_next :
    Handled outbox (others ++ next.toList) cap ↔ Handled outbox others cap ∨ cap ∈ todoOf next := by
  unfold Handled
  rw [or_assoc]
  refine or_congr_right ?_
  constructor
  · rintro ⟨q, hq, hcap⟩
    rcases List.mem_append.mp hq with hq | hq
    · exact .inl ⟨q, hq, hcap⟩
    · cases next with
      | none => exact absurd hq List.not_mem_nil
      | some n =>
        obtain rfl := List.mem_singleton.mp hq
        exact .inr hcap
  · rintro (⟨q, hq, hcap⟩ | hcap)
    · exact ⟨q, List.mem_append_left _ hq, hcap⟩
    · cases next with
      | none => exact absurd hcap List.not_mem_nil
      | some n => exact ⟨n, List.mem_append_right _ (List.mem_singleton_self n), hcap⟩

/-- More in the outbox handles no less. -/
theorem Handled.record (h : Handled outbox requests cap) (c : Cap) :
    Handled (outbox ++ [c]) requests cap :=
  h.imp_left (List.mem_append_left _)

/-- **What one await can do**, and what it leaves on the list of its request. -/
inductive Ran (issuer : Address) (b : Backend) (o : Outcome) :
    Request → Backend → Option Request → Prop where
  /-- Nothing on the chain or in the outbox; if capabilities were read, they are on the list. -/
  | quiet {r : Request} {b' : Backend} {next : Option Request} (hemployee : b'.employee = b.employee)
      (hgranted : b'.granted = b.granted) (hnft : b'.nft = b.nft) (houtbox : b'.outbox = b.outbox)
      (htodo : r.todo = []) (hnext : todoOf next = [] ∨ todoOf next = b.getEmployeeCapabilities) :
      Ran issuer b o r b' next
  | grant {cap : Cap} {nft : AccessControlNFT} {next : Option Request} (ho : o ≠ .refused)
      (hgrant : b.nft.grantAccess issuer cap.wallet cap.zone = .ok nft) (hnext : todoOf next = []) :
      Ran issuer b o (.grantAccess cap) { b with nft, granted := b.granted ++ [cap] } next
  | erase {caps : List Cap} {next : Option Request} (ho : o ≠ .refused)
      (hnext : todoOf next = if o = .done then caps else []) :
      Ran issuer b o (.deleteEmployee caps) b.deleteEmployee next
  | keep {caps : List Cap} (ho : o = .refused) : Ran issuer b o (.deleteEmployee caps) b none
  | revoke {cap : Cap} {rest : List Cap} {nft : AccessControlNFT} {next : Option Request}
      (hrevoke : b.nft.revokeAccess issuer cap.wallet cap.zone = .ok nft)
      (hnext : todoOf next = rest ∨ todoOf next = cap :: rest) :
      Ran issuer b o (.revokeAccess cap rest) { b with nft } next
  | unrevoked {cap : Cap} {rest : List Cap} {next : Option Request} (hnext : todoOf next = cap :: rest) :
      Ran issuer b o (.revokeAccess cap rest) b next
  | record {cap : Cap} {rest : List Cap} {next : Option Request} (ho : o ≠ .refused)
      (hnext : todoOf next = rest) :
      Ran issuer b o (.recordFailedRevocation cap rest) (b.recordFailedRevocation cap) next
  | unrecorded {cap : Cap} {rest : List Cap} {next : Option Request} (ho : o = .refused)
      (hnext : todoOf next = rest) : Ran issuer b o (.recordFailedRevocation cap rest) b next

theorem run_ran (issuer : Address) (b : Backend) (o : Outcome) (r : Request) :
    Ran issuer b o r (r.run issuer b o).1 (r.run issuer b o).2 := by
  cases r with
  | getEmployeeWallet zone =>
    dsimp only [Request.run]
    split
    · exact .quiet rfl rfl rfl rfl rfl (.inl rfl)
    · exact .quiet rfl rfl rfl rfl rfl (.inl rfl)
  | grantAccess cap =>
    dsimp only [Request.run]
    by_cases ho : o = .refused
    · rw [if_pos ho]
      exact .quiet rfl rfl rfl rfl rfl (.inl rfl)
    · rw [if_neg ho]
      split
      · exact .quiet rfl rfl rfl rfl rfl (.inl rfl)
      · rename_i nft hgrant
        refine .grant ho hgrant ?_
        split <;> rfl
  | createCapability cap =>
    dsimp only [Request.run]
    split
    · exact .quiet rfl rfl rfl rfl rfl (.inl rfl)
    · unfold Backend.createCapability
      split
      · exact .quiet rfl rfl rfl rfl rfl (.inl rfl)
      · exact .quiet rfl rfl rfl rfl rfl (.inl rfl)
  | getEmployeeCapabilities =>
    dsimp only [Request.run]
    refine .quiet rfl rfl rfl rfl rfl ?_
    split
    · exact .inr rfl
    · exact .inl rfl
  | deleteEmployee caps =>
    dsimp only [Request.run]
    by_cases ho : o = .refused
    · rw [if_pos ho, if_neg (by rw [ho]; nofun)]
      exact .keep ho
    · rw [if_neg ho]
      refine .erase ho ?_
      split
      · exact todoOf_revoking caps
      · rfl
  | revokeAccess cap rest =>
    dsimp only [Request.run]
    split
    · exact .unrevoked rfl
    · split
      · exact .unrevoked rfl
      · rename_i nft hrevoke
        refine .revoke hrevoke ?_
        split
        · exact .inl (todoOf_revoking rest)
        · exact .inr rfl
  | recordFailedRevocation cap rest =>
    dsimp only [Request.run]
    split
    · rename_i ho
      exact .unrecorded ho (todoOf_revoking rest)
    · rename_i ho
      exact .record ho (todoOf_revoking rest)

/-- A grant puts one capability on the chain. -/
theorem has_grant {nft : AccessControlNFT}
    (h : b.nft.grantAccess issuer cap.wallet cap.zone = .ok nft) (c : Cap) :
    nft.hasAccess c.wallet c.zone = true ↔ c = cap ∨ b.has c = true := by
  rw [(AccessControlNFT.grantAccess_spec h).2]
  obtain ⟨w, z⟩ := c
  obtain ⟨w', z'⟩ := cap
  rw [Cap.mk.injEq]
  rfl

/-- A revocation takes one off it. -/
theorem has_revoke {nft : AccessControlNFT} (hsingle : b.nft.Single)
    (h : b.nft.revokeAccess issuer cap.wallet cap.zone = .ok nft) (c : Cap) :
    nft.hasAccess c.wallet c.zone = true ↔ b.has c = true ∧ c ≠ cap := by
  rw [(AccessControlNFT.revokeAccess_spec hsingle h).2]
  obtain ⟨w, z⟩ := c
  obtain ⟨w', z'⟩ := cap
  rw [Ne, Cap.mk.injEq]
  rfl

theorem ran_single (hsingle : b.nft.Single) (h : Ran issuer b o r b' next) : b'.nft.Single := by
  cases h with
  | quiet _ _ hnft =>
    rw [hnft]
    exact hsingle
  | grant _ hgrant _ => exact hsingle.grant hgrant
  | revoke hrevoke _ => exact hsingle.revoke hrevoke
  | erase | keep | unrevoked | record | unrecorded => exact hsingle

/-- Once the employee is erased, every capability on the chain is handled. -/
def Tracked (b : Backend) : Prop :=
  b.employee = none → ∀ cap ∈ b.granted, b.has cap = true → Handled b.outbox b.requests cap

/-- **A careful await keeps track.** -/
theorem tracked_ran (hsingle : b.nft.Single) (ht : Tracked b) (hr : b.requests[i]? = some r)
    (hcareful : r.Careful issuer b (b.requests.eraseIdx i) o) (h : Ran issuer b o r b' next)
    (herased : b'.employee = none) (hcap : cap ∈ b'.granted) (hhas : b'.has cap = true) :
    Handled b'.outbox (b.requests.eraseIdx i ++ next.toList) cap := by
  rw [handled_next]
  -- what was handled before: by this request, or by what is beside it
  have hbefore : b.employee = none → cap ∈ b.granted → b.has cap = true →
      cap ∈ r.todo ∨ Handled b.outbox (b.requests.eraseIdx i) cap :=
    fun he hg hh => (handled_split hr).mp (ht he cap hg hh)
  cases h with
  | quiet hemployee hgranted hnft houtbox htodo hnext =>
    have hb : b.has cap = true := by
      unfold Backend.has at hhas ⊢
      rw [← hnft]
      exact hhas
    rcases hbefore (hemployee ▸ herased) (hgranted ▸ hcap) hb with hmem | hother
    · rw [htodo] at hmem
      exact absurd hmem List.not_mem_nil
    · rw [houtbox]
      exact .inl hother
  | @grant c nft _ ho hgrant hnext =>
    by_cases hc : cap = c
    · rw [hc]
      exact .inl (hcareful herased ho ⟨nft, hgrant⟩)
    · have hb : b.has cap = true := ((has_grant hgrant cap).mp hhas).resolve_left hc
      have hg : cap ∈ b.granted :=
        (List.mem_append.mp hcap).resolve_right fun hin => hc (List.mem_singleton.mp hin)
      exact .inl ((hbefore herased hg hb).resolve_left List.not_mem_nil)
  | erase ho hnext =>
    rcases hcareful (.inr ho) cap hcap hhas with ⟨hdone, hmem⟩ | hother
    · rw [hnext, if_pos hdone]
      exact .inr hmem
    · exact .inl hother
  | keep ho =>
    rcases hcareful (.inl herased) cap hcap hhas with ⟨hdone, -⟩ | hother
    · rw [ho] at hdone
      nomatch hdone
    · exact .inl hother
  | @revoke c rest nft _ hrevoke hnext =>
    obtain ⟨hb, hne⟩ := (has_revoke hsingle hrevoke cap).mp hhas
    rcases hbefore herased hcap hb with hmem | hother
    · have hrest : cap ∈ rest := (List.mem_cons.mp hmem).resolve_left hne
      rcases hnext with hnext | hnext
      · rw [hnext]
        exact .inr hrest
      · rw [hnext]
        exact .inr (List.mem_cons_of_mem _ hrest)
    · exact .inl hother
  | unrevoked hnext =>
    rw [hnext]
    exact (hbefore herased hcap hhas).symm
  | @record c rest _ _ hnext =>
    rw [hnext]
    rcases hbefore herased hcap hhas with hmem | hother
    · rcases List.mem_cons.mp hmem with rfl | hrest
      · exact .inl (.inl (List.mem_append_right _ (List.mem_singleton_self _)))
      · exact .inr hrest
    · exact .inl (hother.record c)
  | @unrecorded c rest _ ho hnext =>
    rw [hnext]
    rcases hbefore herased hcap hhas with hmem | hother
    · rcases List.mem_cons.mp hmem with rfl | hrest
      · exact (hcareful herased ho hcap hhas).symm
      · exact .inr hrest
    · exact .inl hother

/-- **An orphan stays an orphan**: no request knows of it, and it cannot be granted again. -/
theorem orphan_ran (hsingle : b.nft.Single) (horphan : Orphan b cap) (hr : b.requests[i]? = some r)
    (h : Ran issuer b o r b' next) :
    Orphan { b' with requests := b.requests.eraseIdx i ++ next.toList } cap := by
  obtain ⟨herased, hgranted, hhas, hlost⟩ := horphan
  rw [handled_split hr, not_or] at hlost
  obtain ⟨htodo, hlost⟩ := hlost
  -- nothing new is known of it
  have hstays : ∀ ob : List Cap, (∀ c ∈ ob, c ∈ b.outbox ∨ c ∈ r.todo) → cap ∉ todoOf next →
      ¬ Handled ob (b.requests.eraseIdx i ++ next.toList) cap := by
    intro ob hob hnext
    rw [handled_next, not_or]
    refine ⟨?_, hnext⟩
    rintro (hin | hother)
    · exact (hob cap hin).elim (fun hin => hlost (.inl hin)) htodo
    · exact hlost (.inr hother)
  cases h with
  | quiet hemployee hgranted' hnft houtbox _ hnext =>
    refine ⟨hemployee.trans herased, by rw [hgranted']; exact hgranted, ?_, ?_⟩
    · show b'.nft.hasAccess cap.wallet cap.zone = true
      rw [hnft]
      exact hhas
    · refine hstays _ (fun c hc => .inl (houtbox ▸ hc)) ?_
      rcases hnext with hnext | hnext
      · rw [hnext]
        exact List.not_mem_nil
      · rw [hnext]
        unfold Backend.getEmployeeCapabilities
        rw [herased]
        exact List.not_mem_nil
  | grant _ hgrant hnext =>
    refine ⟨herased, List.mem_append_left _ hgranted, (has_grant hgrant cap).mpr (.inr hhas), ?_⟩
    exact hstays _ (fun c hc => .inl hc) (by rw [hnext]; exact List.not_mem_nil)
  | erase _ hnext =>
    refine ⟨rfl, hgranted, hhas, hstays _ (fun c hc => .inl hc) ?_⟩
    rw [hnext]
    split
    · exact htodo
    · exact List.not_mem_nil
  | keep _ =>
    exact ⟨herased, hgranted, hhas, hstays _ (fun c hc => .inl hc) List.not_mem_nil⟩
  | @revoke c rest nft _ hrevoke hnext =>
    have hne : cap ≠ c := fun heq => htodo (heq ▸ List.mem_cons_self)
    refine ⟨herased, hgranted, (has_revoke hsingle hrevoke cap).mpr ⟨hhas, hne⟩, ?_⟩
    refine hstays _ (fun c hc => .inl hc) ?_
    rcases hnext with hnext | hnext
    · rw [hnext]
      exact fun hin => htodo (List.mem_cons_of_mem _ hin)
    · rw [hnext]
      exact htodo
  | unrevoked hnext =>
    exact ⟨herased, hgranted, hhas, hstays _ (fun c hc => .inl hc) (by rw [hnext]; exact htodo)⟩
  | @record c rest _ _ hnext =>
    refine ⟨herased, hgranted, hhas, hstays _ (fun d hd => ?_) ?_⟩
    · rcases List.mem_append.mp hd with hd | hd
      · exact .inl hd
      · rw [List.mem_singleton.mp hd]
        exact .inr List.mem_cons_self
    · rw [hnext]
      exact fun hin => htodo (List.mem_cons_of_mem _ hin)
  | unrecorded _ hnext =>
    refine ⟨herased, hgranted, hhas, hstays _ (fun c hc => .inl hc) ?_⟩
    rw [hnext]
    exact fun hin => htodo (List.mem_cons_of_mem _ hin)

/-- **An await that is not careful makes an orphan.** -/
theorem orphan_made_ran (hr : b.requests[i]? = some r)
    (hcareless : ¬ r.Careful issuer b (b.requests.eraseIdx i) o) :
    ∃ cap, Orphan { (r.run issuer b o).1 with
      requests := b.requests.eraseIdx i ++ (r.run issuer b o).2.toList } cap := by
  cases r with
  | getEmployeeWallet zone => exact absurd trivial hcareless
  | createCapability cap => exact absurd trivial hcareless
  | getEmployeeCapabilities => exact absurd trivial hcareless
  | revokeAccess cap rest => exact absurd trivial hcareless
  | grantAccess cap =>
    simp only [Request.Careful, Classical.not_imp] at hcareless
    obtain ⟨herased, ho, ⟨nft, hgrant⟩, hlost⟩ := hcareless
    have hrun : (Request.grantAccess cap).run issuer b o = ({ b with nft, granted := b.granted ++ [cap] },
        if o = .done then some (.createCapability cap) else none) := by
      dsimp only [Request.run]
      rw [if_neg ho, hgrant]
    rw [hrun]
    refine ⟨cap, herased, List.mem_append_right _ (List.mem_singleton_self cap),
      (has_grant hgrant cap).mpr (.inl rfl), ?_⟩
    rw [handled_next, not_or]
    refine ⟨hlost, ?_⟩
    show cap ∉ todoOf (if o = .done then some (.createCapability cap) else none)
    split <;> exact List.not_mem_nil
  | deleteEmployee caps =>
    simp only [Request.Careful, Classical.not_imp, not_forall, not_or] at hcareless
    obtain ⟨htakes, cap, hgranted, hhas, hunread, hlost⟩ := hcareless
    by_cases ho : o = .refused
    · have hrun : (Request.deleteEmployee caps).run issuer b o = (b, none) := by
        rw [ho]
        rfl
      rw [hrun]
      refine ⟨cap, htakes.resolve_right (not_not.mpr ho), hgranted, hhas, ?_⟩
      rw [handled_next, not_or]
      exact ⟨hlost, List.not_mem_nil⟩
    · have hrun : (Request.deleteEmployee caps).run issuer b o
          = (b.deleteEmployee, if o = .done then Request.revoking caps else none) := by
        dsimp only [Request.run]
        rw [if_neg ho]
      rw [hrun]
      refine ⟨cap, rfl, hgranted, hhas, ?_⟩
      rw [handled_next, not_or]
      refine ⟨hlost, ?_⟩
      show cap ∉ todoOf (if o = .done then Request.revoking caps else none)
      split
      · rename_i hdone
        rw [todoOf_revoking]
        exact fun hin => hunread ⟨hdone, hin⟩
      · exact List.not_mem_nil
  | recordFailedRevocation cap rest =>
    simp only [Request.Careful, Classical.not_imp, not_or] at hcareless
    obtain ⟨herased, ho, hgranted, hhas, hrest, hlost⟩ := hcareless
    have hrun : (Request.recordFailedRevocation cap rest).run issuer b o
        = (b, Request.revoking rest) := by
      dsimp only [Request.run]
      rw [if_pos ho]
    rw [hrun]
    refine ⟨cap, herased, hgranted, hhas, ?_⟩
    rw [handled_next, not_or, todoOf_revoking]
    exact ⟨hlost, hrest⟩

/-! ## Runs -/

/-- What one step is: a request comes, goes on, or ends. -/
theorem step_cases {e : Event} (h : step issuer b e = .ok b') :
    (∃ r : Request, r.todo = [] ∧ Careful issuer b e ∧ b' = { b with requests := b.requests ++ [r] }) ∨
    (∃ i o r, e = .advance i o ∧ b.requests[i]? = some r ∧ b' = { (r.run issuer b o).1 with
      requests := b.requests.eraseIdx i ++ (r.run issuer b o).2.toList }) ∨
    ∃ i r, e = .die i ∧ b.requests[i]? = some r ∧ b' = { b with requests := b.requests.eraseIdx i } := by
  cases e with
  | post zone => exact .inl ⟨_, rfl, trivial, (Except.ok.inj h).symm⟩
  | delete => exact .inl ⟨_, rfl, trivial, (Except.ok.inj h).symm⟩
  | advance i o =>
    dsimp only [step] at h
    split at h
    · nomatch h
    · rename_i r hr
      exact .inr (.inl ⟨i, o, r, rfl, hr, (Except.ok.inj h).symm⟩)
  | die i =>
    dsimp only [step] at h
    split at h
    · nomatch h
    · rename_i r hr
      exact .inr (.inr ⟨i, r, rfl, hr, (Except.ok.inj h).symm⟩)

theorem single_step {e : Event} (hsingle : b.nft.Single) (h : step issuer b e = .ok b') :
    b'.nft.Single := by
  rcases step_cases h with ⟨r, -, -, rfl⟩ | ⟨i, o, r, -, -, rfl⟩ | ⟨i, r, -, -, rfl⟩
  · exact hsingle
  · have hran := ran_single hsingle (run_ran issuer b o r)
    exact hran
  · exact hsingle

/-- A request that comes knows of nothing. -/
theorem handled_new (hr : r.todo = []) :
    Handled outbox (requests ++ [r]) cap ↔ Handled outbox requests cap := by
  rw [show [r] = (some r).toList from rfl, handled_next, show todoOf (some r) = [] from hr]
  exact or_iff_left List.not_mem_nil

/-- **A careful step keeps track.** -/
theorem tracked_step {e : Event} (hsingle : b.nft.Single) (ht : Tracked b)
    (hcareful : Careful issuer b e) (h : step issuer b e = .ok b') : Tracked b' := by
  intro herased cap hcap hhas
  rcases step_cases h with ⟨r, hr, -, rfl⟩ | ⟨i, o, r, rfl, hr, rfl⟩ | ⟨i, r, rfl, -, rfl⟩
  · exact (handled_new hr).mpr (ht herased cap hcap hhas)
  · have hran := tracked_ran hsingle ht hr (hcareful r hr) (run_ran issuer b o r) herased hcap hhas
    exact hran
  · exact hcareful herased cap hcap hhas

/-- **An orphan stays an orphan.** -/
theorem orphan_stays {e : Event} (hsingle : b.nft.Single) (horphan : Orphan b cap)
    (h : step issuer b e = .ok b') : Orphan b' cap := by
  rcases step_cases h with ⟨r, hr, -, rfl⟩ | ⟨i, o, r, -, hr, rfl⟩ | ⟨i, r, -, hr, rfl⟩
  · exact ⟨horphan.erased, horphan.granted, horphan.has,
      fun hh => horphan.lost ((handled_new hr).mp hh)⟩
  · exact orphan_ran hsingle horphan hr (run_ran issuer b o r)
  · exact ⟨horphan.erased, horphan.granted, horphan.has,
      fun hh => horphan.lost ((handled_split hr).mpr (.inr hh))⟩

/-- **A step that is not careful makes an orphan.** -/
theorem orphan_made {e : Event} (hcareless : ¬ Careful issuer b e) (h : step issuer b e = .ok b') :
    ∃ cap, Orphan b' cap := by
  rcases step_cases h with ⟨r, -, hcareful, -⟩ | ⟨i, o, r, rfl, hr, rfl⟩ | ⟨i, r, rfl, hr, rfl⟩
  · exact absurd hcareful hcareless
  · refine orphan_made_ran hr fun hcareful => hcareless ?_
    intro q hq
    obtain rfl : r = q := Option.some.inj (hr.symm.trans hq)
    exact hcareful
  · simp only [Careful, Classical.not_imp, not_forall] at hcareless
    obtain ⟨herased, cap, hgranted, hhas, hlost⟩ := hcareless
    exact ⟨cap, herased, hgranted, hhas, hlost⟩

/-- Every run was careful and keeps track, or has left an orphan. -/
theorem tracked_or_orphan {wallet : Address} {nft : AccessControlNFT} {es : List Event}
    (hsingle : nft.Single) (hrun : Run (step issuer) (fun _ _ => True) (start wallet nft outbox) es b) :
    b.nft.Single ∧ ((Run (step issuer) (Careful issuer) (start wallet nft outbox) es b ∧ Tracked b) ∨
      ∃ cap, Orphan b cap) := by
  induction hrun with
  | nil => exact ⟨hsingle, .inl ⟨.nil, fun h => absurd h (Option.some_ne_none wallet)⟩⟩
  | @snoc es t u e hrun _ hs ih =>
    obtain ⟨hsingle, hcases⟩ := ih
    refine ⟨single_step hsingle hs, ?_⟩
    rcases hcases with ⟨hcareful, htracked⟩ | ⟨cap, horphan⟩
    · by_cases he : Careful issuer t e
      · exact .inl ⟨hcareful.snoc he hs, tracked_step hsingle htracked he hs⟩
      · exact .inr (orphan_made he hs)
    · exact .inr ⟨cap, orphan_stays hsingle horphan hs⟩

end

/-- **No orphan, exactly where every step is careful.**  From any state of the deployed contract, in every
    run of the two handlers, in any order and with any failure at any await, that ends with the employee
    erased and no request under way: every capability that was granted through the backend is revoked on
    the chain or pending in the outbox, if and only if every step was careful. -/
theorem no_orphan_iff {admin issuer wallet : Address} {deployed nft : AccessControlNFT}
    {calls : List (Address × AccessControlNFT.Fn)} {outbox : List Cap} {es : List Event} {b : Backend}
    (hdeploy : AccessControlNFT.construct admin = .ok deployed)
    (hcalls : Run AccessControlNFT.call (fun _ _ => True) deployed calls nft)
    (hrun : Run (step issuer) (fun _ _ => True) (start wallet nft outbox) es b)
    (herased : b.employee = none) (hended : b.requests = []) :
    (∀ cap ∈ b.granted, b.has cap = false ∨ cap ∈ b.outbox) ↔
      Run (step issuer) (Careful issuer) (start wallet nft outbox) es b := by
  have hsingle : nft.Single := AccessControlNFT.single_run hdeploy hcalls
  have hnobody : ∀ cap, Handled b.outbox b.requests cap → cap ∈ b.outbox := by
    rintro cap (hin | ⟨r, hr, -⟩)
    · exact hin
    · rw [hended] at hr
      exact absurd hr List.not_mem_nil
  constructor
  · intro hall
    rcases (tracked_or_orphan hsingle hrun).2 with ⟨hcareful, -⟩ | ⟨cap, horphan⟩
    · exact hcareful
    · rcases hall cap horphan.granted with hno | hin
      · rw [horphan.has] at hno
        nomatch hno
      · exact absurd (.inl hin) horphan.lost
  · intro hcareful cap hcap
    have htracked : b.nft.Single ∧ Tracked b := by
      refine Run.inv (fun b => b.nft.Single ∧ Tracked b) ?_ ?_ hcareful
      · exact ⟨hsingle, fun h => absurd h (Option.some_ne_none wallet)⟩
      · intro t e u ht he hs
        exact ⟨single_step ht.1 hs, tracked_step ht.1 ht.2 he hs⟩
    cases hhas : b.has cap with
    | false => exact .inl rfl
    | true => exact .inr (hnobody cap (htracked.2 herased cap hcap hhas))

/-- The contract of admin 1, as deployed. -/
def sampleDeployed : AccessControlNFT :=
  { toErc1155 := .empty
    toAccessControl := AccessControl.empty.setRole AccessControl.DEFAULT_ADMIN_ROLE 1 true }

/-- The admin makes 2 the issuer. -/
def sampleCalls : List (Address × AccessControlNFT.Fn) := [(1, .role (.grantRole ISSUER_ROLE 2))]

def sampleNft : AccessControlNFT := runTo AccessControlNFT.call sampleDeployed sampleCalls

/-- A capability is granted and written down; at the erasure its revocation fails and is recorded. -/
def recorded : List Event :=
  [.post 7, .advance 0 .done, .advance 0 .done, .advance 0 .done, .delete, .advance 0 .done,
   .advance 0 .done, .advance 0 .refused, .advance 0 .done]

theorem no_orphan_iff_recorded :
    (runTo (step 2) (start 5 sampleNft []) recorded).outbox = [⟨5, 7⟩] ∧
    ∀ cap ∈ (runTo (step 2) (start 5 sampleNft []) recorded).granted,
      (runTo (step 2) (start 5 sampleNft []) recorded).has cap = false ∨
        cap ∈ (runTo (step 2) (start 5 sampleNft []) recorded).outbox := by
  have hcareful : Run (step 2) (Careful 2) (start 5 sampleNft []) recorded
      (runTo (step 2) (start 5 sampleNft []) recorded) :=
    Run.of_runTo (by decide +kernel) (by decide +kernel)
  have hrun : Run (step 2) (fun _ _ => True) (start 5 sampleNft []) recorded
      (runTo (step 2) (start 5 sampleNft []) recorded) := hcareful.mono fun _ _ _ => trivial
  have hcalls : Run AccessControlNFT.call (fun _ _ => True) sampleDeployed sampleCalls sampleNft :=
    Run.of_runTo (allowedM_of_forall fun _ _ _ => trivial) (by decide +kernel)
  have hdeploy : AccessControlNFT.construct 1 = .ok sampleDeployed := rfl
  exact ⟨by decide +kernel,
    (no_orphan_iff hdeploy hcalls hrun (by decide +kernel) (by decide +kernel)).mpr hcareful⟩

/-- The wallet is read, the employee is erased, and then the capability is granted. -/
def raced : List Event :=
  [.post 7, .advance 0 .done, .delete, .advance 1 .done, .advance 1 .done, .advance 0 .done,
   .advance 0 .done]

/-- **An orphan, with no failure at all**: the erasure runs between the two halves of the other request,
    and the row of the capability is refused by the foreign key. -/
theorem orphan_raced : ∃ b, Run (step 2) (fun _ _ => True) (start 5 sampleNft []) raced b ∧
    b.employee = none ∧ b.requests = [] ∧
    ∃ cap ∈ b.granted, b.has cap = true ∧ cap ∉ b.outbox := by
  refine ⟨runTo (step 2) (start 5 sampleNft []) raced, ?_, by decide +kernel, by decide +kernel,
    ⟨5, 7⟩, by decide +kernel, by decide +kernel, by decide +kernel⟩
  exact Run.of_runTo (allowedM_of_forall fun _ _ _ => trivial) (by decide +kernel)

end Gemba.Access
