/-
  `watchGmbSales` and the mailer: whether every sale is told of.

  A cycle reads the `Dispensed` events after `lastDispenserBlock`, mails each, and moves the cursor when
  it is through.  A mail that fails throws out of the loop and leaves the cursor where it was, so that
  the next cycle reads the same events again.  But `notify` writes its map before it sends: the second
  reading finds the key of the failed mail in there, takes the sale for told, and the cursor passes it
  (`sale_lost`).

  The cycles are steps between one await and the next, since the timer does not wait for the last cycle
  and they overlap.

  1. **Data** — the map of the mailer, the cursor, the cycles under way, and beside them the keys whose
     mail was delivered.
  2. **Invariant** — `Covered`: of the events up to the block a cycle will move the cursor to, each is
     delivered or still on the cycle's list.  One lemma for each change of the state, then the steps.
  3. **The condition** — `Keeps`: no cycle takes a sale for told that was not delivered, and no event
     lies before the first window.  Under it the cursor passes delivered sales only
     (`at_least_once`); a cycle that breaks the first half loses the sale if nothing fails from then on
     (`lost_of_kept_back`).

  Mail is live, not a dry run.  The texts are left out, and so are the keys of the other watchers, which
  share the map but none of whose keys begins with `sale`.
-/
import Gemba.Lib.Runs

namespace Gemba.Notifier.GmbSales

open Gemba.Lib

/-- A key of the mailer's map: `sale-…`, `sale-crit-…` and `sale-warn-…`. -/
inductive Key where
  | sale (txHash : String)
  | saleCrit (txHash : String)
  | saleWarn (txHash : String)
deriving DecidableEq, Repr

/-- A `Dispensed` event. -/
structure Dispensed where
  txHash : String
  block : Nat
  amount : Nat
deriving DecidableEq, Repr

/-- Where a cycle is. -/
inductive Cycle where
  /-- It awaits the logs of its window. -/
  | logs (fromBlock latest : Nat)
  /-- It is at the head of the loop. -/
  | loop (latest : Nat) (bonded : Option Nat) (rest : List Dispensed)
  /-- It awaits the sale mail of `ev`. -/
  | saleMail (latest : Nat) (bonded : Option Nat) (ev : Dispensed) (rest : List Dispensed)
  /-- It awaits the bonded tokens, to weigh `ev` against them. -/
  | pool (latest : Nat) (bonded : Option Nat) (ev : Dispensed) (rest : List Dispensed)
  /-- It awaits the mail about the size of an event. -/
  | sizeMail (latest : Nat) (bonded : Option Nat) (key : Key) (rest : List Dispensed)
deriving DecidableEq, Repr

/-- The settings: `COOLDOWN_MS`, and the thresholds as what they say of a millionth part of the stake. -/
structure Config where
  cooldownMs : Nat
  critical : Nat → Bool
  warning : Nat → Bool

structure State where
  /-- `Date.now()`. -/
  clock : Nat
  /-- The chain's height. -/
  head : Nat
  /-- The events of the chain. -/
  events : List Dispensed
  /-- The cursor, 0 before the first cycle went through. -/
  lastDispenserBlock : Nat
  lastSent : Key → Option Nat
  cycles : Nat → Option Cycle
  /-- The keys of which `sendMail` delivered a mail. -/
  delivered : List Key

/-- What happens next. -/
inductive Event where
  /-- A block with the given transactions, each with the amount it dispensed. -/
  | mine (sales : List (String × Nat))
  /-- Time passes. -/
  | advance (ms : Nat)
  /-- A cycle begins, and `evmBlockNumber` answers `n`.  (If it fails the cycle does nothing.) -/
  | latest (i n : Nat)
  /-- `fetchDispensedLogs` answers or fails. -/
  | logs (i : Nat) (ok : Bool)
  /-- The loop takes its next event, or ends. -/
  | next (i : Nat)
  /-- `sendMail` delivers or fails. -/
  | sent (i : Nat) (ok : Bool)
  /-- `fetchBondedTokens` answers or fails. -/
  | pool (i : Nat) (answer : Option Nat)
deriving DecidableEq, Repr

/-- `prev && now - prev < COOLDOWN_MS`. -/
def suppressed (cfg : Config) (s : State) (key : Key) : Bool :=
  match s.lastSent key with
  | none => false
  | some prev => prev ≠ 0 ∧ s.clock < prev + cfg.cooldownMs

/-- `lastSent.set(key, now)`. -/
def State.record (s : State) (key : Key) : State :=
  { s with lastSent := fun k => if k = key then some s.clock else s.lastSent k }

/-- The mail of `key` is delivered. -/
def State.deliver (s : State) (key : Key) : State := { s with delivered := key :: s.delivered }

/-- Cycle `i` goes on at `c`, or is over. -/
def State.put (s : State) (i : Nat) (c : Option Cycle) : State :=
  { s with cycles := fun j => if j = i then c else s.cycles j }

/-- `fetchDispensedLogs(from, latest)`. -/
def fetchDispensedLogs (events : List Dispensed) (fromBlock latest : Nat) : List Dispensed :=
  events.filter fun ev => fromBlock ≤ ev.block ∧ ev.block ≤ latest

/-- `from`. -/
def State.fromBlock (s : State) (latest : Nat) : Nat :=
  if s.lastDispenserBlock ≠ 0 then s.lastDispenserBlock + 1 else latest - 500

/-- The key of the mail about the size of `ev`, if it is large against `bonded`. -/
def sizeKey (cfg : Config) (ev : Dispensed) (bonded : Nat) : Option Key :=
  if bonded > 0 then
    let frac := ev.amount * 1000000 / bonded
    if cfg.critical frac then some (.saleCrit ev.txHash)
    else if cfg.warning frac then some (.saleWarn ev.txHash)
    else none
  else none

/-- One step. -/
def step (cfg : Config) (s : State) : Event → Except Unit State
  | .mine sales =>
    .ok { s with
      head := s.head + 1
      events := s.events ++ sales.map fun (txHash, amount) => ⟨txHash, s.head + 1, amount⟩ }
  | .advance ms => .ok { s with clock := s.clock + ms }
  | .latest i n =>
    match s.cycles i with
    | some _ => .error ()
    | none =>
      if n ≤ s.head then
        if s.fromBlock n > n then .ok s else .ok (s.put i (some (.logs (s.fromBlock n) n)))
      else .error ()
  | .logs i ok =>
    match s.cycles i with
    | some (.logs fromBlock n) =>
      .ok (s.put i (if ok then some (.loop n none (fetchDispensedLogs s.events fromBlock n)) else none))
    | _ => .error ()
  | .next i =>
    match s.cycles i with
    | some (.loop n bonded (ev :: rest)) =>
      if suppressed cfg s (.sale ev.txHash) then .ok (s.put i (some (.pool n bonded ev rest)))
      else .ok ((s.record (.sale ev.txHash)).put i (some (.saleMail n bonded ev rest)))
    | some (.loop n _ []) => .ok ({ s with lastDispenserBlock := n }.put i none)
    | _ => .error ()
  | .sent i ok =>
    match s.cycles i with
    | some (.saleMail n bonded ev rest) =>
      if ok then .ok ((s.deliver (.sale ev.txHash)).put i (some (.pool n bonded ev rest)))
      else .ok (s.put i none)
    | some (.sizeMail n bonded key rest) =>
      if ok then .ok ((s.deliver key).put i (some (.loop n bonded rest)))
      else .ok (s.put i none)
    | _ => .error ()
  | .pool i answer =>
    match s.cycles i with
    | some (.pool n bonded ev rest) =>
      let bonded := bonded.getD (answer.getD 0)
      match sizeKey cfg ev bonded with
      | none => .ok (s.put i (some (.loop n (some bonded) rest)))
      | some key =>
        if suppressed cfg s key then .ok (s.put i (some (.loop n (some bonded) rest)))
        else .ok ((s.record key).put i (some (.sizeMail n (some bonded) key rest)))
    | _ => .error ()

/-- The sale of `ev` was mailed. -/
def Delivered (s : State) (ev : Dispensed) : Prop := .sale ev.txHash ∈ s.delivered

instance (s : State) (ev : Dispensed) : Decidable (Delivered s ev) :=
  inferInstanceAs (Decidable (_ ∈ _))

/-- The cursor has passed delivered sales only. -/
def AtLeastOnce (s : State) : Prop :=
  ∀ ev ∈ s.events, ev.block ≤ s.lastDispenserBlock → Delivered s ev

/-! ## The invariant -/

/-- The block a cycle will move the cursor to. -/
def Cycle.latest : Cycle → Nat
  | logs _ n => n
  | loop n _ _ => n
  | saleMail n _ _ _ => n
  | pool n _ _ _ => n
  | sizeMail n _ _ _ => n

/-- The events whose sale mail a cycle has still to see to, among the `events` of the chain. -/
def Cycle.todo (events : List Dispensed) : Cycle → List Dispensed
  | logs fromBlock n => fetchDispensedLogs events fromBlock n
  | loop _ _ rest => rest
  | saleMail _ _ ev rest => ev :: rest
  | pool _ _ _ rest => rest
  | sizeMail _ _ _ rest => rest

/-- Of the events up to the block the cycle will move the cursor to, each is delivered or on its
    list. -/
structure Covered (s : State) (c : Cycle) : Prop where
  latest : c.latest ≤ s.head
  pending : ∀ ev ∈ s.events, ev.block ≤ c.latest → Delivered s ev ∨ ev ∈ c.todo s.events

/-- Nothing is ahead of the chain, and neither the cursor nor a cycle leaves a sale behind. -/
structure Inv (s : State) : Prop where
  mined : ∀ ev ∈ s.events, ev.block ≤ s.head
  cursor : s.lastDispenserBlock ≤ s.head
  passed : AtLeastOnce s
  cycles : ∀ i c, s.cycles i = some c → Covered s c

/-- The event the loop of the cycle takes next. -/
def Cycle.next? : Cycle → Option Dispensed
  | loop _ _ (ev :: _) => some ev
  | _ => none

/-- The step leaves no sale behind: `notify` is kept back only by a mail that was delivered, and the
    first window begins at or before the first sale that is still to tell of. -/
def Keeps (cfg : Config) (s : State) : Event → Prop
  | .next i => ∀ ev ∈ (s.cycles i).bind Cycle.next?,
      suppressed cfg s (.sale ev.txHash) = true → Delivered s ev
  | .latest _ n => s.lastDispenserBlock = 0 → ∀ ev ∈ s.events, ev.block < n - 500 → Delivered s ev
  | _ => True

instance (cfg : Config) (s : State) : ∀ e : Event, Decidable (Keeps cfg s e)
  | .next i => inferInstanceAs (Decidable (∀ ev ∈ (s.cycles i).bind Cycle.next?,
      suppressed cfg s (.sale ev.txHash) = true → Delivered s ev))
  | .latest _ n => inferInstanceAs (Decidable (s.lastDispenserBlock = 0 →
      ∀ ev ∈ s.events, ev.block < n - 500 → Delivered s ev))
  | .mine _ => .isTrue trivial
  | .advance _ => .isTrue trivial
  | .logs _ _ => .isTrue trivial
  | .sent _ _ => .isTrue trivial
  | .pool _ _ => .isTrue trivial

section
variable {cfg : Config} {s t : State} {c : Cycle} {i n : Nat} {key : Key}

/-! ### What the changes of the state keep -/

theorem Covered.record (h : Covered s c) : Covered (s.record key) c := ⟨h.latest, h.pending⟩

theorem Covered.deliver (h : Covered s c) (key : Key) : Covered (s.deliver key) c := by
  refine ⟨h.latest, fun ev hev hle => ?_⟩
  rcases h.pending ev hev hle with hdelivered | htodo
  · exact Or.inl (List.mem_cons_of_mem key hdelivered)
  · exact Or.inr htodo

theorem Inv.record (h : Inv s) : Inv (s.record key) :=
  ⟨h.mined, h.cursor, h.passed, fun i c hc => (h.cycles i c hc).record⟩

theorem Inv.deliver (h : Inv s) : Inv (s.deliver key) := by
  refine ⟨h.mined, h.cursor, fun ev hev hle => ?_, fun i c hc => (h.cycles i c hc).deliver key⟩
  exact List.mem_cons_of_mem key (h.passed ev hev hle)

/-- A cycle may go on wherever it is covered. -/
theorem Inv.put (h : Inv s) {c : Option Cycle} (hc : ∀ c', c = some c' → Covered s c') :
    Inv (s.put i c) := by
  refine ⟨h.mined, h.cursor, h.passed, fun j c' hj => ?_⟩
  have hcovered : Covered s c' := by
    unfold State.put at hj
    dsimp only at hj
    split at hj
    · exact hc c' hj
    · exact h.cycles j c' hj
  exact ⟨hcovered.latest, hcovered.pending⟩

/-- It may be over at any time. -/
theorem Inv.putNone (h : Inv s) : Inv (s.put i none) := h.put nofun

theorem Inv.putSome (h : Inv s) (hc : Covered s c) : Inv (s.put i (some c)) :=
  h.put fun _ heq => by injection heq with heq; exact heq ▸ hc

/-- A new block is after everything a cycle has read. -/
theorem Inv.mine (h : Inv s) {sales : List (String × Nat)} (hs : step cfg s (.mine sales) = .ok t) :
    Inv t := by
  injection hs with hs
  subst hs
  have hnew : ∀ ev ∈ sales.map (fun (txHash, amount) => (⟨txHash, s.head + 1, amount⟩ : Dispensed)),
      ev.block = s.head + 1 := by
    intro ev hev
    obtain ⟨sale, -, rfl⟩ := List.mem_map.mp hev
    rfl
  refine ⟨?_, Nat.le_succ_of_le h.cursor, ?_, ?_⟩
  · intro ev hev
    rcases List.mem_append.mp hev with hold | hev
    · exact Nat.le_succ_of_le (h.mined ev hold)
    · exact Nat.le_of_eq (hnew ev hev)
  · intro ev hev hle
    rcases List.mem_append.mp hev with hold | hev
    · exact h.passed ev hold hle
    · have := hnew ev hev
      have := h.cursor
      dsimp only at hle
      omega
  · intro i c hc
    have hcovered := h.cycles i c hc
    refine ⟨Nat.le_succ_of_le hcovered.latest, fun ev hev hle => ?_⟩
    rcases List.mem_append.mp hev with hold | hev
    · rcases hcovered.pending ev hold hle with hdelivered | htodo
      · exact Or.inl hdelivered
      · refine Or.inr ?_
        -- the list of a cycle that waits for its logs is read off the longer list of events
        cases c with
        | logs fromBlock n =>
          obtain ⟨-, hwindow⟩ := List.mem_filter.mp htodo
          exact List.mem_filter.mpr ⟨List.mem_append_left _ hold, hwindow⟩
        | _ => exact htodo
    · have := hnew ev hev
      have := hcovered.latest
      omega

/-! ### The steps of a cycle -/

/-- The window of a new cycle begins after what the cursor has passed. -/
theorem covered_window (h : Inv s) (hn : n ≤ s.head)
    (hkeeps : s.lastDispenserBlock = 0 → ∀ ev ∈ s.events, ev.block < n - 500 → Delivered s ev) :
    Covered s (.logs (s.fromBlock n) n) := by
  refine ⟨hn, fun ev hev hle => ?_⟩
  by_cases hwindow : s.fromBlock n ≤ ev.block
  · exact Or.inr (List.mem_filter.mpr ⟨hev, decide_eq_true ⟨hwindow, hle⟩⟩)
  · refine Or.inl ?_
    unfold State.fromBlock at hwindow
    split at hwindow
    · exact h.passed ev hev (by omega)
    · rename_i hunset
      exact hkeeps (not_not.mp hunset) ev hev (Nat.lt_of_not_le hwindow)

theorem Inv.latest (h : Inv s) (hkeeps : Keeps cfg s (.latest i n))
    (hs : step cfg s (.latest i n) = .ok t) : Inv t := by
  unfold step at hs
  dsimp only at hs
  split at hs
  · nomatch hs
  · split at hs
    · rename_i hn
      split at hs
      · injection hs with hs
        exact hs ▸ h
      · injection hs with hs
        exact hs ▸ h.putSome (covered_window h hn hkeeps)
    · nomatch hs

theorem Inv.logs (h : Inv s) {ok : Bool} (hs : step cfg s (.logs i ok) = .ok t) : Inv t := by
  unfold step at hs
  dsimp only at hs
  split at hs
  · rename_i fromBlock n hi
    injection hs with hs
    subst hs
    have hcovered := h.cycles i _ hi
    cases ok with
    | true => exact h.putSome ⟨hcovered.latest, hcovered.pending⟩
    | false => exact h.putNone
  · nomatch hs

/-- The loop: an event that is kept back was delivered; one that is not stays on the list; and at the
    end of the list the cursor moves over delivered sales. -/
theorem Inv.next (h : Inv s) (hkeeps : Keeps cfg s (.next i)) (hs : step cfg s (.next i) = .ok t) :
    Inv t := by
  unfold step at hs
  dsimp only at hs
  split at hs
  · rename_i n bonded ev rest hi
    have hcovered := h.cycles i _ hi
    split at hs
    · rename_i hsuppressed
      injection hs with hs
      subst hs
      have hev : Delivered s ev := hkeeps ev (by rw [hi]; rfl) hsuppressed
      refine h.putSome ⟨hcovered.latest, fun e he hle => ?_⟩
      rcases hcovered.pending e he hle with hdelivered | htodo
      · exact Or.inl hdelivered
      · rcases List.mem_cons.mp htodo with rfl | hrest
        · exact Or.inl hev
        · exact Or.inr hrest
    · injection hs with hs
      subst hs
      exact h.record.putSome ⟨hcovered.latest, hcovered.pending⟩
  · rename_i n bonded hi
    injection hs with hs
    subst hs
    have hcovered := h.cycles i _ hi
    have hpassed : ∀ ev ∈ s.events, ev.block ≤ n → Delivered s ev := by
      intro ev hev hle
      exact (hcovered.pending ev hev hle).resolve_right List.not_mem_nil
    have hmoved : Inv { s with lastDispenserBlock := n } :=
      ⟨h.mined, hcovered.latest, hpassed, fun j c hc => ⟨(h.cycles j c hc).latest,
        (h.cycles j c hc).pending⟩⟩
    exact hmoved.putNone
  · nomatch hs

/-- A mail: once it is delivered, its event is off the list. -/
theorem Inv.sent (h : Inv s) {ok : Bool} (hs : step cfg s (.sent i ok) = .ok t) : Inv t := by
  unfold step at hs
  dsimp only at hs
  split at hs
  · rename_i n bonded ev rest hi
    have hcovered := (h.cycles i _ hi).deliver (.sale ev.txHash)
    split at hs
    · injection hs with hs
      subst hs
      refine h.deliver.putSome ⟨hcovered.latest, fun e he hle => ?_⟩
      rcases hcovered.pending e he hle with hdelivered | htodo
      · exact Or.inl hdelivered
      · rcases List.mem_cons.mp htodo with rfl | hrest
        · exact Or.inl List.mem_cons_self
        · exact Or.inr hrest
    · injection hs with hs
      exact hs ▸ h.putNone
  · rename_i n bonded key rest hi
    have hcovered := (h.cycles i _ hi).deliver key
    split at hs
    · injection hs with hs
      exact hs ▸ h.deliver.putSome ⟨hcovered.latest, hcovered.pending⟩
    · injection hs with hs
      exact hs ▸ h.putNone
  · nomatch hs

/-- The mail about the size changes nothing about the list. -/
theorem Inv.pool (h : Inv s) {answer : Option Nat} (hs : step cfg s (.pool i answer) = .ok t) :
    Inv t := by
  unfold step at hs
  dsimp only at hs
  split at hs
  · rename_i n bonded ev rest hi
    have hcovered := h.cycles i _ hi
    split at hs
    · injection hs with hs
      exact hs ▸ h.putSome ⟨hcovered.latest, hcovered.pending⟩
    · split at hs
      · injection hs with hs
        exact hs ▸ h.putSome ⟨hcovered.latest, hcovered.pending⟩
      · injection hs with hs
        exact hs ▸ h.record.putSome ⟨hcovered.latest, hcovered.pending⟩
  · nomatch hs

/-- **Every step keeps the invariant**, if it meets the condition. -/
theorem inv_step {e : Event} (h : Inv s) (hkeeps : Keeps cfg s e) (hs : step cfg s e = .ok t) :
    Inv t := by
  cases e with
  | mine sales => exact h.mine hs
  | advance ms =>
    injection hs with hs
    subst hs
    exact ⟨h.mined, h.cursor, h.passed, fun i c hc => ⟨(h.cycles i c hc).latest,
      (h.cycles i c hc).pending⟩⟩
  | latest i n => exact h.latest hkeeps hs
  | logs i ok => exact h.logs hs
  | next i => exact h.next hkeeps hs
  | sent i ok => exact h.sent hs
  | pool i answer => exact h.pool hs

end

/-- The service as it starts: nothing sent, and the cursor as it was saved. -/
def start (clock head lastDispenserBlock : Nat) (events : List Dispensed) : State where
  clock
  head
  events
  lastDispenserBlock
  lastSent _ := none
  cycles _ := none
  delivered := []

/-- **Every sale the cursor has passed was mailed**, in every run whose steps meet the condition. -/
theorem at_least_once {cfg : Config} {clock head lastDispenserBlock : Nat} {events : List Dispensed}
    {es : List Event} {s : State} (hcursor : lastDispenserBlock ≤ head)
    (hevents : ∀ ev ∈ events, lastDispenserBlock < ev.block ∧ ev.block ≤ head)
    (hrun : Run (step cfg) (Keeps cfg) (start clock head lastDispenserBlock events) es s) :
    AtLeastOnce s := by
  have hstart : Inv (start clock head lastDispenserBlock events) := by
    refine ⟨fun ev hev => (hevents ev hev).2, hcursor, fun ev hev hle => ?_, nofun⟩
    exact absurd hle (Nat.not_le_of_lt (hevents ev hev).1)
  exact (Run.inv Inv hstart (fun _ _ _ h he hs => inv_step h he hs) hrun).passed

/-- Three hours, a quarter and a tenth of the stake. -/
def defaults : Config := ⟨10800000, fun frac => 250000 ≤ frac, fun frac => 100000 ≤ frac⟩

/-- The mail of a sale fails, and is sent again when the time is up; two events of one transaction
    are one mail. -/
def retried : List Event :=
  [.mine [("0xa1", 5), ("0xa1", 300)], .latest 0 11, .logs 0 true, .next 0, .sent 0 false,
    .advance 10800000, .latest 1 11, .logs 1 true, .next 1, .sent 1 true, .pool 1 (some 1000),
    .next 1, .pool 1 none, .sent 1 true, .next 1]

theorem at_least_once_retried :
    (runTo (step defaults) (start 1000 10 10 []) retried).lastDispenserBlock = 11 ∧
      AtLeastOnce (runTo (step defaults) (start 1000 10 10 []) retried) := by
  have hrun : Run (step defaults) (Keeps defaults) (start 1000 10 10 []) retried
      (runTo (step defaults) (start 1000 10 10 []) retried) :=
    Run.of_runTo (by decide +kernel) (by decide +kernel)
  exact ⟨by decide +kernel, at_least_once (by decide) (fun _ h => absurd h List.not_mem_nil) hrun⟩

/-! ## What the condition rules out

  A cycle that takes an undelivered sale for told loses it, if from then on nothing fails: it goes
  through the rest of its list, and the mail of that sale is not sent again. -/

section
variable {cfg : Config} {s : State} {i n : Nat} {bonded : Option Nat} {ev : Dispensed}
  {rest : List Dispensed} {txHash : String}

/-- The mail of the sale is kept back, and was not delivered. -/
structure KeptBack (cfg : Config) (s : State) (txHash : String) : Prop where
  suppressed : suppressed cfg s (.sale txHash) = true
  undelivered : .sale txHash ∉ s.delivered

theorem KeptBack.put (h : KeptBack cfg s txHash) (i : Nat) (c : Option Cycle) :
    KeptBack cfg (s.put i c) txHash :=
  ⟨h.suppressed, h.undelivered⟩

/-- The mail of another key changes nothing about it. -/
theorem KeptBack.mailed (h : KeptBack cfg s txHash) {key : Key} (hne : .sale txHash ≠ key) :
    KeptBack cfg ((s.record key).deliver key) txHash := by
  refine ⟨?_, ?_⟩
  · have hlast : ((s.record key).deliver key).lastSent (.sale txHash) = s.lastSent (.sale txHash) :=
      if_neg hne
    have hkept := h.suppressed
    unfold GmbSales.suppressed at hkept ⊢
    rw [hlast]
    exact hkept
  · intro hmem
    rcases List.mem_cons.mp hmem with heq | hmem
    · exact hne heq
    · exact h.undelivered hmem

theorem put_cycles (s : State) (i : Nat) (c : Option Cycle) : (s.put i c).cycles i = c := if_pos rfl

/-- A step nobody holds back. -/
theorem run_one {t : State} {e : Event} (hs : step cfg s e = .ok t) :
    Run (step cfg) (fun _ _ => True) s [e] t :=
  Run.snoc Run.nil trivial hs

theorem step_next (hi : s.cycles i = some (.loop n bonded (ev :: rest))) : step cfg s (.next i) =
    if suppressed cfg s (.sale ev.txHash) then .ok (s.put i (some (.pool n bonded ev rest)))
    else .ok ((s.record (.sale ev.txHash)).put i (some (.saleMail n bonded ev rest))) := by
  unfold step
  dsimp only
  rw [hi]

theorem step_sent (hi : s.cycles i = some (.saleMail n bonded ev rest)) : step cfg s (.sent i true) =
    .ok ((s.deliver (.sale ev.txHash)).put i (some (.pool n bonded ev rest))) := by
  unfold step
  dsimp only
  rw [hi]
  rfl

theorem step_sizeSent {key : Key} (hi : s.cycles i = some (.sizeMail n bonded key rest)) :
    step cfg s (.sent i true) = .ok ((s.deliver key).put i (some (.loop n bonded rest))) := by
  unfold step
  dsimp only
  rw [hi]
  rfl

theorem step_pool_small (hi : s.cycles i = some (.pool n bonded ev rest))
    (hsize : sizeKey cfg ev (bonded.getD 0) = none) :
    step cfg s (.pool i none) = .ok (s.put i (some (.loop n (some (bonded.getD 0)) rest))) := by
  unfold step
  dsimp only
  rw [hi]
  dsimp only [Option.getD_none]
  rw [hsize]

theorem step_pool_large {key : Key} (hi : s.cycles i = some (.pool n bonded ev rest))
    (hsize : sizeKey cfg ev (bonded.getD 0) = some key) : step cfg s (.pool i none) =
    if suppressed cfg s key then .ok (s.put i (some (.loop n (some (bonded.getD 0)) rest)))
    else .ok ((s.record key).put i (some (.sizeMail n (some (bonded.getD 0)) key rest))) := by
  unfold step
  dsimp only
  rw [hi]
  dsimp only [Option.getD_none]
  rw [hsize]

/-- The mail about the size of an event is no mail of a sale. -/
theorem sale_ne_sizeKey {key : Key} {b : Nat} (h : sizeKey cfg ev b = some key) :
    Key.sale txHash ≠ key := by
  unfold sizeKey at h
  rintro rfl
  split at h
  · dsimp only at h
    split at h
    · injection h with h
      injection h
    · split at h
      · injection h with h
        injection h
      · injection h
  · injection h

/-- The loop gets to the weighing of its next event. -/
theorem run_to_pool (hi : s.cycles i = some (.loop n bonded (ev :: rest)))
    (h : KeptBack cfg s txHash) : ∃ es t, Run (step cfg) (fun _ _ => True) s es t ∧
      t.events = s.events ∧ t.cycles i = some (.pool n bonded ev rest) ∧ KeptBack cfg t txHash := by
  have hnext : step cfg s (.next i) = _ := step_next hi
  by_cases hkept : suppressed cfg s (.sale ev.txHash) = true
  · rw [if_pos hkept] at hnext
    exact ⟨_, _, run_one hnext, rfl, put_cycles _ _ _, h.put i _⟩
  · rw [if_neg hkept] at hnext
    have hne : Key.sale txHash ≠ .sale ev.txHash := by
      intro heq
      rw [← heq] at hkept
      exact hkept h.suppressed
    have hmailed := h.mailed hne
    exact ⟨_, _, Run.append (run_one hnext) (run_one (step_sent (put_cycles _ _ _))), rfl,
      put_cycles _ _ _, ⟨hmailed.suppressed, hmailed.undelivered⟩⟩

/-- It gets over it to the rest of its list. -/
theorem run_to_loop (hi : s.cycles i = some (.pool n bonded ev rest))
    (h : KeptBack cfg s txHash) : ∃ es t b, Run (step cfg) (fun _ _ => True) s es t ∧
      t.events = s.events ∧ t.cycles i = some (.loop n b rest) ∧ KeptBack cfg t txHash := by
  cases hsize : sizeKey cfg ev (bonded.getD 0) with
  | none =>
    exact ⟨_, _, _, run_one (step_pool_small hi hsize), rfl, put_cycles _ _ _, h.put i _⟩
  | some key =>
    have hpool := step_pool_large hi hsize
    by_cases hkept : suppressed cfg s key = true
    · rw [if_pos hkept] at hpool
      exact ⟨_, _, _, run_one hpool, rfl, put_cycles _ _ _, h.put i _⟩
    · rw [if_neg hkept] at hpool
      have hmailed := h.mailed (sale_ne_sizeKey hsize)
      exact ⟨_, _, _, Run.append (run_one hpool) (run_one (step_sizeSent (put_cycles _ _ _))), rfl,
        put_cycles _ _ _, ⟨hmailed.suppressed, hmailed.undelivered⟩⟩

/-- The cycle goes through the rest of its list, and moves the cursor. -/
theorem run_to_end (hi : s.cycles i = some (.loop n bonded rest)) (h : KeptBack cfg s txHash) :
    ∃ es t, Run (step cfg) (fun _ _ => True) s es t ∧ t.events = s.events ∧
      t.lastDispenserBlock = n ∧ KeptBack cfg t txHash := by
  induction rest generalizing s bonded with
  | nil =>
    have hnext : step cfg s (.next i) = .ok ({ s with lastDispenserBlock := n }.put i none) := by
      unfold step
      dsimp only
      rw [hi]
    exact ⟨_, _, run_one hnext, rfl, rfl, ⟨h.suppressed, h.undelivered⟩⟩
  | cons ev rest ih =>
    obtain ⟨es₁, s₁, hrun₁, hevents₁, hpool, h₁⟩ := run_to_pool hi h
    obtain ⟨es₂, s₂, b, hrun₂, hevents₂, hloop, h₂⟩ := run_to_loop hpool h₁
    obtain ⟨es₃, t, hrun₃, hevents₃, hcursor, ht⟩ := ih hloop h₂
    exact ⟨_, t, Run.append (Run.append hrun₁ hrun₂) hrun₃,
      hevents₃.trans (hevents₂.trans hevents₁), hcursor, ht⟩

/-- **A sale that a cycle takes for told is lost**, if from then on nothing fails. -/
theorem lost_of_kept_back (hi : s.cycles i = some (.loop n bonded (ev :: rest)))
    (hev : ev ∈ s.events) (hle : ev.block ≤ n)
    (hkept : suppressed cfg s (.sale ev.txHash) = true) (hnot : ¬ Delivered s ev) :
    ∃ es t, Run (step cfg) (fun _ _ => True) s es t ∧ ¬ AtLeastOnce t := by
  obtain ⟨es, t, hrun, hevents, hcursor, ht⟩ := run_to_end hi ⟨hkept, hnot⟩
  refine ⟨es, t, hrun, fun h => ht.undelivered ?_⟩
  exact h ev (hevents ▸ hev) (by rw [hcursor]; exact hle)

end

/-- Half a minute after the mail failed, the sale counts as told. -/
def tooSoon : List Event :=
  [.mine [("0xa1", 5)], .latest 0 11, .logs 0 true, .next 0, .sent 0 false,
    .advance 30000, .latest 1 11, .logs 1 true, .next 1, .pool 1 (some 1000), .next 1]

/-- **A sale is lost**: the one mail that was tried failed, and the cursor is past its block. -/
theorem sale_lost : ¬ ∀ (cfg : Config) (clock head lastDispenserBlock : Nat)
    (events : List Dispensed) (es : List Event) (s : State), lastDispenserBlock ≤ head →
    (∀ ev ∈ events, lastDispenserBlock < ev.block ∧ ev.block ≤ head) →
    Run (step cfg) (fun _ _ => True) (start clock head lastDispenserBlock events) es s →
    AtLeastOnce s := by
  intro h
  have hrun : Run (step defaults) (fun _ _ => True) (start 1000 10 10 []) tooSoon
      (runTo (step defaults) (start 1000 10 10 []) tooSoon) :=
    Run.of_runTo (allowedM_of_forall fun _ _ _ => trivial) (by decide +kernel)
  have hdelivered := h defaults 1000 10 10 [] tooSoon _ (by decide)
    (fun _ h => absurd h List.not_mem_nil) hrun ⟨"0xa1", 11, 5⟩ (by decide +kernel) (by decide +kernel)
  exact absurd hdelivered (by decide +kernel)

end Gemba.Notifier.GmbSales
