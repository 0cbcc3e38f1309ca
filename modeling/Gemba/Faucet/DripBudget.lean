/-
  The daily budget of the drip service, over every interleaving of its requests.

  A request takes a slot of the counter when it comes in and gives it back when it fails.  The counter
  belongs to one day, and a request that comes in on another day resets it; the request that fails does
  not ask whose day it is.  So a request of yesterday that fails today gives back a slot of today's, and
  today pays out one drip too many (`late_failure_overspends`).

  That is all that can go wrong: if a failing request gives back to its own day's counter, or finds it
  empty, and no request passes the cooldowns on a day before the counter's, the requests of a day that
  are not rolled back are at most what the counter says (`BudgetKept`), and no day pays out more than
  the maximum (`daily_budget_kept`).
-/
import Gemba.Faucet.DripService

namespace Gemba.Faucet.DripService

open Gemba.Lib Gemba.Js

/-- The requests of a day that hold a slot: those that passed the gates and are not rolled back. -/
def State.heldOn (s : State) (day : Int) : Nat :=
  s.requests.countP fun r => decide (r.stage ≠ .rolledBack ∧ dayOf r.now = day)

/-- The successful drips of a day. -/
def State.dripsOn (s : State) (day : Int) : Nat :=
  s.requests.countP fun r => decide (r.stage = .succeeded ∧ dayOf r.now = day)

/-- The step finds the counter on the day it is meant for. -/
structure OnItsDay {F : Type} (cfg : Config) (s : State) (e : Event F) : Prop where
  /-- A request that asks for a slot does not come in on an earlier day. -/
  asks : ∀ body ip now, e = .post body ip now → s.server.PassesCooldowns body ip now →
    s.server.budget.dripDay ≤ dayOf now
  /-- A request that fails took its slot on that day, or there is none to give back. -/
  gives_back : ∀ r, e.undone cfg s = some r →
    dayOf r.now = s.server.budget.dripDay ∨ s.server.budget.dripCountToday = 0

/-- **No day has more requests than the counter allows.** -/
structure BudgetKept (cfg : Config) (s : State) : Prop where
  today : s.heldOn s.server.budget.dripDay ≤ s.server.budget.dripCountToday
  count_le : s.server.budget.dripCountToday ≤ cfg.dailyGlobalMax
  later : ∀ day, s.server.budget.dripDay < day → s.heldOn day = 0
  every : ∀ day, s.heldOn day ≤ cfg.dailyGlobalMax

section
variable {F : Type} {cfg : Config} {s t : State} {e : Event F} {day now : Int} {b b' : Budget}
  {max : Nat}

theorem dripsOn_le_heldOn (s : State) (day : Int) : s.dripsOn day ≤ s.heldOn day := by
  refine List.countP_mono_left fun r _ h => ?_
  rw [decide_eq_true_eq] at h ⊢
  exact ⟨by rw [h.1]; exact Stage.noConfusion, h.2⟩

/-- Replacing an entry of a list, counted. -/
theorem countP_set_add {α : Type} {p : α → Bool} {l : List α} {i : Nat} {x : α} (a : α)
    (hx : l[i]? = some x) :
    (l.set i a).countP p + (if p x then 1 else 0) = l.countP p + (if p a then 1 else 0) := by
  induction l generalizing i with
  | nil => nomatch hx
  | cons y ys ih =>
    cases i with
    | zero =>
      injection hx with hx
      rw [List.set_cons_zero, List.countP_cons, List.countP_cons, hx]
      omega
    | succ i =>
      have htail := ih (i := i) hx
      rw [List.set_cons_succ, List.countP_cons, List.countP_cons]
      omega

/-- A request moved on holds its slot as before. -/
theorem heldOn_moved {server : Server} {i : Nat} {r : Request} {stage : Stage}
    {answers : List Response} {arrivals : List Int} (hr : s.requests[i]? = some r)
    (hlive : r.stage ≠ .rolledBack) (hstage : stage ≠ .rolledBack) (day : Int) :
    State.heldOn ⟨server, s.requests.set i { r with stage := stage }, answers, arrivals⟩ day
      = s.heldOn day := by
  have hset := countP_set_add (p := fun r => decide (r.stage ≠ .rolledBack ∧ dayOf r.now = day))
    { r with stage := stage } hr
  dsimp only at hset
  rw [decide_eq_decide.mpr (and_congr_left' (iff_of_true hstage hlive))] at hset
  exact Nat.add_right_cancel hset

/-- A request rolled back holds its slot no more. -/
theorem heldOn_undone {server : Server} {i : Nat} {r : Request} {answers : List Response}
    {arrivals : List Int} (hr : s.requests[i]? = some r) (hlive : r.stage ≠ .rolledBack) (day : Int) :
    State.heldOn ⟨server, s.requests.set i { r with stage := .rolledBack }, answers, arrivals⟩ day
      + (if dayOf r.now = day then 1 else 0) = s.heldOn day := by
  have hset := countP_set_add (p := fun r => decide (r.stage ≠ .rolledBack ∧ dayOf r.now = day))
    { r with stage := .rolledBack } hr
  have hheld : (r.stage ≠ .rolledBack ∧ dayOf r.now = day) ↔ dayOf r.now = day := and_iff_right hlive
  have hgone : ¬ (Stage.rolledBack ≠ .rolledBack ∧ dayOf r.now = day) := fun h => h.1 rfl
  simp only [decide_eq_true_eq, hheld, if_neg hgone] at hset
  exact hset

/-- A request that passes the gates holds a slot of its day. -/
theorem heldOn_passed {server : Server} {dst : String} {ip : Option String}
    {answers : List Response} {arrivals : List Int} (day : Int) :
    State.heldOn ⟨server, s.requests ++ [⟨dst, ip, now, .balance⟩], answers, arrivals⟩ day
      = s.heldOn day + if dayOf now = day then 1 else 0 := by
  unfold State.heldOn
  rw [List.countP_append, List.countP_singleton]
  have hheld : (Stage.balance ≠ .rolledBack ∧ dayOf now = day) ↔ dayOf now = day :=
    and_iff_right Stage.noConfusion
  simp only [decide_eq_true_eq, hheld]

/-- The counter of the day of a request, before it is asked. -/
theorem Budget.on_day (b : Budget) (day : Int) : (b.on day).dripDay = day := by
  unfold Budget.on
  split
  · rfl
  · rename_i h
    exact (not_not.mp h).symm

/-- **The counter of the day asked for** covers that day's requests, also after a reset. -/
theorem BudgetKept.on (h : BudgetKept cfg s) (hday : s.server.budget.dripDay ≤ day) :
    s.heldOn day ≤ (s.server.budget.on day).dripCountToday ∧
      (s.server.budget.on day).dripCountToday ≤ cfg.dailyGlobalMax := by
  unfold Budget.on
  split
  · rename_i hne
    have hlater : s.server.budget.dripDay < day := lt_of_le_of_ne hday (Ne.symm hne)
    exact ⟨(h.later day hlater).le, Nat.zero_le _⟩
  · rename_i hsame
    rw [not_not.mp hsame]
    exact ⟨h.today, h.count_le⟩

theorem globalBudgetAllow_eq :
    globalBudgetAllow max now b = if max ≤ (b.on (dayOf now)).dripCountToday then
        (false, b.on (dayOf now))
      else (true, ⟨(b.on (dayOf now)).dripDay, (b.on (dayOf now)).dripCountToday + 1⟩) := rfl

/-- What a refused request does to the budget. -/
theorem BudgetKept.refused {body : Value F} {ip : Option String} {dst : String} {server : Server}
    {answers : List Response} {arrivals : List Int} (h : BudgetKept cfg s)
    (hday : s.server.PassesCooldowns body ip now → s.server.budget.dripDay ≤ dayOf now)
    (hleft : Left cfg s.server (s.server.PassesCooldowns body ip now) dst now server) :
    BudgetKept cfg ⟨server, s.requests, answers, arrivals⟩ := by
  rcases hleft.budget with hsame | ⟨hpasses, hrefused⟩
  -- a cooldown refused it, and the budget was not asked
  · refine ⟨?_, ?_, ?_, h.every⟩
    · show s.heldOn server.budget.dripDay ≤ server.budget.dripCountToday
      rw [hsame]
      exact h.today
    · show server.budget.dripCountToday ≤ _
      rw [hsame]
      exact h.count_le
    · show ∀ day, server.budget.dripDay < day → s.heldOn day = 0
      rw [hsame]
      exact h.later
  · rw [globalBudgetAllow_eq] at hrefused
    split at hrefused
    -- the budget refused it, on a day that may be new
    · injection hrefused with _ hbudget
      obtain ⟨htoday, hcount⟩ := h.on (hday hpasses)
      refine ⟨?_, ?_, ?_, h.every⟩
      · show s.heldOn server.budget.dripDay ≤ server.budget.dripCountToday
        rw [← hbudget, Budget.on_day]
        exact htoday
      · show server.budget.dripCountToday ≤ _
        rw [← hbudget]
        exact hcount
      · show ∀ day, server.budget.dripDay < day → s.heldOn day = 0
        rw [← hbudget, Budget.on_day]
        exact fun day hlt => h.later day (lt_of_le_of_lt (hday hpasses) hlt)
    · nomatch hrefused

/-- A request that passes the gates takes a slot of its day. -/
theorem BudgetKept.passed {ip : Option String} {dst : String} {server : Server}
    {answers : List Response} {arrivals : List Int} (h : BudgetKept cfg s)
    (hday : s.server.budget.dripDay ≤ dayOf now)
    (hgates : s.server.gates cfg dst ip now = (none, server)) :
    BudgetKept cfg ⟨server, s.requests ++ [⟨dst, ip, now, .balance⟩], answers, arrivals⟩ := by
  obtain ⟨-, -, -, hallowed⟩ := gates_none hgates
  obtain ⟨htoday, hcount⟩ := h.on hday
  rw [globalBudgetAllow_eq] at hallowed
  split at hallowed
  · nomatch hallowed
  · rename_i hroom
    injection hallowed with _ hbudget
    have hdripDay : server.budget.dripDay = dayOf now := by rw [← hbudget, Budget.on_day]
    have hdripCount : server.budget.dripCountToday
        = (s.server.budget.on (dayOf now)).dripCountToday + 1 := by rw [← hbudget]
    refine ⟨?_, ?_, fun day hlt => ?_, fun day => ?_⟩
    · dsimp only
      rw [hdripDay, hdripCount, heldOn_passed, if_pos rfl]
      omega
    · dsimp only
      omega
    · dsimp only at hlt
      rw [hdripDay] at hlt
      rw [heldOn_passed, if_neg hlt.ne, Nat.add_zero]
      exact h.later day (lt_of_le_of_lt hday hlt)
    · rw [heldOn_passed]
      have hevery := h.every day
      -- the day of the request is the counter's, and the counter had room
      by_cases hsame : dayOf now = day
      · rw [if_pos hsame, ← hsame]
        omega
      · rw [if_neg hsame]
        exact hevery

/-- A request that fails gives its slot back. -/
theorem BudgetKept.undone {i : Nat} {r : Request} {answers : List Response} (h : BudgetKept cfg s)
    (hr : s.requests[i]? = some r) (hlive : r.stage ≠ .rolledBack)
    (hday : dayOf r.now = s.server.budget.dripDay ∨ s.server.budget.dripCountToday = 0) :
    BudgetKept cfg ⟨s.server.rollBack r, s.requests.set i { r with stage := .rolledBack }, answers,
      s.arrivals⟩ := by
  have hheld : ∀ day, State.heldOn ⟨s.server.rollBack r,
      s.requests.set i { r with stage := .rolledBack }, answers, s.arrivals⟩ day
        + (if dayOf r.now = day then 1 else 0) = s.heldOn day := heldOn_undone hr hlive
  have hbudget : (s.server.rollBack r).budget.dripDay = s.server.budget.dripDay ∧
      (s.server.rollBack r).budget.dripCountToday = s.server.budget.dripCountToday - 1 := by
    show (globalBudgetRelease s.server.budget).dripDay = _ ∧
      (globalBudgetRelease s.server.budget).dripCountToday = _
    unfold globalBudgetRelease
    split
    · exact ⟨rfl, rfl⟩
    · exact ⟨rfl, by omega⟩
  have htoday := h.today
  have hcount := h.count_le
  refine ⟨?_, ?_, fun day hlt => ?_, fun day => ?_⟩
  · have hslot := hheld s.server.budget.dripDay
    dsimp only
    rw [hbudget.1, hbudget.2]
    -- its own day loses a request with the slot; an empty counter says the day has none
    rcases hday with hday | hday
    · rw [if_pos hday] at hslot
      omega
    · omega
  · dsimp only
    omega
  · have hslot := hheld day
    dsimp only at hlt
    rw [hbudget.1] at hlt
    have := h.later day hlt
    omega
  · have hslot := hheld day
    have := h.every day
    omega

theorem BudgetKept.step (h : BudgetKept cfg s) (hday : OnItsDay cfg s e)
    (hstep : DripService.step cfg s e = .ok t) : BudgetKept cfg t := by
  cases step_stepped hstep with
  | refused dst answers hleft => exact h.refused (hday.asks _ _ _ rfl) hleft
  | passed hbody hdst hgates =>
    obtain ⟨haddress, hip, -, -⟩ := gates_none hgates
    exact h.passed (hday.asks _ _ _ rfl ⟨_, hbody, hdst, haddress, hip⟩) hgates
  | @moved e i r stage answers hr hwaiting hstage hundone =>
    have hheld : ∀ day, State.heldOn ⟨s.server, s.requests.set i { r with stage := stage }, answers,
        s.arrivals⟩ day = s.heldOn day := heldOn_moved hr hwaiting.ne_rolledBack hstage
    refine ⟨?_, h.count_le, fun day hlt => ?_, fun day => ?_⟩
    · rw [hheld]
      exact h.today
    · rw [hheld]
      exact h.later day hlt
    · rw [hheld]
      exact h.every day
  | undone answers hr hwaiting hundone =>
    exact h.undone hr hwaiting.ne_rolledBack (hday.gives_back _ hundone)

theorem budgetKept_init (cfg : Config) : BudgetKept cfg (State.init cfg) :=
  ⟨le_rfl, Nat.zero_le _, fun _ _ => rfl, fun _ => Nat.zero_le _⟩

/-- **The daily budget**: while every step finds the counter on its day, no day pays out more than the
    maximum. -/
theorem daily_budget_kept {es : List (Event F)}
    (h : Run (DripService.step cfg) (OnItsDay cfg) (State.init cfg) es t) (day : Int) :
    t.dripsOn day ≤ cfg.dailyGlobalMax := by
  have hkept := Run.inv (BudgetKept cfg) (budgetKept_init cfg)
    (fun s e s' hs hday hstep => hs.step hday hstep) h
  exact le_trans (dripsOn_le_heldOn t day) (hkept.every day)

/-- A budget of one drip a day. -/
def oneADay : Config := ⟨86400000, 1, 0, "100"⟩

/-- The first request of the day fails after the gates and gives its slot back, the third gets it; the
    second and the fourth find it taken. -/
def oneDrip : List (Event Unit) :=
  [.post (asking "0x00000000000000000000000000000000000000aa") (some "10.0.0.1") 86400000,
    .post (asking "0x00000000000000000000000000000000000000bb") (some "10.0.0.2") 86400001,
    .balance 0 (.ok 5), .drip 0 (.error "k3x"),
    .post (asking "0x00000000000000000000000000000000000000cc") (some "10.0.0.3") 86400002,
    .balance 1 (.ok 5), .drip 1 (.ok "0x01"),
    .post (asking "0x00000000000000000000000000000000000000dd") (some "10.0.0.4") 86400003]

/-- `OnItsDay`, asked of every request whatever the cooldowns say. -/
def Event.onItsDay (cfg : Config) (s : State) (e : Event F) : Bool :=
  (match e with
    | .post _ _ now => decide (s.server.budget.dripDay ≤ dayOf now)
    | .balance _ _ | .drip _ _ => true) &&
  (e.undone cfg s).all fun r =>
    decide (dayOf r.now = s.server.budget.dripDay ∨ s.server.budget.dripCountToday = 0)

theorem OnItsDay.of_check (h : e.onItsDay cfg s = true) : OnItsDay cfg s e := by
  obtain ⟨hasks, hgives⟩ := Bool.and_eq_true_iff.mp h
  refine ⟨fun body ip now he _ => ?_, fun r hr => ?_⟩
  · subst he
    exact of_decide_eq_true hasks
  · rw [hr] at hgives
    exact of_decide_eq_true hgives

theorem daily_budget_kept_once :
    (runTo (step oneADay) (State.init oneADay) oneDrip).requests.map (·.stage)
        = [.rolledBack, .succeeded] ∧
      (runTo (step oneADay) (State.init oneADay) oneDrip).dripsOn 1 ≤ 1 := by
  have hrun : Run (step oneADay) (fun s e => e.onItsDay oneADay s = true) (State.init oneADay) oneDrip
      (runTo (step oneADay) (State.init oneADay) oneDrip) :=
    Run.of_runTo (by decide +kernel) (by decide +kernel)
  exact ⟨by decide +kernel, daily_budget_kept (hrun.mono fun _ _ => OnItsDay.of_check) 1⟩

/-- The first request comes in just before midnight and fails after it; the slot it gives back is one
    of the new day's. -/
def lateFailure : List (Event Unit) :=
  [.post (asking "0x00000000000000000000000000000000000000aa") (some "10.0.0.1") 86399999,
    .post (asking "0x00000000000000000000000000000000000000bb") (some "10.0.0.2") 86400000,
    .balance 0 (.ok 5), .drip 0 (.error "k3x"),
    .post (asking "0x00000000000000000000000000000000000000cc") (some "10.0.0.3") 86400001,
    .balance 1 (.ok 5), .balance 2 (.ok 5), .drip 1 (.ok "0x01"), .drip 2 (.ok "0x02")]

/-- **A day that pays out two drips of one.** -/
theorem late_failure_overspends : ¬ ∀ (cfg : Config) (es : List (Event Unit)) (t : State),
    Run (step cfg) (fun _ _ => True) (State.init cfg) es t →
    ∀ day, t.dripsOn day ≤ cfg.dailyGlobalMax := by
  intro h
  have hrun : Run (step oneADay) (fun _ _ => True) (State.init oneADay) lateFailure
      (runTo (step oneADay) (State.init oneADay) lateFailure) :=
    Run.of_runTo (allowedM_of_forall fun _ _ _ => trivial) (by decide +kernel)
  have htwo : (runTo (step oneADay) (State.init oneADay) lateFailure).dripsOn 1 = 2 := by
    decide +kernel
  have hone := h oneADay lateFailure _ hrun 1
  rw [htwo] at hone
  exact absurd hone (by decide)

end

end Gemba.Faucet.DripService
