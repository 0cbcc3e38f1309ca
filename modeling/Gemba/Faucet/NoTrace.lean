/-
  What a request to the drip service leaves behind when it did not drip.

  The request acquires three things before its first await, and every answer but a drip should find
  them released.  What is compared is not the memory but the answers: an acquisition sweeps entries
  that are over, and the first request of a day resets the counter, and neither is seen by a later
  request.  `Agree` is that comparison for a limiter, `Budget.asked` for the counter.

  The crux is that acquiring and releasing is nothing to a later request (`agree_released`,
  `release_allowed`); so every path that releases what it acquired leaves no trace.  Two paths do not:

  * `balance()` is awaited outside the inner `try`, so a rejection releases nothing
    (`balance_rejection_leaves_trace`);
  * the counter forgets the day it was on when a request comes in on an earlier one.

  `no_trace_iff` says that these two are all.
-/
import Gemba.Faucet.DripBudget

namespace Gemba.Faucet.DripService

open Gemba.Lib Gemba.Js

/-! ## A request on its own -/

/-- `POST /drip` with nothing in between: its answer, and the server afterwards. -/
def Server.request {F : Type} (cfg : Config) (srv : Server) (body : Value F) (ip : Option String)
    (now : Int) (balance : Except String Int) (drip : Except String String) : Response × Server :=
  match srv.post cfg body ip now with
  | (.error answer, srv) => (answer, srv)
  | (.ok dst, srv) =>
    match srv.balanced cfg ⟨dst, ip, now, .balance⟩ balance with
    | (some answer, _, srv) => (answer, srv)
    | (none, stage, srv) =>
      let (answer, _, srv) := srv.dripped cfg ⟨dst, ip, now, stage⟩ drip
      (answer, srv)

/-- The drip was sent. -/
def Response.Dripped : Response → Prop
  | .dripped _ _ _ => True
  | _ => False

section
variable {F : Type} {cfg : Config} {s : State} {body : Value F} {ip : Option String} {now : Int}
  {server : Server} {i : Nat} {r : Request} {stage : Stage}

theorem step_refused {answer : Response}
    (h : s.server.post cfg body ip now = (.error answer, server)) :
    step cfg s (.post body ip now)
      = .ok ⟨server, s.requests, s.answers ++ [answer], s.arrivals ++ [now]⟩ := by
  unfold step
  dsimp only
  rw [h]

theorem step_passed {dst : String} (h : s.server.post cfg body ip now = (.ok dst, server)) :
    step cfg s (.post body ip now) = .ok ⟨server, s.requests ++ [⟨dst, ip, now, .balance⟩],
      s.answers, s.arrivals ++ [now]⟩ := by
  unfold step
  dsimp only
  rw [h]

theorem step_balanced {balance : Except String Int} {answer : Option Response}
    (hr : s.requests[i]? = some r) (hstage : r.stage = .balance)
    (h : s.server.balanced cfg r balance = (answer, stage, server)) :
    step (F := F) cfg s (.balance i balance) = .ok ⟨server, s.requests.set i { r with stage := stage },
      s.answers ++ answer.toList, s.arrivals⟩ := by
  unfold step
  dsimp only
  rw [orThrow_eq_ok.mpr hr, ok_bind, failIf_neg (not_not.mpr hstage), ok_bind, h]

theorem step_dripped {drip : Except String String} {answer : Response}
    (hr : s.requests[i]? = some r) (hstage : r.stage = .drip)
    (h : s.server.dripped cfg r drip = (answer, stage, server)) :
    step (F := F) cfg s (.drip i drip) = .ok ⟨server, s.requests.set i { r with stage := stage },
      s.answers ++ [answer], s.arrivals⟩ := by
  unfold step
  dsimp only
  rw [orThrow_eq_ok.mpr hr, ok_bind, failIf_neg (not_not.mpr hstage), ok_bind, h]

/-- A request the balance leaves without an answer waits for its drip. -/
theorem balanced_none {srv : Server} {balance : Except String Int}
    (h : srv.balanced cfg r balance = (none, stage, server)) : stage = .drip := by
  unfold Server.balanced at h
  cases balance with
  | error id => nomatch h
  | ok wei =>
    dsimp only at h
    split at h
    · nomatch h
    · injection h with _ h
      injection h with h
      exact h.symm

end

/-- **A request on its own is its parts, one after the other.** -/
theorem request_steps {F : Type} (cfg : Config) (s : State) (body : Value F) (ip : Option String)
    (now : Int) (balance : Except String Int) (drip : Except String String) :
    ∃ (es : List (Event F)) (t : State), runM (step cfg) s es = .ok t ∧
      t.server = (s.server.request cfg body ip now balance drip).2 ∧
      t.answers = s.answers ++ [(s.server.request cfg body ip now balance drip).1] := by
  obtain ⟨⟨reply, server⟩, hpost⟩ : ∃ x, s.server.post cfg body ip now = x := ⟨_, rfl⟩
  unfold Server.request
  rw [hpost]
  cases reply with
  | error answer =>
    have hrun : runM (step cfg) s [.post body ip now] = .ok ⟨server, s.requests,
        s.answers ++ [answer], s.arrivals ++ [now]⟩ := by
      rw [runM, step_refused hpost]
      rfl
    exact ⟨_, _, hrun, rfl, rfl⟩
  | ok dst =>
    -- the request is the last of those that passed the gates
    have hlast : ∀ r : Request, (s.requests ++ [r])[s.requests.length]? = some r := fun r =>
      List.getElem?_concat_length
    have hset : ∀ r r' : Request,
        (s.requests ++ [r]).set s.requests.length r' = s.requests ++ [r'] := fun r r' => by
      rw [List.set_append_right _ _ le_rfl, Nat.sub_self, List.set_cons_zero]
    obtain ⟨⟨answer, stage, server'⟩, hbalanced⟩ : ∃ x,
        server.balanced cfg ⟨dst, ip, now, .balance⟩ balance = x := ⟨_, rfl⟩
    dsimp only
    rw [hbalanced]
    cases answer with
    | some answer =>
      have hrun : runM (step cfg) s [.post body ip now, .balance s.requests.length balance] =
          .ok ⟨server', s.requests ++ [⟨dst, ip, now, stage⟩], s.answers ++ [answer],
            s.arrivals ++ [now]⟩ := by
        rw [runM, step_passed hpost, ok_bind, runM, step_balanced (hlast _) rfl hbalanced, hset]
        rfl
      exact ⟨_, _, hrun, rfl, rfl⟩
    | none =>
      have hstage := balanced_none hbalanced
      subst hstage
      obtain ⟨⟨answer, stage, server''⟩, hdripped⟩ : ∃ x,
          server'.dripped cfg ⟨dst, ip, now, .drip⟩ drip = x := ⟨_, rfl⟩
      have hrun : runM (step cfg) s [.post body ip now, .balance s.requests.length balance,
          .drip s.requests.length drip] =
          .ok ⟨server'', s.requests ++ [⟨dst, ip, now, stage⟩], s.answers ++ [answer],
            s.arrivals ++ [now]⟩ := by
        rw [runM, step_passed hpost, ok_bind, runM, step_balanced (hlast _) rfl hbalanced, ok_bind, hset,
          runM, step_dripped (hlast _) rfl hdripped, hset, Option.toList_none, List.append_nil]
        rfl
      dsimp only
      rw [hdripped]
      exact ⟨_, _, hrun, rfl, rfl⟩

/-! ## What a later request is answered -/

/-- Two limiters answer alike from `now` on. -/
def CooldownLimiter.Agree {κ : Type} [DecidableEq κ] (now : Int) (L L' : CooldownLimiter κ) : Prop :=
  ∀ key later, now ≤ later → L.remaining key later = L'.remaining key later ∧
    (L.tryAcquire key later).1 = (L'.tryAcquire key later).1

/-- What the budget answers to requests at these times, one after the other. -/
def Budget.asked (dailyGlobalMax : Nat) : Budget → List Int → List Bool
  | _, [] => []
  | b, later :: times =>
    let (allowed, b) := globalBudgetAllow dailyGlobalMax later b
    allowed :: b.asked dailyGlobalMax times

/-- The drips left on the day of `now`. -/
def Budget.left (dailyGlobalMax : Nat) (b : Budget) (now : Int) : Nat :=
  dailyGlobalMax - (b.on (dayOf now)).dripCountToday

/-- **No later request sees a difference.** -/
structure SameAnswers (cfg : Config) (now : Int) (srv srv' : Server) : Prop where
  byAddress : srv'.byAddress.Agree now srv.byAddress
  byIp : srv'.byIp.Agree now srv.byIp
  budget : ∀ times : List Int, (∀ later ∈ times, now ≤ later) →
    srv'.budget.asked cfg.dailyGlobalMax times = srv.budget.asked cfg.dailyGlobalMax times

/-! ## When there is a trace -/

section
variable {F : Type} (cfg : Config) (srv : Server) (body : Value F) (ip : Option String) (now : Int)

/-- The request passes all three gates, and the balance cannot be read. -/
def Server.Lost (balance : Except String Int) : Prop :=
  srv.PassesCooldowns body ip now ∧ 0 < srv.budget.left cfg.dailyGlobalMax now ∧
    ∃ id, balance = .error id

/-- The request asks the budget on a day before the counter's, which has drips on it. -/
def Server.DayForgotten : Prop :=
  srv.PassesCooldowns body ip now ∧ dayOf now < srv.budget.dripDay ∧ 0 < srv.budget.dripCountToday ∧
    0 < cfg.dailyGlobalMax

end

/-! ## Acquiring and releasing -/

section
variable {κ : Type} {L L' : CooldownLimiter κ} {key : κ} {now later : Int}

/-- A cooldown that is over stays over. -/
theorem remaining_mono (hlater : now ≤ later) (h : ¬ 0 < L.remaining key now) :
    L.remaining key later = 0 := by
  unfold CooldownLimiter.remaining at h ⊢
  cases hlast : L.last key with
  | none => rfl
  | some since =>
    rw [hlast] at h
    dsimp only at h ⊢
    omega

/-- A sweep takes entries whose cooldown is over, now and later. -/
theorem remaining_sweep (hlater : now ≤ later) :
    (L.sweep now).remaining key later = L.remaining key later := by
  unfold CooldownLimiter.remaining CooldownLimiter.sweep
  dsimp only
  cases hlast : L.last key with
  | none => rfl
  | some since =>
    rw [Option.filter_some]
    by_cases hruns : now - since < L.cooldownMs
    · rw [if_pos (decide_eq_true hruns)]
    · rw [if_neg (fun h => hruns (of_decide_eq_true h))]
      dsimp only
      omega

variable [DecidableEq κ]

theorem CooldownLimiter.agree_refl (now : Int) (L : CooldownLimiter κ) : L.Agree now L :=
  fun _ _ _ => ⟨rfl, rfl⟩

/-- Limiters with the same cooldowns left acquire alike. -/
theorem CooldownLimiter.Agree.of_remaining
    (h : ∀ key later, now ≤ later → L.remaining key later = L'.remaining key later) :
    L.Agree now L' := by
  intro key later hlater
  have hsame := h key later hlater
  refine ⟨hsame, ?_⟩
  rw [tryAcquire_eq, tryAcquire_eq, hsame]
  split
  · rfl
  · rfl

/-- **Acquired and released is as never acquired**, to a later request. -/
theorem agree_released (h : ¬ 0 < L.remaining key now) :
    ((L.tryAcquire key now).2.release key).Agree now L := by
  refine .of_remaining fun key' later hlater => ?_
  rw [tryAcquire_eq, if_neg h]
  by_cases hkey : key' = key
  -- its own key: no entry now, and one that was over before
  · rw [hkey, remaining_mono hlater h]
    unfold CooldownLimiter.remaining CooldownLimiter.release
    dsimp only
    rw [if_pos rfl]
  -- another key: the sweep is all that happened to it
  · rw [← remaining_sweep (L := L) hlater]
    unfold CooldownLimiter.remaining CooldownLimiter.release
    dsimp only
    rw [if_neg hkey, if_neg hkey]
    rfl

end

/-! ## The counter -/

section
variable {cfg : Config} {max n : Nat} {b b' : Budget} {now later : Int} {times : List Int}

/-- A slot that is given back at once. -/
theorem release_allowed (h : globalBudgetAllow max now b = (true, b')) :
    globalBudgetRelease b' = b.on (dayOf now) := by
  rw [globalBudgetAllow_eq] at h
  split at h
  · nomatch h
  · injection h with _ h
    subst h
    unfold globalBudgetRelease
    rw [if_pos (Nat.succ_pos _)]
    rfl

/-- An empty counter is the same on every day. -/
theorem Budget.on_empty (h : b.dripCountToday = 0) (day : Int) : b.on day = ⟨day, 0⟩ := by
  unfold Budget.on
  split
  · rfl
  · rename_i hsame
    rw [not_not.mp hsame, ← h]

/-- The counter of a day, whatever the day it was on before. -/
theorem Budget.on_on (b : Budget) {day day' : Int} (h : b.dripDay = day' → day = day') :
    (b.on day).on day' = b.on day' := by
  by_cases hsame : day = b.dripDay
  · unfold Budget.on
    rw [if_neg (not_not.mpr hsame)]
  · by_cases hday : day = day'
    · subst hday
      unfold Budget.on
      rw [if_pos hsame, if_neg (not_not.mpr rfl)]
    · have hother : day' ≠ b.dripDay := fun h' => hday (h h'.symm)
      unfold Budget.on
      rw [if_pos hsame, if_pos hother, if_pos (Ne.symm hday)]

/-- Only the counter of the first day asked for matters. -/
theorem asked_congr (h : ∀ later ∈ times, b.on (dayOf later) = b'.on (dayOf later)) :
    b.asked max times = b'.asked max times := by
  cases times with
  | nil => rfl
  | cons later times =>
    unfold Budget.asked
    rw [globalBudgetAllow_eq, globalBudgetAllow_eq, h later List.mem_cons_self]

/-- A service that may not drip at all refuses everybody. -/
theorem asked_zero (b : Budget) : b.asked 0 times = times.map fun _ => false := by
  induction times generalizing b with
  | nil => rfl
  | cons later times ih =>
    unfold Budget.asked
    rw [globalBudgetAllow_eq, if_pos (Nat.zero_le _), List.map_cons]
    exact congrArg _ (ih _)

/-- The counter allows as many requests in a row as it has left. -/
theorem asked_replicate : b.asked max (List.replicate n now) = List.replicate n true ↔
    n ≤ b.left max now := by
  induction n generalizing b with
  | zero => exact iff_of_true rfl (Nat.zero_le _)
  | succ n ih =>
    rw [List.replicate_succ, List.replicate_succ]
    unfold Budget.asked
    rw [globalBudgetAllow_eq]
    unfold Budget.left at ih ⊢
    by_cases hfull : max ≤ (b.on (dayOf now)).dripCountToday
    · rw [if_pos hfull]
      refine iff_of_false (fun h => ?_) (by omega)
      injection h with h
      nomatch h
    · rw [if_neg hfull, List.cons_inj_right, ih]
      have hon : Budget.on ⟨(b.on (dayOf now)).dripDay, (b.on (dayOf now)).dripCountToday + 1⟩
          (dayOf now) = ⟨(b.on (dayOf now)).dripDay, (b.on (dayOf now)).dripCountToday + 1⟩ := by
        unfold Budget.on
        rw [if_neg]
        exact not_not.mpr (Budget.on_day b (dayOf now)).symm
      rw [hon]
      dsimp only
      omega

/-- Counters that answer alike have as much left. -/
theorem left_of_asked (h : ∀ times : List Int, (∀ t ∈ times, now ≤ t) →
    b'.asked max times = b.asked max times) (hlater : now ≤ later) :
    b'.left max later = b.left max later := by
  have hle : ∀ n, n ≤ b'.left max later ↔ n ≤ b.left max later := by
    intro n
    rw [← asked_replicate, ← asked_replicate,
      h (List.replicate n later) fun t ht => by rw [List.eq_of_mem_replicate ht]; exact hlater]
  exact Nat.le_antisymm ((hle _).mp le_rfl) ((hle _).mpr le_rfl)

end

/-! ## What a request did -/

/-- What a request that did not drip did to the server. -/
inductive Trace {F : Type} (cfg : Config) (srv : Server) (body : Value F) (ip : Option String)
    (now : Int) (balance : Except String Int) (srv' : Server) : Prop where
  /-- Refused before the budget was asked. -/
  | refused (hpasses : ¬ srv.PassesCooldowns body ip now)
      (byAddress : srv'.byAddress.Agree now srv.byAddress) (byIp : srv'.byIp.Agree now srv.byIp)
      (budget : srv'.budget = srv.budget)
  /-- Everything acquired was released. -/
  | released (hpasses : srv.PassesCooldowns body ip now) (hkept : ¬ srv.Lost cfg body ip now balance)
      (byAddress : srv'.byAddress.Agree now srv.byAddress) (byIp : srv'.byIp.Agree now srv.byIp)
      (budget : srv'.budget = srv.budget.on (dayOf now))
  /-- The balance could not be read. -/
  | lost (hlost : srv.Lost cfg body ip now balance)
      (budget : globalBudgetAllow cfg.dailyGlobalMax now srv.budget = (true, srv'.budget))

section
variable {F : Type} {cfg : Config} {srv srv' : Server} {body : Value F} {ip : Option String}
  {now : Int} {dst : String} {balance : Except String Int} {drip : Except String String}

/-- A request whose body names an address goes to the gates. -/
theorem post_of_named (hbody : body.get "address" = some (.str dst)) (hdst : evmAddress dst = true) :
    srv.post cfg body ip now = match srv.gates cfg dst ip now with
      | (some answer, srv) => (.error answer, srv)
      | (none, srv) => (.ok dst, srv) := by
  unfold Server.post
  rw [hbody, Option.getD_some]
  have hnamed : ¬ evmAddress dst = false := by
    rw [hdst]
    exact Bool.noConfusion
  dsimp only
  exact if_neg hnamed

/-- One whose body names none is refused. -/
theorem post_of_unnamed (h : ∀ dst, body.get "address" = some (.str dst) → evmAddress dst = false) :
    srv.post cfg body ip now = (.error .notAnAddress, srv) := by
  by_cases hnamed : ∃ dst, body.get "address" = some (.str dst)
  · obtain ⟨dst, hbody⟩ := hnamed
    unfold Server.post
    rw [hbody, Option.getD_some]
    dsimp only
    rw [if_pos (h dst hbody)]
  · exact post_of_other (not_exists.mp hnamed)

/-- A request refused at a cooldown leaves the limiters as good as they were. -/
theorem gates_of_cooldown
    (h : 0 < srv.byAddress.remaining dst now ∨ 0 < srv.byIp.remaining ip now) :
    ∃ answer srv', srv.gates cfg dst ip now = (some answer, srv') ∧ ¬ answer.Dripped ∧
      srv'.byAddress.Agree now srv.byAddress ∧ srv'.byIp = srv.byIp ∧ srv'.budget = srv.budget := by
  unfold Server.gates
  by_cases haddress : 0 < srv.byAddress.remaining dst now
  · rw [tryAcquire_eq, if_pos haddress]
    exact ⟨_, _, rfl, id, CooldownLimiter.agree_refl now _, rfl, rfl⟩
  · have hip := h.resolve_left haddress
    have hreleased := agree_released haddress
    rw [tryAcquire_eq, if_neg haddress] at hreleased ⊢
    rw [tryAcquire_eq, if_pos hip]
    exact ⟨_, _, rfl, id, hreleased, rfl, rfl⟩

/-- A request that passes both cooldowns asks the budget. -/
theorem gates_of_free (haddress : ¬ 0 < srv.byAddress.remaining dst now)
    (hip : ¬ 0 < srv.byIp.remaining ip now) :
    srv.gates cfg dst ip now =
      if (globalBudgetAllow cfg.dailyGlobalMax now srv.budget).1 = false then
        (some .budgetReached, ⟨(srv.byAddress.tryAcquire dst now).2.release dst,
          (srv.byIp.tryAcquire ip now).2.release ip,
          (globalBudgetAllow cfg.dailyGlobalMax now srv.budget).2⟩)
      else (none, ⟨(srv.byAddress.tryAcquire dst now).2, (srv.byIp.tryAcquire ip now).2,
          (globalBudgetAllow cfg.dailyGlobalMax now srv.budget).2⟩) := by
  unfold Server.gates
  rw [tryAcquire_eq, if_neg haddress, tryAcquire_eq, if_neg hip]
  rfl

/-- A request that passes both cooldowns: every way it ends without a drip. -/
theorem request_trace_free (hbody : body.get "address" = some (.str dst))
    (hdst : evmAddress dst = true) (haddress : ¬ 0 < srv.byAddress.remaining dst now)
    (hip : ¬ 0 < srv.byIp.remaining ip now)
    (h : ¬ (srv.request cfg body ip now balance drip).1.Dripped) :
    Trace cfg srv body ip now balance (srv.request cfg body ip now balance drip).2 := by
  have hpasses : srv.PassesCooldowns body ip now := ⟨dst, hbody, hdst, haddress, hip⟩
  have hreleased := agree_released haddress
  have hreleased' := agree_released hip
  unfold Server.request at h ⊢
  rw [post_of_named hbody hdst, gates_of_free haddress hip] at h ⊢
  by_cases hfull : cfg.dailyGlobalMax ≤ (srv.budget.on (dayOf now)).dripCountToday
  -- no drip is left today: both cooldowns are released
  · have hno : ¬ srv.Lost cfg body ip now balance := fun hlost =>
      absurd hlost.2.1 (by unfold Budget.left; omega)
    rw [globalBudgetAllow_eq, if_pos hfull, if_pos rfl] at h ⊢
    exact .released hpasses hno hreleased hreleased' rfl
  · obtain ⟨budget, hallow⟩ : ∃ budget,
        globalBudgetAllow cfg.dailyGlobalMax now srv.budget = (true, budget) :=
      ⟨_, by rw [globalBudgetAllow_eq, if_neg hfull]⟩
    rw [hallow, if_neg Bool.noConfusion] at h ⊢
    cases balance with
    | error id =>
      exact .lost ⟨hpasses, by unfold Budget.left; omega, id, rfl⟩ hallow
    | ok wei =>
      have hno : ¬ srv.Lost cfg body ip now (.ok wei) := fun ⟨_, _, id, hid⟩ => nomatch hid
      unfold Server.balanced at h ⊢
      by_cases hlow : wei < cfg.minBalanceWei
      -- below the floor: all three are released
      · dsimp only at h ⊢
        rw [if_pos hlow] at h ⊢
        exact .released hpasses hno hreleased hreleased' (release_allowed hallow)
      · dsimp only at h ⊢
        rw [if_neg hlow] at h ⊢
        cases drip with
        | ok txHash => exact absurd trivial h
        | error id => exact .released hpasses hno hreleased hreleased' (release_allowed hallow)

/-- **Every way a request ends without a drip.** -/
theorem request_trace (h : ¬ (srv.request cfg body ip now balance drip).1.Dripped) :
    Trace cfg srv body ip now balance (srv.request cfg body ip now balance drip).2 := by
  by_cases hnamed : ∃ dst, body.get "address" = some (.str dst) ∧ evmAddress dst = true
  · obtain ⟨dst, hbody, hdst⟩ := hnamed
    by_cases hcooldown : 0 < srv.byAddress.remaining dst now ∨ 0 < srv.byIp.remaining ip now
    · obtain ⟨answer, srv', hgates, -, haddress, hip, hbudget⟩ := gates_of_cooldown hcooldown
      unfold Server.request
      rw [post_of_named hbody hdst, hgates]
      refine .refused ?_ haddress (by rw [hip]; exact CooldownLimiter.agree_refl now _) hbudget
      rintro ⟨dst', hbody', -, hfree, hfree'⟩
      rw [hbody] at hbody'
      injection hbody' with hbody'
      injection hbody' with hsame
      subst hsame
      exact hcooldown.elim hfree hfree'
    · rw [not_or] at hcooldown
      exact request_trace_free hbody hdst hcooldown.1 hcooldown.2 h
  · have hpost : srv.post cfg body ip now = (.error .notAnAddress, srv) := by
      refine post_of_unnamed fun dst hbody => ?_
      rw [← Bool.not_eq_true]
      exact fun hdst => hnamed ⟨dst, hbody, hdst⟩
    unfold Server.request
    rw [hpost]
    refine .refused ?_ (CooldownLimiter.agree_refl now _) (CooldownLimiter.agree_refl now _) rfl
    exact fun ⟨dst, hbody, hdst, _⟩ => hnamed ⟨dst, hbody, hdst⟩

/-- A reset that forgets nothing is not seen. -/
theorem asked_on (hkept : ¬ (dayOf now < srv.budget.dripDay ∧ 0 < srv.budget.dripCountToday ∧
      0 < cfg.dailyGlobalMax)) {times : List Int} (htimes : ∀ later ∈ times, now ≤ later) :
    (srv.budget.on (dayOf now)).asked cfg.dailyGlobalMax times
      = srv.budget.asked cfg.dailyGlobalMax times := by
  by_cases hmax : cfg.dailyGlobalMax = 0
  · rw [hmax, asked_zero, asked_zero]
  refine asked_congr fun later hlater => ?_
  have hday : dayOf now ≤ dayOf later := by
    have := htimes later hlater
    unfold dayOf
    omega
  by_cases hback : dayOf now < srv.budget.dripDay
  -- the clock has stepped back, but the counter it forgets is empty
  · have hempty : srv.budget.dripCountToday = 0 := by omega
    rw [Budget.on_empty hempty, Budget.on_empty hempty, Budget.on_empty rfl]
  · refine Budget.on_on _ fun hsame => ?_
    omega

/-- A day that is forgotten has its drips again. -/
theorem DayForgotten.left_lt (h : srv.DayForgotten cfg body ip now)
    (hbudget : srv'.budget = srv.budget.on (dayOf now)) :
    srv.budget.left cfg.dailyGlobalMax (srv.budget.dripDay * 86400000)
      < srv'.budget.left cfg.dailyGlobalMax (srv.budget.dripDay * 86400000) := by
  obtain ⟨-, hback, hcount, hmax⟩ := h
  have hday : dayOf (srv.budget.dripDay * 86400000) = srv.budget.dripDay := by
    unfold dayOf
    omega
  unfold Budget.left
  rw [hbudget, hday]
  unfold Budget.on
  rw [if_neg (not_not.mpr rfl), if_pos (Int.ne_of_lt hback), if_pos (Int.ne_of_gt hback)]
  dsimp only
  omega

/-- A request that is lost keeps its slot. -/
theorem Lost.left_lt (h : srv.Lost cfg body ip now balance)
    (hbudget : globalBudgetAllow cfg.dailyGlobalMax now srv.budget = (true, srv'.budget)) :
    srv'.budget.left cfg.dailyGlobalMax now < srv.budget.left cfg.dailyGlobalMax now := by
  have hroom := h.2.1
  rw [globalBudgetAllow_eq] at hbudget
  split at hbudget
  · nomatch hbudget
  · injection hbudget with _ hbudget
    have hon : srv'.budget.on (dayOf now) = srv'.budget := by
      unfold Budget.on
      rw [← hbudget, if_neg]
      exact not_not.mpr (Budget.on_day _ _).symm
    unfold Budget.left at hroom ⊢
    rw [hon, ← hbudget]
    dsimp only
    omega

/-- **When a request that did not drip leaves no trace**: exactly when its balance was read, if it came
    so far, and it did not make the counter forget a day. -/
theorem no_trace_iff {F : Type} (cfg : Config) (srv : Server) (body : Value F) (ip : Option String)
    (now : Int) (balance : Except String Int) (drip : Except String String)
    (h : ¬ (srv.request cfg body ip now balance drip).1.Dripped) :
    SameAnswers cfg now srv (srv.request cfg body ip now balance drip).2 ↔
      ¬ srv.Lost cfg body ip now balance ∧ ¬ srv.DayForgotten cfg body ip now := by
  cases request_trace h with
  | refused hpasses byAddress byIp budget =>
    refine iff_of_true ⟨byAddress, byIp, fun _ _ => by rw [budget]⟩ ⟨?_, ?_⟩
    · exact fun hlost => hpasses hlost.1
    · exact fun hday => hpasses hday.1
  | released hpasses hkept byAddress byIp budget =>
    rw [and_iff_right hkept]
    constructor
    · intro hsame hday
      have hlt := DayForgotten.left_lt hday budget
      have hnow : now ≤ srv.budget.dripDay * 86400000 := by
        have := hday.2.1
        unfold dayOf at this
        omega
      exact Nat.ne_of_gt hlt (left_of_asked hsame.budget hnow)
    · intro hday
      refine ⟨byAddress, byIp, fun times htimes => ?_⟩
      rw [budget]
      exact asked_on (fun hforgets => hday ⟨hpasses, hforgets⟩) htimes
  | lost hlost budget =>
    refine iff_of_false (fun hsame => ?_) (fun hgood => hgood.1 hlost)
    exact Nat.ne_of_lt (Lost.left_lt hlost budget) (left_of_asked hsame.budget le_rfl)

/-- A request whose drip fails. -/
theorem no_trace_iff_failing :
    SameAnswers oneADay 86400000 (.init oneADay) ((Server.init oneADay).request oneADay
      (asking "0x00000000000000000000000000000000000000aa") (some "10.0.0.1") 86400000
      (.ok 5) (.error "k3x")).2 ↔
    ¬ (Server.init oneADay).Lost oneADay (asking "0x00000000000000000000000000000000000000aa")
        (some "10.0.0.1") 86400000 (.ok 5) ∧
      ¬ (Server.init oneADay).DayForgotten oneADay
        (asking "0x00000000000000000000000000000000000000aa") (some "10.0.0.1") 86400000 :=
  no_trace_iff oneADay _ _ _ _ _ _ (by
    have hanswer : ((Server.init oneADay).request oneADay
        (asking "0x00000000000000000000000000000000000000aa") (some "10.0.0.1") 86400000
        (.ok 5) (.error "k3x")).1 = .internalError "k3x" := by decide +kernel
    rw [hanswer]
    exact id)

/-- **A request whose balance cannot be read keeps the cooldown of its address.** -/
theorem balance_rejection_leaves_trace : ¬ ∀ (cfg : Config) (srv : Server) (body : Value Unit)
    (ip : Option String) (now : Int) (balance : Except String Int) (drip : Except String String),
    ¬ (srv.request cfg body ip now balance drip).1.Dripped →
    SameAnswers cfg now srv (srv.request cfg body ip now balance drip).2 := by
  intro h
  have hanswer : ((Server.init oneADay).request oneADay
      (asking "0x00000000000000000000000000000000000000aa") (some "10.0.0.1") 86400000
      (.error "k3x") (.ok "0x01")).1 = .internalError "k3x" := by decide +kernel
  have hsame := h oneADay (.init oneADay) (asking "0x00000000000000000000000000000000000000aa")
    (some "10.0.0.1") 86400000 (.error "k3x") (.ok "0x01") (by rw [hanswer]; exact id)
  -- a second later the address has most of a day to wait, instead of nothing
  have hwait := (hsame.byAddress "0x00000000000000000000000000000000000000aa" 86401000 (by decide)).1
  exact absurd hwait (by decide +kernel)

end

end Gemba.Faucet.DripService
