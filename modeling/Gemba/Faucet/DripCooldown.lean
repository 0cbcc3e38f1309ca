/-
  The cooldown of a recipient of the drip service, over every interleaving of its requests.

  The limiter remembers when each address last acquired; a request that fails deletes the entry of its
  address, and an acquisition sweeps the entries whose cooldown is over.  Three things can go wrong:

  * the keys are strings, and one address has many spellings (`two_spellings_drip_twice`);
  * a request may fail after its own cooldown is over, and then deletes the entry of a later one;
  * an entry swept is gone also when the clock steps back.

  Where none of them happens (`InTurn`), every request whose cooldown still runs finds its own start in
  the limiter (`CooldownKept.recorded`), so the next one to the same account comes a cooldown later.
-/
import Gemba.Faucet.DripService
import Mathlib.Algebra.Order.Group.Abs
import Mathlib.Algebra.Order.Group.Int

namespace Gemba.Faucet.DripService

open Gemba.Lib Gemba.Js

/-- The drip of the request is sent, or may still be. -/
def Stage.MayDrip (stage : Stage) : Prop := stage.Waiting ∨ stage = .succeeded

/-- Two successful drips to one account start a cooldown apart. -/
def State.DripsApart (cfg : Config) (s : State) : Prop :=
  s.requests.Pairwise fun a b => a.stage = .succeeded → b.stage = .succeeded →
    account a.dst = account b.dst → cfg.cooldownMs ≤ |b.now - a.now|

/-- The request may drip, and its cooldown was not over at any of the arrivals. -/
def Request.Running (cfg : Config) (arrivals : List Int) (r : Request) : Prop :=
  r.stage.MayDrip ∧ ∀ c ∈ arrivals, c < r.now + cfg.cooldownMs

/-- The step finds the limiter's entries where they belong. -/
structure InTurn {F : Type} (cfg : Config) (s : State) (e : Event F) : Prop where
  /-- A request that passes the cooldowns does not come in before an earlier arrival. -/
  clock : ∀ body ip now, e = .post body ip now → s.server.PassesCooldowns body ip now →
    ∀ c ∈ s.arrivals, c ≤ now
  /-- It spells its account as the requests do whose cooldown still runs. -/
  spelled : ∀ body ip now dst, e = .post body ip now → s.server.PassesCooldowns body ip now →
    body.get "address" = some (.str dst) → ∀ r ∈ s.requests, r.Running cfg s.arrivals →
    now < r.now + cfg.cooldownMs → account r.dst = account dst → r.dst = dst
  /-- A request that fails does not find the entry of a later one whose cooldown still runs. -/
  own : ∀ r, e.undone cfg s = some r → ∀ r' ∈ s.requests, r'.Running cfg s.arrivals → r'.dst = r.dst →
    s.server.byAddress.last r.dst = some r'.now → r'.now = r.now

/-- **Every cooldown that runs is recorded.** -/
structure CooldownKept (cfg : Config) (s : State) : Prop where
  cooldown : s.server.byAddress.cooldownMs = cfg.cooldownMs
  came : ∀ r ∈ s.requests, r.now ∈ s.arrivals
  recorded : ∀ r ∈ s.requests, r.Running cfg s.arrivals → s.server.byAddress.last r.dst = some r.now
  apart : s.requests.Pairwise fun a b => a.stage.MayDrip → b.stage.MayDrip →
    account a.dst = account b.dst → a.now + cfg.cooldownMs ≤ b.now

section
variable {F : Type} {cfg : Config} {s t : State} {e : Event F} {now : Int} {dst : String}
  {ip : Option String} {server : Server} {answers : List Response} {arrivals : List Int}

/-- Replacing an entry of a list by one that is in no new relation. -/
theorem pairwise_set {α : Type} {R : α → α → Prop} {l : List α} {i : Nat} {x a : α}
    (h : l.Pairwise R) (hx : l[i]? = some x) (hleft : ∀ y, R x y → R a y)
    (hright : ∀ y, R y x → R y a) : (l.set i a).Pairwise R := by
  induction l generalizing i with
  | nil => exact List.Pairwise.nil
  | cons y ys ih =>
    obtain ⟨hy, hys⟩ := List.pairwise_cons.mp h
    cases i with
    | zero =>
      injection hx with hx
      subst hx
      exact List.pairwise_cons.mpr ⟨fun z hz => hleft z (hy z hz), hys⟩
    | succ i =>
      refine List.pairwise_cons.mpr ⟨fun z hz => ?_, ih hys hx⟩
      rcases List.mem_or_eq_of_mem_set hz with hz | hz
      · exact hy z hz
      · rw [hz]
        exact hright y (hy x (List.mem_of_getElem? hx))

/-- An entry of a list after another one was replaced. -/
theorem mem_set_cases {α : Type} {l : List α} {i : Nat} {a z : α} (hz : z ∈ l.set i a) :
    z = a ∨ ∃ j, j ≠ i ∧ l[j]? = some z := by
  obtain ⟨j, hj⟩ := List.getElem?_of_mem hz
  by_cases hji : i = j
  · subst hji
    rw [List.getElem?_set_self' ] at hj
    cases hi : l[i]? with
    | none =>
      rw [hi] at hj
      nomatch hj
    | some x =>
      rw [hi] at hj
      injection hj with hj
      exact .inl hj.symm
  · rw [List.getElem?_set_ne hji] at hj
    exact .inr ⟨j, Ne.symm hji, hj⟩

/-- Two entries of a list are related one way round. -/
theorem pairwise_at {α : Type} {R : α → α → Prop} {l : List α} {i j : Nat} {x y : α}
    (h : l.Pairwise R) (hij : i ≠ j) (hx : l[i]? = some x) (hy : l[j]? = some y) : R x y ∨ R y x := by
  obtain ⟨hi, rfl⟩ := List.getElem?_eq_some_iff.mp hx
  obtain ⟨hj, rfl⟩ := List.getElem?_eq_some_iff.mp hy
  have hat := List.pairwise_iff_getElem.mp h
  rcases Nat.lt_or_gt_of_ne hij with hlt | hgt
  · exact .inl (hat i j hi hj hlt)
  · exact .inr (hat j i hj hi hgt)

/-- A request whose cooldown runs later ran before. -/
theorem Request.Running.earlier {r : Request} (h : r.Running cfg (arrivals ++ [now])) :
    r.Running cfg arrivals ∧ now < r.now + cfg.cooldownMs :=
  ⟨⟨h.1, fun c hc => h.2 c (List.mem_append_left _ hc)⟩,
    h.2 now (List.mem_append_right _ (List.mem_singleton_self now))⟩

/-- An entry that still runs is not swept. -/
theorem sweep_last {L : CooldownLimiter String} {key : String} {since : Int}
    (hlast : L.last key = some since) (hruns : now < since + L.cooldownMs) :
    (L.sweep now).last key = some since := by
  show (L.last key).filter _ = _
  rw [hlast, Option.filter_some, if_pos]
  rw [decide_eq_true_eq]
  omega

/-- An address with an entry that still runs is on cooldown. -/
theorem remaining_pos {L : CooldownLimiter String} {key : String} {since : Int}
    (hlast : L.last key = some since) (hruns : now < since + L.cooldownMs) :
    0 < L.remaining key now := by
  unfold CooldownLimiter.remaining
  rw [hlast]
  dsimp only
  omega

theorem CooldownKept.refused {passed : Prop} (h : CooldownKept cfg s)
    (hleft : Left cfg s.server passed dst now server) :
    CooldownKept cfg ⟨server, s.requests, answers, s.arrivals ++ [now]⟩ := by
  have hcame : ∀ r ∈ s.requests, r.now ∈ s.arrivals ++ [now] :=
    fun r hr => List.mem_append_left _ (h.came r hr)
  rcases hleft.byAddress with hsame | ⟨hfree, hreleased⟩
  · refine ⟨?_, hcame, fun r hr hruns => ?_, h.apart⟩
    · dsimp only
      rw [hsame, h.cooldown]
    · dsimp only
      rw [hsame]
      exact h.recorded r hr hruns.earlier.1
  · rw [tryAcquire_eq, if_neg hfree] at hreleased
    refine ⟨?_, hcame, fun r hr hruns => ?_, h.apart⟩
    · dsimp only
      rw [hreleased]
      exact h.cooldown
    · obtain ⟨hbefore, hnow⟩ := hruns.earlier
      have hlast := h.recorded r hr hbefore
      rw [← h.cooldown] at hnow
      -- the entry that is released was free, so it was not this one
      have hother : r.dst ≠ dst := by
        intro heq
        rw [heq] at hlast
        exact hfree (remaining_pos hlast hnow)
      dsimp only
      rw [hreleased]
      show (if r.dst = dst then none else if r.dst = dst then some now
        else (s.server.byAddress.sweep now).last r.dst) = some r.now
      rw [if_neg hother, if_neg hother]
      exact sweep_last hlast hnow

theorem CooldownKept.passed (h : CooldownKept cfg s)
    (hspelled : ∀ r ∈ s.requests, r.Running cfg s.arrivals → now < r.now + cfg.cooldownMs →
      account r.dst = account dst → r.dst = dst)
    (hclock : ∀ c ∈ s.arrivals, c ≤ now) (hgates : s.server.gates cfg dst ip now = (none, server)) :
    CooldownKept cfg
      ⟨server, s.requests ++ [⟨dst, ip, now, .balance⟩], s.answers, s.arrivals ++ [now]⟩ := by
  obtain ⟨hfree, -, haddress, -⟩ := gates_none hgates
  rw [tryAcquire_eq, if_neg hfree] at haddress
  -- a cooldown that runs at `now` belongs to another account
  have hother : ∀ r ∈ s.requests, r.Running cfg s.arrivals → now < r.now + cfg.cooldownMs →
      account r.dst ≠ account dst := by
    intro r hr hbefore hnow hsame
    have hlast := h.recorded r hr hbefore
    rw [hspelled r hr hbefore hnow hsame] at hlast
    rw [← h.cooldown] at hnow
    exact hfree (remaining_pos hlast hnow)
  refine ⟨?_, fun r hr => ?_, fun r hr hruns => ?_, ?_⟩
  · dsimp only
    rw [haddress]
    exact h.cooldown
  · rcases List.mem_append.mp hr with hr | hr
    · exact List.mem_append_left _ (h.came r hr)
    · rw [List.mem_singleton.mp hr]
      exact List.mem_append_right _ (List.mem_singleton_self now)
  · show server.byAddress.last r.dst = some r.now
    rw [haddress]
    show (if r.dst = dst then some now else (s.server.byAddress.sweep now).last r.dst) = some r.now
    rcases List.mem_append.mp hr with hr | hr
    · obtain ⟨hbefore, hnow⟩ := hruns.earlier
      have hne : r.dst ≠ dst := fun heq => hother r hr hbefore hnow (congrArg account heq)
      rw [if_neg hne]
      exact sweep_last (h.recorded r hr hbefore) (by rw [h.cooldown]; exact hnow)
    · rw [List.mem_singleton.mp hr]
      exact if_pos rfl
  · refine List.pairwise_append.mpr ⟨h.apart, List.pairwise_singleton _ _, fun a ha b hb => ?_⟩
    rw [List.mem_singleton.mp hb]
    intro hmay _ hsame
    -- otherwise its cooldown would still run, under the spelling that was free
    by_contra hclose
    rw [not_le] at hclose
    exact hother a ha ⟨hmay, fun c hc => lt_of_le_of_lt (hclock c hc) hclose⟩ hclose hsame

theorem CooldownKept.moved {i : Nat} {r : Request} {stage : Stage} (h : CooldownKept cfg s)
    (hr : s.requests[i]? = some r) (hwaiting : r.stage.Waiting) :
    CooldownKept cfg ⟨s.server, s.requests.set i { r with stage := stage }, answers, s.arrivals⟩ := by
  have hmem : r ∈ s.requests := List.mem_of_getElem? hr
  refine ⟨h.cooldown, fun z hz => ?_, fun z hz hruns => ?_, ?_⟩
  · rcases List.mem_or_eq_of_mem_set hz with hz | rfl
    · exact h.came z hz
    · exact h.came r hmem
  · rcases List.mem_or_eq_of_mem_set hz with hz | rfl
    · exact h.recorded z hz hruns
    · exact h.recorded r hmem ⟨.inl hwaiting, hruns.2⟩
  · refine pairwise_set h.apart hr (fun y hy _ => ?_) (fun y hy hmay _ => ?_)
    · exact hy (.inl hwaiting)
    · exact hy hmay (.inl hwaiting)

/-- A request rolled back drips no more. -/
theorem not_mayDrip_rolledBack : ¬ Stage.rolledBack.MayDrip := by
  rintro (h | h)
  · exact h.ne_rolledBack rfl
  · exact Stage.noConfusion h

theorem CooldownKept.undone {i : Nat} {r : Request} (h : CooldownKept cfg s)
    (hr : s.requests[i]? = some r) (hwaiting : r.stage.Waiting)
    (hown : ∀ r' ∈ s.requests, r'.Running cfg s.arrivals → r'.dst = r.dst →
      s.server.byAddress.last r.dst = some r'.now → r'.now = r.now) :
    CooldownKept cfg ⟨s.server.rollBack r, s.requests.set i { r with stage := .rolledBack }, answers,
      s.arrivals⟩ := by
  refine ⟨h.cooldown, fun z hz => ?_, fun z hz hruns => ?_, ?_⟩
  · rcases List.mem_or_eq_of_mem_set hz with hz | rfl
    · exact h.came z hz
    · exact h.came r (List.mem_of_getElem? hr)
  · rcases mem_set_cases hz with rfl | ⟨j, hj, hz⟩
    · exact absurd hruns.1 not_mayDrip_rolledBack
    have hmem : z ∈ s.requests := List.mem_of_getElem? hz
    have hlast := h.recorded z hmem hruns
    show (if z.dst = r.dst then none else s.server.byAddress.last z.dst) = some z.now
    rw [if_neg]
    · exact hlast
    -- two requests of one spelling that start together have no cooldown
    intro hsame
    rw [hsame] at hlast
    have htogether := hown z hmem hruns hsame hlast
    have hpositive := hruns.2 z.now (h.came z hmem)
    rcases pairwise_at h.apart hj hz hr with hapart | hapart
    · have := hapart hruns.1 (.inl hwaiting) (congrArg account hsame)
      omega
    · have := hapart (.inl hwaiting) hruns.1 (congrArg account hsame.symm)
      omega
  · refine pairwise_set h.apart hr (fun y _ hmay => ?_) (fun y _ _ hmay => ?_)
    · exact absurd hmay not_mayDrip_rolledBack
    · exact absurd hmay not_mayDrip_rolledBack

theorem CooldownKept.step (h : CooldownKept cfg s) (hturn : InTurn cfg s e)
    (hstep : DripService.step cfg s e = .ok t) : CooldownKept cfg t := by
  cases step_stepped hstep with
  | refused dst answers hleft => exact h.refused hleft
  | @passed body ip now server dst hbody hdst hgates =>
    obtain ⟨haddress, hip, -, -⟩ := gates_none hgates
    have hpasses : s.server.PassesCooldowns body ip now := ⟨dst, hbody, hdst, haddress, hip⟩
    exact h.passed (hturn.spelled _ _ _ _ rfl hpasses hbody) (hturn.clock _ _ _ rfl hpasses) hgates
  | moved answers hr hwaiting hstage hundone => exact h.moved hr hwaiting
  | undone answers hr hwaiting hundone => exact h.undone hr hwaiting (hturn.own _ hundone)

theorem cooldownKept_init (cfg : Config) : CooldownKept cfg (State.init cfg) :=
  ⟨rfl, nofun, nofun, List.Pairwise.nil⟩

/-- **The cooldown of a recipient**: while every step finds the limiter's entries where they belong,
    two successful drips to one account start a cooldown apart. -/
theorem drips_apart {es : List (Event F)}
    (h : Run (DripService.step cfg) (InTurn cfg) (State.init cfg) es t) : t.DripsApart cfg := by
  have hkept := Run.inv (CooldownKept cfg) (cooldownKept_init cfg)
    (fun s e s' hs hturn hstep => hs.step hturn hstep) h
  refine hkept.apart.imp fun {a b} hab ha hb hsame => ?_
  have hlater := hab (.inr ha) (.inr hb) hsame
  calc cfg.cooldownMs ≤ b.now - a.now := by omega
    _ ≤ |b.now - a.now| := le_abs_self _

/-- The service as it is deployed, with a floor of nothing. -/
def aDayEach : Config := ⟨86400000, 10000, 0, "100"⟩

/-- A drip, and what is asked again a day later from elsewhere. -/
def firstDrip : List (Event Unit) :=
  [.post (asking "0x00000000000000000000000000000000000000aa") (some "10.0.0.1") 86400000,
    .balance 0 (.ok 5), .drip 0 (.ok "0x01")]

def nextDrip : List (Event Unit) :=
  [.post (asking "0x00000000000000000000000000000000000000aa") (some "10.0.0.2") 172800000,
    .balance 1 (.ok 5), .drip 1 (.ok "0x02")]

theorem drips_apart_twice :
    (runTo (step aDayEach) (runTo (step aDayEach) (State.init aDayEach) firstDrip)
      nextDrip).DripsApart aDayEach := by
  have hfirst : Run (step aDayEach) (InTurn aDayEach) (State.init aDayEach) firstDrip
      (runTo (step aDayEach) (State.init aDayEach) firstDrip) :=
    Run.of_runTo ⟨⟨nofun, nofun, nofun⟩, fun s _ => ⟨⟨nofun, nofun, nofun⟩, fun t _ =>
      ⟨⟨nofun, nofun, nofun⟩, fun _ _ => trivial⟩⟩⟩ (by decide +kernel)
  have hclock : ∀ c ∈ (runTo (step aDayEach) (State.init aDayEach) firstDrip).arrivals,
      c ≤ 172800000 := by
    decide +kernel
  have hspelled : ∀ r ∈ (runTo (step aDayEach) (State.init aDayEach) firstDrip).requests,
      r.dst = "0x00000000000000000000000000000000000000aa" := by
    decide +kernel
  have hnext : Run (step aDayEach) (InTurn aDayEach)
      (runTo (step aDayEach) (State.init aDayEach) firstDrip) nextDrip
      (runTo (step aDayEach) (runTo (step aDayEach) (State.init aDayEach) firstDrip) nextDrip) := by
    refine Run.of_runTo ⟨⟨?_, ?_, nofun⟩, fun s _ => ⟨⟨nofun, nofun, nofun⟩, fun t _ =>
      ⟨⟨nofun, nofun, nofun⟩, fun _ _ => trivial⟩⟩⟩ (by decide +kernel)
    · intro body ip now he _
      injection he with _ _ hnow
      rw [← hnow]
      exact hclock
    · intro body ip now dst he _ hbody r hr _ _ _
      injection he with hasking
      subst hasking
      injection hbody with hdst
      injection hdst with hdst
      rw [← hdst]
      exact hspelled r hr
  exact drips_apart (Run.append hfirst hnext)

/-- One account, asked for in small letters and a millisecond later in capitals. -/
def twoSpellings : List (Event Unit) :=
  [.post (asking "0x00000000000000000000000000000000000000aa") (some "10.0.0.1") 86400000,
    .post (asking "0x00000000000000000000000000000000000000AA") (some "10.0.0.2") 86400001,
    .balance 0 (.ok 5), .balance 1 (.ok 5), .drip 0 (.ok "0x01"), .drip 1 (.ok "0x02")]

/-- **An account that is dripped to twice in a millisecond.** -/
theorem two_spellings_drip_twice : ¬ ∀ (cfg : Config) (es : List (Event Unit)) (t : State),
    Run (step cfg) (fun _ _ => True) (State.init cfg) es t → t.DripsApart cfg := by
  intro h
  have hrun : Run (step aDayEach) (fun _ _ => True) (State.init aDayEach) twoSpellings
      (runTo (step aDayEach) (State.init aDayEach) twoSpellings) :=
    Run.of_runTo (allowedM_of_forall fun _ _ _ => trivial) (by decide +kernel)
  have happart := h aDayEach twoSpellings _ hrun
  unfold State.DripsApart at happart
  revert happart
  decide +kernel

end

end Gemba.Faucet.DripService
