/-
  The HTTP service of the drip faucet: `server.js`, `ratelimit.js`, `validation.js`.

  A `POST /drip` passes three gates before its first await: a cooldown for the address it names, one for
  the IP it comes from, and a daily budget for everybody.  Then it asks for the faucet's balance, then
  it sends the drip; both are awaits, so other requests run in between.  A drip that fails is rolled
  back: both cooldowns and the budget are released.

  `Server` is the memory the requests share, and a handler is its three parts between the awaits
  (`post`, `balanced`, `dripped`).  `State` adds the requests that passed the gates, with how far each
  of them is; `step` is one part of one request.  The days and the clock are `Date.now()` of the parts,
  whatever it answers.
-/
import Gemba.Lib.Runs
import Gemba.Js.Value
import Gemba.Sdk.Address

namespace Gemba.Faucet.DripService

open Gemba.Lib Gemba.Js

/-! ## `ratelimit.js` -/

/-- `CooldownLimiter`; `last` is `_last`. -/
structure CooldownLimiter (κ : Type) where
  cooldownMs : Int
  last : κ → Option Int

namespace CooldownLimiter

variable {κ : Type} [DecidableEq κ] (L : CooldownLimiter κ)

/-- `remaining(key, now)`. -/
def remaining (key : κ) (now : Int) : Int :=
  match L.last key with
  | none => 0
  | some t => max 0 (L.cooldownMs - (now - t))

/-- `_sweep(now)`. -/
def sweep (now : Int) : CooldownLimiter κ :=
  { L with last := fun k => (L.last k).filter fun t => decide (now - t < L.cooldownMs) }

/-- `tryAcquire(key, now)`: whether it did, and the limiter afterwards. -/
def tryAcquire (key : κ) (now : Int) : Bool × CooldownLimiter κ :=
  if 0 < L.remaining key now then (false, L)
  else (true, { L with last := fun k => if k = key then some now else (L.sweep now).last k })

/-- `release(key)`. -/
def release (key : κ) : CooldownLimiter κ :=
  { L with last := fun k => if k = key then none else L.last k }

end CooldownLimiter

/-! ## `validation.js` -/

/-- `EVM_ADDRESS`: `0x` and 40 hexadecimal digits. -/
def evmAddress (a : String) : Bool :=
  match a.toList with
  | '0' :: 'x' :: digits => digits.length == 40 && digits.all fun c => (Sdk.hexDigit c).isSome
  | _ => false

/-- `isEvmAddress(a)`. -/
def isEvmAddress {F : Type} : Value F → Bool
  | .str a => evmAddress a
  | _ => false

/-- The 20 bytes an address spells. -/
def account (a : String) : Bytes := Sdk.hexBytes (a.toList.drop 2)

/-! ## The daily budget -/

/-- `dripDay` and `dripCountToday`. -/
structure Budget where
  dripDay : Int
  dripCountToday : Nat
deriving DecidableEq, Repr

/-- The UTC day of a time in milliseconds. -/
def dayOf (now : Int) : Int := now / 86400000

/-- A new day starts at 0. -/
def Budget.on (b : Budget) (day : Int) : Budget := if day ≠ b.dripDay then ⟨day, 0⟩ else b

/-- `globalBudgetAllow(now)`. -/
def globalBudgetAllow (dailyGlobalMax : Nat) (now : Int) (b : Budget) : Bool × Budget :=
  let b := b.on (dayOf now)
  if dailyGlobalMax ≤ b.dripCountToday then (false, b)
  else (true, { b with dripCountToday := b.dripCountToday + 1 })

/-- `globalBudgetRelease()`. -/
def globalBudgetRelease (b : Budget) : Budget :=
  if 0 < b.dripCountToday then { b with dripCountToday := b.dripCountToday - 1 } else b

/-! ## `POST /drip` -/

/-- The constants of `server.js`.  `DAILY_GLOBAL_MAX` is a count of drips. -/
structure Config where
  cooldownMs : Int
  dailyGlobalMax : Nat
  minBalanceWei : Int
  dripGmb : String

/-- What a request is answered. -/
inductive Response where
  | notAnAddress
  | addressOnCooldown (retryAfterMs : Int)
  | ipOnCooldown (retryAfterMs : Int)
  | budgetReached
  | belowFloor
  | dripped (dst amountGmb txHash : String)
  /-- The error handler's opaque answer. -/
  | internalError (id : String)
deriving DecidableEq, Repr

/-- The status code. -/
def Response.status : Response → Nat
  | .notAnAddress => 400
  | .addressOnCooldown _ => 429
  | .ipOnCooldown _ => 429
  | .budgetReached => 429
  | .belowFloor => 503
  | .dripped _ _ _ => 200
  | .internalError _ => 500

/-- The `error` of the body, if it is one. -/
def Response.error : Response → Option String
  | .notAnAddress => some "address must be a 0x EVM address"
  | .addressOnCooldown _ => some "address on cooldown"
  | .ipOnCooldown _ => some "ip on cooldown"
  | .budgetReached => some "global daily drip budget reached, try tomorrow"
  | .belowFloor => some "faucet balance below floor; refill required"
  | .dripped _ _ _ => none
  | .internalError _ => some "internal error"

/-- How far a request is that passed the gates. -/
inductive Stage where
  /-- Waiting for the balance. -/
  | balance
  /-- Waiting for the drip. -/
  | drip
  | succeeded
  /-- It failed and released what it had acquired. -/
  | rolledBack
  /-- The balance could not be read; nothing is released. -/
  | lost
deriving DecidableEq, Repr

/-- A request that passed the gates at `now`. -/
structure Request where
  /-- `to`. -/
  dst : String
  /-- `req.ip`, which may be undefined. -/
  ip : Option String
  now : Int
  stage : Stage
deriving DecidableEq, Repr

/-- What the requests share. -/
structure Server where
  byAddress : CooldownLimiter String
  byIp : CooldownLimiter (Option String)
  budget : Budget

/-- A service that has just started. -/
def Server.init (cfg : Config) : Server :=
  ⟨⟨cfg.cooldownMs, fun _ => none⟩, ⟨cfg.cooldownMs, fun _ => none⟩, ⟨0, 0⟩⟩

section
variable (cfg : Config) (srv : Server)

/-- The gates, for an address: the answer of a request that is refused, and the server afterwards. -/
def Server.gates (dst : String) (ip : Option String) (now : Int) : Option Response × Server :=
  let (acquired, byAddress) := srv.byAddress.tryAcquire dst now
  if acquired = false then
    (some (.addressOnCooldown (byAddress.remaining dst now)), { srv with byAddress })
  else
    let (acquired, byIp) := srv.byIp.tryAcquire ip now
    if acquired = false then
      (some (.ipOnCooldown (byIp.remaining ip now)), ⟨byAddress.release dst, byIp, srv.budget⟩)
    else
      let (allowed, budget) := globalBudgetAllow cfg.dailyGlobalMax now srv.budget
      if allowed = false then
        (some .budgetReached, ⟨byAddress.release dst, byIp.release ip, budget⟩)
      else (none, ⟨byAddress, byIp, budget⟩)

/-- A request up to its first await: the address it drips to, or its answer. -/
def Server.post {F : Type} (body : Value F) (ip : Option String) (now : Int) :
    Except Response String × Server :=
  match (body.get "address").getD .undefined with
  | .str dst =>
    if evmAddress dst = false then (.error .notAnAddress, srv)
    else match srv.gates cfg dst ip now with
      | (some answer, srv) => (.error answer, srv)
      | (none, srv) => (.ok dst, srv)
  | _ => (.error .notAnAddress, srv)

/-- The rollback of a request that failed. -/
def Server.rollBack (r : Request) : Server :=
  ⟨srv.byAddress.release r.dst, srv.byIp.release r.ip, globalBudgetRelease srv.budget⟩

/-- A request that knows the balance, or that the call threw. -/
def Server.balanced (r : Request) : Except String Int → Option Response × Stage × Server
  | .error id => (some (.internalError id), .lost, srv)
  | .ok balance =>
    if balance < cfg.minBalanceWei then (some .belowFloor, .rolledBack, srv.rollBack r)
    else (none, .drip, srv)

/-- A request whose drip is sent, or threw. -/
def Server.dripped (r : Request) : Except String String → Response × Stage × Server
  | .ok txHash => (.dripped r.dst cfg.dripGmb txHash, .succeeded, srv)
  | .error id => (.internalError id, .rolledBack, srv.rollBack r)

end

/-! ## All the requests -/

/-- The service, the requests that passed the gates, in that order, the answers given, and the times
    the requests came in. -/
structure State where
  server : Server
  requests : List Request
  answers : List Response
  arrivals : List Int

/-- The service at its start. -/
def State.init (cfg : Config) : State := ⟨.init cfg, [], [], []⟩

/-- A part of a request. -/
inductive Event (F : Type) where
  /-- A request comes in at `now`. -/
  | post (body : Value F) (ip : Option String) (now : Int)
  /-- The `i`th request gets the balance, or the error with this id. -/
  | balance (i : Nat) (answer : Except String Int)
  /-- The drip of the `i`th request is sent, or fails with this id. -/
  | drip (i : Nat) (answer : Except String String)

/-- One part of one request. -/
def step {F : Type} (cfg : Config) (s : State) : Event F → Except String State
  | .post body ip now =>
    let arrivals := s.arrivals ++ [now]
    match s.server.post cfg body ip now with
    | (.error answer, server) => .ok ⟨server, s.requests, s.answers ++ [answer], arrivals⟩
    | (.ok dst, server) => .ok ⟨server, s.requests ++ [⟨dst, ip, now, .balance⟩], s.answers, arrivals⟩
  | .balance i answer => do
    let r ← orThrow s.requests[i]? "no such request"
    failIf (r.stage ≠ .balance) "not waiting for the balance"
    let (response, stage, server) := s.server.balanced cfg r answer
    .ok ⟨server, s.requests.set i { r with stage := stage }, s.answers ++ response.toList, s.arrivals⟩
  | .drip i answer => do
    let r ← orThrow s.requests[i]? "no such request"
    failIf (r.stage ≠ .drip) "not waiting for the drip"
    let (response, stage, server) := s.server.dripped cfg r answer
    .ok ⟨server, s.requests.set i { r with stage := stage }, s.answers ++ [response], s.arrivals⟩

/-- The body `{"address": dst}`. -/
def asking (dst : String) : Value Unit := .obj [("address", .str dst)]

/-! ## What a step can do -/

/-- The request waits for the balance or for its drip. -/
def Stage.Waiting (stage : Stage) : Prop := stage = .balance ∨ stage = .drip

theorem Stage.Waiting.ne_rolledBack {stage : Stage} (h : stage.Waiting) : stage ≠ .rolledBack := by
  rcases h with rfl | rfl
  · exact Stage.noConfusion
  · exact Stage.noConfusion

/-- The request passes both cooldowns. -/
def Server.PassesCooldowns {F : Type} (srv : Server) (body : Value F) (ip : Option String) (now : Int) :
    Prop :=
  ∃ dst, body.get "address" = some (.str dst) ∧ evmAddress dst = true ∧
    ¬ 0 < srv.byAddress.remaining dst now ∧ ¬ 0 < srv.byIp.remaining ip now

/-- The request an event rolls back, if it does. -/
def Event.undone {F : Type} (cfg : Config) (s : State) : Event F → Option Request
  | .post _ _ _ => none
  | .balance i (.ok wei) => if wei < cfg.minBalanceWei then s.requests[i]? else none
  | .balance _ (.error _) => none
  | .drip _ (.ok _) => none
  | .drip i (.error _) => s.requests[i]?

section
variable {F : Type} {cfg : Config} {srv srv' : Server} {s t : State} {dst : String}
  {ip : Option String} {now : Int} {body : Value F} {e : Event F}

theorem tryAcquire_eq {κ : Type} [DecidableEq κ] {L : CooldownLimiter κ} {key : κ} :
    L.tryAcquire key now = if 0 < L.remaining key now then (false, L)
      else (true, { L with last := fun k => if k = key then some now else (L.sweep now).last k }) := rfl

/-- A request that passes the gates: no cooldown was left, and there was budget. -/
theorem gates_none (h : srv.gates cfg dst ip now = (none, srv')) :
    ¬ 0 < srv.byAddress.remaining dst now ∧ ¬ 0 < srv.byIp.remaining ip now ∧
      srv'.byAddress = (srv.byAddress.tryAcquire dst now).2 ∧
      globalBudgetAllow cfg.dailyGlobalMax now srv.budget = (true, srv'.budget) := by
  unfold Server.gates at h
  -- gate by gate: each branch but the last answers the request
  by_cases haddress : 0 < srv.byAddress.remaining dst now
  · rw [tryAcquire_eq, if_pos haddress] at h
    nomatch h
  by_cases hip : 0 < srv.byIp.remaining ip now
  · rw [tryAcquire_eq, if_neg haddress, tryAcquire_eq, if_pos hip] at h
    nomatch h
  rw [tryAcquire_eq, if_neg haddress, tryAcquire_eq, if_neg hip] at h
  obtain ⟨⟨allowed, budget⟩, hbudget⟩ : ∃ x,
      globalBudgetAllow cfg.dailyGlobalMax now srv.budget = x := ⟨_, rfl⟩
  rw [hbudget] at h
  cases allowed with
  | false => nomatch h
  | true =>
    injection h with _ h
    subst h
    refine ⟨haddress, hip, ?_, hbudget⟩
    rw [tryAcquire_eq, if_neg haddress]

/-- What a refused request leaves behind. -/
structure Left (cfg : Config) (srv : Server) (passed : Prop) (dst : String) (now : Int)
    (srv' : Server) : Prop where
  byAddress : srv'.byAddress = srv.byAddress ∨
    (¬ 0 < srv.byAddress.remaining dst now ∧
      srv'.byAddress = (srv.byAddress.tryAcquire dst now).2.release dst)
  budget : srv'.budget = srv.budget ∨
    (passed ∧ globalBudgetAllow cfg.dailyGlobalMax now srv.budget = (false, srv'.budget))

theorem gates_some {answer : Response} (h : srv.gates cfg dst ip now = (some answer, srv')) :
    Left cfg srv (¬ 0 < srv.byAddress.remaining dst now ∧ ¬ 0 < srv.byIp.remaining ip now) dst now
      srv' := by
  unfold Server.gates at h
  by_cases haddress : 0 < srv.byAddress.remaining dst now
  -- refused at the first gate: nothing was acquired
  · rw [tryAcquire_eq, if_pos haddress] at h
    injection h with _ h
    subst h
    exact ⟨.inl rfl, .inl rfl⟩
  have hacquired : srv.byAddress.tryAcquire dst now = (true, (srv.byAddress.tryAcquire dst now).2) := by
    rw [tryAcquire_eq, if_neg haddress]
  by_cases hip : 0 < srv.byIp.remaining ip now
  -- refused at the second: the address is released, the budget was not asked
  · have hrefused : srv.byIp.tryAcquire ip now = (false, srv.byIp) := by
      rw [tryAcquire_eq, if_pos hip]
    rw [hacquired, hrefused] at h
    injection h with _ h
    subst h
    exact ⟨.inr ⟨haddress, rfl⟩, .inl rfl⟩
  have hboth : srv.byIp.tryAcquire ip now = (true, (srv.byIp.tryAcquire ip now).2) := by
    rw [tryAcquire_eq, if_neg hip]
  obtain ⟨⟨allowed, budget⟩, hbudget⟩ : ∃ x,
      globalBudgetAllow cfg.dailyGlobalMax now srv.budget = x := ⟨_, rfl⟩
  rw [hacquired, hboth, hbudget] at h
  cases allowed with
  | true => nomatch h
  | false =>
    injection h with _ h
    subst h
    exact ⟨.inr ⟨haddress, rfl⟩, .inr ⟨⟨haddress, hip⟩, hbudget⟩⟩

/-- **What a step can do**: refuse a request, let it pass the gates, move one on, or roll one back. -/
inductive Stepped (cfg : Config) (s : State) : Event F → State → Prop where
  | refused {body : Value F} {ip : Option String} {now : Int} {server : Server} (dst : String)
      (answers : List Response) (h : Left cfg s.server (s.server.PassesCooldowns body ip now) dst now
        server) :
      Stepped cfg s (.post body ip now) ⟨server, s.requests, answers, s.arrivals ++ [now]⟩
  | passed {body : Value F} {ip : Option String} {now : Int} {server : Server} {dst : String}
      (hbody : body.get "address" = some (.str dst)) (hdst : evmAddress dst = true)
      (hgates : s.server.gates cfg dst ip now = (none, server)) :
      Stepped cfg s (.post body ip now)
        ⟨server, s.requests ++ [⟨dst, ip, now, .balance⟩], s.answers, s.arrivals ++ [now]⟩
  | moved {e : Event F} {i : Nat} {r : Request} {stage : Stage} (answers : List Response)
      (hr : s.requests[i]? = some r) (hwaiting : r.stage.Waiting) (hstage : stage ≠ .rolledBack)
      (hundone : e.undone cfg s = none) :
      Stepped cfg s e ⟨s.server, s.requests.set i { r with stage := stage }, answers, s.arrivals⟩
  | undone {e : Event F} {i : Nat} {r : Request} (answers : List Response)
      (hr : s.requests[i]? = some r) (hwaiting : r.stage.Waiting)
      (hundone : e.undone cfg s = some r) :
      Stepped cfg s e ⟨s.server.rollBack r, s.requests.set i { r with stage := .rolledBack }, answers,
        s.arrivals⟩

/-- A request whose body names no address is refused at once. -/
theorem Left.same (passed : Prop) (dst : String) (now : Int) : Left cfg srv passed dst now srv :=
  ⟨.inl rfl, .inl rfl⟩

/-- The body names no address. -/
theorem post_of_other (h : ∀ dst, body.get "address" ≠ some (.str dst)) :
    srv.post cfg body ip now = (.error .notAnAddress, srv) := by
  unfold Server.post
  cases hget : body.get "address" with
  | none => rfl
  | some v =>
    rw [Option.getD_some]
    cases v with
    | str dst => exact absurd hget (h dst)
    | undefined => rfl
    | null => rfl
    | bool b => rfl
    | num x => rfl
    | arr xs => rfl
    | obj fields => rfl

/-- A request that is refused. -/
theorem post_refused {answer : Response} (h : srv.post cfg body ip now = (.error answer, srv')) :
    ∃ dst, Left cfg srv (srv.PassesCooldowns body ip now) dst now srv' := by
  by_cases hnamed : ∃ dst, body.get "address" = some (.str dst)
  · obtain ⟨dst, hbody⟩ := hnamed
    refine ⟨dst, ?_⟩
    unfold Server.post at h
    rw [hbody, Option.getD_some] at h
    dsimp only at h
    by_cases hdst : evmAddress dst = false
    · rw [if_pos hdst] at h
      injection h with _ h
      rw [← h]
      exact .same _ dst now
    · rw [if_neg hdst] at h
      rw [Bool.not_eq_false] at hdst
      obtain ⟨⟨refusal, server⟩, hgates⟩ : ∃ x, srv.gates cfg dst ip now = x := ⟨_, rfl⟩
      rw [hgates] at h
      cases refusal with
      | none => nomatch h
      | some refusal =>
        injection h with _ h
        subst h
        have hleft := gates_some hgates
        exact ⟨hleft.byAddress, hleft.budget.imp_right fun hb => ⟨⟨dst, hbody, hdst, hb.1⟩, hb.2⟩⟩
  · rw [post_of_other (not_exists.mp hnamed)] at h
    injection h with _ h
    rw [← h]
    exact ⟨"", .same _ "" now⟩

/-- A request that passes the gates. -/
theorem post_passed (h : srv.post cfg body ip now = (.ok dst, srv')) :
    body.get "address" = some (.str dst) ∧ evmAddress dst = true ∧
      srv.gates cfg dst ip now = (none, srv') := by
  by_cases hnamed : ∃ dst, body.get "address" = some (.str dst)
  · obtain ⟨dst', hbody⟩ := hnamed
    unfold Server.post at h
    rw [hbody, Option.getD_some] at h
    dsimp only at h
    by_cases hdst : evmAddress dst' = false
    · rw [if_pos hdst] at h
      nomatch h
    · rw [if_neg hdst] at h
      rw [Bool.not_eq_false] at hdst
      obtain ⟨⟨refusal, server⟩, hgates⟩ : ∃ x, srv.gates cfg dst' ip now = x := ⟨_, rfl⟩
      rw [hgates] at h
      cases refusal with
      | some refusal => nomatch h
      | none =>
        injection h with hsame h
        injection hsame with hsame
        subst h hsame
        exact ⟨hbody, hdst, hgates⟩
  · rw [post_of_other (not_exists.mp hnamed)] at h
    nomatch h

theorem step_stepped (h : step cfg s e = .ok t) : Stepped cfg s e t := by
  cases e with
  | post body ip now =>
    unfold step at h
    dsimp only at h
    obtain ⟨⟨answer, server⟩, hpost⟩ : ∃ x, s.server.post cfg body ip now = x := ⟨_, rfl⟩
    rw [hpost] at h
    cases answer with
    | error answer =>
      injection h with h
      subst h
      obtain ⟨dst, hleft⟩ := post_refused hpost
      exact .refused dst _ hleft
    | ok dst =>
      injection h with h
      subst h
      obtain ⟨hbody, hdst, hgates⟩ := post_passed hpost
      exact .passed hbody hdst hgates
  | balance i answer =>
    obtain ⟨r, hr, h⟩ := bind_eq_ok.mp h
    obtain ⟨hstage, h⟩ := failIf_bind_eq_ok.mp h
    rw [orThrow_eq_ok] at hr
    have hwaiting : r.stage.Waiting := .inl (not_not.mp hstage)
    cases answer with
    | error id =>
      injection h with h
      subst h
      exact .moved _ hr hwaiting Stage.noConfusion rfl
    | ok wei =>
      unfold Server.balanced at h
      dsimp only at h
      by_cases hlow : wei < cfg.minBalanceWei
      · rw [if_pos hlow] at h
        injection h with h
        subst h
        exact .undone _ hr hwaiting ((if_pos hlow).trans hr)
      · rw [if_neg hlow] at h
        injection h with h
        subst h
        exact .moved _ hr hwaiting Stage.noConfusion (if_neg hlow)
  | drip i answer =>
    obtain ⟨r, hr, h⟩ := bind_eq_ok.mp h
    obtain ⟨hstage, h⟩ := failIf_bind_eq_ok.mp h
    rw [orThrow_eq_ok] at hr
    have hwaiting : r.stage.Waiting := .inr (not_not.mp hstage)
    cases answer with
    | error id =>
      injection h with h
      subst h
      exact .undone _ hr hwaiting hr
    | ok txHash =>
      injection h with h
      subst h
      exact .moved _ hr hwaiting Stage.noConfusion rfl

end

end Gemba.Faucet.DripService
