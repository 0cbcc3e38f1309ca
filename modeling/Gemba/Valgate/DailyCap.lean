/-
  The daily counter along whole runs of the chain.

  `CounterInv` is the invariant: each validator's counter for the current day is the sum of the
  bonding messages that took effect that day, no day's sum passes the cap, nothing is charged or
  logged for a day to come.  Every step keeps it (`counterInv_step`: a committed transaction, a later
  block, a governance update that keeps the cap), so every run from genesis does
  (`counterInv_run`).

  * `daily_counter_fidelity`  — the counter is exact and within the cap, as long as validators are
    not named in hex;
  * `daily_cap_bounds_tokens` — the tokens staking messages add to a validator in a day are within
    the cap, as long as none of them cancels an unbonding delegation either: that message adds
    tokens and no guard looks at it.
-/
import Gemba.Valgate.Chain

namespace Gemba.Valgate

open Gemba.Lib Gemba.Sdk

variable {B : AddressCodec} {S : Staking B} {P : StakingMsg → Prop} {cap : Int} {w w' : World S}

/-! ## Every run -/

/-- What the log bonded to `v` on a day. -/
def bondedOn (es : List Effect) (day : Nat) (v : ValAddress) : Int :=
  (es.map fun e => if e.day = day then e.bonded v else 0).sum

/-- The tokens `v` gained on a day. -/
def addedOn (es : List Effect) (day : Nat) (v : ValAddress) : Int :=
  (es.map fun e => if e.day = day ∧ e.valoper = v then e.added else 0).sum

@[simp] theorem bondedOn_append (es fs : List Effect) (day : Nat) (v : ValAddress) :
    bondedOn (es ++ fs) day v = bondedOn es day v + bondedOn fs day v := by
  rw [bondedOn, List.map_append, List.sum_append]
  rfl

theorem bondedOn_of_day {es : List Effect} {today day : Nat} (h : ∀ e ∈ es, e.day = today)
    (v : ValAddress) : bondedOn es day v = if day = today then bondedSum es v else 0 := by
  induction es with
  | nil => simp [bondedOn, bondedSum]
  | cons e es ih =>
    have hcons : bondedOn (e :: es) day v
        = (if e.day = day then e.bonded v else 0) + bondedOn es day v := List.sum_cons
    have hsum : bondedSum (e :: es) v = e.bonded v + bondedSum es v := List.sum_cons
    rw [hcons, hsum, ih (fun e he => h e (List.mem_cons_of_mem _ he)), h e List.mem_cons_self]
    by_cases hd : day = today
    · rw [if_pos hd.symm, if_pos hd, if_pos hd]
    · rw [if_neg (fun hc => hd hc.symm), if_neg hd, if_neg hd]
      rfl

/-- A day no entry lies on bonded nothing. -/
theorem bondedOn_of_past {es : List Effect} {today day : Nat} (h : ∀ e ∈ es, e.day ≤ today)
    (hday : today < day) (v : ValAddress) : bondedOn es day v = 0 := by
  induction es with
  | nil => rfl
  | cons e es ih =>
    have hcons : bondedOn (e :: es) day v
        = (if e.day = day then e.bonded v else 0) + bondedOn es day v := List.sum_cons
    have he := h e List.mem_cons_self
    rw [hcons, ih (fun e he => h e (List.mem_cons_of_mem _ he)), if_neg (by omega)]
    rfl

/-- **The invariant.**  The cap is in force; each validator's counter for today is what today's
    messages bonded to it; no day's bonds pass the cap; nothing is charged or logged for a day to
    come. -/
structure CounterInv (P : StakingMsg → Prop) (cap : Int) (w : World S) : Prop where
  dailyCap : DailyCap w.ctx.kv cap
  total : ∀ v, (dailyBondUsed w.ctx v).val = bondedOn w.log w.day v
  bounded : ∀ day v, bondedOn w.log day v ≤ cap
  fresh : ∀ day, w.day < day → ∀ v, (dailyBondUsedOn w.ctx.kv day v).val = 0
  past : ∀ e ∈ w.log, e.day ≤ w.day
  entries : ∀ e ∈ w.log, e.Ok B ∧ P e.msg

/-- What a run is allowed to do: its staking messages satisfy `P`, and governance keeps the cap. -/
def Allowed (P : StakingMsg → Prop) (cap : Int) (_ : World S) : Label S → Prop
  | .tx _ tx => ∀ m ∈ stakingMsgsOf tx.msgs, P m
  | .updateParams msg => msg.params.maxDailyBondIncrease.val? = some cap
  | .beginBlock _ => True
  | .staking _ => True

/-- A chain as `InitGenesis` leaves it, with a positive cap. -/
structure Genesis (cap : Int) (w : World S) : Prop where
  store : ∃ gs, initGenesis (fun _ => none) gs = .ok w.ctx.kv
  dailyCap : DailyCap w.ctx.kv cap
  log : w.log = []

theorem counterInv_genesis (h : Genesis cap w) : CounterInv P cap w := by
  obtain ⟨⟨gs, hgs⟩, hcap, hlog⟩ := h
  have hempty : ∀ day v, (dailyBondUsedOn w.ctx.kv day v).val = 0 := by
    intro day v
    obtain ⟨-, hkv⟩ := setParams_eq_ok.mp (initGenesis_eq_ok.mp hgs)
    rw [dailyBondUsedOn, hkv, Store.set_of_ne (dailyBondKey_ne_paramsKey v)]
    rfl
  refine ⟨hcap, ?_, ?_, fun day _ => hempty day, ?_, ?_⟩
  · intro v
    rw [hlog]
    exact hempty _ v
  · intro day v
    rw [hlog]
    exact Int.le_of_lt hcap.1
  · intro e he
    rw [hlog] at he
    exact absurd he List.not_mem_nil
  · intro e he
    rw [hlog] at he
    exact absurd he List.not_mem_nil

/-- A delivered transaction keeps the invariant. -/
theorem CounterInv.delivered (hPnot : ∀ m, P m → m.NotHex) (hinv : CounterInv P cap w)
    {new : List Effect} (h : Delivered P cap w w' new) : CounterInv P cap w' := by
  have hday : w'.day = w.day := by rw [World.day, World.day, h.time]
  have htoday : ∀ e ∈ new, e.day = w.day := fun e he => (h.entries e he).2.1
  have hcharge : ∀ v, chargeSum B new v = bondedSum new v :=
    (chargeSum_eq_bondedSum_iff (fun e he => (h.entries e he).1)).mpr
      (fun e he => hPnot _ (h.entries e he).2.2)
  have hused : ∀ v, (dailyBondUsed w'.ctx v).val = bondedOn w'.log w.day v := by
    intro v
    rw [dailyBondUsed, h.time, h.charged.today v, h.log, bondedOn_append,
      bondedOn_of_day htoday v, if_pos rfl, hcharge v]
    congr 1
    exact hinv.total v
  refine ⟨h.charged.dailyCap hinv.dailyCap, ?_, ?_, ?_, ?_, ?_⟩
  · intro v
    rw [hday]
    exact hused v
  · intro day v
    by_cases hd : day = w.day
    · -- today's bonds are the counter, which every charge kept within the cap
      have hbound := h.charged.bounded (fun v => (hinv.total v).le.trans (hinv.bounded w.day v)) v
      have := hused v
      rw [dailyBondUsed, h.time] at this
      rw [hd]
      omega
    · rw [h.log, bondedOn_append, bondedOn_of_day htoday v, if_neg hd]
      have := hinv.bounded day v
      omega
  · intro day hlt v
    rw [hday] at hlt
    exact h.charged.later day hlt (hinv.fresh day hlt) v
  · intro e he
    rw [h.log, List.mem_append] at he
    rw [hday]
    rcases he with he | he
    · exact hinv.past e he
    · exact Nat.le_of_eq (htoday e he)
  · intro e he
    rw [h.log, List.mem_append] at he
    rcases he with he | he
    · exact hinv.entries e he
    · exact ⟨(h.entries e he).1, (h.entries e he).2.2⟩

/-- A later block keeps the invariant: on a new day every counter reads 0 and nothing is logged. -/
theorem CounterInv.beginBlock (hinv : CounterInv P cap w) {t : BlockTime}
    (ht : w.ctx.blockTime.unix ≤ t.unix) :
    CounterInv P cap { w with ctx := { w.ctx with blockTime := t } } := by
  have hle : w.day ≤ t.day := BlockTime.day_mono ht
  refine ⟨hinv.dailyCap, ?_, hinv.bounded, ?_, ?_, hinv.entries⟩
  · intro v
    show (dailyBondUsedOn w.ctx.kv t.day v).val = bondedOn w.log t.day v
    by_cases hd : t.day = w.day
    · rw [hd]
      exact hinv.total v
    · have hlt : w.day < t.day := by omega
      rw [hinv.fresh _ hlt v, bondedOn_of_past hinv.past hlt v]
  · intro day hlt
    exact hinv.fresh day (Nat.lt_of_le_of_lt hle hlt)
  · intro e he
    exact Nat.le_trans (hinv.past e he) hle

/-- A governance update that keeps the cap touches nothing else the invariant speaks of. -/
theorem CounterInv.updateParams (hinv : CounterInv P cap w) {authority : String}
    {msg : MsgUpdateParams} (hcap : msg.params.maxDailyBondIncrease.val? = some cap) {kv : Store}
    (h : updateParams authority w.ctx.kv msg = .ok kv) :
    CounterInv P cap { w with ctx := { w.ctx with kv := kv } } := by
  have hget := updateParams_getParams h
  obtain ⟨-, rfl⟩ := setParams_eq_ok.mp (updateParams_eq_ok.mp h).2
  have hsame : ∀ day v,
      dailyBondUsedOn (w.ctx.kv.set paramsKey msg.params.marshal) day v
        = dailyBondUsedOn w.ctx.kv day v := by
    intro day v
    rw [dailyBondUsedOn, Store.set_of_ne (dailyBondKey_ne_paramsKey v)]
    rfl
  refine ⟨⟨hinv.dailyCap.1, _, hget, ?_⟩, ?_, hinv.bounded, ?_, hinv.past, hinv.entries⟩
  · rw [Params.wireImage, val?_wireInt, MathInt.val, hcap]
    rfl
  · intro v
    show (dailyBondUsedOn (w.ctx.kv.set paramsKey msg.params.marshal) w.day v).val = _
    rw [hsame]
    exact hinv.total v
  · intro day hlt v
    show (dailyBondUsedOn (w.ctx.kv.set paramsKey msg.params.marshal) day v).val = 0
    rw [hsame]
    exact hinv.fresh day hlt v

/-- **Every step keeps the invariant.** -/
theorem counterInv_step (hdoc : S.Documented) (hPnot : ∀ m, P m → m.NotHex) {authority : String}
    {l : Label S} (hinv : CounterInv P cap w) (hl : Allowed P cap w l)
    (h : step authority w l = .ok w') : CounterInv P cap w' := by
  cases l with
  | beginBlock t =>
    obtain ⟨⟨⟩, ht, h⟩ := bind_eq_ok.mp h
    injection h with h
    subst h
    rw [failIf_eq_ok] at ht
    exact hinv.beginBlock (by omega)
  | tx mode tx =>
    dsimp only [step] at h
    split at h
    · -- a committed transaction
      rename_i w₁ hrun
      injection h with h
      subst h
      obtain ⟨new, hdel⟩ := runTx_delivered hdoc hinv.dailyCap hl hrun
      exact hinv.delivered hPnot hdel
    · -- checked, simulated or failed: nothing is kept
      injection h with h
      subst h
      exact hinv
  | updateParams msg =>
    dsimp only [step] at h
    split at h
    · rename_i kv hkv
      injection h with h
      subst h
      exact hinv.updateParams hl hkv
    · injection h with h
      subst h
      exact hinv
  | staking s' =>
    injection h with h
    subst h
    exact ⟨hinv.dailyCap, hinv.total, hinv.bounded, hinv.fresh, hinv.past, hinv.entries⟩

/-- The invariant along a whole run. -/
theorem counterInv_run (hdoc : S.Documented) (hPnot : ∀ m, P m → m.NotHex) {authority : String}
    {w₀ : World S} {labels : List (Label S)} (hgen : Genesis cap w₀)
    (hrun : Run (step authority) (Allowed P cap) w₀ labels w) : CounterInv P cap w :=
  hrun.inv (CounterInv P cap) (counterInv_genesis hgen)
    (fun _ _ _ hinv hl h => counterInv_step hdoc hPnot hinv hl h)

/-! ### Runs of the sample chain -/

theorem sampleWorld_genesis : Genesis (50 * oneGmb) sampleWorld := by
  have hset := setParams_ok (fun _ => none) (p := defaultGenesis.params.backfill)
    defaultParams_full.valid
  exact ⟨⟨defaultGenesis, initGenesis_eq_ok.mpr hset⟩, sampleStore_dailyCap, rfl⟩

theorem sampleName_notHex : ¬ isHexAddress sampleName := by decide +kernel

theorem delegateTo_notHex {gmb : Int} {h : (gmb * oneGmb).natAbs < 2 ^ 256} :
    (delegateTo sampleName gmb h).NotHex := by
  intro name amount hbond
  injection hbond with hbond
  injection hbond with hname
  rw [← hname]
  exact sampleName_notHex

/-- A delegation inside `MsgExec`, a precompile call and one more that reverts; then a simulation. -/
def sampleRun : List (Label (tableStaking sampleCodec)) :=
  [.tx .deliver (plainTx [.exec [.staking (delegateTo sampleName 20 twentyGmb_fits)],
      .ethereumTx [.call (delegateTo sampleName 15 (by decide)),
        .frame [.call (delegateTo sampleName 10 (by decide))] true]]),
    .tx .simulate (plainTx [.staking (delegateTo sampleName 5 (by decide))])]

theorem sampleRun_allowed {P : StakingMsg → Prop}
    (hP : ∀ gmb h, P (delegateTo sampleName gmb h)) {cap : Int} :
    ∀ l ∈ sampleRun, ∀ w, Allowed P cap w l := by
  intro l hl w
  simp only [sampleRun, List.mem_cons, List.not_mem_nil, or_false] at hl
  rcases hl with rfl | rfl
  · intro m hm
    have hmem : m ∈ [delegateTo sampleName 20 (by decide), delegateTo sampleName 15 (by decide),
        delegateTo sampleName 10 (by decide)] := hm
    simp only [List.mem_cons, List.not_mem_nil, or_false] at hmem
    rcases hmem with rfl | rfl | rfl <;> exact hP _ _
  · intro m hm
    have hmem : m ∈ [delegateTo sampleName 5 (by decide)] := hm
    rw [List.mem_singleton] at hmem
    rw [hmem]
    exact hP _ _

/-! ## The counter is exact, and what it bounds -/

/-- **Daily counter fidelity.**  In every run from genesis under a fixed positive cap, with
    validators not named in hex, each validator's counter for the current day is the sum of the
    bonding messages that took effect that day, each counted once, and it is within the cap. -/
theorem daily_counter_fidelity (hdoc : S.Documented) {authority : String} {w₀ : World S}
    {labels : List (Label S)} (hgen : Genesis cap w₀)
    (hrun : Run (step authority) (Allowed StakingMsg.NotHex cap) w₀ labels w) (v : ValAddress) :
    (dailyBondUsed w.ctx v).val = bondedOn w.log w.day v ∧ (dailyBondUsed w.ctx v).val ≤ cap := by
  have hinv := counterInv_run hdoc (fun _ h => h) hgen hrun
  refine ⟨hinv.total v, ?_⟩
  rw [hinv.total v]
  exact hinv.bounded w.day v

/-- The counter after `sampleRun` holds the two delegations that took effect. -/
theorem daily_counter_fidelity_sample :
    ∃ w : World (tableStaking sampleCodec),
      Run (step "gov") (Allowed StakingMsg.NotHex (50 * oneGmb)) sampleWorld sampleRun w ∧
      (dailyBondUsed w.ctx sampleAddress).val = 35 * oneGmb ∧
      (dailyBondUsed w.ctx sampleAddress).val = bondedOn w.log w.day sampleAddress ∧
      (dailyBondUsed w.ctx sampleAddress).val ≤ 50 * oneGmb := by
  have hview : (runM (step "gov") sampleWorld sampleRun).map
      (fun w => (dailyBondUsed w.ctx sampleAddress).val) = .ok (35 * oneGmb) := by
    decide +kernel
  obtain ⟨w, hrun, hused⟩ := Run.of_runM_map
    (allowedM_of_forall (sampleRun_allowed (fun _ _ => delegateTo_notHex))) hview
  exact ⟨w, hrun, hused, daily_counter_fidelity (tableStaking_documented sampleCodec)
    sampleWorld_genesis hrun sampleAddress⟩

/-- A staking message the daily cap covers: it cancels no unbonding, and names no validator in
    hex. -/
def StakingMsg.Covered (m : StakingMsg) : Prop := m.bond? = m.increase? ∧ m.NotHex

/-- An entry whose message the cap covers adds no more than it bonds. -/
theorem Effect.added_le_bonded {e : Effect} (h : e.Ok B) (hcov : e.msg.bond? = e.msg.increase?)
    (v : ValAddress) : (if e.valoper = v then e.added else 0) ≤ e.bonded v := by
  obtain ⟨name, amount, hinc, hva, hpos, hadded⟩ := h.increases
  rw [Effect.bonded, hcov, hinc]
  by_cases hv : e.valoper = v
  · rw [if_pos hv]
    show e.added ≤ if v = e.valoper then amount.val else 0
    rw [if_pos hv.symm]
    exact hadded
  · rw [if_neg hv]
    show 0 ≤ if v = e.valoper then amount.val else 0
    rw [if_neg (fun hc => hv hc.symm)]

/-- **What the daily cap bounds.**  In every run in which no message cancels an unbonding delegation
    or names its validator in hex, the tokens staking messages added to a validator on any day stay
    within the cap. -/
theorem daily_cap_bounds_tokens (hdoc : S.Documented) {authority : String} {w₀ : World S}
    {labels : List (Label S)} (hgen : Genesis cap w₀)
    (hrun : Run (step authority) (Allowed StakingMsg.Covered cap) w₀ labels w) (v : ValAddress)
    (day : Nat) : addedOn w.log day v ≤ cap := by
  have hinv := counterInv_run hdoc (fun _ h => h.2) hgen hrun
  refine Int.le_trans ?_ (hinv.bounded day v)
  refine List.sum_le_sum (fun e he => ?_)
  obtain ⟨hok, hcov, -⟩ := hinv.entries e he
  have hle := Effect.added_le_bonded hok hcov v
  by_cases hd : e.day = day
  · rw [if_pos hd]
    simpa [hd] using hle
  · rw [if_neg hd, if_neg (fun hc => hd hc.1)]

theorem daily_cap_bounds_tokens_sample :
    ∃ w : World (tableStaking sampleCodec),
      Run (step "gov") (Allowed StakingMsg.Covered (50 * oneGmb)) sampleWorld sampleRun w ∧
      addedOn w.log 19675 sampleAddress = 35 * oneGmb ∧
      addedOn w.log 19675 sampleAddress ≤ 50 * oneGmb := by
  have hview : (runM (step "gov") sampleWorld sampleRun).map
      (fun w => addedOn w.log 19675 sampleAddress) = .ok (35 * oneGmb) := by
    decide +kernel
  have hcovered : ∀ gmb h, (delegateTo sampleName gmb h).Covered :=
    fun _ _ => ⟨rfl, delegateTo_notHex⟩
  obtain ⟨w, hrun, hadded⟩ := Run.of_runM_map
    (allowedM_of_forall (sampleRun_allowed hcovered)) hview
  exact ⟨w, hrun, hadded, daily_cap_bounds_tokens (tableStaking_documented sampleCodec)
    sampleWorld_genesis hrun sampleAddress 19675⟩

/-- A cancelled unbonding of 10 GMB. -/
def cancelTen : StakingMsg :=
  .cancelUnbondingDelegation
    ⟨"cosmos1delegator", sampleName, ⟨"agmb", .int (10 * oneGmb) (by decide)⟩, 1⟩

/-- **A cancelled unbonding is not counted.**  The cap of 50 GMB spent by a delegation, a cancelled
    unbonding adds 10 more the same day. -/
theorem cancelled_unbonding_passes_cap :
    Genesis (50 * oneGmb) sampleWorld ∧
    ∃ w : World (tableStaking sampleCodec),
      Run (step "gov") (fun _ _ => True) sampleWorld
        [.tx .deliver (plainTx [.staking (delegateTo sampleName 50 (by decide))]),
          .tx .deliver (plainTx [.staking cancelTen])] w ∧
      addedOn w.log 19675 sampleAddress = 60 * oneGmb ∧
      50 * oneGmb < addedOn w.log 19675 sampleAddress := by
  have hview : (runM (step "gov") sampleWorld
      [.tx .deliver (plainTx [.staking (delegateTo sampleName 50 (by decide))]),
        .tx .deliver (plainTx [.staking cancelTen])]).map
      (fun w => addedOn w.log 19675 sampleAddress) = .ok (60 * oneGmb) := by
    decide +kernel
  obtain ⟨w, hrun, hadded⟩ := Run.of_runM_map
    (allowedM_of_forall (fun _ _ _ => trivial)) hview
  refine ⟨sampleWorld_genesis, w, hrun, hadded, ?_⟩
  rw [hadded]
  decide

end Gemba.Valgate
