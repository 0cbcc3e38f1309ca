/-
  When the ante panics.

  The comments promise that a refusal is "a normal tx failure — never a panic", and the walk that
  collects the bonds leaves a nil amount to the staking module.  The walk that checks the creations
  does not: it compares the amounts as they are (`missing_value_panics`).

  For stored parameters there are three ways to a panic, and each needs that nothing before it made
  the ante return (`ante_never_panics_iff`):

  1. `checkMsgs` comes to a creation that lacks an amount it compares (`Lacks`);
  2. the bonds of the transaction to one validator add up to more than 256 bits;
  3. with a cap in force, such a total and the day's counter do.
-/
import Gemba.Valgate.Nesting

namespace Gemba.Valgate

open Gemba.Lib Gemba.Sdk

/-- The call panics. -/
def panics {α : Type} (x : Outcome α) : Prop := ∃ msg, x = .error (.panic msg)

/-- What the walks of a transaction meet, in order: messages, and obstacles. -/
def met (msgs : List Msg) : List (Fault ⊕ Msg) := obstacles.meets 0 (treesOf msgs)

/-- `checkMsgs` goes on after it. -/
def Passable (p : Params) : Fault ⊕ Msg → Prop
  | .inl _ => False
  | .inr (.staking (.createValidator cv)) => Passes p.minSelfBond p.maxSelfBond cv
  | .inr _ => True

/-- The creation lacks an amount that is compared: its value, or its commitment when the value is high
    enough. -/
def Lacks (p : Params) (cv : MsgCreateValidator) : Prop :=
  cv.value.amount.isNil = true ∨
    (p.minSelfBond.val ≤ cv.value.amount.val ∧ cv.minSelfDelegation.isNil = true)

/-- `checkMsgs` accepts the messages. -/
structure Admitted (p : Params) (msgs : List Msg) : Prop where
  decode : allDecode msgs = true
  depth : nesting msgs ≤ maxAuthzDepth
  passes : ∀ cv, .staking (.createValidator cv) ∈ flatten msgs → Passes p.minSelfBond p.maxSelfBond cv

/-- The validators of some bonds, in the order of their first. -/
def bonded (bonds : List (ValAddress × MathInt)) : List ValAddress := (bonds.map Prod.fst).eraseDups

/-- Today's counter of `v`, after the bonds. -/
def chargedToday (ctx : Ctx) (bonds : List (ValAddress × MathInt)) (v : ValAddress) : Int :=
  (dailyBondUsed ctx v).val + totalOf bonds v

/-- **No value is missing or too large** where the ante comes across it. -/
structure PanicFree (B : AddressCodec) (ctx : Ctx) (p : Params) (msgs : List Msg) (simulate : Bool) :
    Prop where
  amounts : ∀ pre cv post, met msgs = pre ++ .inr (.staking (.createValidator cv)) :: post →
    (∀ x ∈ pre, Passable p x) → ¬ Lacks p cv
  sums : Admitted p msgs → simulate = false → SumsFit (bondsIn B msgs)
  counters : Admitted p msgs → simulate = false → 0 < p.maxDailyBondIncrease.val →
    ∀ pre v post, bonded (bondsIn B msgs) = pre ++ v :: post →
      (∀ w ∈ pre, (chargedToday ctx (bondsIn B msgs) w).natAbs < 2 ^ 256 ∧
        chargedToday ctx (bondsIn B msgs) w ≤ p.maxDailyBondIncrease.val) →
      (chargedToday ctx (bondsIn B msgs) v).natAbs < 2 ^ 256

section
variable {B : AddressCodec} {ctx : Ctx} {p : Params} {msgs : List Msg} {simulate : Bool}
  {bonds : List (ValAddress × MathInt)} {incs : List BondIncrease}

/-! ## The creations -/

theorem pass_eq_ok {x : Fault ⊕ Msg} :
    (checker p.minSelfBond p.maxSelfBond).pass () x = .ok () ↔ Passable p x := by
  cases x with
  | inl e => exact iff_of_false (fun h => nomatch h) id
  | inr m =>
    cases m with
    | staking m =>
      cases m with
      | createValidator cv => exact checkCreateValidator_iff
      | delegate m => exact iff_of_true rfl trivial
      | beginRedelegate m => exact iff_of_true rfl trivial
      | undelegate m => exact iff_of_true rfl trivial
      | cancelUnbondingDelegation m => exact iff_of_true rfl trivial
    | exec inner => exact iff_of_true rfl trivial
    | execUndecodable err => exact iff_of_true rfl trivial
    | ethereumTx ops => exact iff_of_true rfl trivial
    | other tag => exact iff_of_true rfl trivial

/-- Only a creation panics. -/
theorem pass_panics {m : Msg} {msg : String}
    (h : (checker p.minSelfBond p.maxSelfBond).pass () (.inr m) = .error (.panic msg)) :
    ∃ cv, m = .staking (.createValidator cv) := by
  rcases checker_visit p.minSelfBond p.maxSelfBond m with hcreation | hother
  · exact hcreation
  · exact absurd (hother.symm.trans h) (fun h => nomatch h)

theorem checkMsgs_eq_runM (min max : MathInt) (msgs : List Msg) :
    checkMsgs msgs min max 0 = runM (checker min max).pass () (met msgs) := by
  rw [checkMsgs_eq_walk, Walker.walkAll_eq_runM]
  rfl

/-- **When `checkMsgs` panics.** -/
theorem checkMsgs_panics_iff (hmin : p.minSelfBond.isNil = false) :
    panics (checkMsgs msgs p.minSelfBond p.maxSelfBond 0) ↔
      ∃ pre cv post, met msgs = pre ++ .inr (.staking (.createValidator cv)) :: post ∧
        (∀ x ∈ pre, Passable p x) ∧ Lacks p cv := by
  rw [checkMsgs_eq_runM]
  have hpasses : ∀ pre : List (Fault ⊕ Msg),
      runM (checker p.minSelfBond p.maxSelfBond).pass () pre = .ok () ↔ ∀ x ∈ pre, Passable p x := by
    intro pre
    rw [runM_unit]
    exact forall₂_congr fun x _ => pass_eq_ok
  have hlacks : ∀ cv, panics (checkCreateValidator p.minSelfBond p.maxSelfBond cv) ↔ Lacks p cv := by
    intro cv
    unfold panics Lacks
    rw [checkCreateValidator_panics_iff, hmin]
    exact or_iff_right Bool.false_ne_true
  constructor
  · rintro ⟨msg, h⟩
    obtain ⟨pre, x, post, ⟨⟩, hmet, hpre, hx⟩ := runM_eq_error.mp h
    cases x with
    | inl e =>
      -- the obstacles are errors
      have hmem : Sum.inl e ∈ obstacles.meets 0 (treesOf msgs) := by
        change met msgs = _ at hmet
        unfold met at hmet
        rw [hmet]
        exact List.mem_append_right _ List.mem_cons_self
      injection hx with hx
      subst hx
      rcases Obstacles.obstacle_of_mem hmem with h | ⟨err, h⟩
      · nomatch h
      · nomatch h
    | inr m =>
      obtain ⟨cv, rfl⟩ := pass_panics hx
      exact ⟨pre, cv, post, hmet, (hpasses pre).mp hpre, (hlacks cv).mp ⟨msg, hx⟩⟩
  · rintro ⟨pre, cv, post, hmet, hpre, hcv⟩
    obtain ⟨msg, hpanic⟩ := (hlacks cv).mpr hcv
    exact ⟨msg, runM_eq_error.mpr ⟨pre, _, post, (), hmet, (hpasses pre).mpr hpre, hpanic⟩⟩

/-- **When it accepts.** -/
theorem checkMsgs_eq_ok :
    checkMsgs msgs p.minSelfBond p.maxSelfBond 0 = .ok () ↔ Admitted p msgs := by
  by_cases hclear : allDecode msgs = true ∧ nesting msgs ≤ maxAuthzDepth
  · rw [check_of_clear hclear.1 hclear.2, runM_check_iff]
    exact ⟨fun h => ⟨hclear.1, hclear.2, h⟩, fun h => h.passes⟩
  · exact iff_of_false (fun h => check_not_succeeds hclear ⟨_, h⟩)
      fun h => hclear ⟨h.decode, h.depth⟩

/-! ## The bonds -/

theorem addTo_overflow {keys : List ValAddress} {f : ValAddress → Int} {va : ValAddress} {a : Int}
    (ha : a.natAbs < 2 ^ 256)
    (hview : incs.map (fun inc => (inc.valoper, inc.amount.val?)) = keys.map fun v => (v, some (f v)))
    (hmem : va ∈ keys) (hlarge : ¬ (f va + a).natAbs < 2 ^ 256) :
    addTo va (.int a ha) incs = .error (.panic "Int overflow") := by
  obtain ⟨-, -, pre, post, -, -, -, hadd⟩ := addTo_entry ha hview hmem
  have hover : MathInt.checked (f va + a) = .error (.panic "Int overflow") := dif_neg hlarge
  rw [hadd, hover]
  rfl

theorem SumsFit.snoc {b : ValAddress × MathInt} (h : SumsFit bonds)
    (hlast : (totalOf bonds b.1 + b.2.val).natAbs < 2 ^ 256) : SumsFit (bonds ++ [b]) := by
  intro k hk c hc
  rw [List.length_append, List.length_singleton] at hk
  by_cases hfull : k = bonds.length + 1
  · have htake : (bonds ++ [b]).take k = bonds ++ [b] := by
      rw [List.take_of_length_le]
      rw [List.length_append, List.length_singleton]
      omega
    rw [htake, totalOf_snoc]
    by_cases hsame : c.1 = b.1
    · rw [if_pos hsame, hsame]
      exact hlast
    · rw [if_neg hsame, Int.add_zero]
      rcases List.mem_append.mp hc with hc | hc
      · have := h bonds.length le_rfl c hc
        rw [List.take_length] at this
        exact this
      · exact absurd (congrArg Prod.fst (List.mem_singleton.mp hc)) hsame
  · rw [List.take_append_of_le_length (by omega)]
    by_cases hkey : c.1 ∈ bonds.map Prod.fst
    · obtain ⟨d, hd, hdc⟩ := List.mem_map.mp hkey
      rw [← hdc]
      exact h k (by omega) d hd
    · have hnone : c.1 ∉ (bonds.take k).map Prod.fst := fun hin => by
        obtain ⟨d, hd, hdc⟩ := List.mem_map.mp hin
        exact hkey (List.mem_map.mpr ⟨d, List.mem_of_mem_take hd, hdc⟩)
      rw [totalOf_of_notMem hnone]
      decide

/-- **The bonds are collected exactly when their totals fit**; otherwise the walk panics. -/
theorem runM_addBond_overflow (hset : ∀ b ∈ bonds, b.2.isNil = false) (hlarge : ¬ SumsFit bonds) :
    panics (runM addBond [] bonds) := by
  induction bonds using List.reverseRecOn with
  | nil => exact absurd (fun k _ b hb => absurd hb List.not_mem_nil) hlarge
  | append_singleton bonds b ih =>
    have hinit : ∀ c ∈ bonds, c.2.isNil = false := fun c hc => hset c (List.mem_append_left _ hc)
    rw [runM_append]
    -- either an earlier sum overflows already, or the last bond's does
    by_cases hfits : SumsFit bonds
    · obtain ⟨incs, hrun, hcollected⟩ := collected_of_fits hinit hfits
      have hlast : ¬ (totalOf bonds b.1 + b.2.val).natAbs < 2 ^ 256 := fun h => hlarge (hfits.snoc h)
      obtain ⟨va, amt⟩ := b
      cases amt with
      | nil => nomatch hset _ (List.mem_append_right _ (List.mem_singleton_self _))
      | int a ha =>
        have hmem : va ∈ bonded bonds := by
          rw [bonded, List.mem_eraseDups]
          by_contra hnot
          refine hlast ?_
          rw [totalOf_of_notMem hnot, Int.zero_add]
          exact ha
        rw [hrun, ok_bind, runM]
        unfold addBond
        rw [addTo_overflow ha hcollected hmem hlast]
        exact ⟨_, rfl⟩
    · obtain ⟨msg, herr⟩ := ih hinit hfits
      rw [herr]
      exact ⟨msg, rfl⟩

/-! ## The counters -/

section
variable {v : ValAddress} {a : Int}

theorem checkDailyBond_of_noCap (hp : getParams ctx.kv = .ok p) (hfull : p.Full)
    (hcap : p.maxDailyBondIncrease.val ≤ 0) (amt : MathInt) :
    CheckDailyBond B ctx v amt = .ok () := by
  obtain ⟨hlb, hl⟩ := MathInt.val?_eq_some.mp hfull.maxDailyBondIncrease
  have hno : noCap p.maxDailyBondIncrease = .ok true := by
    rw [hl]
    simp [noCap, hcap]
  rw [CheckDailyBond, checkDailyBond, hp, ok_bind]
  dsimp only
  rw [hno]
  rfl

/-- Under a cap, the check adds to the counter and compares. -/
theorem checkDailyBond_of_cap (hp : getParams ctx.kv = .ok p) (hfull : p.Full)
    (hcap : 0 < p.maxDailyBondIncrease.val) (ha : a.natAbs < 2 ^ 256) :
    (CheckDailyBond B ctx v (.int a ha) = .ok () ↔
      ((dailyBondUsed ctx v).val + a).natAbs < 2 ^ 256 ∧
        (dailyBondUsed ctx v).val + a ≤ p.maxDailyBondIncrease.val) ∧
      (panics (CheckDailyBond B ctx v (.int a ha)) ↔
        ¬ ((dailyBondUsed ctx v).val + a).natAbs < 2 ^ 256) := by
  obtain ⟨hlb, hl⟩ := MathInt.val?_eq_some.mp hfull.maxDailyBondIncrease
  obtain ⟨u, hub, hu⟩ : ∃ u hub, dailyBondUsed ctx v = .int u hub :=
    ⟨_, MathInt.val?_eq_some.mp (dailyBondUsedOn_isSome _ _ _)⟩
  rw [CheckDailyBond, checkDailyBond, hp, ok_bind]
  dsimp only
  rw [noCap_of_pos hfull.maxDailyBondIncrease hcap, ok_bind, if_neg (by decide), hu, MathInt.val_int]
  by_cases hfits : (u + a).natAbs < 2 ^ 256
  · have hadd : (MathInt.int u hub).add (.int a ha) = .ok (.int (u + a) hfits) :=
      MathInt.checked_of_fits hfits
    rw [hadd, ok_bind, hl, MathInt.gt_int, ok_bind, MathInt.val_int]
    by_cases hover : p.maxDailyBondIncrease.val < u + a
    · rw [failIf, if_pos (decide_eq_true hover)]
      constructor
      · refine iff_of_false (fun h => ?_) fun h => absurd hover (not_lt.mpr h.2)
        cases h
      · refine iff_of_false ?_ (not_not_intro hfits)
        rintro ⟨msg, h⟩
        cases h
    · rw [failIf_neg (by rw [decide_eq_true_eq]; exact hover)]
      refine ⟨iff_of_true rfl ⟨hfits, not_lt.mp hover⟩, iff_of_false ?_ (not_not_intro hfits)⟩
      rintro ⟨msg, h⟩
      cases h
  · have hadd : (MathInt.int u hub).add (.int a ha) = .error (.panic "Int overflow") := dif_neg hfits
    rw [hadd]
    refine ⟨iff_of_false (fun h => ?_) fun h => hfits h.1, iff_of_true ⟨_, rfl⟩ hfits⟩
    cases h

end

theorem checkAll_eq_runM (incs : List BondIncrease) :
    checkAll B ctx incs = runM (fun _ inc => CheckDailyBond B ctx inc.valoper inc.amount) () incs := by
  induction incs with
  | nil => rfl
  | cons inc incs ih =>
    rw [checkAll, ih]
    rfl

theorem Collected.amount (h : Collected bonds incs) {inc : BondIncrease} (hinc : inc ∈ incs) :
    inc.amount.val? = some (totalOf bonds inc.valoper) := by
  have hmem : (inc.valoper, inc.amount.val?) ∈
      (bonds.map Prod.fst).eraseDups.map fun v => (v, some (totalOf bonds v)) := by
    rw [← h]
    exact List.mem_map_of_mem (f := fun i : BondIncrease => (i.valoper, i.amount.val?)) hinc
  obtain ⟨v, -, hv⟩ := List.mem_map.mp hmem
  injection hv with hkey hval
  rw [← hval, hkey]

/-- The check of one collected increase. -/
theorem check_increase (hp : getParams ctx.kv = .ok p) (hfull : p.Full)
    (hcap : 0 < p.maxDailyBondIncrease.val) (h : Collected bonds incs) {inc : BondIncrease}
    (hinc : inc ∈ incs) :
    (CheckDailyBond B ctx inc.valoper inc.amount = .ok () ↔
      (chargedToday ctx bonds inc.valoper).natAbs < 2 ^ 256 ∧
        chargedToday ctx bonds inc.valoper ≤ p.maxDailyBondIncrease.val) ∧
      (panics (CheckDailyBond B ctx inc.valoper inc.amount) ↔
        ¬ (chargedToday ctx bonds inc.valoper).natAbs < 2 ^ 256) := by
  obtain ⟨hbits, hamount⟩ := MathInt.val?_eq_some.mp (h.amount hinc)
  rw [hamount]
  exact checkDailyBond_of_cap hp hfull hcap hbits

/-- **When the check of the increases panics.** -/
theorem checkAll_panics_iff (hp : getParams ctx.kv = .ok p) (hfull : p.Full)
    (hcap : 0 < p.maxDailyBondIncrease.val) (h : Collected bonds incs) :
    panics (checkAll B ctx incs) ↔
      ∃ pre v post, bonded bonds = pre ++ v :: post ∧
        (∀ w ∈ pre, (chargedToday ctx bonds w).natAbs < 2 ^ 256 ∧
          chargedToday ctx bonds w ≤ p.maxDailyBondIncrease.val) ∧
        ¬ (chargedToday ctx bonds v).natAbs < 2 ^ 256 := by
  have hkeys : incs.map BondIncrease.valoper = bonded bonds := h.valopers
  rw [checkAll_eq_runM, ← hkeys]
  constructor
  · rintro ⟨msg, hrun⟩
    obtain ⟨pre, inc, post, ⟨⟩, rfl, hpre, hinc⟩ := runM_eq_error.mp hrun
    rw [runM_unit] at hpre
    refine ⟨pre.map BondIncrease.valoper, inc.valoper, post.map BondIncrease.valoper, ?_, ?_, ?_⟩
    · rw [List.map_append, List.map_cons]
    · intro w hw
      obtain ⟨i, hi, rfl⟩ := List.mem_map.mp hw
      exact (check_increase hp hfull hcap h (List.mem_append_left _ hi)).1.mp (hpre i hi)
    · exact (check_increase hp hfull hcap h (List.mem_append_right _ List.mem_cons_self)).2.mp ⟨msg, hinc⟩
  · rintro ⟨pre, v, post, hsplit, hpre, hv⟩
    obtain ⟨ipre, irest, rfl, rfl, hrest⟩ := List.map_eq_append_iff.mp hsplit
    obtain ⟨inc, ipost, rfl, rfl, rfl⟩ := List.map_eq_cons_iff.mp hrest
    obtain ⟨msg, hpanic⟩ :=
      (check_increase (B := B) hp hfull hcap h (List.mem_append_right _ List.mem_cons_self)).2.mpr hv
    refine ⟨msg, runM_eq_error.mpr ⟨ipre, inc, ipost, (), rfl, ?_, hpanic⟩⟩
    rw [runM_unit]
    intro i hi
    exact (check_increase hp hfull hcap h (List.mem_append_left _ hi)).1.mpr
      (hpre _ (List.mem_map_of_mem hi))

theorem checkAll_of_noCap (hp : getParams ctx.kv = .ok p) (hfull : p.Full)
    (hcap : p.maxDailyBondIncrease.val ≤ 0) : checkAll B ctx incs = .ok () := by
  rw [checkAll_eq_runM, runM_unit]
  exact fun inc _ => checkDailyBond_of_noCap hp hfull hcap inc.amount

/-! ## The ante -/

/-- When `checkMsgs` does not panic. -/
theorem checkMsgs_returns_iff (hmin : p.minSelfBond.isNil = false) :
    ¬ panics (checkMsgs msgs p.minSelfBond p.maxSelfBond 0) ↔
      ∀ pre cv post, met msgs = pre ++ .inr (.staking (.createValidator cv)) :: post →
        (∀ x ∈ pre, Passable p x) → ¬ Lacks p cv := by
  rw [checkMsgs_panics_iff hmin]
  constructor
  · intro h pre cv post hmet hpre hlacks
    exact h ⟨pre, cv, post, hmet, hpre, hlacks⟩
  · rintro h ⟨pre, cv, post, hmet, hpre, hlacks⟩
    exact h pre cv post hmet hpre hlacks

/-- When the check of the bonds does not panic, for messages that were admitted. -/
theorem anteCheckDailyBond_returns_iff (hp : getParams ctx.kv = .ok p) (hfull : p.Full)
    (hadmitted : Admitted p msgs) :
    ¬ panics (anteCheckDailyBond B ctx msgs) ↔ SumsFit (bondsIn B msgs) ∧
      (0 < p.maxDailyBondIncrease.val → ∀ pre v post, bonded (bondsIn B msgs) = pre ++ v :: post →
        (∀ w ∈ pre, (chargedToday ctx (bondsIn B msgs) w).natAbs < 2 ^ 256 ∧
          chargedToday ctx (bondsIn B msgs) w ≤ p.maxDailyBondIncrease.val) →
        (chargedToday ctx (bondsIn B msgs) v).natAbs < 2 ^ 256) := by
  have hset : ∀ b ∈ bondsIn B msgs, b.2.isNil = false := fun b hb => bond_set hb
  rw [anteCheckDailyBond, collect_of_clear hadmitted.decode hadmitted.depth]
  by_cases hfits : SumsFit (bondsIn B msgs)
  · obtain ⟨incs, hrun, hcollected⟩ := collected_of_fits hset hfits
    rw [hrun, ok_bind]
    by_cases hcap : 0 < p.maxDailyBondIncrease.val
    · rw [checkAll_panics_iff hp hfull hcap hcollected]
      constructor
      · intro h
        refine ⟨hfits, fun _ pre v post hsplit hpre => ?_⟩
        by_contra hv
        exact h ⟨pre, v, post, hsplit, hpre, hv⟩
      · rintro ⟨-, h⟩ ⟨pre, v, post, hsplit, hpre, hv⟩
        exact hv (h hcap pre v post hsplit hpre)
    · -- without a cap the counters are not read
      rw [checkAll_of_noCap hp hfull (not_lt.mp hcap)]
      exact iff_of_true (fun ⟨msg, h⟩ => nomatch h) ⟨hfits, fun h => absurd h hcap⟩
  · obtain ⟨msg, hpanic⟩ := runM_addBond_overflow hset hfits
    rw [hpanic]
    exact iff_of_false (not_not_intro ⟨msg, rfl⟩) fun h => hfits h.1

/-- A call whose result is dropped panics when the call does. -/
theorem panics_bind_ok {α : Type} {x : Outcome α} :
    panics (x >>= fun _ => .ok ()) ↔ panics x := by
  cases x with
  | error e =>
    constructor
    · rintro ⟨msg, h⟩
      injection h with h
      exact ⟨msg, congrArg Except.error h⟩
    · rintro ⟨msg, h⟩
      injection h with h
      exact ⟨msg, congrArg Except.error h⟩
  | ok u => exact iff_of_false (fun ⟨msg, h⟩ => nomatch h) fun ⟨msg, h⟩ => nomatch h

/-- **When the checks of the ante do not panic**: no value is missing or too large where it comes
    across it. -/
theorem ante_never_panics_iff (hstored : Stored ctx.kv) (hp : getParams ctx.kv = .ok p) :
    ¬ panics (anteHandle B ctx msgs simulate (.ok ())) ↔ PanicFree B ctx p msgs simulate := by
  obtain ⟨p', hp', hfull⟩ := hstored.getParams
  rw [hp] at hp'
  injection hp' with hp'
  subst hp'
  have hmin : p.minSelfBond.isNil = false := by
    obtain ⟨hb, h⟩ := MathInt.val?_eq_some.mp hfull.minSelfBond
    rw [h]
    rfl
  have hamounts : ¬ panics (checkMsgs msgs p.minSelfBond p.maxSelfBond 0) ↔ _ :=
    checkMsgs_returns_iff hmin
  unfold anteHandle
  rw [hp, ok_bind]
  cases hcheck : checkMsgs msgs p.minSelfBond p.maxSelfBond 0 with
  | error e =>
    -- `checkMsgs` ends it, so nothing is said about the bonds
    have hnot : ¬ Admitted p msgs := fun h => by
      rw [checkMsgs_eq_ok.mpr h] at hcheck
      nomatch hcheck
    rw [hcheck] at hamounts
    constructor
    · intro h
      exact ⟨hamounts.mp h, fun hadmitted => absurd hadmitted hnot,
        fun hadmitted => absurd hadmitted hnot⟩
    · intro h
      exact hamounts.mpr h.amounts
  | ok u =>
    have hadmitted : Admitted p msgs := checkMsgs_eq_ok.mp hcheck
    have hgiven := hamounts.mp (by rw [hcheck]; rintro ⟨msg, h⟩; nomatch h)
    rw [ok_bind]
    cases simulate with
    | true =>
      refine iff_of_true (fun ⟨msg, h⟩ => nomatch h) ⟨hgiven, fun _ h => ?_, fun _ h => ?_⟩
      · nomatch h
      · nomatch h
    | false =>
      rw [if_neg (by decide), panics_bind_ok, anteCheckDailyBond_returns_iff hp hfull hadmitted]
      constructor
      · rintro ⟨hsums, hcounters⟩
        exact ⟨hgiven, fun _ _ => hsums, fun _ _ => hcounters⟩
      · intro h
        exact ⟨h.sums hadmitted rfl, h.counters hadmitted rfl⟩

end

/-- A creation that has its amounts. -/
theorem ante_never_panics_iff_newcomer :
    ¬ panics (anteHandle sampleCodec freshCtx [.exec [.staking (.createValidator newcomer)]] false
        (.ok ())) ↔
      PanicFree sampleCodec freshCtx defaultParams [.exec [.staking (.createValidator newcomer)]]
        false :=
  ante_never_panics_iff (.inl rfl) rfl

/-- The newcomer's message without a value, as it is decoded when the field is left out. -/
def valueless : MsgCreateValidator := { newcomer with value := ⟨"agmb", .nil⟩ }

/-- **A creation without a value panics**; a delegation without one is left to the staking module. -/
theorem missing_value_panics : Stored freshCtx.kv ∧
    panics (anteHandle sampleCodec freshCtx [.staking (.createValidator valueless)] false (.ok ())) ∧
    anteHandle sampleCodec freshCtx [.staking (.delegate ⟨"", sampleName, valueless.value⟩)] false
      (.ok ()) = .ok () :=
  ⟨.inl rfl, ⟨_, rfl⟩, rfl⟩

end Gemba.Valgate
