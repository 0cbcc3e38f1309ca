/-
  The two writers of the parameters: `InitGenesis` (`genesis.go`) and the governance message
  `UpdateParams` (`msg_server.go`).

  Both end in `setParams`, which accepts a cap that was left out of the document (nil) and stores it
  as 0, "no cap".  `InitGenesis` therefore substitutes the defaults first; `UpdateParams` does not.

  * `initGenesis_getParams`, `updateParams_getParams` — what the next `getParams` returns after each
    of the two;
  * `omittedNeverZero_iff` — along any sequence of writes, the next read returns "no cap" only for a
    cap that was explicitly 0 exactly when the last write is not an `UpdateParams` that leaves a cap
    out.
-/
import Gemba.Lib.Runs
import Gemba.Valgate.Keeper

namespace Gemba.Valgate

open Gemba.Lib Gemba.Sdk

/-- `types.GenesisState`. -/
structure GenesisState where
  params : Params

/-- `types.MsgUpdateParams`. -/
structure MsgUpdateParams where
  authority : String
  params : Params

/-- `types.DefaultGenesis()`. -/
def defaultGenesis : GenesisState := ⟨defaultParams⟩

/-- `k.InitGenesis(ctx, gs)`: the omitted caps get their defaults; an error is a panic. -/
def initGenesis (kv : Store) (gs : GenesisState) : Outcome Store :=
  let p := gs.params
  let p := if p.maxSelfBond.isNil
    then { p with maxSelfBond := defaultParams.maxSelfBond } else p
  let p := if p.maxDailyBondIncrease.isNil
    then { p with maxDailyBondIncrease := defaultParams.maxDailyBondIncrease } else p
  panicOnError (setParams kv p)

/-- `m.UpdateParams(ctx, msg)`, `authority` being the gov module account. -/
def updateParams (authority : String) (kv : Store) (msg : MsgUpdateParams) : Outcome Store := do
  failIf (authority ≠ msg.authority)
    (.error s!"invalid authority: expected {authority}, got {msg.authority}")
  setParams kv msg.params

theorem initGenesis_eq_ok {kv kv' : Store} {gs : GenesisState} :
    initGenesis kv gs = .ok kv' ↔ setParams kv gs.params.backfill = .ok kv' :=
  panicOnError_eq_ok

theorem updateParams_eq_ok {authority : String} {kv kv' : Store} {msg : MsgUpdateParams} :
    updateParams authority kv msg = .ok kv' ↔
      msg.authority = authority ∧ setParams kv msg.params = .ok kv' := by
  rw [updateParams, bind_eq_ok]
  constructor
  · rintro ⟨⟨⟩, hauth, hset⟩
    rw [failIf_eq_ok, not_not] at hauth
    exact ⟨hauth.symm, hset⟩
  · rintro ⟨rfl, hset⟩
    exact ⟨⟨⟩, failIf_neg (not_not.mpr rfl), hset⟩

/-- After `InitGenesis` a cap reads as written, and as its default when it was left out. -/
theorem initGenesis_getParams {kv kv' : Store} {gs : GenesisState}
    (h : initGenesis kv gs = .ok kv') :
    getParams kv' = .ok gs.params.backfill.wireImage := by
  obtain ⟨-, rfl⟩ := setParams_eq_ok.mp (initGenesis_eq_ok.mp h)
  exact getParams_set kv _

/-- After `UpdateParams` a cap reads as written, and as 0 when it was left out. -/
theorem updateParams_getParams {authority : String} {kv kv' : Store} {msg : MsgUpdateParams}
    (h : updateParams authority kv msg = .ok kv') :
    getParams kv' = .ok msg.params.wireImage := by
  obtain ⟨-, rfl⟩ := setParams_eq_ok.mp (updateParams_eq_ok.mp h).2
  exact getParams_set kv _

/-! ## Sequences of writes -/

/-- One write of the parameters. -/
inductive Write where
  | initGenesis (gs : GenesisState)
  | updateParams (msg : MsgUpdateParams)

/-- The parameters as decoded, before the writer touches them. -/
def Write.params : Write → Params
  | initGenesis gs => gs.params
  | updateParams msg => msg.params

/-- The store after a write. -/
def Write.apply (authority : String) (kv : Store) : Write → Outcome Store
  | initGenesis gs => Valgate.initGenesis kv gs
  | updateParams msg => Valgate.updateParams authority kv msg

/-- The next read returns 0, "no cap", only for a cap the write explicitly set to 0. -/
def OmittedNeverZero (w : Write) (kv : Store) : Prop :=
  ∀ p, getParams kv = .ok p →
    (p.maxSelfBond.val? = some 0 → w.params.maxSelfBond.val? = some 0) ∧
    (p.maxDailyBondIncrease.val? = some 0 → w.params.maxDailyBondIncrease.val? = some 0)

/-- An `UpdateParams` that leaves a cap out. -/
def Write.OmitsCapInUpdate : Write → Prop
  | initGenesis _ => False
  | updateParams msg =>
    msg.params.maxSelfBond.isNil = true ∨ msg.params.maxDailyBondIncrease.isNil = true

/-- A default cap is not "no cap", so a backfilled 0 was an explicit one. -/
theorem backfill_zero {p : Params} :
    (p.backfill.maxSelfBond.val = 0 → p.maxSelfBond.val? = some 0) ∧
    (p.backfill.maxDailyBondIncrease.val = 0 → p.maxDailyBondIncrease.val? = some 0) := by
  have hmax : defaultParams.maxSelfBond.val ≠ 0 := by decide
  have hdaily : defaultParams.maxDailyBondIncrease.val ≠ 0 := by decide
  obtain ⟨mn, mx, md⟩ := p
  cases mx <;> cases md <;>
    simp_all [Params.backfill]

/-- **When an omitted cap becomes "no cap".**  After any sequence of successful writes, the next
    read returns 0 only for an explicit 0 exactly when the last write is not an `UpdateParams` that
    leaves a cap out. -/
theorem omittedNeverZero_iff {authority : String} {kv₀ kv : Store} {ws : List Write} {w : Write}
    (h : Run (Write.apply authority) (fun _ _ => True) kv₀ (ws ++ [w]) kv) :
    OmittedNeverZero w kv ↔ ¬ w.OmitsCapInUpdate := by
  obtain ⟨kv₁, -, -, hw⟩ := h.last
  cases w with
  | initGenesis gs =>
    have hget : getParams kv = .ok gs.params.backfill.wireImage := initGenesis_getParams hw
    constructor
    · intro _ homit
      exact homit
    · intro _ p hp
      rw [hget] at hp
      injection hp with hp
      subst hp
      rw [Params.wireImage, val?_wireInt, val?_wireInt]
      refine ⟨fun h0 => ?_, fun h0 => ?_⟩
      · injection h0 with h0
        exact backfill_zero.1 h0
      · injection h0 with h0
        exact backfill_zero.2 h0
  | updateParams msg =>
    have hget : getParams kv = .ok msg.params.wireImage := updateParams_getParams hw
    have hnil : ∀ x : MathInt, x.isNil = true ↔ ¬ ((wireInt x).val? = some 0 → x.val? = some 0) := by
      intro x
      cases x with
      | nil => simp
      | int v hv => simp
    constructor
    · intro hnever homit
      obtain ⟨h1, h2⟩ := hnever _ hget
      rcases homit with hn | hn
      · exact (hnil _).mp hn h1
      · exact (hnil _).mp hn h2
    · intro homit p hp
      rw [hget] at hp
      injection hp with hp
      subst hp
      refine ⟨?_, ?_⟩
      · by_contra hc
        exact homit (Or.inl ((hnil _).mpr hc))
      · by_contra hc
        exact homit (Or.inr ((hnil _).mpr hc))

/-- Parameters that raise the floor and do not mention the caps. -/
def higherFloor : Params := ⟨.int (2000 * oneGmb) (by decide), .nil, .nil⟩

/-- A genesis that leaves both caps out has them all the same. -/
theorem omittedNeverZero_iff_omitted :
    ∃ kv, Run (Write.apply "gov") (fun _ _ => True) (fun _ => none)
        ([] ++ [.initGenesis ⟨higherFloor⟩]) kv ∧
      OmittedNeverZero (.initGenesis ⟨higherFloor⟩) kv := by
  have hset := setParams_ok (fun _ => none) (p := higherFloor.backfill)
    (Params.validate_eq_ok.mp (by decide))
  have hrun : Run (Write.apply "gov") (fun _ _ => True) (fun _ => none)
      ([] ++ [.initGenesis ⟨higherFloor⟩]) _ :=
    Run.snoc Run.nil trivial (initGenesis_eq_ok.mpr hset)
  exact ⟨_, hrun, (omittedNeverZero_iff hrun).mpr id⟩

/-- A proposal to set them. -/
def raiseFloor : MsgUpdateParams := ⟨"gov", higherFloor⟩

/-- **The caps vanish.**  Default genesis, then `raiseFloor`: both caps were left out and both read
    as "no cap". -/
theorem raiseFloor_removes_caps :
    ∃ kv, Run (Write.apply "gov") (fun _ _ => True) (fun _ => none)
        [.initGenesis defaultGenesis, .updateParams raiseFloor] kv ∧
      raiseFloor.params.maxSelfBond.isNil = true ∧
      raiseFloor.params.maxDailyBondIncrease.isNil = true ∧
      (∃ p, getParams kv = .ok p ∧ p.maxSelfBond.val? = some 0 ∧
        p.maxDailyBondIncrease.val? = some 0) ∧
      ¬ OmittedNeverZero (.updateParams raiseFloor) kv := by
  have hval : raiseFloor.params.Valid := Params.validate_eq_ok.mp (by decide)
  have h1 := initGenesis_eq_ok.mpr
    (setParams_ok (fun _ => none) (p := defaultGenesis.params.backfill) defaultParams_full.valid)
  have h2 := updateParams_eq_ok.mpr ⟨show raiseFloor.authority = "gov" from rfl,
    setParams_ok (Store.set (fun _ => none) paramsKey defaultGenesis.params.backfill.marshal) hval⟩
  have hget := updateParams_getParams h2
  have hrun₁ : Run (Write.apply "gov") (fun _ _ => True) (fun _ => none)
      ([] ++ [.initGenesis defaultGenesis]) _ := Run.snoc Run.nil trivial h1
  have hrun₂ : Run (Write.apply "gov") (fun _ _ => True) (fun _ => none)
      ([.initGenesis defaultGenesis] ++ [.updateParams raiseFloor]) _ := Run.snoc hrun₁ trivial h2
  refine ⟨_, hrun₂, rfl, rfl, ⟨_, hget, rfl, rfl⟩, ?_⟩
  intro hnever
  exact absurd ((hnever _ hget).1 rfl) (by decide)

end Gemba.Valgate
