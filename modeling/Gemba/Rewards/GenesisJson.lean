/-
  The JSON of `x/rewardstreamer`: its genesis, and what it keeps in its store.

  The module reads and writes with `encoding/json` directly.  `Params` leaves out what is zero
  (`omitempty`), `FormulaParams` writes every field.  Reading starts from the zero value of the struct,
  so a field that is not given stays false, "", 0 or nil, and `ResolvedFormulaParams` takes a nil
  `rate_per_day` for a block that was left out.

  `Store` is the store with its two keys, each empty or with a document; `AppModule` the genesis
  functions of the module; `Store.step` the two messages that governance can send.

  * `unmarshalParams_marshal`, `unmarshalFormulaParams_marshal` — what was validated reads back.
-/
import Gemba.Lib.Json
import Gemba.Sdk.JsonNumbers
import Gemba.Rewards.Chain
import Gemba.Rewards.FormulaRound
import Gemba.Rewards.Depletion

namespace Gemba.Rewards.RewardStreamer

open Gemba.Lib Gemba.Sdk

/-! ## The structs in JSON -/

/-- The fields of `types.Params`. -/
def paramsFields : List (Json.Field Stream.Params) :=
  [.of "enabled" Stream.Params.enabled (fun p b => { p with enabled := b }) Json.decodeBool,
    .of "reward_denom" Stream.Params.rewardDenom (fun p d => { p with rewardDenom := d })
      Json.decodeString,
    .of "annual_reward" Stream.Params.annualReward (fun p a => { p with annualReward := a })
      (fun _ => MathInt.unmarshalJSON),
    .of "blocks_per_year" Stream.Params.blocksPerYear (fun p n => { p with blocksPerYear := n })
      Json.decodeUint64]

/-- The fields of `types.FormulaParams`. -/
def formulaFields : List (Json.Field FormulaParams) :=
  [.of "enabled" FormulaParams.enabled (fun p b => { p with enabled := b }) Json.decodeBool,
    .of "rate_per_day" FormulaParams.ratePerDay (fun p r => { p with ratePerDay := r })
      (fun _ => LegacyDec.unmarshalJSON),
    .of "floor_per_day" FormulaParams.floorPerDay (fun p a => { p with floorPerDay := a })
      (fun _ => MathInt.unmarshalJSON),
    .of "cap_per_day" FormulaParams.capPerDay (fun p a => { p with capPerDay := a })
      (fun _ => MathInt.unmarshalJSON),
    .of "blocks_per_day" FormulaParams.blocksPerDay (fun p n => { p with blocksPerDay := n })
      Json.decodeUint64,
    .of "reward_denom" FormulaParams.rewardDenom (fun p d => { p with rewardDenom := d })
      Json.decodeString,
    .of "max_total_per_day" FormulaParams.maxTotalPerDay (fun p a => { p with maxTotalPerDay := a })
      (fun _ => MathInt.unmarshalJSON)]

/-- The fields of `GenesisState`. -/
def genesisFields : List (Json.Field GenesisState) :=
  [.of "params" GenesisState.params (fun gs p => { gs with params := p })
      (Json.decodeStruct paramsFields),
    .of "formula_params" GenesisState.formulaParams (fun gs p => { gs with formulaParams := p })
      (Json.decodeStruct formulaFields)]

/-- `types.Params{}`. -/
def zeroParams : Stream.Params := ⟨false, "", .nil, 0⟩

/-- `types.FormulaParams{}`. -/
def zeroFormulaParams : FormulaParams := ⟨false, .nil, .nil, .nil, 0, "", .nil⟩

/-- `json.Unmarshal` into a new `types.Params`. -/
def unmarshalParams (bz : Json) : Option Stream.Params := Json.decodeStruct paramsFields zeroParams bz

/-- `json.Unmarshal` into a new `types.FormulaParams`. -/
def unmarshalFormulaParams (bz : Json) : Option FormulaParams :=
  Json.decodeStruct formulaFields zeroFormulaParams bz

/-- `json.Unmarshal` into a new `GenesisState`. -/
def unmarshalGenesis (bz : Json) : Option GenesisState :=
  Json.decodeStruct genesisFields ⟨zeroParams, zeroFormulaParams⟩ bz

/-- `json.Marshal` of a `types.Params`. -/
def marshalParams (p : Stream.Params) : Json :=
  .obj ((if p.enabled then [("enabled", .bool true)] else [])
    ++ (if p.rewardDenom = "" then [] else [("reward_denom", .str p.rewardDenom)])
    ++ [("annual_reward", p.annualReward.marshalJSON)]
    ++ (if p.blocksPerYear = 0 then [] else [("blocks_per_year", .ofUint64 p.blocksPerYear)]))

/-- `json.Marshal` of a `types.FormulaParams`. -/
def marshalFormulaParams (p : FormulaParams) : Json :=
  .obj [("enabled", .bool p.enabled), ("rate_per_day", p.ratePerDay.marshalJSON),
    ("floor_per_day", p.floorPerDay.marshalJSON), ("cap_per_day", p.capPerDay.marshalJSON),
    ("blocks_per_day", .ofUint64 p.blocksPerDay), ("reward_denom", .str p.rewardDenom),
    ("max_total_per_day", p.maxTotalPerDay.marshalJSON)]

/-- `json.Marshal` of a `GenesisState`. -/
def marshalGenesis (gs : GenesisState) : Json :=
  .obj [("params", marshalParams gs.params), ("formula_params", marshalFormulaParams gs.formulaParams)]

/-! ## The store -/

/-- What is under `ParamsKey` and `FormulaParamsKey`. -/
structure Store where
  params : Option Json
  formulaParams : Option Json

namespace Store

/-- The store of a module that was never initialized. -/
def empty : Store := ⟨none, none⟩

/-- `k.GetParams(ctx)`. -/
def getParams (s : Store) : Outcome Stream.Params :=
  match s.params with
  | none => .ok defaultParams
  | some bz =>
    match unmarshalParams bz with
    | some p => .ok p
    | none => .error (.panic "json: cannot unmarshal params")

/-- `k.GetFormulaParams(ctx)`. -/
def getFormulaParams (s : Store) : FormulaParams :=
  match s.formulaParams with
  | none => defaultFormulaParams
  | some bz => (unmarshalFormulaParams bz).getD defaultFormulaParams

/-- `k.SetParams(ctx, p)`. -/
def setParams (s : Store) (p : Stream.Params) : Outcome Store := do
  p.validate
  .ok { s with params := some (marshalParams p) }

/-- `k.SetFormulaParams(ctx, p)`. -/
def setFormulaParams (s : Store) (p : FormulaParams) : Outcome Store := do
  p.validate
  .ok { s with formulaParams := some (marshalFormulaParams p) }

/-- `k.InitGenesis(ctx, gs)`. -/
def initGenesis (s : Store) (gs : GenesisState) : Outcome Store := do
  let s ← panicOnError (s.setParams gs.params)
  panicOnError (s.setFormulaParams gs.resolvedFormulaParams)

/-- `k.ExportGenesis(ctx)`. -/
def exportGenesis (s : Store) : Outcome GenesisState := do
  let params ← s.getParams
  .ok ⟨params, s.getFormulaParams⟩

/-- A message of governance. -/
inductive Update where
  | updateParams (msg : Authorized Stream.Params)
  | updateFormulaParams (msg : Authorized FormulaParams)

/-- `UpdateParams` and `UpdateFormulaParams`, `gov` being the gov module's address. -/
def step (gov : String) (s : Store) : Update → Outcome Store
  | .updateParams msg => do
    failIf (msg.authority ≠ gov)
      (.error s!"invalid authority: expected {gov} (gov), got {msg.authority}")
    s.setParams msg.params
  | .updateFormulaParams msg => do
    failIf (msg.authority ≠ gov)
      (.error s!"invalid authority: expected {gov} (gov), got {msg.authority}")
    s.setFormulaParams msg.params

end Store

namespace AppModule

/-- `ValidateGenesis`. -/
def validateGenesis (bz : Json) : Outcome PUnit :=
  match unmarshalGenesis bz with
  | none => .error (.error "failed to unmarshal rewardstreamer genesis")
  | some gs => gs.validate

/-- `InitGenesis`, in a new store. -/
def initGenesis (data : Json) : Outcome Store :=
  match unmarshalGenesis data with
  | none => .error (.panic "json: cannot unmarshal genesis")
  | some gs => Store.empty.initGenesis gs

/-- `ExportGenesis`. -/
def exportGenesis (s : Store) : Outcome Json := do
  let gs ← s.exportGenesis
  .ok (marshalGenesis gs)

end AppModule

/-! ## What was validated reads back -/

theorem paramsFields_distinct : Json.DistinctNames paramsFields := by decide +kernel

theorem formulaFields_distinct : Json.DistinctNames formulaFields := by decide +kernel

theorem genesisFields_distinct : Json.DistinctNames genesisFields := by decide +kernel

section
variable {p : Stream.Params} {fp : FormulaParams} {gs : GenesisState} {s t : Store} {gov : String}

/-- Validated parameters have no nil amount. -/
theorem annualReward_not_nil (h : p.validate = .ok ⟨⟩) : p.annualReward.isNil = false := by
  obtain ⟨⟨⟩, -, h⟩ := bind_eq_ok.mp h
  obtain ⟨bad, hbad, h⟩ := bind_eq_ok.mp h
  obtain ⟨⟨⟩, hannual, -⟩ := bind_eq_ok.mp h
  rw [failIf_eq_ok] at hannual
  obtain ⟨v, hv, -⟩ := nonneg_of_check hbad hannual
  obtain ⟨hbits, hv⟩ := MathInt.val?_eq_some.mp hv
  rw [hv]
  rfl

/-- **`Params` reads back** what was validated and written. -/
theorem unmarshalParams_marshal (h : p.validate = .ok ⟨⟩) :
    unmarshalParams (marshalParams p) = some p := by
  have hp := Stream.Params.validate_values h
  have hannual := MathInt.unmarshalJSON_marshalJSON (annualReward_not_nil h)
  have hdenom : p.rewardDenom ≠ "" := by
    intro hempty
    have := hp.denom
    rw [hempty] at this
    exact absurd this (by decide)
  have hread : ∀ b, b = p.enabled → [("reward_denom", Json.str p.rewardDenom),
      ("annual_reward", p.annualReward.marshalJSON),
      ("blocks_per_year", Json.ofUint64 p.blocksPerYear)].foldlM (Json.decodeMember paramsFields)
        { zeroParams with enabled := b } = some p := by
    rintro b rfl
    refine (Json.decodeMembers_cons paramsFields_distinct 1 rfl rfl rfl).trans ?_
    refine (Json.decodeMembers_cons paramsFields_distinct 2 rfl rfl hannual).trans ?_
    refine (Json.decodeMembers_cons paramsFields_distinct 3 rfl rfl
      (Json.decodeUint64_ofUint64 _ _)).trans ?_
    rfl
  unfold unmarshalParams marshalParams
  rw [if_neg hdenom, if_neg hp.blocks]
  cases henabled : p.enabled with
  | true =>
    refine (Json.decodeMembers_cons paramsFields_distinct 0 rfl rfl rfl).trans ?_
    exact hread true henabled.symm
  | false => exact hread false henabled.symm

/-- **`FormulaParams` reads back** what was validated and written. -/
theorem unmarshalFormulaParams_marshal (h : fp.validate = .ok ⟨⟩) :
    unmarshalFormulaParams (marshalFormulaParams fp) = some fp := by
  obtain ⟨rate, floor, cap, total, hp⟩ := FormulaParams.validate_values h
  have hamount : ∀ {x : MathInt} {v : Int}, x.val? = some v →
      MathInt.unmarshalJSON x.marshalJSON = some x := by
    intro x v hv
    obtain ⟨hbits, rfl⟩ := MathInt.val?_eq_some.mp hv
    exact MathInt.unmarshalJSON_marshalJSON rfl
  have hrate : LegacyDec.unmarshalJSON fp.ratePerDay.marshalJSON = some fp.ratePerDay := by
    refine LegacyDec.unmarshalJSON_marshalJSON ?_
    have hsome := hp.rate_eq
    cases hdec : fp.ratePerDay with
    | nil =>
      rw [hdec] at hsome
      nomatch hsome
    | dec raw hraw => rfl
  refine (Json.decodeMembers_cons formulaFields_distinct 0 rfl rfl rfl).trans ?_
  refine (Json.decodeMembers_cons formulaFields_distinct 1 rfl rfl hrate).trans ?_
  refine (Json.decodeMembers_cons formulaFields_distinct 2 rfl rfl (hamount hp.floor_eq)).trans ?_
  refine (Json.decodeMembers_cons formulaFields_distinct 3 rfl rfl (hamount hp.cap_eq)).trans ?_
  refine (Json.decodeMembers_cons formulaFields_distinct 4 rfl rfl
    (Json.decodeUint64_ofUint64 _ _)).trans ?_
  refine (Json.decodeMembers_cons formulaFields_distinct 5 rfl rfl rfl).trans ?_
  refine (Json.decodeMembers_cons formulaFields_distinct 6 rfl rfl (hamount hp.total_eq)).trans ?_
  rfl

end

end Gemba.Rewards.RewardStreamer
