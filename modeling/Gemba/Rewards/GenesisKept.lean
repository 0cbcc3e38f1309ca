/-
  What `x/rewardstreamer` keeps of its genesis.

  The whole block of the formula's parameters may be left out, and then the defaults are stored.
  Whether it was is told by its `rate_per_day` being nil, and nil is also what the rate is in a block
  that is there and does not give it.  Such a block is accepted and replaced by the defaults, its
  `"enabled": false` with it (`disabled_becomes_enabled`); every other block is stored as it is given,
  or refused (`genesis_kept_iff`).

  What is in the store was validated, and what was validated has a rate: an export reads back as the
  state it was made of, after any updates of governance.
-/
import Gemba.Lib.Runs
import Gemba.Rewards.GenesisJson

namespace Gemba.Rewards.RewardStreamer

open Gemba.Lib Gemba.Sdk

/-! ## What a genesis gives -/

/-- The members of the block `formula_params`; one block after the other, if there are several. -/
def formulaBlock (doc : Json) : List (String × Json) :=
  (Json.given "formula_params" doc.members).flatMap Json.members

/-- The block is present. -/
def FormulaBlockGiven (doc : Json) : Prop :=
  ∃ ms, Json.obj ms ∈ Json.given "formula_params" doc.members

/-- The block names `rate_per_day`. -/
def RateGiven (doc : Json) : Prop := Json.given "rate_per_day" (formulaBlock doc) ≠ []

/-- The formula's parameters that are stored are those the genesis gives. -/
structure FormulaPreserved (doc : Json) (stored : FormulaParams) : Prop where
  /-- A block that is present is stored as it is given. -/
  present : FormulaBlockGiven doc →
    unmarshalFormulaParams (.obj (formulaBlock doc)) = some stored
  /-- In particular the switch stays as it was set last. -/
  enabled : ∀ b, (Json.given "enabled" (formulaBlock doc)).getLast? = some (.bool b) →
    stored.enabled = b
  /-- The defaults stand for a block that is absent. -/
  absent : ¬ FormulaBlockGiven doc → stored = defaultFormulaParams

section
variable {doc : Json} {gs : GenesisState} {fp : FormulaParams} {p : Stream.Params} {s t : Store}
  {ms : List (String × Json)} {gov : String}

/-- The block is what the decoded parameters are read from. -/
theorem unmarshalGenesis_formula (h : unmarshalGenesis doc = some gs) :
    unmarshalFormulaParams (.obj (formulaBlock doc)) = some gs.formulaParams := by
  have hother : ∀ g ∈ genesisFields, Json.foldName g.name ≠ Json.foldName "formula_params" →
      ∀ s j t, g.decode s j = some t → t.formulaParams = s.formulaParams := by
    intro g hg hne s j t h
    simp only [genesisFields, List.mem_cons, List.not_mem_nil, or_false] at hg
    rcases hg with rfl | rfl
    · exact Json.Field.of_keeps h fun _ _ => rfl
    · exact absurd rfl hne
  cases doc with
  | obj ms =>
    have hblocks := Json.decodeMembers_get genesisFields_distinct
      (List.mem_of_getElem? (show genesisFields[1]? = _ from rfl)) (fun _ _ => rfl) hother h
    exact Json.decodeStructs_eq hblocks
  | null =>
    injection h with h
    rw [← h]
    rfl
  | bool b => nomatch h
  | num literal => nomatch h
  | str str => nomatch h
  | arr items => nomatch h

/-- The rate that is read, and whether there is one. -/
theorem rate_isNil_iff (h : unmarshalFormulaParams (.obj ms) = some fp) :
    fp.ratePerDay.isNil = true ↔ Json.given "rate_per_day" ms = [] := by
  have hother : ∀ g ∈ formulaFields, Json.foldName g.name ≠ Json.foldName "rate_per_day" →
      ∀ s j t, g.decode s j = some t → t.ratePerDay = s.ratePerDay := by
    intro g hg hne s j t h
    simp only [formulaFields, List.mem_cons, List.not_mem_nil, or_false] at hg
    rcases hg with rfl | rfl | rfl | rfl | rfl | rfl | rfl
    case inr.inl => exact absurd rfl hne
    all_goals exact Json.Field.of_keeps h fun _ _ => rfl
  have hread := Json.decodeMembers_get formulaFields_distinct
    (List.mem_of_getElem? (show formulaFields[1]? = _ from rfl)) (fun _ _ => rfl) hother h
  -- not given, it is the zero value; given, it is the last number that was read
  rcases List.eq_nil_or_concat' (Json.given "rate_per_day" ms) with hnone | ⟨js, j, hlast⟩
  · rw [hnone] at hread
    injection hread with hread
    rw [← hread]
    exact iff_of_true rfl hnone
  · rw [hlast, List.foldlM_append] at hread
    obtain ⟨cur, -, hread⟩ := Option.bind_eq_some_iff.mp hread
    rw [List.foldlM_cons] at hread
    obtain ⟨x, hx, hread⟩ := Option.bind_eq_some_iff.mp hread
    injection hread with hread
    subst hread
    rw [LegacyDec.unmarshalJSON_not_nil hx, hlast]
    exact iff_of_false Bool.false_ne_true (List.append_ne_nil_of_right_ne_nil _ (List.cons_ne_nil _ _))

/-- The switch that is read is the last one given. -/
theorem enabled_of_getLast {b : Bool} (h : unmarshalFormulaParams (.obj ms) = some fp)
    (hb : (Json.given "enabled" ms).getLast? = some (.bool b)) : fp.enabled = b := by
  have hother : ∀ g ∈ formulaFields, Json.foldName g.name ≠ Json.foldName "enabled" →
      ∀ s j t, g.decode s j = some t → t.enabled = s.enabled := by
    intro g hg hne s j t h
    simp only [formulaFields, List.mem_cons, List.not_mem_nil, or_false] at hg
    rcases hg with rfl | rfl | rfl | rfl | rfl | rfl | rfl
    case inl => exact absurd rfl hne
    all_goals exact Json.Field.of_keeps h fun _ _ => rfl
  have hread := Json.decodeMembers_get formulaFields_distinct
    (List.mem_of_getElem? (show formulaFields[0]? = _ from rfl)) (fun _ _ => rfl) hother h
  obtain ⟨js, hlast⟩ := List.getLast?_eq_some_iff.mp hb
  rw [hlast, List.foldlM_append] at hread
  obtain ⟨cur, -, hread⟩ := Option.bind_eq_some_iff.mp hread
  injection hread with hread
  exact hread.symm

/-- A block that is absent has no members. -/
theorem formulaBlock_of_absent (h : ¬ FormulaBlockGiven doc) : formulaBlock doc = [] := by
  unfold formulaBlock
  rw [List.flatMap_eq_nil_iff]
  intro j hj
  cases j with
  | obj ms => exact absurd ⟨ms, hj⟩ h
  | null => rfl
  | bool b => rfl
  | num literal => rfl
  | str str => rfl
  | arr items => rfl

/-- The resolved parameters are those given, unless a block is there without its rate. -/
theorem formulaPreserved_iff (h : unmarshalGenesis doc = some gs) :
    FormulaPreserved doc gs.resolvedFormulaParams ↔ (FormulaBlockGiven doc → RateGiven doc) := by
  have hblock := unmarshalGenesis_formula h
  have hrate := rate_isNil_iff hblock
  unfold GenesisState.resolvedFormulaParams
  by_cases hnil : gs.formulaParams.ratePerDay.isNil = true
  · have hnone := hrate.mp hnil
    rw [if_pos hnil]
    constructor
    · intro hkept hgiven
      -- the defaults have a rate, the block has none
      have hdefault := hkept.present hgiven
      rw [hblock] at hdefault
      injection hdefault with hdefault
      rw [hdefault] at hnil
      nomatch hnil
    · intro hgiven
      have habsent : ¬ FormulaBlockGiven doc := fun hpresent => hgiven hpresent hnone
      refine ⟨fun hpresent => absurd hpresent habsent, fun b hb => ?_, fun _ => rfl⟩
      rw [formulaBlock_of_absent habsent] at hb
      nomatch hb
  · have hsome : RateGiven doc := fun hnone => hnil (hrate.mpr hnone)
    rw [if_neg hnil]
    refine iff_of_true ⟨fun _ => hblock, fun b hb => enabled_of_getLast hblock hb, fun habsent => ?_⟩
      (fun _ => hsome)
    refine absurd ?_ hsome
    rw [formulaBlock_of_absent habsent, Json.given_nil]

/-! ## The store and its values -/

/-- The store holds the documents of these values. -/
structure Store.Holds (s : Store) (params : Option Stream.Params) (formula : Option FormulaParams) :
    Prop where
  params_doc : s.params = params.map marshalParams
  formula_doc : s.formulaParams = formula.map marshalFormulaParams
  params_valid : ∀ p ∈ params, p.validate = .ok ⟨⟩
  formula_valid : ∀ fp ∈ formula, fp.validate = .ok ⟨⟩

variable {params : Option Stream.Params} {formula : Option FormulaParams}

theorem Store.holds_empty : Store.empty.Holds none none := ⟨rfl, rfl, nofun, nofun⟩

/-- **Reading the store** is reading the value. -/
theorem Store.Holds.getParams (h : s.Holds params formula) :
    s.getParams = .ok (RewardStreamer.getParams params) := by
  unfold Store.getParams
  rw [h.params_doc]
  cases params with
  | none => rfl
  | some p =>
    dsimp only [Option.map_some]
    rw [unmarshalParams_marshal (h.params_valid p rfl)]
    rfl

theorem Store.Holds.getFormulaParams (h : s.Holds params formula) :
    s.getFormulaParams = RewardStreamer.getFormulaParams formula := by
  unfold Store.getFormulaParams
  rw [h.formula_doc]
  cases formula with
  | none => rfl
  | some fp =>
    dsimp only [Option.map_some]
    rw [unmarshalFormulaParams_marshal (h.formula_valid fp rfl)]
    rfl

/-- A stored value was validated. -/
theorem Store.Holds.setParams (h : s.Holds params formula) (ht : s.setParams p = .ok t) :
    t.Holds (some p) formula := by
  obtain ⟨⟨⟩, hp, ht⟩ := bind_eq_ok.mp ht
  injection ht with ht
  subst ht
  refine ⟨rfl, h.formula_doc, fun q hq => ?_, h.formula_valid⟩
  injection hq with hq
  rw [← hq]
  exact hp

theorem Store.Holds.setFormulaParams (h : s.Holds params formula)
    (ht : s.setFormulaParams fp = .ok t) : t.Holds params (some fp) := by
  obtain ⟨⟨⟩, hfp, ht⟩ := bind_eq_ok.mp ht
  injection ht with ht
  subst ht
  refine ⟨h.params_doc, rfl, h.params_valid, fun q hq => ?_⟩
  injection hq with hq
  rw [← hq]
  exact hfp

/-- **A genesis is stored** as the chain's state has it. -/
theorem Store.Holds.initGenesis (h : s.Holds params formula) (ht : s.initGenesis gs = .ok t) :
    t.Holds (some gs.params) (some gs.resolvedFormulaParams) := by
  obtain ⟨u, hu, ht⟩ := bind_eq_ok.mp ht
  rw [panicOnError_eq_ok] at hu ht
  exact (h.setParams hu).setFormulaParams ht

theorem validate_genesis : gs.validate = .ok ⟨⟩ ↔
    gs.params.validate = .ok ⟨⟩ ∧ gs.resolvedFormulaParams.validate = .ok ⟨⟩ := by
  constructor
  · intro h
    obtain ⟨⟨⟩, hp, hf⟩ := bind_eq_ok.mp h
    exact ⟨hp, hf⟩
  · rintro ⟨hp, hf⟩
    exact bind_eq_ok.mpr ⟨⟨⟩, hp, hf⟩

/-- A validated genesis is stored without a panic. -/
theorem initGenesis_of_valid (s : Store) (h : gs.validate = .ok ⟨⟩) : ∃ t, s.initGenesis gs = .ok t := by
  obtain ⟨hp, hf⟩ := validate_genesis.mp h
  unfold Store.initGenesis Store.setParams Store.setFormulaParams
  rw [hp, hf]
  exact ⟨_, rfl⟩

/-! ## Export and import -/

theorem defaultParams_valid : defaultParams.validate = .ok ⟨⟩ := by decide +kernel

theorem defaultFormulaParams_valid : defaultFormulaParams.validate = .ok ⟨⟩ := by decide +kernel

/-- A genesis that was validated reads back. -/
theorem unmarshalGenesis_marshal (hp : gs.params.validate = .ok ⟨⟩)
    (hfp : gs.formulaParams.validate = .ok ⟨⟩) : unmarshalGenesis (marshalGenesis gs) = some gs := by
  have hparams : Json.decodeStruct paramsFields (GenesisState.params ⟨zeroParams, zeroFormulaParams⟩)
      (marshalParams gs.params) = some gs.params := unmarshalParams_marshal hp
  have hformula : Json.decodeStruct formulaFields
      (GenesisState.formulaParams ⟨gs.params, zeroFormulaParams⟩)
      (marshalFormulaParams gs.formulaParams) = some gs.formulaParams :=
    unmarshalFormulaParams_marshal hfp
  refine (Json.decodeMembers_cons genesisFields_distinct 0 rfl rfl hparams).trans ?_
  refine (Json.decodeMembers_cons genesisFields_distinct 1 rfl rfl hformula).trans ?_
  rfl

/-- Validated parameters resolve to themselves. -/
theorem resolvedFormulaParams_of_valid (h : gs.formulaParams.validate = .ok ⟨⟩) :
    gs.resolvedFormulaParams = gs.formulaParams := by
  obtain ⟨rate, floor, cap, total, hvalues⟩ := FormulaParams.validate_values h
  have hsome := hvalues.rate_eq
  unfold GenesisState.resolvedFormulaParams
  cases hrate : gs.formulaParams.ratePerDay with
  | nil =>
    rw [hrate] at hsome
    nomatch hsome
  | dec raw hraw => rfl

/-- **An export imports** as the state it was made of. -/
theorem Store.Holds.export_import (h : s.Holds params formula) :
    ∃ doc t, AppModule.exportGenesis s = .ok doc ∧ AppModule.initGenesis doc = .ok t ∧
      t.getParams = s.getParams ∧ t.getFormulaParams = s.getFormulaParams := by
  have hp : (RewardStreamer.getParams params).validate = .ok ⟨⟩ := by
    cases params with
    | none => exact defaultParams_valid
    | some p => exact h.params_valid p rfl
  have hfp : (RewardStreamer.getFormulaParams formula).validate = .ok ⟨⟩ := by
    cases formula with
    | none => exact defaultFormulaParams_valid
    | some fp => exact h.formula_valid fp rfl
  obtain ⟨gs, hgs⟩ : ∃ gs : GenesisState,
      gs = ⟨RewardStreamer.getParams params, RewardStreamer.getFormulaParams formula⟩ := ⟨_, rfl⟩
  have hpgs : gs.params.validate = .ok ⟨⟩ := by rw [hgs]; exact hp
  have hfgs : gs.formulaParams.validate = .ok ⟨⟩ := by rw [hgs]; exact hfp
  have hresolved := resolvedFormulaParams_of_valid hfgs
  obtain ⟨t, ht⟩ := initGenesis_of_valid Store.empty
    (validate_genesis.mpr ⟨hpgs, by rw [hresolved]; exact hfgs⟩)
  have hholds := Store.holds_empty.initGenesis ht
  refine ⟨marshalGenesis gs, t, ?_, ?_, ?_, ?_⟩
  · unfold AppModule.exportGenesis Store.exportGenesis
    rw [h.getParams, h.getFormulaParams, hgs]
    rfl
  · unfold AppModule.initGenesis
    rw [unmarshalGenesis_marshal hpgs hfgs]
    exact ht
  · rw [hholds.getParams, h.getParams, hgs]
    rfl
  · rw [hholds.getFormulaParams, h.getFormulaParams, hresolved, hgs]
    rfl

/-! ## Every run -/

/-- A store before the first update: never initialized, or from a genesis. -/
def Store.Start (s : Store) : Prop := s = .empty ∨ ∃ doc, AppModule.initGenesis doc = .ok s

theorem Store.Start.holds (h : s.Start) : ∃ params formula, s.Holds params formula := by
  rcases h with rfl | ⟨doc, h⟩
  · exact ⟨none, none, Store.holds_empty⟩
  · unfold AppModule.initGenesis at h
    split at h
    · nomatch h
    · exact ⟨_, _, Store.holds_empty.initGenesis h⟩

theorem Store.Holds.step {e : Store.Update} (h : s.Holds params formula)
    (hstep : s.step gov e = .ok t) : ∃ params formula, t.Holds params formula := by
  cases e with
  | updateParams msg =>
    obtain ⟨⟨⟩, -, hstep⟩ := bind_eq_ok.mp hstep
    exact ⟨_, _, h.setParams hstep⟩
  | updateFormulaParams msg =>
    obtain ⟨⟨⟩, -, hstep⟩ := bind_eq_ok.mp hstep
    exact ⟨_, _, h.setFormulaParams hstep⟩

/-- **The genesis is kept**: an accepted one is stored as it is given exactly when its block, if it has
    one, names the rate; and every state governance can reach exports to a genesis that imports as the
    same state. -/
theorem genesis_kept_iff (gov : String) :
    (∀ doc, AppModule.validateGenesis doc = .ok ⟨⟩ →
      ∃ s, AppModule.initGenesis doc = .ok s ∧
        (FormulaPreserved doc s.getFormulaParams ↔ (FormulaBlockGiven doc → RateGiven doc))) ∧
    ∀ start updates s, Store.Start start →
      Run (Store.step gov) (fun _ _ => True) start updates s →
      ∃ doc t, AppModule.exportGenesis s = .ok doc ∧ AppModule.initGenesis doc = .ok t ∧
        t.getParams = s.getParams ∧ t.getFormulaParams = s.getFormulaParams := by
  constructor
  · intro doc h
    unfold AppModule.validateGenesis at h
    cases hdoc : unmarshalGenesis doc with
    | none =>
      rw [hdoc] at h
      nomatch h
    | some gs =>
      rw [hdoc] at h
      obtain ⟨t, ht⟩ := initGenesis_of_valid Store.empty h
      have hholds := Store.holds_empty.initGenesis ht
      refine ⟨t, ?_, ?_⟩
      · unfold AppModule.initGenesis
        rw [hdoc]
        exact ht
      · rw [hholds.getFormulaParams]
        exact formulaPreserved_iff hdoc
  · intro start updates s hstart hrun
    obtain ⟨params, formula, hholds⟩ := Run.inv (fun s => ∃ params formula, s.Holds params formula)
      hstart.holds (fun s e t ⟨_, _, hs⟩ _ hstep => hs.step hstep) hrun
    exact hholds.export_import

end

/-- A genesis with these formula parameters. -/
def genesisWith (formulaParams : List (String × Json)) : Json :=
  .obj [("params", .obj [("enabled", .bool true), ("reward_denom", .str "agmb"),
      ("annual_reward", .str "2000000000000000000000000"), ("blocks_per_year", .num "15778476")]),
    ("formula_params", .obj formulaParams)]

/-- A block that gives everything, and turns the formula off. -/
def disabledBlock : List (String × Json) :=
  [("enabled", .bool false), ("rate_per_day", .str "0.01"), ("floor_per_day", .str "0"),
    ("cap_per_day", .str "0"), ("blocks_per_day", .num "28800"), ("reward_denom", .str "agmb"),
    ("max_total_per_day", .str "0")]

theorem genesis_kept_iff_disabled :
    ∃ s, AppModule.initGenesis (genesisWith disabledBlock) = .ok s ∧
      FormulaPreserved (genesisWith disabledBlock) s.getFormulaParams := by
  obtain ⟨s, hs, hiff⟩ := (genesis_kept_iff "gov").1 (genesisWith disabledBlock) (by decide +kernel)
  refine ⟨s, hs, hiff.mpr fun _ => ?_⟩
  have hrate :
      (Json.given "rate_per_day" (formulaBlock (genesisWith disabledBlock))).isEmpty = false := by
    decide +kernel
  exact List.isEmpty_eq_false_iff.mp hrate

/-- **The formula that is turned off and stays on**: a block that says nothing else. -/
theorem disabled_becomes_enabled : ¬ ∀ doc, AppModule.validateGenesis doc = .ok ⟨⟩ →
    ∃ s, AppModule.initGenesis doc = .ok s ∧ FormulaPreserved doc s.getFormulaParams := by
  intro h
  have hvalid : AppModule.validateGenesis (genesisWith [("enabled", .bool false)]) = .ok ⟨⟩ := by
    decide +kernel
  have hstored : (AppModule.initGenesis (genesisWith [("enabled", .bool false)])).map
      (fun s => s.getFormulaParams.enabled) = .ok true := by
    decide +kernel
  obtain ⟨s, hs, hkept⟩ := h _ hvalid
  rw [hs] at hstored
  injection hstored with hstored
  have hoff : s.getFormulaParams.enabled = false := hkept.enabled false rfl
  exact absurd (hstored.symm.trans hoff) (by decide)

end Gemba.Rewards.RewardStreamer
