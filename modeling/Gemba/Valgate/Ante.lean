/-
  The transaction decorators: `ante.go` and `posthandler.go`.

  A transaction is a list of message trees: authz `MsgExec` carries further messages, which the
  router runs after the ante phase, so both walks of the ante unwrap it.  An Ethereum transaction is
  one message that carries no staking message; its precompile calls are made while it executes.

  * `checkMsgs`            — the floor and the cap at validator creation;
  * `collectBondIncreases` — what a transaction would add to each validator; `collect_sum` says it is
                             the sum, over all the bonding messages of the tree, of what the guard
                             reads in each;
  * `anteHandle`           — the checks, which write nothing;
  * `postHandle`           — the charge; `postHandle_charged` says what it does to the counters;
  * `gateAgreement_iff`    — when creating a validator through the precompile and creating it through
                             a Cosmos transaction are accepted alike.
-/
import Gemba.Valgate.Staking

namespace Gemba.Valgate

open Gemba.Lib Gemba.Sdk

/-! ## Transactions -/

/-- What the EVM does with the staking precompile: calls, and frames that may revert. -/
inductive EvmOp where
  | call (m : StakingMsg)
  | frame (ops : List EvmOp) (reverts : Bool)

/-- `sdk.Msg`. -/
inductive Msg where
  | staking (m : StakingMsg)
  /-- `authz.MsgExec`. -/
  | exec (inner : List Msg)
  /-- A `MsgExec` whose `GetMessages` fails. -/
  | execUndecodable (err : String)
  /-- `MsgEthereumTx`. -/
  | ethereumTx (ops : List EvmOp)
  /-- A message of another module. -/
  | other (tag : Nat)

/-- `maxAuthzDepth`. -/
def maxAuthzDepth : Nat := 6

/-- The error of a `MsgExec` nested too deep. -/
def tooDeep : Fault :=
  .error s!"authz MsgExec nesting too deep (max {maxAuthzDepth}) — rejected by x/valgate"

/-- The error of a `MsgExec` whose messages cannot be decoded. -/
def cannotDecode (err : String) : Fault :=
  .error s!"x/valgate: cannot decode authz MsgExec inner messages: {err}"

/-! ## The gate at validator creation -/

/-- The body of `checkMsgs` for a `MsgCreateValidator`. -/
def checkCreateValidator (min max : MathInt) (cv : MsgCreateValidator) : Outcome Unit := do
  let capped ← andThen (!max.isNil) max.isPositive -- max == 0/nil means "no cap"
  failIf (← cv.value.amount.lt min)
    (.error (s!"validator self-bond {cv.value.amount} is below the minimum {min} "
      ++ "(governance-set, x/valgate)"))
  failIf (← cv.minSelfDelegation.lt min)
    (.error (s!"validator min_self_delegation {cv.minSelfDelegation} is below the minimum {min} "
      ++ "(governance-set, x/valgate)"))
  let aboveCap ← andThen capped (cv.value.amount.gt max)
  failIf aboveCap
    (.error (s!"validator self-bond {cv.value.amount} exceeds the maximum {max} allowed at creation "
      ++ "(governance-set anti-domination cap, x/valgate)"))

mutual

/-- One round of the loop of `checkMsgs`, at nesting `depth`. -/
def checkMsg (min max : MathInt) (depth : Nat) : Msg → Outcome Unit
  | .staking (.createValidator cv) => checkCreateValidator min max cv
  | .exec inner => do
    failIf (maxAuthzDepth < depth + 1) tooDeep
    checkMsgLoop min max (depth + 1) inner
  | .execUndecodable err => .error (cannotDecode err)
  | .staking _ => .ok ()
  | .ethereumTx _ => .ok ()
  | .other _ => .ok ()

/-- The loop of `checkMsgs`. -/
def checkMsgLoop (min max : MathInt) (depth : Nat) : List Msg → Outcome Unit
  | [] => .ok ()
  | msg :: msgs => do
    checkMsg min max depth msg
    checkMsgLoop min max depth msgs

end

/-- `checkMsgs(msgs, min, max, depth)`. -/
def checkMsgs (msgs : List Msg) (min max : MathInt) (depth : Nat) : Outcome Unit := do
  failIf (maxAuthzDepth < depth) tooDeep
  checkMsgLoop min max depth msgs

/-! ## The bond increases of a transaction -/

/-- `bondIncrease`: one validator's total stake increase within a transaction. -/
structure BondIncrease where
  valoper : ValAddress
  amount : MathInt
deriving DecidableEq

/-- Add `amt` to the entry of `va`, or a new entry at the end. -/
def addTo (va : ValAddress) (amt : MathInt) : List BondIncrease → Outcome (List BondIncrease)
  | [] => .ok [⟨va, amt⟩]
  | inc :: acc =>
    if inc.valoper = va then do
      let sum ← inc.amount.add amt
      .ok (⟨va, sum⟩ :: acc)
    else do
      let acc ← addTo va amt acc
      .ok (inc :: acc)

section
variable (B : AddressCodec)

/-- The closure `add(addr, amt)`: an unparseable validator or a nil amount is left to the staking
    module. -/
def addIncrease (addr : String) (amt : MathInt) (acc : List BondIncrease) :
    Outcome (List BondIncrease) :=
  match B.valAddressFromBech32 addr with
  | .ok va => if amt.isNil then .ok acc else addTo va amt acc
  | .error _ => .ok acc

mutual

/-- One round of the loop of `collectBondIncreases`, at nesting `depth`. -/
def collectMsg (depth : Nat) (acc : List BondIncrease) : Msg → Outcome (List BondIncrease)
  | .staking (.delegate m) => addIncrease B m.validatorAddress m.amount.amount acc
  | .staking (.beginRedelegate m) => addIncrease B m.validatorDstAddress m.amount.amount acc
  | .exec inner => do
    failIf (maxAuthzDepth < depth + 1) tooDeep
    collectLoop (depth + 1) acc inner
  | .execUndecodable err => .error (cannotDecode err)
  | .staking _ => .ok acc
  | .ethereumTx _ => .ok acc
  | .other _ => .ok acc

/-- The loop of `collectBondIncreases`. -/
def collectLoop (depth : Nat) (acc : List BondIncrease) : List Msg → Outcome (List BondIncrease)
  | [] => .ok acc
  | msg :: msgs => do
    let acc ← collectMsg depth acc msg
    collectLoop depth acc msgs

end

/-- `collectBondIncreases(msgs, acc, depth)`. -/
def collectBondIncreases (msgs : List Msg) (acc : List BondIncrease) (depth : Nat) :
    Outcome (List BondIncrease) := do
  failIf (maxAuthzDepth < depth) tooDeep
  collectLoop B depth acc msgs

/-! ## The two decorators -/

/-- The loop of the ante's `checkDailyBond`. -/
def checkAll (ctx : Ctx) : List BondIncrease → Outcome Unit
  | [] => .ok ()
  | inc :: incs => do
    CheckDailyBond B ctx inc.valoper inc.amount
    checkAll ctx incs

/-- `d.checkDailyBond(ctx, msgs)`. -/
def anteCheckDailyBond (ctx : Ctx) (msgs : List Msg) : Outcome Unit := do
  let incs ← collectBondIncreases B msgs [] 0
  checkAll B ctx incs

/-- `d.AnteHandle(ctx, tx, simulate, next)`; `next` is what the rest of the chain answers. -/
def anteHandle (ctx : Ctx) (msgs : List Msg) (simulate : Bool) (next : Outcome Unit) :
    Outcome Unit := do
  let p ← getParams ctx.kv
  checkMsgs msgs p.minSelfBond p.maxSelfBond 0
  if simulate then .ok () else anteCheckDailyBond B ctx msgs
  next

/-- The loop of `PostHandle`: the store after charging every increase. -/
def recordAll (t : BlockTime) : Store → List BondIncrease → Outcome Store
  | kv, [] => .ok kv
  | kv, inc :: incs => do
    let kv ← checkAndRecordDailyBond B ⟨kv, t⟩ inc.valoper inc.amount
    recordAll t kv incs

/-- The charge of `PostHandle`. -/
def recordIncreases (ctx : Ctx) (msgs : List Msg) : Outcome Store := do
  let incs ← collectBondIncreases B msgs [] 0
  recordAll B ctx.blockTime ctx.kv incs

/-- `d.PostHandle(ctx, tx, simulate, success, next)`: the store after the charges; `next` is what the
    rest of the chain answers, if there is one. -/
def postHandle (ctx : Ctx) (msgs : List Msg) (simulate success : Bool)
    (next : Option (Outcome Unit)) : Outcome Store := do
  let kv ← (if !simulate && success then recordIncreases B ctx msgs else .ok ctx.kv)
  match next with
  | none => .ok kv
  | some answer => do
    answer
    .ok kv

end

variable {B : AddressCodec}

/-! ### What the post-handler charges -/

mutual

/-- The bonding messages of a tree, as validator and amount. -/
def Msg.bonds : Msg → List (String × MathInt)
  | .staking m => m.bond?.toList
  | .exec inner => bondsOf inner
  | .execUndecodable _ => []
  | .ethereumTx _ => []
  | .other _ => []

/-- The bonding messages of a list of trees. -/
def bondsOf : List Msg → List (String × MathInt)
  | [] => []
  | msg :: msgs => msg.bonds ++ bondsOf msgs

end

/-- What the guard reads for `v` in a list of bonding messages. -/
def guardSum (B : AddressCodec) (bonds : List (String × MathInt)) (v : ValAddress) : Int :=
  (bonds.map fun b => guardShare B b.1 b.2 v).sum

@[simp] theorem guardSum_nil (v : ValAddress) : guardSum B [] v = 0 := rfl

@[simp] theorem guardSum_cons (b : String × MathInt) (bs : List (String × MathInt))
    (v : ValAddress) : guardSum B (b :: bs) v = guardShare B b.1 b.2 v + guardSum B bs v :=
  List.sum_cons

@[simp] theorem guardSum_append (bs cs : List (String × MathInt)) (v : ValAddress) :
    guardSum B (bs ++ cs) v = guardSum B bs v + guardSum B cs v := by
  rw [guardSum, List.map_append, List.sum_append]
  rfl

/-- The increase of `v` in a collected list. -/
def increaseOf (incs : List BondIncrease) (v : ValAddress) : Int :=
  (incs.map fun inc => if v = inc.valoper then inc.amount.val else 0).sum

@[simp] theorem increaseOf_nil (v : ValAddress) : increaseOf [] v = 0 := rfl

@[simp] theorem increaseOf_cons (inc : BondIncrease) (incs : List BondIncrease) (v : ValAddress) :
    increaseOf (inc :: incs) v = (if v = inc.valoper then inc.amount.val else 0) + increaseOf incs v :=
  List.sum_cons

theorem increaseOf_addTo {va : ValAddress} {amt : MathInt} {acc acc' : List BondIncrease}
    (h : addTo va amt acc = .ok acc') (v : ValAddress) :
    increaseOf acc' v = increaseOf acc v + if v = va then amt.val else 0 := by
  induction acc generalizing acc' with
  | nil =>
    injection h with h
    subst h
    simp
  | cons inc acc ih =>
    unfold addTo at h
    split at h
    · rename_i hva
      obtain ⟨sum, hsum, h⟩ := bind_eq_ok.mp h
      injection h with h
      subst h hva
      obtain ⟨x, y, hx, hy, hz⟩ := MathInt.add_eq_ok.mp hsum
      have hval : sum.val = inc.amount.val + amt.val := by
        rw [MathInt.val, MathInt.val, MathInt.val, hx, hy, hz]
        rfl
      rw [increaseOf_cons, increaseOf_cons, hval]
      dsimp only
      split <;> omega
    · obtain ⟨acc₁, hacc, h⟩ := bind_eq_ok.mp h
      injection h with h
      subst h
      rw [increaseOf_cons, increaseOf_cons, ih hacc]
      omega

theorem increaseOf_addIncrease {addr : String} {amt : MathInt} {acc acc' : List BondIncrease}
    (h : addIncrease B addr amt acc = .ok acc') (v : ValAddress) :
    increaseOf acc' v = increaseOf acc v + guardShare B addr amt v := by
  unfold addIncrease at h
  split at h
  · rename_i va hva
    rw [guardShare_of_bech32 hva]
    split at h
    · rename_i hnil
      injection h with h
      subst h
      have hzero : amt.val = 0 := by
        cases amt with
        | nil => rfl
        | int a ha => nomatch hnil
      rw [hzero]
      split <;> omega
    · exact increaseOf_addTo h v
  · rename_i e he
    injection h with h
    subst h
    rw [guardShare_of_error he, Int.add_zero]

mutual

/-- One round of the walk adds what the guard reads in its tree. -/
theorem collectMsg_sum {depth : Nat} {acc acc' : List BondIncrease} {msg : Msg}
    (h : collectMsg B depth acc msg = .ok acc') (v : ValAddress) :
    increaseOf acc' v = increaseOf acc v + guardSum B msg.bonds v := by
  have hkeep : .ok acc = (.ok acc' : Outcome (List BondIncrease)) →
      increaseOf acc' v = increaseOf acc v + guardSum B [] v := by
    intro h
    injection h with h
    rw [h, guardSum_nil, Int.add_zero]
  have hadd : ∀ addr amt, addIncrease B addr amt acc = .ok acc' →
      increaseOf acc' v = increaseOf acc v + guardSum B [(addr, amt)] v := by
    intro addr amt h
    rw [increaseOf_addIncrease h, guardSum_cons, guardSum_nil, Int.add_zero]
  cases msg with
  | staking m =>
    cases m with
    | delegate m => exact hadd _ _ h
    | beginRedelegate m => exact hadd _ _ h
    | createValidator m => exact hkeep h
    | undelegate m => exact hkeep h
    | cancelUnbondingDelegation m => exact hkeep h
  | exec inner =>
    rw [collectMsg, bind_eq_ok] at h
    obtain ⟨-, -, h⟩ := h
    exact collectLoop_sum h v
  | execUndecodable err => nomatch h
  | ethereumTx ops => exact hkeep h
  | other tag => exact hkeep h

/-- **The walk collects the guard's reading of every bonding message**, each once. -/
theorem collectLoop_sum {depth : Nat} {acc acc' : List BondIncrease} {msgs : List Msg}
    (h : collectLoop B depth acc msgs = .ok acc') (v : ValAddress) :
    increaseOf acc' v = increaseOf acc v + guardSum B (bondsOf msgs) v := by
  cases msgs with
  | nil =>
    injection h with h
    rw [h, bondsOf, guardSum_nil, Int.add_zero]
  | cons msg msgs =>
    rw [collectLoop, bind_eq_ok] at h
    obtain ⟨acc₁, h₁, h₂⟩ := h
    rw [collectLoop_sum h₂ v, collectMsg_sum h₁ v, bondsOf, guardSum_append]
    omega

end

/-- Charging a list of increases adds each validator's increase to its counter. -/
theorem recordAll_charged {cap : Int} {t : BlockTime} {kv kv' : Store} {incs : List BondIncrease}
    (hcap : DailyCap kv cap) (h : recordAll B t kv incs = .ok kv') :
    Charged cap t kv kv' (increaseOf incs) := by
  induction incs generalizing kv with
  | nil =>
    injection h with h
    subst h
    exact Charged.refl.congr (fun v => (increaseOf_nil v).symm)
  | cons inc incs ih =>
    obtain ⟨kv₁, h₁, h₂⟩ := bind_eq_ok.mp h
    have hone := checkAndRecordDailyBond_charged hcap h₁
    exact (hone.trans (ih (hone.dailyCap hcap) h₂)).congr (fun v => (increaseOf_cons inc incs v).symm)

/-- **What the post-handler does.**  After successful messages it charges every validator what the
    guard reads in the transaction. -/
theorem postHandle_charged {cap : Int} {ctx : Ctx} {msgs : List Msg} {next : Option (Outcome Unit)}
    {kv' : Store} (hcap : DailyCap ctx.kv cap)
    (h : postHandle B ctx msgs false true next = .ok kv') :
    Charged cap ctx.blockTime ctx.kv kv' (guardSum B (bondsOf msgs)) := by
  obtain ⟨kv, hrecord, h⟩ := bind_eq_ok.mp h
  have hkv : kv = kv' := by
    cases next with
    | none =>
      injection h
    | some answer =>
      obtain ⟨-, -, h⟩ := bind_eq_ok.mp h
      injection h
  subst hkv
  obtain ⟨incs, hcollect, hrecord⟩ := bind_eq_ok.mp hrecord
  obtain ⟨-, -, hcollect⟩ := bind_eq_ok.mp hcollect
  refine (recordAll_charged hcap hrecord).congr (fun v => ?_)
  rw [collectLoop_sum hcollect v, increaseOf_nil, Int.zero_add]

/-! ## The two ways to create a validator -/

/-- Creating a validator through the EVM staking precompile. -/
def evmCreateValidator (S : Staking B) (ctx : Ctx) (s : S.State) (m : MsgCreateValidator) :
    Outcome (Store × S.State) :=
  CapEnforcing.handle S ctx s (.createValidator m)

/-- Creating a validator by a Cosmos transaction: the ante, then the message. -/
def cosmosCreateValidator (S : Staking B) (ctx : Ctx) (s : S.State) (m : MsgCreateValidator) :
    Outcome S.State := do
  anteHandle B ctx [.staking (.createValidator m)] false (.ok ())
  S.handle ctx.kv s (.createValidator m)

/-- What the gate is for: the committed self-delegation is at least the floor, and the self-bond is
    within the cap if there is one. -/
def WithinGate (p : Params) (m : MsgCreateValidator) : Prop :=
  p.minSelfBond.val ≤ m.minSelfDelegation.val ∧
    (0 < p.maxSelfBond.val → m.value.amount.val ≤ p.maxSelfBond.val)

/-- Both ways accept the same validators, those within the gate. -/
structure GateAgreement (S : Staking B) (ctx : Ctx) (s : S.State) (p : Params)
    (m : MsgCreateValidator) : Prop where
  evm_iff_cosmos : succeeds (evmCreateValidator S ctx s m) ↔ succeeds (cosmosCreateValidator S ctx s m)
  evm : succeeds (evmCreateValidator S ctx s m) ↔ WithinGate p m
  cosmos : succeeds (cosmosCreateValidator S ctx s m) ↔ WithinGate p m

/-- The ante's check passes exactly within the gate, when the bond covers the commitment. -/
theorem checkCreateValidator_eq_ok {p : Params} (hfull : p.Full) {m : MsgCreateValidator}
    (hvalue : m.value.amount.isNil = false) (hmsd : m.minSelfDelegation.isNil = false)
    (hle : m.minSelfDelegation.val ≤ m.value.amount.val) :
    checkCreateValidator p.minSelfBond p.maxSelfBond m = .ok () ↔ WithinGate p m := by
  obtain ⟨hmb, hm⟩ := MathInt.val?_eq_some.mp hfull.minSelfBond
  obtain ⟨hxb, hx⟩ := MathInt.val?_eq_some.mp hfull.maxSelfBond
  obtain ⟨msd, validator, denom, value⟩ := m
  cases value with
  | nil => nomatch hvalue
  | int v hv =>
    cases msd with
    | nil => nomatch hmsd
    | int d hd =>
      unfold checkCreateValidator WithinGate
      rw [hm, hx]
      dsimp only at hle ⊢
      simp only [MathInt.val_int] at hle ⊢
      simp only [MathInt.isNil_int, MathInt.isPositive_int, MathInt.lt_int, MathInt.gt_int, ok_bind,
        andThen_ok, bind_eq_ok, failIf_eq_ok, Bool.not_false, Bool.true_and, decide_eq_true_eq,
        Bool.and_eq_true]
      constructor
      · rintro ⟨-, -, -, hfloor, hcap⟩
        exact ⟨by omega, by omega⟩
      · rintro ⟨hfloor, hcap⟩
        exact ⟨⟨⟩, by omega, ⟨⟩, by omega, by omega⟩

/-- The ante of a transaction that only creates a validator is that check. -/
theorem anteHandle_createValidator {ctx : Ctx} {p : Params} {m : MsgCreateValidator}
    (hp : getParams ctx.kv = .ok p) :
    anteHandle B ctx [.staking (.createValidator m)] false (.ok ()) = .ok () ↔
      checkCreateValidator p.minSelfBond p.maxSelfBond m = .ok () := by
  rw [anteHandle, hp, ok_bind, checkMsgs, failIf_neg (by decide), ok_bind]
  have hdaily : anteCheckDailyBond B ctx [.staking (.createValidator m)] = .ok () := rfl
  rw [if_neg (by decide), hdaily, ok_bind, checkMsgLoop, checkMsg]
  cases checkCreateValidator p.minSelfBond p.maxSelfBond m with
  | ok u => exact Iff.rfl
  | error e => exact Iff.rfl

/-- Staking's own checks aside, a creation is accepted exactly when the hook agrees. -/
theorem handle_createValidator_succeeds {S : Staking B} {kv : Store} {s : S.State}
    {m : MsgCreateValidator} {va : ValAddress} (hcheck : S.checkCreateValidator s m = .ok va)
    (hbond : succeeds (S.selfDelegate (S.setNewValidator s va ⟨m.minSelfDelegation, .zeroInt⟩) va m)) :
    succeeds (S.handle kv s (.createValidator m)) ↔
      afterValidatorCreated S kv (S.setNewValidator s va ⟨m.minSelfDelegation, .zeroInt⟩) va
        = .ok () := by
  show succeeds (S.createValidator (afterValidatorCreated S kv) s m) ↔ _
  rw [Staking.createValidator, hcheck, ok_bind, succeeds_bind]
  constructor
  · rintro ⟨⟨⟩, hhook, -⟩
    exact hhook
  · intro hhook
    exact ⟨⟨⟩, hhook, hbond⟩

/-- **When the two ways agree.**  For stored parameters and a message whose bond covers its
    commitment, staking's own checks aside: the precompile and the Cosmos path accept the same
    validators, those within the gate, exactly when the message misses the floor anyway, or there is
    no cap, or the self-bond is within it.  (The hook looks for the self-bond in a record that does
    not hold it yet.) -/
theorem gateAgreement_iff {S : Staking B} {ctx : Ctx} {s : S.State} {p : Params}
    {m : MsgCreateValidator} {va : ValAddress} (hstored : Stored ctx.kv)
    (hp : getParams ctx.kv = .ok p) (hvalue : m.value.amount.isNil = false)
    (hmsd : m.minSelfDelegation.isNil = false)
    (hle : m.minSelfDelegation.val ≤ m.value.amount.val)
    (hcheck : S.checkCreateValidator s m = .ok va)
    (hbond : succeeds
      (S.selfDelegate (S.setNewValidator s va ⟨m.minSelfDelegation, .zeroInt⟩) va m)) :
    GateAgreement S ctx s p m ↔
      m.minSelfDelegation.val < p.minSelfBond.val ∨ p.maxSelfBond.val ≤ 0 ∨
        m.value.amount.val ≤ p.maxSelfBond.val := by
  obtain ⟨p', hp', hfull⟩ := hstored.getParams
  rw [hp] at hp'
  injection hp' with hp'
  subst hp'
  have hhook : succeeds (S.handle ctx.kv s (.createValidator m)) ↔
      p.minSelfBond.val ≤ m.minSelfDelegation.val := by
    rw [handle_createValidator_succeeds hcheck hbond]
    cases hd : m.minSelfDelegation with
    | nil =>
      rw [hd] at hmsd
      nomatch hmsd
    | int d hdb => exact afterValidatorCreated_eq_ok hp hfull (S.getValidator_setNewValidator _ _ _)
  have hevm : succeeds (evmCreateValidator S ctx s m) ↔
      p.minSelfBond.val ≤ m.minSelfDelegation.val := by
    rw [← hhook]
    constructor
    · rintro ⟨⟨kv, s'⟩, h⟩
      exact ⟨s', (CapEnforcing.handle_eq_ok.mp h).2⟩
    · rintro ⟨s', h⟩
      exact ⟨(ctx.kv, s'), CapEnforcing.handle_eq_ok.mpr ⟨rfl, h⟩⟩
  have hcosmos : succeeds (cosmosCreateValidator S ctx s m) ↔ WithinGate p m := by
    rw [cosmosCreateValidator, succeeds_bind, ← checkCreateValidator_eq_ok hfull hvalue hmsd hle,
      ← anteHandle_createValidator (B := B) hp]
    constructor
    · rintro ⟨⟨⟩, hante, -⟩
      exact hante
    · intro hante
      refine ⟨⟨⟩, hante, hhook.mpr ?_⟩
      have hgate := (anteHandle_createValidator hp).mp hante
      exact ((checkCreateValidator_eq_ok hfull hvalue hmsd hle).mp hgate).1
  constructor
  · rintro ⟨-, hspec, -⟩
    -- the precompile looks at the floor only, so agreement is the cap following from the floor
    rw [hevm] at hspec
    by_cases hfloor : p.minSelfBond.val ≤ m.minSelfDelegation.val
    · have hcap := (hspec.mp hfloor).2
      omega
    · omega
  · intro hcond
    have hspec : p.minSelfBond.val ≤ m.minSelfDelegation.val ↔ WithinGate p m := by
      constructor
      · intro hfloor
        exact ⟨hfloor, by omega⟩
      · rintro ⟨hfloor, -⟩
        exact hfloor
    exact ⟨by rw [hevm, hcosmos, hspec], hevm.trans hspec, hcosmos⟩

/-- A time on a day in 2023. -/
theorem sampleTime_valid : 1700000000 < 2 ^ 63 := by decide

theorem thousandGmb_fits : (1000 * oneGmb).natAbs < 2 ^ 256 := by decide

/-- A chain whose parameters were never written, on a day in 2023. -/
def freshCtx : Ctx := ⟨fun _ => none, ⟨1700000000, sampleTime_valid⟩⟩

/-- The sample validator, created with a commitment of 1,000 GMB and a self-bond of 10,001 GMB. -/
def whale : MsgCreateValidator where
  minSelfDelegation := .int (1000 * oneGmb) thousandGmb_fits
  validatorAddress := sampleName
  value := ⟨"agmb", .int (10001 * oneGmb) (by decide)⟩

/-- The same with a self-bond at the floor. -/
def newcomer : MsgCreateValidator :=
  { whale with value := ⟨"agmb", .int (1000 * oneGmb) thousandGmb_fits⟩ }

theorem gateAgreement_iff_newcomer :
    GateAgreement (tableStaking sampleCodec) freshCtx (fun _ => none) defaultParams newcomer ↔
      newcomer.minSelfDelegation.val < defaultParams.minSelfBond.val ∨
        defaultParams.maxSelfBond.val ≤ 0 ∨
        newcomer.value.amount.val ≤ defaultParams.maxSelfBond.val :=
  have hcheck : (tableStaking sampleCodec).checkCreateValidator (fun _ => none) newcomer
      = .ok sampleAddress := by rfl
  gateAgreement_iff (Or.inl rfl) rfl rfl rfl (by decide) hcheck (by decide +kernel)

/-- **The precompile lets the whale in.**  Under the default parameters a self-bond of 10,001 GMB is
    refused by the ante and accepted through the precompile. -/
theorem whale_enters_through_precompile :
    whale.minSelfDelegation.val ≤ whale.value.amount.val ∧
    getParams freshCtx.kv = .ok defaultParams ∧
    succeeds (evmCreateValidator (tableStaking sampleCodec) freshCtx (fun _ => none) whale) ∧
    ¬ succeeds (cosmosCreateValidator (tableStaking sampleCodec) freshCtx (fun _ => none) whale) ∧
    ¬ GateAgreement (tableStaking sampleCodec) freshCtx (fun _ => none) defaultParams whale := by
  have hevm : succeeds (evmCreateValidator (tableStaking sampleCodec) freshCtx (fun _ => none) whale) :=
    by decide +kernel
  have hcosmos :
      ¬ succeeds (cosmosCreateValidator (tableStaking sampleCodec) freshCtx (fun _ => none) whale) :=
    by decide +kernel
  refine ⟨by decide, rfl, hevm, hcosmos, ?_⟩
  rintro ⟨hiff, -, -⟩
  exact hcosmos (hiff.mp hevm)

end Gemba.Valgate
