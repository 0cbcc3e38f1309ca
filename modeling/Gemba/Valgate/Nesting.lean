/-
  Messages in authz `MsgExec`s, as the two walks of the ante see them.

  Both walks are walks of a forest: a `MsgExec` is a node, a `MsgExec` whose messages cannot be decoded
  is one that cannot be opened, every other message is a leaf.  So as long as all of them can be decoded
  and none is nested deeper than `maxAuthzDepth`, only the leaves matter, in their order, and wrapping
  messages changes nothing; otherwise the transaction is refused.

  What the walks make of the leaves:

  * `checkMsgs` passes when every `MsgCreateValidator` among them is within the bounds (`Passes`);
  * `collectBondIncreases` lists the validators in the order of their first bond, each with its total
    (`Collected`).
-/
import Gemba.Lib.Forest
import Gemba.Valgate.Ante

namespace Gemba.Valgate

open Gemba.Lib Gemba.Sdk

mutual

/-- A message as a tree. -/
def Msg.tree : Msg → Tree String Msg
  | .exec inner => .node (treesOf inner)
  | .execUndecodable err => .broken err
  | .staking m => .leaf (.staking m)
  | .ethereumTx ops => .leaf (.ethereumTx ops)
  | .other tag => .leaf (.other tag)

def treesOf : List Msg → List (Tree String Msg)
  | [] => []
  | msg :: msgs => msg.tree :: treesOf msgs

end

/-- The messages that are not a `MsgExec`, in their order. -/
def flatten (msgs : List Msg) : List Msg := leavesOf (treesOf msgs)

/-- How deep the `MsgExec`s are nested. -/
def nesting (msgs : List Msg) : Nat := heightOf (treesOf msgs)

/-- Every `MsgExec` can be decoded. -/
def allDecode (msgs : List Msg) : Bool := intactAll (treesOf msgs)

/-- `msgs'` is `msgs` with some consecutive messages wrapped in a `MsgExec`, somewhere. -/
inductive Wrap : List Msg → List Msg → Prop where
  | here (pre mid post : List Msg) : Wrap (pre ++ (mid ++ post)) (pre ++ .exec mid :: post)
  | inside (pre post : List Msg) {inner inner' : List Msg} (h : Wrap inner inner') :
      Wrap (pre ++ .exec inner :: post) (pre ++ .exec inner' :: post)

section
variable {msgs msgs' : List Msg} {msg : Msg}

theorem treesOf_append (ms ns : List Msg) : treesOf (ms ++ ns) = treesOf ms ++ treesOf ns := by
  induction ms with
  | nil => rfl
  | cons m ms ih => rw [List.cons_append, treesOf, treesOf, ih, List.cons_append]

theorem flatten_append (ms ns : List Msg) : flatten (ms ++ ns) = flatten ms ++ flatten ns := by
  rw [flatten, treesOf_append, leavesOf_append]
  rfl

theorem allDecode_append (ms ns : List Msg) :
    allDecode (ms ++ ns) = (allDecode ms && allDecode ns) := by
  rw [allDecode, treesOf_append, intactAll_append]
  rfl

theorem flatten_exec (inner post : List Msg) :
    flatten (.exec inner :: post) = flatten inner ++ flatten post := rfl

theorem allDecode_exec (inner post : List Msg) :
    allDecode (.exec inner :: post) = (allDecode inner && allDecode post) := rfl

/-- **Wrapping keeps the leaves**, and what can be decoded. -/
theorem Wrap.same (h : Wrap msgs msgs') :
    flatten msgs' = flatten msgs ∧ allDecode msgs' = allDecode msgs := by
  induction h with
  | here pre mid post =>
    rw [flatten_append, flatten_append, flatten_append, flatten_exec, allDecode_append,
      allDecode_append, allDecode_append, allDecode_exec]
    exact ⟨rfl, rfl⟩
  | inside pre post h ih =>
    rw [flatten_append, flatten_append, flatten_exec, flatten_exec, allDecode_append,
      allDecode_append, allDecode_exec, allDecode_exec, ih.1, ih.2]
    exact ⟨rfl, rfl⟩

theorem wraps_same (h : Relation.ReflTransGen Wrap msgs msgs') :
    flatten msgs' = flatten msgs ∧ allDecode msgs' = allDecode msgs := by
  induction h with
  | refl => exact ⟨rfl, rfl⟩
  | tail _ hstep ih =>
    obtain ⟨hflat, hdecode⟩ := hstep.same
    exact ⟨hflat.trans ih.1, hdecode.trans ih.2⟩

mutual

/-- A leaf is not a `MsgExec`. -/
theorem tree_of_mem_leaves : ∀ {m : Msg}, msg ∈ m.tree.leaves → msg.tree = .leaf msg
  | .exec inner, h => tree_of_mem_flatten (show msg ∈ flatten inner from h)
  | .execUndecodable _, h => absurd h List.not_mem_nil
  | .staking m, h => by
    rw [List.mem_singleton.mp h]
    rfl
  | .ethereumTx ops, h => by
    rw [List.mem_singleton.mp h]
    rfl
  | .other tag, h => by
    rw [List.mem_singleton.mp h]
    rfl

theorem tree_of_mem_flatten : ∀ {msgs : List Msg}, msg ∈ flatten msgs → msg.tree = .leaf msg
  | [], h => absurd h List.not_mem_nil
  | m :: msgs, h => by
    rcases List.mem_append.mp h with h | h
    · exact tree_of_mem_leaves h
    · exact tree_of_mem_flatten h

end

/-- What is flat stays as it is. -/
theorem flat_of_leaves (h : ∀ m ∈ msgs, m.tree = .leaf m) :
    flatten msgs = msgs ∧ nesting msgs = 0 ∧ allDecode msgs = true := by
  induction msgs with
  | nil => exact ⟨rfl, rfl, rfl⟩
  | cons m msgs ih =>
    obtain ⟨hflat, hnesting, hdecode⟩ := ih fun n hn => h n (List.mem_cons_of_mem m hn)
    have hm := h m List.mem_cons_self
    unfold flatten at hflat ⊢
    unfold nesting at hnesting ⊢
    unfold allDecode at hdecode ⊢
    rw [treesOf, leavesOf, heightOf, intactAll, hm, hflat, hnesting, hdecode]
    exact ⟨rfl, rfl, rfl⟩

end

/-! ## The two walks as walks of a forest -/

/-- What stops both walks. -/
def obstacles : Obstacles String Fault where
  limit := maxAuthzDepth
  tooDeep := tooDeep
  cannotOpen := cannotDecode

/-- `checkMsgs`. -/
def checker (min max : MathInt) : Walker String Msg Fault Unit where
  toObstacles := obstacles
  visit := fun _ msg => match msg with
    | .staking (.createValidator cv) => checkCreateValidator min max cv
    | _ => .ok ()

/-- `collectBondIncreases`. -/
def collector (B : AddressCodec) : Walker String Msg Fault (List BondIncrease) where
  toObstacles := obstacles
  visit := fun acc msg => match msg with
    | .staking (.delegate m) => addIncrease B m.validatorAddress m.amount.amount acc
    | .staking (.beginRedelegate m) => addIncrease B m.validatorDstAddress m.amount.amount acc
    | _ => .ok acc

mutual

theorem checkMsg_eq_walk (min max : MathInt) (depth : Nat) :
    ∀ msg : Msg, checkMsg min max depth msg = (checker min max).walk depth () msg.tree
  | .exec inner => by
    rw [checkMsg, Msg.tree, Walker.walk, failIf, checkMsgLoop_eq_walk min max (depth + 1) inner]
    by_cases hdeep : maxAuthzDepth < depth + 1
    · rw [if_pos hdeep, if_pos (show (checker min max).limit < depth + 1 from hdeep)]
      rfl
    · rw [if_neg hdeep, if_neg (show ¬ (checker min max).limit < depth + 1 from hdeep)]
      rfl
  | .execUndecodable err => rfl
  | .staking m => by cases m with
    | createValidator cv => rfl
    | delegate m => rfl
    | beginRedelegate m => rfl
    | undelegate m => rfl
    | cancelUnbondingDelegation m => rfl
  | .ethereumTx ops => rfl
  | .other tag => rfl

theorem checkMsgLoop_eq_walk (min max : MathInt) (depth : Nat) :
    ∀ msgs : List Msg, checkMsgLoop min max depth msgs
      = (checker min max).walkAll depth () (treesOf msgs)
  | [] => rfl
  | msg :: msgs => by
    rw [checkMsgLoop, treesOf, Walker.walkAll, checkMsg_eq_walk min max depth msg,
      checkMsgLoop_eq_walk min max depth msgs]

end

mutual

theorem collectMsg_eq_walk (B : AddressCodec) (depth : Nat) (acc : List BondIncrease) :
    ∀ msg : Msg, collectMsg B depth acc msg = (collector B).walk depth acc msg.tree
  | .exec inner => by
    rw [collectMsg, Msg.tree, Walker.walk, failIf, collectLoop_eq_walk B (depth + 1) acc inner]
    by_cases hdeep : maxAuthzDepth < depth + 1
    · rw [if_pos hdeep, if_pos (show (collector B).limit < depth + 1 from hdeep)]
      rfl
    · rw [if_neg hdeep, if_neg (show ¬ (collector B).limit < depth + 1 from hdeep)]
      rfl
  | .execUndecodable err => rfl
  | .staking m => by cases m with
    | createValidator cv => rfl
    | delegate m => rfl
    | beginRedelegate m => rfl
    | undelegate m => rfl
    | cancelUnbondingDelegation m => rfl
  | .ethereumTx ops => rfl
  | .other tag => rfl

theorem collectLoop_eq_walk (B : AddressCodec) (depth : Nat) (acc : List BondIncrease) :
    ∀ msgs : List Msg, collectLoop B depth acc msgs
      = (collector B).walkAll depth acc (treesOf msgs)
  | [] => rfl
  | msg :: msgs => by
    rw [collectLoop, treesOf, Walker.walkAll, collectMsg_eq_walk B depth acc msg]
    cases (collector B).walk depth acc msg.tree with
    | error e => rfl
    | ok acc' => exact collectLoop_eq_walk B depth acc' msgs

end

theorem checkMsgs_eq_walk (min max : MathInt) (msgs : List Msg) :
    checkMsgs msgs min max 0 = (checker min max).walkAll 0 () (treesOf msgs) := by
  rw [checkMsgs, failIf_neg (by decide), ok_bind, checkMsgLoop_eq_walk]

theorem collectBondIncreases_eq_walk (B : AddressCodec) (msgs : List Msg) :
    collectBondIncreases B msgs [] 0 = (collector B).walkAll 0 [] (treesOf msgs) := by
  rw [collectBondIncreases, failIf_neg (by decide), ok_bind, collectLoop_eq_walk]

/-! ## The creations among the leaves -/

/-- A created validator is within the bounds of the gate. -/
structure Passes (min max : MathInt) (cv : MsgCreateValidator) : Prop where
  min_set : min.isNil = false
  value_set : cv.value.amount.isNil = false
  commitment_set : cv.minSelfDelegation.isNil = false
  floor : min.val ≤ cv.value.amount.val
  commitment : min.val ≤ cv.minSelfDelegation.val
  cap : 0 < max.val → cv.value.amount.val ≤ max.val

theorem capped_eq (max : MathInt) :
    andThen (!max.isNil) max.isPositive = .ok (decide (0 < max.val)) := by
  cases max with
  | nil => rfl
  | int x hx => rfl

/-- Without a minimum or a value, the first comparison panics. -/
theorem checkCreateValidator_of_nil {min : MathInt} {cv : MsgCreateValidator} (max : MathInt)
    (h : min.isNil = true ∨ cv.value.amount.isNil = true) :
    checkCreateValidator min max cv = .error nilDeref := by
  have hlt : cv.value.amount.lt min = .error nilDeref := by
    cases hvalue : cv.value.amount with
    | nil => rfl
    | int v hv =>
      cases min with
      | nil => rfl
      | int m hm =>
        rw [hvalue] at h
        rcases h with h | h
        · nomatch h
        · nomatch h
  unfold checkCreateValidator
  rw [capped_eq, ok_bind, hlt]
  rfl

section
variable {m v d : Int} (hm : m.natAbs < 2 ^ 256) (hv : v.natAbs < 2 ^ 256) (hd : d.natAbs < 2 ^ 256)

/-- Without a commitment, the second comparison panics, if it is reached. -/
theorem checkCreateValidator_of_nil_commitment (max : MathInt) (addr denom : String) :
    ∃ low, checkCreateValidator (.int m hm) max ⟨.nil, addr, ⟨denom, .int v hv⟩⟩ =
      (do failIf (decide (v < m) = true) (.error low)
          .error nilDeref) := by
  unfold checkCreateValidator
  rw [capped_eq, ok_bind]
  dsimp only
  rw [MathInt.lt_int]
  exact ⟨_, rfl⟩

/-- With all amounts given, the check is three comparisons. -/
theorem checkCreateValidator_eq (max : MathInt) (addr denom : String) :
    ∃ low little high, checkCreateValidator (.int m hm) max ⟨.int d hd, addr, ⟨denom, .int v hv⟩⟩ =
      (do failIf (decide (v < m) = true) (.error low)
          failIf (decide (d < m) = true) (.error little)
          failIf (decide (0 < max.val ∧ max.val < v) = true) (.error high)) := by
  have habove : andThen (decide (0 < max.val)) ((MathInt.int v hv).gt max)
      = .ok (decide (0 < max.val ∧ max.val < v)) := by
    cases max with
    | nil => rfl
    | int x hx => rw [MathInt.gt_int, andThen_ok, MathInt.val_int, Bool.decide_and]
  unfold checkCreateValidator
  rw [capped_eq, ok_bind]
  dsimp only
  rw [MathInt.lt_int, MathInt.lt_int, habove]
  exact ⟨_, _, _, rfl⟩

end

/-- **When the check passes.** -/
theorem checkCreateValidator_iff {min max : MathInt} {cv : MsgCreateValidator} :
    checkCreateValidator min max cv = .ok () ↔ Passes min max cv := by
  by_cases hnil : min.isNil = true ∨ cv.value.amount.isNil = true
  · rw [checkCreateValidator_of_nil max hnil]
    refine iff_of_false (fun h => nomatch h) fun h => ?_
    rw [h.min_set, h.value_set] at hnil
    rcases hnil with hnil | hnil
    · nomatch hnil
    · nomatch hnil
  obtain ⟨msd, addr, denom, value⟩ := cv
  cases min with
  | nil => exact absurd (.inl rfl) hnil
  | int m hm =>
    cases value with
    | nil => exact absurd (.inr rfl) hnil
    | int v hv =>
      cases msd with
      | nil =>
        obtain ⟨low, heq⟩ := checkCreateValidator_of_nil_commitment hm hv max addr denom
        rw [heq]
        refine iff_of_false (fun h => ?_) fun h => nomatch h.commitment_set
        obtain ⟨-, -, h⟩ := bind_eq_ok.mp h
        nomatch h
      | int d hd =>
        obtain ⟨low, little, high, heq⟩ := checkCreateValidator_eq hm hv hd max addr denom
        rw [heq]
        simp only [bind_eq_ok, failIf_eq_ok, decide_eq_true_eq]
        constructor
        · rintro ⟨-, hfloor, -, hcommit, hcap⟩
          refine ⟨rfl, rfl, rfl, not_lt.mp hfloor, not_lt.mp hcommit, fun hpos => ?_⟩
          exact not_lt.mp fun hlt => hcap ⟨hpos, hlt⟩
        · rintro ⟨-, -, -, hfloor, hcommit, hcap⟩
          exact ⟨⟨⟩, not_lt.mpr hfloor, ⟨⟩, not_lt.mpr hcommit,
            fun h => absurd (hcap h.1) (not_le.mpr h.2)⟩

/-- **When the check panics**: an amount it compares is missing. -/
theorem checkCreateValidator_panics_iff {min max : MathInt} {cv : MsgCreateValidator} :
    (∃ msg, checkCreateValidator min max cv = .error (.panic msg)) ↔
      min.isNil = true ∨ cv.value.amount.isNil = true ∨
        (min.val ≤ cv.value.amount.val ∧ cv.minSelfDelegation.isNil = true) := by
  by_cases hnil : min.isNil = true ∨ cv.value.amount.isNil = true
  · rw [checkCreateValidator_of_nil max hnil, ← or_assoc]
    exact iff_of_true ⟨_, rfl⟩ (.inl hnil)
  obtain ⟨msd, addr, denom, value⟩ := cv
  cases min with
  | nil => exact absurd (.inl rfl) hnil
  | int m hm =>
    cases value with
    | nil => exact absurd (.inr rfl) hnil
    | int v hv =>
      cases msd with
      | nil =>
        obtain ⟨low, heq⟩ := checkCreateValidator_of_nil_commitment hm hv max addr denom
        rw [heq]
        by_cases hlow : v < m
        · rw [failIf, if_pos (decide_eq_true hlow)]
          refine iff_of_false (fun ⟨msg, h⟩ => nomatch h) ?_
          rintro (h | h | ⟨h, -⟩)
          · nomatch h
          · nomatch h
          · exact absurd hlow (not_lt.mpr h)
        · rw [failIf_neg (by rw [decide_eq_true_eq]; exact hlow)]
          exact iff_of_true ⟨_, rfl⟩ (.inr (.inr ⟨not_lt.mp hlow, rfl⟩))
      | int d hd =>
        obtain ⟨low, little, high, heq⟩ := checkCreateValidator_eq hm hv hd max addr denom
        rw [heq]
        refine iff_of_false (fun ⟨msg, h⟩ => ?_) ?_
        · rcases bind_eq_error.mp h with h | ⟨-, -, h⟩
          · nomatch (failIf_eq_error h).2
          · rcases bind_eq_error.mp h with h | ⟨-, -, h⟩
            · nomatch (failIf_eq_error h).2
            · nomatch (failIf_eq_error h).2
        · rintro (h | h | ⟨-, h⟩)
          · nomatch h
          · nomatch h
          · nomatch h

/-- The walk looks at creations only. -/
theorem checker_visit (min max : MathInt) (m : Msg) :
    (∃ cv, m = .staking (.createValidator cv)) ∨ (checker min max).visit () m = .ok () := by
  cases m with
  | staking m =>
    cases m with
    | createValidator cv => exact .inl ⟨cv, rfl⟩
    | delegate m => exact .inr rfl
    | beginRedelegate m => exact .inr rfl
    | undelegate m => exact .inr rfl
    | cancelUnbondingDelegation m => exact .inr rfl
  | exec inner => exact .inr rfl
  | execUndecodable err => exact .inr rfl
  | ethereumTx ops => exact .inr rfl
  | other tag => exact .inr rfl

/-- **The leaves pass** when every validator they create does. -/
theorem runM_check_iff {min max : MathInt} {leaves : List Msg} :
    runM (checker min max).visit () leaves = .ok () ↔
      ∀ cv, .staking (.createValidator cv) ∈ leaves → Passes min max cv := by
  rw [runM_unit]
  constructor
  · intro h cv hcv
    exact checkCreateValidator_iff.mp (h _ hcv)
  · intro h m hm
    rcases checker_visit min max m with ⟨cv, rfl⟩ | hother
    · exact checkCreateValidator_iff.mpr (h cv hm)
    · exact hother

/-! ## The bonds among the leaves -/

/-- The validator and the amount a message bonds: none if the validator cannot be parsed or the amount
    is nil. -/
def Msg.bond? (B : AddressCodec) : Msg → Option (ValAddress × MathInt)
  | .staking m => do
    let (addr, amt) ← m.bond?
    let va ← (B.valAddressFromBech32 addr).toOption
    if amt.isNil then none else some (va, amt)
  | _ => none

/-- The bonds of a transaction, in their order. -/
def bondsIn (B : AddressCodec) (msgs : List Msg) : List (ValAddress × MathInt) :=
  (flatten msgs).filterMap (Msg.bond? B)

/-- What some bonds add up to for one validator. -/
def totalOf (bonds : List (ValAddress × MathInt)) (v : ValAddress) : Int :=
  (bonds.map fun b => if v = b.1 then b.2.val else 0).sum

/-- Every total fits into 256 bits, as it grows. -/
def SumsFit (bonds : List (ValAddress × MathInt)) : Prop :=
  ∀ k ≤ bonds.length, ∀ b ∈ bonds, (totalOf (bonds.take k) b.1).natAbs < 2 ^ 256

instance (bonds : List (ValAddress × MathInt)) : Decidable (SumsFit bonds) :=
  inferInstanceAs (Decidable (∀ k ≤ bonds.length, ∀ b ∈ bonds, _))

/-- **What the walk collects**: the validators in the order of their first bond, each with its total. -/
def Collected (bonds : List (ValAddress × MathInt)) (incs : List BondIncrease) : Prop :=
  incs.map (fun inc => (inc.valoper, inc.amount.val?))
    = (bonds.map Prod.fst).eraseDups.map fun v => (v, some (totalOf bonds v))

/-- One bond added to a list of increases. -/
def addBond (acc : List BondIncrease) (b : ValAddress × MathInt) : Outcome (List BondIncrease) :=
  addTo b.1 b.2 acc

section
variable {B : AddressCodec} {bonds : List (ValAddress × MathInt)} {incs : List BondIncrease}
  {keys : List ValAddress} {va : ValAddress} {amt : MathInt} {f : ValAddress → Int}

theorem addIncrease_eq (addr : String) (amt : MathInt) (acc : List BondIncrease) :
    addIncrease B addr amt acc =
      match (do
        let va ← (B.valAddressFromBech32 addr).toOption
        if amt.isNil then none else some (va, amt) : Option (ValAddress × MathInt)) with
      | some b => addBond acc b
      | none => .ok acc := by
  unfold addIncrease
  cases B.valAddressFromBech32 addr with
  | error e => rfl
  | ok va => cases amt with
    | nil => rfl
    | int a ha => rfl

/-- The walk adds the bonds of the leaves. -/
theorem runM_collect (leaves : List Msg) (acc : List BondIncrease) :
    runM (collector B).visit acc leaves = runM addBond acc (leaves.filterMap (Msg.bond? B)) := by
  have hvisit : ∀ acc m, (collector B).visit acc m =
      match Msg.bond? B m with | some b => addBond acc b | none => .ok acc := by
    intro acc m
    cases m with
    | staking m =>
      cases m with
      | delegate m => exact addIncrease_eq _ _ _
      | beginRedelegate m => exact addIncrease_eq _ _ _
      | createValidator cv => rfl
      | undelegate m => rfl
      | cancelUnbondingDelegation m => rfl
    | exec inner => rfl
    | execUndecodable err => rfl
    | ethereumTx ops => rfl
    | other tag => rfl
  induction leaves generalizing acc with
  | nil => rfl
  | cons m leaves ih =>
    rw [runM, hvisit]
    cases hm : Msg.bond? B m with
    | none =>
      rw [List.filterMap_cons_none hm]
      exact ih acc
    | some b =>
      rw [List.filterMap_cons_some hm, runM]
      exact congrArg _ (funext fun acc' => ih acc')

theorem bond_set {b : ValAddress × MathInt} (h : b ∈ bondsIn B msgs) : b.2.isNil = false := by
  obtain ⟨m, -, hm⟩ := List.mem_filterMap.mp h
  cases m with
  | staking m =>
    obtain ⟨⟨addr, amt⟩, -, hm⟩ := Option.bind_eq_some_iff.mp hm
    obtain ⟨va, -, hm⟩ := Option.bind_eq_some_iff.mp hm
    cases amt with
    | nil => nomatch hm
    | int a ha =>
      injection hm with hm
      rw [← hm]
      rfl
  | exec inner => nomatch hm
  | execUndecodable err => nomatch hm
  | ethereumTx ops => nomatch hm
  | other tag => nomatch hm

theorem totalOf_snoc (bonds : List (ValAddress × MathInt)) (b : ValAddress × MathInt)
    (v : ValAddress) :
    totalOf (bonds ++ [b]) v = totalOf bonds v + if v = b.1 then b.2.val else 0 := by
  rw [totalOf, List.map_append, List.sum_append, List.map_singleton, List.sum_singleton]
  rfl

theorem totalOf_of_notMem {v : ValAddress} (h : v ∉ bonds.map Prod.fst) : totalOf bonds v = 0 := by
  refine List.sum_eq_zero fun x hx => ?_
  obtain ⟨b, hb, rfl⟩ := List.mem_map.mp hx
  exact if_neg fun heq => h (List.mem_map.mpr ⟨b, hb, heq.symm⟩)

/-- A new key comes last. -/
theorem eraseDups_snoc (keys : List ValAddress) (va : ValAddress) :
    (keys ++ [va]).eraseDups = if va ∈ keys then keys.eraseDups else keys.eraseDups ++ [va] := by
  rw [List.eraseDups_append]
  by_cases hmem : va ∈ keys
  · have hnone : [va].removeAll keys = [] := by simp [List.removeAll, hmem]
    rw [if_pos hmem, hnone, List.eraseDups_nil, List.append_nil]
  · have hall : [va].removeAll keys = [va] := by simp [List.removeAll, hmem]
    rw [if_neg hmem, hall]
    rfl

theorem nodup_eraseDups (keys : List ValAddress) : keys.eraseDups.Nodup := by
  induction keys using List.reverseRecOn with
  | nil => exact List.nodup_nil
  | append_singleton keys va ih =>
    rw [eraseDups_snoc]
    split
    · exact ih
    · rename_i hmem
      refine List.nodup_append.mpr ⟨ih, List.nodup_singleton va, fun x hx y hy => ?_⟩
      rw [List.mem_singleton.mp hy]
      rintro rfl
      exact hmem (List.mem_eraseDups.mp hx)

/-- The search for an entry leaves those of other validators as they are. -/
theorem addTo_append {pre : List BondIncrease} (h : va ∉ pre.map BondIncrease.valoper) :
    addTo va amt (pre ++ incs) = addTo va amt incs >>= fun acc => .ok (pre ++ acc) := by
  induction pre with
  | nil =>
    cases hadd : addTo va amt incs with
    | error e => exact hadd
    | ok acc => exact hadd
  | cons inc pre ih =>
    rw [List.map_cons, List.mem_cons, not_or] at h
    rw [List.cons_append, addTo, if_neg (Ne.symm h.1), ih h.2]
    cases addTo va amt incs with
    | error e => rfl
    | ok acc => rfl

/-- A validator that is not in the list yet gets an entry at its end. -/
theorem addTo_of_notMem (h : va ∉ incs.map BondIncrease.valoper) :
    addTo va amt incs = .ok (incs ++ [⟨va, amt⟩]) := by
  have hend : addTo va amt (incs ++ []) = .ok (incs ++ [⟨va, amt⟩]) := addTo_append h
  rwa [List.append_nil] at hend

/-- The validators of a list whose entries are known. -/
theorem valopers_of_view
    (hview : incs.map (fun inc => (inc.valoper, inc.amount.val?)) = keys.map fun v => (v, some (f v))) :
    incs.map BondIncrease.valoper = keys := by
  have hkeys := congrArg (List.map Prod.fst) hview
  rw [List.map_map, List.map_map] at hkeys
  exact hkeys.trans (List.map_id _)

/-- The entry of a validator that is in the list, between those of others: the amount is added
    there. -/
theorem addTo_entry {a : Int} (ha : a.natAbs < 2 ^ 256)
    (hview : incs.map (fun inc => (inc.valoper, inc.amount.val?)) = keys.map fun v => (v, some (f v)))
    (hmem : va ∈ keys) :
    ∃ before after pre post, keys = before ++ va :: after ∧
      pre.map (fun inc => (inc.valoper, inc.amount.val?)) = before.map (fun v => (v, some (f v))) ∧
      post.map (fun inc => (inc.valoper, inc.amount.val?)) = after.map (fun v => (v, some (f v))) ∧
      addTo va (.int a ha) incs =
        MathInt.checked (f va + a) >>= fun sum => .ok (pre ++ ⟨va, sum⟩ :: post) := by
  obtain ⟨before, after, rfl, hfirst⟩ := List.eq_append_cons_of_mem hmem
  rw [List.map_append] at hview
  obtain ⟨pre, rest, rfl, hpre, hview⟩ := List.map_eq_append_iff.mp hview
  obtain ⟨inc, post, rfl, hentry, hpost⟩ := List.map_eq_cons_iff.mp hview
  refine ⟨before, after, pre, post, rfl, hpre, hpost, ?_⟩
  injection hentry with hkey hval
  obtain ⟨hbits, hinc⟩ := MathInt.val?_eq_some.mp hval
  rw [← valopers_of_view hpre] at hfirst
  rw [addTo_append hfirst, addTo, if_pos hkey, hinc]
  show (MathInt.checked (f va + a) >>= _) >>= _ = _
  cases MathInt.checked (f va + a) with
  | error e => rfl
  | ok sum => rfl

/-- A validator that is in the list has the amount added to its entry. -/
theorem addTo_of_mem {a : Int} (ha : a.natAbs < 2 ^ 256) (hnodup : keys.Nodup)
    (hview : incs.map (fun inc => (inc.valoper, inc.amount.val?)) = keys.map fun v => (v, some (f v)))
    (hmem : va ∈ keys) (hfits : (f va + a).natAbs < 2 ^ 256) :
    ∃ incs', addTo va (.int a ha) incs = .ok incs' ∧
      incs'.map (fun inc => (inc.valoper, inc.amount.val?))
        = keys.map fun v => (v, some (f v + if v = va then a else 0)) := by
  obtain ⟨before, after, pre, post, rfl, hpre, hpost, hadd⟩ := addTo_entry ha hview hmem
  obtain ⟨-, hafter, hbefore⟩ := List.nodup_append.mp hnodup
  -- its entry is the only one with its key, so the others keep their sums
  have hsame : ∀ {others : List ValAddress}, va ∉ others →
      others.map (fun v => (v, some (f v + if v = va then a else 0)))
        = others.map fun v => (v, some (f v)) := by
    intro others hothers
    refine List.map_congr_left fun v hv => ?_
    have hne : v ≠ va := fun h => hothers (h ▸ hv)
    rw [if_neg hne, Int.add_zero]
  refine ⟨pre ++ ⟨va, .int (f va + a) hfits⟩ :: post, ?_, ?_⟩
  · rw [hadd, MathInt.checked_of_fits hfits]
    rfl
  · rw [List.map_append, List.map_append, List.map_cons, List.map_cons, hpre, hpost,
      hsame (fun h => hbefore _ h _ List.mem_cons_self rfl), hsame (List.nodup_cons.mp hafter).1,
      if_pos rfl]
    rfl

theorem SumsFit.initial {pre bonds : List (ValAddress × MathInt)} (hpre : pre <+: bonds)
    (h : SumsFit bonds) : SumsFit pre := by
  obtain ⟨post, rfl⟩ := hpre
  intro k hk b hb
  have := h k (by rw [List.length_append]; omega) b (List.mem_append_left _ hb)
  rw [List.take_append_of_le_length hk] at this
  exact this

theorem SumsFit.init {b : ValAddress × MathInt} (h : SumsFit (bonds ++ [b])) :
    SumsFit bonds ∧ (totalOf bonds b.1 + b.2.val).natAbs < 2 ^ 256 := by
  refine ⟨h.initial ⟨[b], rfl⟩, ?_⟩
  have := h (bonds ++ [b]).length le_rfl b (List.mem_append_right _ (List.mem_singleton_self b))
  rw [List.take_length, totalOf_snoc, if_pos rfl] at this
  exact this

/-- The validators that were collected. -/
theorem Collected.valopers (h : Collected bonds incs) :
    incs.map BondIncrease.valoper = (bonds.map Prod.fst).eraseDups :=
  valopers_of_view h

/-- **The bonds are collected** when their totals fit. -/
theorem collected_of_fits (hset : ∀ b ∈ bonds, b.2.isNil = false) (hfits : SumsFit bonds) :
    ∃ incs, runM addBond [] bonds = .ok incs ∧ Collected bonds incs := by
  -- from the right: the walk adds a bond to what the earlier ones left
  induction bonds using List.reverseRecOn with
  | nil => exact ⟨[], rfl, rfl⟩
  | append_singleton bonds b ih =>
    obtain ⟨hinit, hlast⟩ := hfits.init
    obtain ⟨incs, hrun, hcollected⟩ := ih (fun c hc => hset c (List.mem_append_left _ hc)) hinit
    obtain ⟨va, amt⟩ := b
    cases amt with
    | nil => nomatch hset _ (List.mem_append_right _ (List.mem_singleton_self _))
    | int a ha =>
      have hrun' : runM addBond [] (bonds ++ [(va, .int a ha)]) = addTo va (.int a ha) incs := by
        rw [runM_append, hrun, ok_bind]
        show addTo va (.int a ha) incs >>= (fun t => .ok t) = _
        cases addTo va (.int a ha) incs with
        | error e => rfl
        | ok t => rfl
      rw [hrun']
      unfold Collected
      rw [List.map_append, List.map_singleton, eraseDups_snoc]
      -- a second bond to a validator grows its entry, a first one makes it
      by_cases hmem : va ∈ bonds.map Prod.fst
      · rw [if_pos hmem]
        obtain ⟨incs', hadd, hview⟩ := addTo_of_mem ha (nodup_eraseDups _) hcollected
          (List.mem_eraseDups.mpr hmem) hlast
        refine ⟨incs', hadd, hview.trans (List.map_congr_left fun v _ => ?_)⟩
        rw [totalOf_snoc]
        rfl
      · rw [if_neg hmem, addTo_of_notMem (by rw [hcollected.valopers, List.mem_eraseDups]; exact hmem)]
        refine ⟨_, rfl, ?_⟩
        rw [List.map_append, List.map_append, hcollected, List.map_singleton, List.map_singleton,
          totalOf_snoc, if_pos rfl, totalOf_of_notMem hmem, Int.zero_add]
        congr 1
        refine List.map_congr_left fun v hv => ?_
        have hne : v ≠ va := fun h => hmem (h ▸ List.mem_eraseDups.mp hv)
        rw [totalOf_snoc, if_neg hne, Int.add_zero]

end

/-! ## Both walks of a transaction -/

/-- The walk returns an error. -/
def refuses {α : Type} (x : Outcome α) : Prop := ∃ msg, x = .error (.error msg)

/-- How the messages are nested makes no difference to the two walks. -/
structure NestingInvariant (B : AddressCodec) (min max : MathInt) (msgs : List Msg) : Prop where
  collect_flat : collectBondIncreases B msgs [] 0 = collectBondIncreases B (flatten msgs) [] 0
  collected : SumsFit (bondsIn B msgs) →
    ∃ incs, collectBondIncreases B msgs [] 0 = .ok incs ∧ Collected (bondsIn B msgs) incs
  check_flat : checkMsgs msgs min max 0 = checkMsgs (flatten msgs) min max 0
  check : checkMsgs msgs min max 0 = .ok () ↔
    ∀ cv, .staking (.createValidator cv) ∈ flatten msgs → Passes min max cv
  wrap : ∀ msgs', Relation.ReflTransGen Wrap msgs msgs' → nesting msgs' ≤ maxAuthzDepth →
    collectBondIncreases B msgs' [] 0 = collectBondIncreases B msgs [] 0 ∧
      checkMsgs msgs' min max 0 = checkMsgs msgs min max 0

/-- Neither walk accepts the messages; and they return an error, as long as no amount they may come
    across is nil and no total too large. -/
structure Refused (B : AddressCodec) (min max : MathInt) (msgs : List Msg) : Prop where
  collect : ¬ succeeds (collectBondIncreases B msgs [] 0)
  collect_error : SumsFit (bondsIn B msgs) → refuses (collectBondIncreases B msgs [] 0)
  check : ¬ succeeds (checkMsgs msgs min max 0)
  check_error : min.isNil = false → (∀ cv, .staking (.createValidator cv) ∈ flatten msgs →
      cv.value.amount.isNil = false ∧ cv.minSelfDelegation.isNil = false) →
    refuses (checkMsgs msgs min max 0)

section
variable {B : AddressCodec} {min max : MathInt} {msgs msgs' : List Msg}

theorem collect_of_clear (hdecode : allDecode msgs = true) (hdepth : nesting msgs ≤ maxAuthzDepth) :
    collectBondIncreases B msgs [] 0 = runM addBond [] (bondsIn B msgs) := by
  have hclear : (collector B).Clear 0 (treesOf msgs) := ⟨hdecode, by rw [Nat.zero_add]; exact hdepth⟩
  rw [collectBondIncreases_eq_walk, Walker.walkAll_of_clear hclear, runM_collect]
  rfl

theorem check_of_clear (hdecode : allDecode msgs = true) (hdepth : nesting msgs ≤ maxAuthzDepth) :
    checkMsgs msgs min max 0 = runM (checker min max).visit () (flatten msgs) := by
  have hclear : (checker min max).Clear 0 (treesOf msgs) :=
    ⟨hdecode, by rw [Nat.zero_add]; exact hdepth⟩
  rw [checkMsgs_eq_walk, Walker.walkAll_of_clear hclear]
  rfl

/-- **Only the leaves matter.** -/
theorem walks_of_flatten_eq (hdecode : allDecode msgs = true) (hdepth : nesting msgs ≤ maxAuthzDepth)
    (hdecode' : allDecode msgs' = true) (hdepth' : nesting msgs' ≤ maxAuthzDepth)
    (hflat : flatten msgs' = flatten msgs) :
    collectBondIncreases B msgs' [] 0 = collectBondIncreases B msgs [] 0 ∧
      checkMsgs msgs' min max 0 = checkMsgs msgs min max 0 := by
  rw [collect_of_clear hdecode hdepth, collect_of_clear hdecode' hdepth',
    check_of_clear hdecode hdepth, check_of_clear hdecode' hdepth']
  unfold bondsIn
  rw [hflat]
  exact ⟨rfl, rfl⟩

theorem nestingInvariant_of_clear (hdecode : allDecode msgs = true)
    (hdepth : nesting msgs ≤ maxAuthzDepth) : NestingInvariant B min max msgs := by
  obtain ⟨hflat, hnesting, hdecode'⟩ := flat_of_leaves fun m (hm : m ∈ flatten msgs) =>
    tree_of_mem_flatten hm
  have hsame : collectBondIncreases B (flatten msgs) [] 0 = collectBondIncreases B msgs [] 0 ∧
      checkMsgs (flatten msgs) min max 0 = checkMsgs msgs min max 0 :=
    walks_of_flatten_eq hdecode hdepth hdecode' (by rw [hnesting]; exact Nat.zero_le _) hflat
  refine ⟨hsame.1.symm, fun hfits => ?_, hsame.2.symm, ?_, fun msgs' hwraps hdepth' => ?_⟩
  · rw [collect_of_clear hdecode hdepth]
    exact collected_of_fits (fun b hb => bond_set hb) hfits
  · rw [check_of_clear hdecode hdepth]
    exact runM_check_iff
  · obtain ⟨hflat', hall⟩ := wraps_same hwraps
    exact walks_of_flatten_eq hdecode hdepth (hall.trans hdecode) hdepth' hflat'

/-- The pass over some leaves returns, if none of their amounts is missing. -/
theorem runM_check_returns (hmin : min.isNil = false) {leaves : List Msg}
    (hset : ∀ cv, .staking (.createValidator cv) ∈ leaves →
      cv.value.amount.isNil = false ∧ cv.minSelfDelegation.isNil = false) {e : Fault}
    (h : runM (checker min max).visit () leaves = .error e) : ∃ msg, e = .error msg := by
  induction leaves with
  | nil => nomatch h
  | cons m leaves ih =>
    rcases bind_eq_error.mp h with h | ⟨⟨⟩, -, h⟩
    · rcases checker_visit min max m with ⟨cv, rfl⟩ | hother
      swap
      · rw [hother] at h
        nomatch h
      obtain ⟨hvalue, hmsd⟩ := hset cv List.mem_cons_self
      cases e with
      | error msg => exact ⟨msg, rfl⟩
      | panic msg =>
        exfalso
        rcases checkCreateValidator_panics_iff.mp ⟨msg, h⟩ with hnil | hnil | ⟨-, hnil⟩
        · rw [hmin] at hnil
          nomatch hnil
        · rw [hvalue] at hnil
          nomatch hnil
        · rw [hmsd] at hnil
          nomatch hnil
    · exact ih (fun cv hcv => hset cv (List.mem_cons_of_mem m hcv)) h

/-- What stops the walk of the bonds: a bond that fails, or an obstacle. -/
theorem collect_of_not_clear (h : ¬ (allDecode msgs = true ∧ nesting msgs ≤ maxAuthzDepth)) :
    (∃ pre e, pre <+: bondsIn B msgs ∧ runM addBond [] pre = .error e ∧
        collectBondIncreases B msgs [] 0 = .error e) ∨
      refuses (collectBondIncreases B msgs [] 0) := by
  have hclear : ¬ (collector B).Clear 0 (treesOf msgs) := by
    rw [Obstacles.Clear, Nat.zero_add]
    exact h
  rw [collectBondIncreases_eq_walk]
  rcases Walker.walkAll_of_not_clear (s := []) (Nat.zero_le _) hclear with
    ⟨pre, e, hpre, hrun, herr⟩ | herr | ⟨x, herr⟩
  · rw [runM_collect] at hrun
    exact .inl ⟨pre.filterMap (Msg.bond? B), e, hpre.filterMap _, hrun, herr⟩
  · exact .inr ⟨_, herr⟩
  · exact .inr ⟨_, herr⟩

/-- What stops the walk of the creations: one that fails, or an obstacle. -/
theorem check_of_not_clear (h : ¬ (allDecode msgs = true ∧ nesting msgs ≤ maxAuthzDepth)) :
    (∃ pre e, pre <+: flatten msgs ∧ runM (checker min max).visit () pre = .error e ∧
        checkMsgs msgs min max 0 = .error e) ∨
      refuses (checkMsgs msgs min max 0) := by
  have hclear : ¬ (checker min max).Clear 0 (treesOf msgs) := by
    rw [Obstacles.Clear, Nat.zero_add]
    exact h
  rw [checkMsgs_eq_walk]
  rcases Walker.walkAll_of_not_clear (s := ()) (Nat.zero_le _) hclear with
    hvisit | herr | ⟨x, herr⟩
  · exact .inl hvisit
  · exact .inr ⟨_, herr⟩
  · exact .inr ⟨_, herr⟩

theorem check_not_succeeds (h : ¬ (allDecode msgs = true ∧ nesting msgs ≤ maxAuthzDepth)) :
    ¬ succeeds (checkMsgs msgs min max 0) := by
  rcases check_of_not_clear h with ⟨-, e, -, -, herr⟩ | ⟨msg, herr⟩
  · rw [herr]
    exact not_succeeds_error e
  · rw [herr]
    exact not_succeeds_error _

theorem refused_of_not_clear
    (h : ¬ (allDecode msgs = true ∧ nesting msgs ≤ maxAuthzDepth)) : Refused B min max msgs := by
  refine ⟨?_, fun hfits => ?_, check_not_succeeds h, fun hmin hset => ?_⟩
  · rcases collect_of_not_clear h with ⟨-, e, -, -, herr⟩ | ⟨msg, herr⟩
    · rw [herr]
      exact not_succeeds_error e
    · rw [herr]
      exact not_succeeds_error _
  · rcases collect_of_not_clear h with ⟨pre, e, hpre, hrun, -⟩ | herr
    · -- some first bonds do not overflow either
      exfalso
      obtain ⟨incs, hok, -⟩ := collected_of_fits (fun b hb => bond_set (hpre.subset hb))
        (hfits.initial hpre)
      rw [hok] at hrun
      nomatch hrun
    · exact herr
  · rcases check_of_not_clear h with ⟨pre, e, hpre, hrun, herr⟩ | herr
    · obtain ⟨msg, rfl⟩ := runM_check_returns hmin (fun cv hcv => hset cv (hpre.subset hcv)) hrun
      exact ⟨msg, herr⟩
    · exact herr

/-- **Nesting makes no difference.**  While every `MsgExec` can be decoded and none is nested too deep,
    both walks answer as on the leaves, which are collected and checked one by one; otherwise both
    refuse. -/
theorem nesting_invariance (B : AddressCodec) (min max : MathInt) (msgs : List Msg) :
    (allDecode msgs = true ∧ nesting msgs ≤ maxAuthzDepth → NestingInvariant B min max msgs) ∧
      (¬ (allDecode msgs = true ∧ nesting msgs ≤ maxAuthzDepth) → Refused B min max msgs) :=
  ⟨fun h => nestingInvariant_of_clear h.1 h.2, refused_of_not_clear⟩

end

/-- A creation in two `MsgExec`s, and a bond next to them. -/
theorem nesting_invariance_newcomer :
    NestingInvariant sampleCodec defaultParams.minSelfBond defaultParams.maxSelfBond
      [.exec [.exec [.staking (.createValidator newcomer)], .other 0],
        .staking (.delegate ⟨"", sampleName, newcomer.value⟩)] :=
  (nesting_invariance _ _ _ _).1 (by decide)

end Gemba.Valgate
