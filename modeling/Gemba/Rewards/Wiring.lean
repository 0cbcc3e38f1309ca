/-
  How the money modules are wired: `src/chain/x/wiring/order.go` and `src/chain/x/slashfunds/keeper.go`.

  * `validateBeginBlockOrder` — the app refuses to boot unless the begin-blockers of the fee split, the
    reward stream, the tail reward and the distribution are each listed once and in this order;
  * `burnCoins` — the bank the staking module is given, which redirects a slash to the faucet.

  The check works on positions: it scans the list, remembers where each of the four names stands, and
  compares.  `scan_cons` ties the scan to the nested loops of the source, and `scan_eq_ok` says when it
  goes through and what it remembers: no required name stands in the list twice, and the positions are
  those of the projection of the list to the required names.  Presence and the comparison of neighbours
  are then facts about that projection (`validateBeginBlockOrder_eq_ok`), and together they leave one
  projection only, the required order itself (`validateBeginBlockOrder_iff`).
  `validateBeginBlockOrder_ordered` is what a run of the list needs of it (`Ordered`): each name has one
  position, and the positions increase.
-/
import Gemba.Lib.Placed
import Gemba.Rewards.RewardStreamer

namespace Gemba.Rewards

open Gemba.Lib Gemba.Sdk

namespace Wiring

/-- `requiredBeginBlockOrder`. -/
def requiredBeginBlockOrder : List String :=
  [FeeSplit.moduleName, RewardStreamer.moduleName, TailReward.moduleName, distributionName]

/-- `%v` of the required order. -/
def requiredText : String := "[" ++ " ".intercalate requiredBeginBlockOrder ++ "]"

/-- The first loop: the positions of the required names, from position `i` on. -/
def scan : List String → Nat → List (String × Nat) → Outcome (List (String × Nat))
  | [], _, pos => .ok pos
  | name :: order, i, pos =>
    if name ∈ requiredBeginBlockOrder then
      match pos.lookup name with
      | some j => .error (.error
          s!"wiring: begin-blocker order lists {name.quote} twice (positions {j} and {i})")
      | none => scan order (i + 1) ((name, i) :: pos)
    else scan order (i + 1) pos

/-- The second loop: every required name has a position. -/
def checkPresent (pos : List (String × Nat)) : List String → Outcome PUnit
  | [] => .ok ⟨⟩
  | want :: rest => do
    failIf (pos.lookup want = none)
      (.error s!"wiring: begin-blocker order is missing {want.quote} (required: {requiredText})")
    checkPresent pos rest

/-- `pos[name]`, which is 0 for a name that is not there. -/
def at? (pos : List (String × Nat)) (name : String) : Nat := (pos.lookup name).getD 0

/-- The third loop: each required name stands before the next one. -/
def checkOrder (pos : List (String × Nat)) : List String → Outcome PUnit
  | prev :: cur :: rest => do
    failIf (at? pos cur ≤ at? pos prev)
      (.error (s!"wiring: begin-blocker order violation — {prev.quote} (position {at? pos prev}) "
        ++ s!"must run before {cur.quote} (position {at? pos cur}); required: {requiredText}"))
    checkOrder pos (cur :: rest)
  | _ => .ok ⟨⟩

/-- `ValidateBeginBlockOrder(order)`. -/
def validateBeginBlockOrder (order : List String) : Outcome PUnit := do
  let pos ← scan order 0 []
  checkPresent pos requiredBeginBlockOrder
  checkOrder pos requiredBeginBlockOrder

/-- The money modules stand once each, in the required order. -/
def Ordered (order : List String) : Prop :=
  ∃ f s t d : Nat, f < s ∧ s < t ∧ t < d ∧ (∀ j : Nat, order[j]? = some FeeSplit.moduleName ↔ j = f) ∧
    (∀ j : Nat, order[j]? = some RewardStreamer.moduleName ↔ j = s) ∧
    (∀ j : Nat, order[j]? = some TailReward.moduleName ↔ j = t) ∧
    (∀ j : Nat, order[j]? = some distributionName ↔ j = d)

/-! ### The scan -/

/-- The inner loop, over the required names: one that is not `name` is passed over. -/
def mark (name : String) (i : Nat) :
    List String → List (String × Nat) → Outcome (List (String × Nat))
  | [], pos => .ok pos
  | want :: wants, pos =>
    if name ≠ want then mark name i wants pos
    else
      match pos.lookup name with
      | some j => .error (.error
          s!"wiring: begin-blocker order lists {name.quote} twice (positions {j} and {i})")
      | none => mark name i wants ((name, i) :: pos)

theorem mark_of_not_mem {name : String} {i : Nat} {pos : List (String × Nat)} :
    ∀ {wants : List String}, name ∉ wants → mark name i wants pos = .ok pos
  | [], _ => rfl
  | want :: wants, h => by
    obtain ⟨hne, hrest⟩ := not_or.mp (List.mem_cons.not.mp h)
    rw [mark, if_pos hne, mark_of_not_mem hrest]

/-- Among distinct names a name is met once. -/
theorem mark_of_mem {name : String} {i : Nat} {pos : List (String × Nat)} :
    ∀ {wants : List String}, wants.Nodup → name ∈ wants →
      mark name i wants pos =
        match pos.lookup name with
        | some j => .error (.error
            s!"wiring: begin-blocker order lists {name.quote} twice (positions {j} and {i})")
        | none => .ok ((name, i) :: pos)
  | want :: wants, hnodup, h => by
    obtain ⟨hwant, hnodup⟩ := List.nodup_cons.mp hnodup
    by_cases hne : name = want
    · subst hne
      rw [mark, if_neg (not_not_intro rfl)]
      cases pos.lookup name with
      | some j => rfl
      | none => exact mark_of_not_mem hwant
    · rw [mark, if_pos hne]
      exact mark_of_mem hnodup ((List.mem_cons.mp h).resolve_left hne)

/-- **The scan is the nested loops of the source.** -/
theorem scan_cons (name : String) (order : List String) (i : Nat) (pos : List (String × Nat)) :
    scan (name :: order) i pos =
      mark name i requiredBeginBlockOrder pos >>= fun pos => scan order (i + 1) pos := by
  by_cases h : name ∈ requiredBeginBlockOrder
  · rw [scan, if_pos h, mark_of_mem (by decide) h]
    cases pos.lookup name with
    | some j => rfl
    | none => rfl
  · rw [scan, if_neg h, mark_of_not_mem h]
    rfl

/-- The names the scan looks for. -/
def isRequired (name : String) : Bool := decide (name ∈ requiredBeginBlockOrder)

/-- **The scan, exactly.**  It goes through when no required name comes twice or was seen before, and
    then it has recorded where each stands. -/
theorem scan_eq_ok {order : List String} {i : Nat} {pos res : List (String × Nat)} :
    scan order i pos = .ok res ↔
      (order.filter isRequired).Nodup ∧
        (∀ name ∈ order.filter isRequired, pos.lookup name = none) ∧
        res = (placed isRequired order i).reverse ++ pos := by
  induction order generalizing i pos with
  | nil =>
    rw [scan, Except.ok.injEq]
    simp [eq_comm (a := pos)]
  | cons x order ih =>
    by_cases hx : x ∈ requiredBeginBlockOrder
    · have hpick : isRequired x = true := decide_eq_true hx
      rw [scan, if_pos hx, List.filter_cons_of_pos hpick, placed_cons_of_pos hpick,
        List.nodup_cons, List.forall_mem_cons, List.reverse_cons, List.append_assoc]
      cases hseen : pos.lookup x with
      | some j => simp
      | none =>
        -- what must not have been seen now includes `x`
        have hfresh : ∀ name, ((x, i) :: pos).lookup name = none ↔
            name ≠ x ∧ pos.lookup name = none := by
          intro name
          rw [List.lookup_cons]
          by_cases hname : name = x
          · simp [hname]
          · simp [hname, beq_false_of_ne hname]
        have hnotMem : x ∉ order.filter isRequired ↔ ∀ name ∈ order.filter isRequired, name ≠ x :=
          ⟨fun h name hmem heq => h (heq ▸ hmem), fun h hmem => h x hmem rfl⟩
        simp only [ih, hfresh, hnotMem, true_and]
        constructor
        · rintro ⟨hnodup, hnew, hres⟩
          exact ⟨⟨fun name h => (hnew name h).1, hnodup⟩, fun name h => (hnew name h).2, hres⟩
        · rintro ⟨⟨hne, hnodup⟩, hnew, hres⟩
          exact ⟨hnodup, fun name h => ⟨hne name h, hnew name h⟩, hres⟩
    · have hskip : ¬ isRequired x = true := by
        rw [isRequired, decide_eq_true_eq]
        exact hx
      rw [scan, if_neg hx, List.filter_cons_of_neg hskip, placed_cons_of_neg hskip]
      exact ih

/-! ### The two passes over the required names -/

theorem checkPresent_eq_ok {pos : List (String × Nat)} {names : List String} {x : PUnit} :
    checkPresent pos names = .ok x ↔ ∀ name ∈ names, pos.lookup name ≠ none := by
  induction names with
  | nil => simp [checkPresent]
  | cons want rest ih => simp [checkPresent, ih]

/-- Each name before the next one is each name before every later one. -/
theorem checkOrder_eq_ok {pos : List (String × Nat)} {x : PUnit} : ∀ {names : List String},
    checkOrder pos names = .ok x ↔ names.Pairwise fun a b => at? pos a < at? pos b
  | [] => by simp [checkOrder]
  | [_] => by simp [checkOrder]
  | prev :: cur :: rest => by
    have hrest : checkOrder pos (cur :: rest) = .ok x ↔
        (cur :: rest).Pairwise fun a b => at? pos a < at? pos b := checkOrder_eq_ok
    rw [checkOrder, bind_eq_ok]
    simp only [failIf_eq_ok, not_le, hrest]
    rw [List.pairwise_cons (a := prev), List.forall_mem_cons]
    constructor
    · rintro ⟨-, hlt, hpairs⟩
      refine ⟨⟨hlt, fun name hname => ?_⟩, hpairs⟩
      exact hlt.trans (List.rel_of_pairwise_cons hpairs hname)
    · rintro ⟨⟨hlt, -⟩, hpairs⟩
      exact ⟨⟨⟩, hlt, hpairs⟩

/-- The positions recorded over a whole list. -/
def positions (order : List String) : List (String × Nat) := (placed isRequired order 0).reverse

theorem lookup_positions {order : List String} {name : String} {j : Nat}
    (hnodup : (order.filter isRequired).Nodup) (hname : name ∈ requiredBeginBlockOrder) :
    (positions order).lookup name = some j ↔ order[j]? = some name := by
  rw [positions, lookup_placed hnodup]
  exact and_iff_left (decide_eq_true hname)

/-- **What the check demands**, in terms of the projection to the required names. -/
theorem validateBeginBlockOrder_eq_ok {order : List String} {x : PUnit} :
    validateBeginBlockOrder order = .ok x ↔
      (order.filter isRequired).Nodup ∧ (∀ name ∈ requiredBeginBlockOrder, name ∈ order) ∧
        requiredBeginBlockOrder.Pairwise
          fun a b => at? (positions order) a < at? (positions order) b := by
  have hscan : ∀ {res : List (String × Nat)},
      scan order 0 [] = .ok res ↔ (order.filter isRequired).Nodup ∧ res = positions order := by
    intro res
    simp [scan_eq_ok, positions]
  have hpresent : (order.filter isRequired).Nodup → ∀ name ∈ requiredBeginBlockOrder,
      ((positions order).lookup name ≠ none ↔ name ∈ order) := by
    intro hnodup name hname
    rw [Option.ne_none_iff_exists', List.mem_iff_getElem?]
    exact exists_congr fun j => lookup_positions hnodup hname
  rw [validateBeginBlockOrder, bind_eq_ok]
  simp only [hscan, bind_eq_ok, checkPresent_eq_ok, checkOrder_eq_ok]
  constructor
  · rintro ⟨_, ⟨hnodup, rfl⟩, -, hall, hpairs⟩
    exact ⟨hnodup, fun name hname => (hpresent hnodup name hname).mp (hall name hname), hpairs⟩
  · rintro ⟨hnodup, hall, hpairs⟩
    exact ⟨_, ⟨hnodup, rfl⟩, ⟨⟩,
      fun name hname => (hpresent hnodup name hname).mpr (hall name hname), hpairs⟩

/-- **The check accepts the right orders, and only those**: the list without the names that are not
    required is the required order. -/
theorem validateBeginBlockOrder_iff (order : List String) :
    validateBeginBlockOrder order = .ok ⟨⟩ ↔
      order.filter (fun name => decide (name ∈ requiredBeginBlockOrder)) =
        requiredBeginBlockOrder := by
  change _ ↔ order.filter isRequired = requiredBeginBlockOrder
  have hproject (hnodup : (order.filter isRequired).Nodup) :
      order.filter isRequired = requiredBeginBlockOrder ↔
        (∀ name ∈ requiredBeginBlockOrder, name ∈ order) ∧
          requiredBeginBlockOrder.Pairwise
            fun a b => at? (positions order) a < at? (positions order) b := by
    refine filter_eq_iff (fun _ => decide_eq_true_iff) ?_
    intro name j hj hname
    have hlookup := (lookup_positions hnodup (of_decide_eq_true hname)).mpr hj
    rw [at?, hlookup, Option.getD_some]
  rw [validateBeginBlockOrder_eq_ok]
  constructor
  · rintro ⟨hnodup, horder⟩
    exact (hproject hnodup).mpr horder
  · intro h
    have hnodup : (order.filter isRequired).Nodup := by
      rw [h]
      decide
    exact ⟨hnodup, (hproject hnodup).mp h⟩

/-- The order the app resolves, other modules before and after. -/
example : validateBeginBlockOrder ["mint", "ibc", "transfer", "erc20", "feemarket", "evm", "feesplit",
    "rewardstreamer", "tailreward", "distribution", "slashing", "evidence", "staking", "auth", "bank",
    "gov"] = .ok ⟨⟩ := by decide

/-- **What the app has checked when it boots.** -/
theorem validateBeginBlockOrder_ordered {order : List String} {x : PUnit}
    (h : validateBeginBlockOrder order = .ok x) : Ordered order := by
  obtain ⟨hnodup, hall, hpairs⟩ := validateBeginBlockOrder_eq_ok.mp h
  have hplace : ∀ name ∈ requiredBeginBlockOrder,
      ∀ j : Nat, order[j]? = some name ↔ j = at? (positions order) name := by
    intro name hname j
    obtain ⟨k, hk⟩ := List.mem_iff_getElem?.mp (hall name hname)
    have hlookup := (lookup_positions hnodup hname).mpr hk
    rw [← lookup_positions hnodup hname, at?, hlookup, Option.getD_some, Option.some.injEq, eq_comm]
  obtain ⟨hf, hpairs⟩ := List.pairwise_cons.mp hpairs
  obtain ⟨hs, hpairs⟩ := List.pairwise_cons.mp hpairs
  obtain ⟨ht, -⟩ := List.pairwise_cons.mp hpairs
  have hfs := hf _ List.mem_cons_self
  have hst := hs _ List.mem_cons_self
  have htd := ht _ List.mem_cons_self
  refine ⟨_, _, _, _, hfs, hst, htd, ?_, ?_, ?_, ?_⟩
  · exact hplace _ (by decide)
  · exact hplace _ (by decide)
  · exact hplace _ (by decide)
  · exact hplace _ (by decide)

/-- In an ordered list, what stands before and after each money module. -/
theorem Ordered.split {order before after : List String} {name : String} (h : Ordered order)
    (hsplit : order = before ++ name :: after) :
    (name = FeeSplit.moduleName → FeeSplit.moduleName ∉ after ∧ distributionName ∈ after) ∧
      (name = RewardStreamer.moduleName ∨ name = TailReward.moduleName →
        FeeSplit.moduleName ∉ after ∧ distributionName ∈ after) ∧
      (name = distributionName → FeeSplit.moduleName ∉ after ∧ distributionName ∉ after) ∧
      (FeeSplit.moduleName ∈ order ∧ distributionName ∈ order) := by
  obtain ⟨f, s, t, d, hfs, hst, htd, hf, hs, ht, hd⟩ := h
  subst hsplit
  have hat : (before ++ name :: after)[before.length]? = some name := by simp
  -- a name with one position is after `name` exactly when its position is
  have hafter : ∀ {x : String} {k : Nat},
      (∀ j : Nat, (before ++ name :: after)[j]? = some x ↔ j = k) →
        (x ∈ after ↔ before.length < k) := by
    intro x k hx
    constructor
    · intro hmem
      obtain ⟨m, hm, hget⟩ := List.mem_iff_getElem.mp hmem
      have hj : (before ++ name :: after)[before.length + 1 + m]? = some x := by
        rw [List.getElem?_append_right (by omega)]
        have hsub : before.length + 1 + m - before.length = m + 1 := by omega
        rw [hsub, List.getElem?_cons_succ, List.getElem?_eq_getElem hm, hget]
      have := (hx _).mp hj
      omega
    · intro hlt
      have hk := (hx k).mpr rfl
      rw [List.getElem?_append_right (by omega)] at hk
      obtain ⟨m, hm⟩ : ∃ m, k - before.length = m + 1 := ⟨k - before.length - 1, by omega⟩
      rw [hm, List.getElem?_cons_succ] at hk
      exact List.mem_of_getElem? hk
  refine ⟨?_, ?_, ?_, List.mem_of_getElem? ((hf f).mpr rfl), List.mem_of_getElem? ((hd d).mpr rfl)⟩
  · rintro rfl
    have hpos := (hf _).mp hat
    rw [hafter hf, hafter hd]
    omega
  · rintro (rfl | rfl)
    · have hpos := (hs _).mp hat
      rw [hafter hf, hafter hd]
      omega
    · have hpos := (ht _).mp hat
      rw [hafter hf, hafter hd]
      omega
  · rintro rfl
    have hpos := (hd _).mp hat
    rw [hafter hf, hafter hd]
    omega

end Wiring

/-! ## The bank of the staking module -/

namespace SlashFunds

/-- `stakingtypes.BondedPoolName`. -/
def bondedPoolName : String := "bonded_tokens_pool"

/-- `stakingtypes.NotBondedPoolName`. -/
def notBondedPoolName : String := "not_bonded_tokens_pool"

/-- The pools a slash burns from. -/
def IsStakingPool (moduleName : String) : Prop :=
  moduleName = bondedPoolName ∨ moduleName = notBondedPoolName

instance : DecidablePred IsStakingPool :=
  fun moduleName => inferInstanceAs (Decidable (moduleName = _ ∨ moduleName = _))

/-- `k.BurnCoins(ctx, moduleName, amt)`, wired to the faucet account of the fee split. -/
def burnCoins (bank : Bank) (moduleName : String) (amt : Coins) (fault : Option Fault) :
    Outcome Bank :=
  if IsStakingPool moduleName then
    bank.send fault (.module moduleName) (.module FeeSplit.defaultFaucetAccount) amt
  else bank.burn fault (.module moduleName) amt

end SlashFunds
end Gemba.Rewards
