/-
  `watchValidators`: how many validators it takes to halt the chain.

  Of what the function does with the validators it fetched, this is the part that counts: the bonded
  ones, their total, and the Nakamoto coefficient, the least number of validators that have more than a
  third of the tokens together.  The code adds tokens up along a sorted copy of the list and stops at the
  first sum whose triple is above the total.

  Its comparator answers 1 or -1, never 0, so the order among validators with equal tokens is the
  engine's; `Sorted` says no more of a sorted copy than the comparator does, and `nakamoto_minimal`
  holds of each.
-/
import Mathlib.Algebra.Order.Ring.Int
import Gemba.Lib.Largest

namespace Gemba.Notifier

open Gemba.Lib

/-- A validator as `fetchAllValidators` returns it. -/
structure Validator where
  operator : String
  moniker : String
  tokens : Int
  jailed : Bool
  status : String
deriving DecidableEq, Repr

/-- `vals.filter((v) => !v.jailed && v.status === 'BOND_STATUS_BONDED')`. -/
def bonded (vals : List Validator) : List Validator :=
  vals.filter fun v => !v.jailed && v.status == "BOND_STATUS_BONDED"

/-- The tokens of some validators. -/
def tokensOf (vals : List Validator) : Int := (vals.map Validator.tokens).sum

/-- `totalBonded`. -/
def totalBonded (vals : List Validator) : Int := tokensOf (bonded vals)

/-- The comparator of the sort. -/
def compareTokens (a b : Validator) : Int := if b.tokens > a.tokens then 1 else -1

/-- A sorted copy: the same validators, none before one that the comparator puts first. -/
structure Sorted (vals sorted : List Validator) : Prop where
  perm : sorted.Perm vals
  ordered : sorted.Pairwise fun a b => compareTokens a b ≤ 0

/-- The loop that counts: `acc * 3n > totalBonded` ends it. -/
def nakamoto (total : Int) (sorted : List Validator) : Nat :=
  countUntil (fun acc => acc * 3 > total) Validator.tokens 0 sorted

/-- The `nakamoto-1` alert is raised. -/
def alertsNakamoto (total : Int) (sorted : List Validator) : Bool := nakamoto total sorted ≤ 1

section
variable {vals sorted : List Validator}

theorem Sorted.descending (h : Sorted vals sorted) : Descending Validator.tokens sorted := by
  refine h.ordered.imp fun {a b} hab => ?_
  unfold compareTokens at hab
  by_contra hlt
  rw [if_pos (not_le.mp hlt)] at hab
  exact absurd hab (by decide)

theorem Sorted.tokensOf_eq (h : Sorted vals sorted) : tokensOf sorted = tokensOf vals :=
  (h.perm.map Validator.tokens).sum_eq

/-- The loop counts the fewest validators of the sorted copy that pass a third. -/
theorem isLeast_nakamoto (hpos : 0 < totalBonded vals) (h : Sorted (bonded vals) sorted) :
    IsLeast {k | ∃ ys : List Validator, ys.Subperm sorted ∧ ys.length = k ∧
      tokensOf ys * 3 > totalBonded vals} (nakamoto (totalBonded vals) sorted) := by
  have hall : tokensOf sorted * 3 > totalBonded vals := by
    rw [h.tokensOf_eq]
    show totalBonded vals < totalBonded vals * 3
    omega
  have hup : ∀ s t : Int, s ≤ t → s * 3 > totalBonded vals → t * 3 > totalBonded vals := by
    intro s t hst hs
    omega
  exact isLeast_countUntil h.descending hup (by omega) hall

/-- **The coefficient is minimal**: it is the size of the smallest set of bonded validators with more
    than a third of the tokens, whichever sorted copy it is counted on. -/
theorem nakamoto_minimal (hpos : 0 < totalBonded vals) (h : Sorted (bonded vals) sorted) :
    IsLeast {k | ∃ some : List Validator, some.Sublist (bonded vals) ∧ some.length = k ∧
      totalBonded vals < 3 * tokensOf some} (nakamoto (totalBonded vals) sorted) := by
  obtain ⟨⟨ys, hys, hlen, hpass⟩, hleast⟩ := isLeast_nakamoto hpos h
  constructor
  · -- a selection from the sorted copy is one from the list, in another order
    obtain ⟨zs, hperm, hzs⟩ := hys.trans h.perm.subperm
    refine ⟨zs, hzs, hperm.length_eq.trans hlen, ?_⟩
    have htokens : tokensOf zs = tokensOf ys := (hperm.map Validator.tokens).sum_eq
    omega
  · rintro k ⟨ys, hys, rfl, hpass⟩
    have hsub : ys.Subperm sorted := hys.subperm.trans h.perm.symm.subperm
    exact hleast ⟨ys, hsub, rfl, by omega⟩

/-- The alert is raised exactly when one validator has more than a third by itself. -/
theorem alertsNakamoto_iff (hpos : 0 < totalBonded vals) (h : Sorted (bonded vals) sorted) :
    alertsNakamoto (totalBonded vals) sorted = true ↔
      ∃ v ∈ bonded vals, totalBonded vals < 3 * v.tokens := by
  obtain ⟨⟨ys, hys, hlen, hpass⟩, hleast⟩ := isLeast_nakamoto hpos h
  have hone : ∀ v, tokensOf [v] = v.tokens := fun v => List.sum_singleton
  rw [alertsNakamoto, decide_eq_true_iff]
  constructor
  · intro hle
    match ys, hys, hlen, hpass with
    | [], _, _, hpass =>
      have hnone : tokensOf [] = 0 := rfl
      omega
    | [v], hys, _, hpass =>
      rw [hone] at hpass
      exact ⟨v, h.perm.mem_iff.mp (hys.subset (List.mem_singleton_self v)), by omega⟩
    | _ :: _ :: _, _, hlen, _ =>
      rw [List.length_cons, List.length_cons] at hlen
      omega
  · rintro ⟨v, hv, hpass⟩
    have hsub : [v].Subperm sorted := List.singleton_subperm_iff.mpr (h.perm.mem_iff.mpr hv)
    exact hleast ⟨[v], hsub, rfl, by rw [hone]; omega⟩

end

/-- Four bonded validators with a tie, and one that is jailed. -/
def sampleValidators : List Validator :=
  [⟨"a", "", 20, false, "BOND_STATUS_BONDED"⟩, ⟨"b", "", 30, false, "BOND_STATUS_BONDED"⟩,
    ⟨"c", "", 90, true, "BOND_STATUS_UNBONDING"⟩, ⟨"d", "", 30, false, "BOND_STATUS_BONDED"⟩,
    ⟨"e", "", 20, false, "BOND_STATUS_BONDED"⟩]

theorem sorted_sample : Sorted (bonded sampleValidators)
    [⟨"d", "", 30, false, "BOND_STATUS_BONDED"⟩, ⟨"b", "", 30, false, "BOND_STATUS_BONDED"⟩,
      ⟨"a", "", 20, false, "BOND_STATUS_BONDED"⟩, ⟨"e", "", 20, false, "BOND_STATUS_BONDED"⟩] :=
  ⟨by decide, by decide⟩

/-- It takes two of them. -/
theorem nakamoto_minimal_sample :
    IsLeast {k | ∃ some : List Validator, some.Sublist (bonded sampleValidators) ∧ some.length = k ∧
      100 < 3 * tokensOf some} 2 :=
  nakamoto_minimal (by decide) sorted_sample

end Gemba.Notifier
