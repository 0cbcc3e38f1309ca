/-
  A list projected to some of its elements, and the positions they stand at.

  `placed q l i` are the elements of `l` that `q` picks, with their positions; `l.filter q` is what is
  left when the positions are forgotten (`map_fst_placed`).  A reader that keeps positions only, in an
  association list, can look up each one (`lookup_placed`) as long as no element is picked twice.

  The positions increase along the list.  So if each picked element has one position, the projection is
  a sequence in increasing order of it, and there is only one such sequence of given elements: the
  projection is `r` exactly when the elements of `r` are all there and their positions increase along `r`
  (`filter_eq_iff`).
-/
import Mathlib.Data.List.Nodup

namespace Gemba.Lib

universe u v

variable {α : Type u} {β : Type v} {q : α → Bool} {a : α} {l r : List α} {i j : Nat}

/-- The elements of `l` that `q` picks, with their positions; the first of `l` stands at `i`. -/
def placed (q : α → Bool) (l : List α) (i : Nat) : List (α × Nat) :=
  (l.zipIdx i).filter fun x => q x.1

@[simp] theorem placed_nil (q : α → Bool) (i : Nat) : placed q [] i = [] := rfl

theorem placed_cons_of_pos (h : q a = true) : placed q (a :: l) i = (a, i) :: placed q l (i + 1) :=
  List.filter_cons_of_pos h

theorem placed_cons_of_neg (h : ¬ q a = true) : placed q (a :: l) i = placed q l (i + 1) :=
  List.filter_cons_of_neg h

/-- Without the positions it is the projection. -/
@[simp] theorem map_fst_placed (q : α → Bool) (l : List α) (i : Nat) :
    (placed q l i).map Prod.fst = l.filter q := by
  rw [placed, ← List.zipIdx_map_fst i l, List.filter_map, List.zipIdx_map_fst]
  rfl

theorem mem_placed : (a, j) ∈ placed q l 0 ↔ l[j]? = some a ∧ q a = true := by
  rw [placed, List.mem_filter, List.mk_mem_zipIdx_iff_getElem?]

/-- The positions increase. -/
theorem pairwise_placed (q : α → Bool) (l : List α) (i : Nat) :
    (placed q l i).Pairwise fun x y => x.2 < y.2 := by
  have hpositions : (l.zipIdx i).Pairwise fun x y => x.2 < y.2 := by
    rw [← List.pairwise_map, List.zipIdx_map_snd]
    exact List.pairwise_lt_range'
  exact hpositions.filter _

/-- With distinct keys, looking up is membership. -/
theorem lookup_eq_some_iff_mem [BEq α] [LawfulBEq α] {kvs : List (α × β)} {b : β}
    (h : (kvs.map Prod.fst).Nodup) : kvs.lookup a = some b ↔ (a, b) ∈ kvs := by
  induction kvs with
  | nil => simp
  | cons kv kvs ih =>
    obtain ⟨k, v⟩ := kv
    obtain ⟨hk, hnodup⟩ := List.nodup_cons.mp h
    rw [List.lookup_cons, List.mem_cons]
    by_cases ha : a = k
    · subst ha
      rw [beq_self_eq_true]
      constructor
      · intro hb
        injection hb with hb
        exact .inl (by rw [hb])
      · rintro (heq | hmem)
        · rw [(Prod.mk.inj heq).2]
        · exact absurd (List.mem_map_of_mem hmem) hk
    · rw [beq_false_of_ne ha]
      refine (ih hnodup).trans ⟨.inr, ?_⟩
      rintro (heq | hmem)
      · exact absurd (Prod.mk.inj heq).1 ha
      · exact hmem

/-- **Looking up a position.** -/
theorem lookup_placed [BEq α] [LawfulBEq α] (h : (l.filter q).Nodup) :
    (placed q l 0).reverse.lookup a = some j ↔ l[j]? = some a ∧ q a = true := by
  have hkeys : ((placed q l 0).reverse.map Prod.fst).Nodup := by
    rw [List.map_reverse, map_fst_placed]
    exact List.nodup_reverse.mpr h
  rw [lookup_eq_some_iff_mem hkeys, List.mem_reverse, mem_placed]

/-- The projection is in the order of the positions, if each picked element has one. -/
theorem pairwise_filter {place : α → Nat}
    (hplace : ∀ a j, l[j]? = some a → q a = true → place a = j) :
    (l.filter q).Pairwise fun a b => place a < place b := by
  rw [← map_fst_placed q l 0, List.pairwise_map]
  refine (pairwise_placed q l 0).imp_of_mem ?_
  intro x y hx hy hlt
  obtain ⟨hxl, hxq⟩ := mem_placed.mp hx
  obtain ⟨hyl, hyq⟩ := mem_placed.mp hy
  rw [hplace _ _ hxl hxq, hplace _ _ hyl hyq]
  exact hlt

/-- **The projection to the elements of `r` is `r`** exactly when they are all there and stand in this
    order. -/
theorem filter_eq_iff {place : α → Nat} (hq : ∀ a, q a = true ↔ a ∈ r)
    (hplace : ∀ a j, l[j]? = some a → q a = true → place a = j) :
    l.filter q = r ↔ (∀ a ∈ r, a ∈ l) ∧ r.Pairwise fun a b => place a < place b := by
  have hsorted := pairwise_filter hplace
  have hne : ∀ {a b : α}, place a < place b → a ≠ b := by
    rintro a b hlt rfl
    exact Nat.lt_irrefl _ hlt
  constructor
  · intro heq
    rw [heq] at hsorted
    refine ⟨fun a ha => ?_, hsorted⟩
    rw [← heq] at ha
    exact List.mem_of_mem_filter ha
  · rintro ⟨hmem, hr⟩
    -- the same elements, both times without repetition
    have hperm : (l.filter q).Perm r := by
      rw [List.perm_ext_iff_of_nodup (hsorted.imp hne) (hr.imp hne)]
      intro a
      rw [List.mem_filter, hq]
      exact ⟨And.right, fun ha => ⟨hmem a ha, ha⟩⟩
    refine hperm.eq_of_pairwise ?_ hsorted hr
    intro a b _ _ hab hba
    exact absurd hba (Nat.lt_asymm hab)

end Gemba.Lib
