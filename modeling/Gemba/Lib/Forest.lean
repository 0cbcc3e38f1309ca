/-
  Forests whose nodes only group, walked to a bounded depth.

  A walk visits the leaves from left to right and hands on a state.  It stops at a node nested deeper
  than a limit, at a node that cannot be opened, and where a visit fails.

  What a walk meets, obstacles included, is a list (`Obstacles.meets`), and the walk is a run over that
  list (`Walker.walkAll_eq_runM`).  If the way is clear, the list is that of the leaves
  (`Obstacles.meets_of_clear`), so how the leaves are grouped does not matter; otherwise it is some
  first leaves and then an obstacle (`Obstacles.meets_of_not_clear`).
-/
import Gemba.Lib.Runs

namespace Gemba.Lib

universe u v

/-- A leaf, a node, or a node that cannot be opened. -/
inductive Tree (ε α : Type u) where
  | leaf (a : α)
  | node (children : List (Tree ε α))
  | broken (e : ε)

section
variable {ε α : Type u}

mutual

/-- The leaves, from left to right. -/
def Tree.leaves : Tree ε α → List α
  | .leaf a => [a]
  | .node ts => leavesOf ts
  | .broken _ => []

def leavesOf : List (Tree ε α) → List α
  | [] => []
  | t :: ts => t.leaves ++ leavesOf ts

end

mutual

/-- How deep the nodes are nested. -/
def Tree.height : Tree ε α → Nat
  | .leaf _ => 0
  | .node ts => heightOf ts + 1
  | .broken _ => 1

def heightOf : List (Tree ε α) → Nat
  | [] => 0
  | t :: ts => max t.height (heightOf ts)

end

mutual

/-- Every node can be opened. -/
def Tree.intact : Tree ε α → Bool
  | .leaf _ => true
  | .node ts => intactAll ts
  | .broken _ => false

def intactAll : List (Tree ε α) → Bool
  | [] => true
  | t :: ts => t.intact && intactAll ts

end

theorem leavesOf_append (ts us : List (Tree ε α)) :
    leavesOf (ts ++ us) = leavesOf ts ++ leavesOf us := by
  induction ts with
  | nil => rfl
  | cons t ts ih => rw [List.cons_append, leavesOf, leavesOf, ih, List.append_assoc]

theorem intactAll_append (ts us : List (Tree ε α)) :
    intactAll (ts ++ us) = (intactAll ts && intactAll us) := by
  induction ts with
  | nil => rfl
  | cons t ts ih => rw [List.cons_append, intactAll, intactAll, ih, Bool.and_assoc]

end

/-- How deep a walk may go, and the errors it stops with. -/
structure Obstacles (ε : Type u) (φ : Type v) where
  limit : Nat
  tooDeep : φ
  cannotOpen : ε → φ

section
variable {ε α : Type u} {φ : Type v} (O : Obstacles ε φ)

mutual

/-- What a walk that never stops would meet: leaves, and obstacles. -/
def Obstacles.meet (depth : Nat) : Tree ε α → List (φ ⊕ α)
  | .leaf a => [.inr a]
  | .node ts => if O.limit < depth + 1 then [.inl O.tooDeep] else Obstacles.meets (depth + 1) ts
  | .broken e => [.inl (O.cannotOpen e)]

def Obstacles.meets (depth : Nat) : List (Tree ε α) → List (φ ⊕ α)
  | [] => []
  | t :: ts => Obstacles.meet depth t ++ Obstacles.meets depth ts

end

/-- Nothing is in the way of a walk at `depth`. -/
def Obstacles.Clear (depth : Nat) (ts : List (Tree ε α)) : Prop :=
  intactAll ts = true ∧ depth + heightOf ts ≤ O.limit

variable {O} {depth : Nat} {ts : List (Tree ε α)}

mutual

theorem Obstacles.obstacle_of_mem_meet {e : φ} : ∀ {depth : Nat} {t : Tree ε α},
    Sum.inl e ∈ O.meet depth t → e = O.tooDeep ∨ ∃ x, e = O.cannotOpen x
  | _, .leaf a, h => nomatch List.mem_singleton.mp h
  | depth, .node ts, h => by
    rw [Obstacles.meet] at h
    split at h
    · injection List.mem_singleton.mp h with h
      exact .inl h
    · exact Obstacles.obstacle_of_mem h
  | _, .broken x, h => by
    injection List.mem_singleton.mp h with h
    exact .inr ⟨x, h⟩

/-- There are only these two obstacles. -/
theorem Obstacles.obstacle_of_mem {e : φ} : ∀ {depth : Nat} {ts : List (Tree ε α)},
    Sum.inl e ∈ O.meets depth ts → e = O.tooDeep ∨ ∃ x, e = O.cannotOpen x
  | _, [], h => absurd h List.not_mem_nil
  | _, t :: ts, h => by
    rcases List.mem_append.mp h with h | h
    · exact Obstacles.obstacle_of_mem_meet h
    · exact Obstacles.obstacle_of_mem h

end

/-! ## A clear way -/

theorem Obstacles.clear_cons {t : Tree ε α} :
    O.Clear depth (t :: ts) ↔
      (t.intact = true ∧ depth + t.height ≤ O.limit) ∧ O.Clear depth ts := by
  unfold Obstacles.Clear
  rw [intactAll, heightOf, Bool.and_eq_true]
  constructor
  · rintro ⟨⟨ht, hts⟩, hle⟩
    exact ⟨⟨ht, by omega⟩, hts, by omega⟩
  · rintro ⟨⟨ht, hle⟩, hts, hle'⟩
    exact ⟨⟨ht, hts⟩, by omega⟩

mutual

theorem Obstacles.meet_of_clear : ∀ {depth : Nat} {t : Tree ε α},
    t.intact = true → depth + t.height ≤ O.limit → O.meet depth t = t.leaves.map Sum.inr
  | _, .leaf a, _, _ => rfl
  | depth, .node ts, hintact, hle => by
    have hheight : (Tree.node ts).height = heightOf ts + 1 := rfl
    rw [Obstacles.meet, if_neg (by omega), Tree.leaves]
    exact Obstacles.meets_of_clear ⟨hintact, by omega⟩
  | _, .broken e, hintact, _ => nomatch hintact

/-- **A walk with a clear way meets the leaves.** -/
theorem Obstacles.meets_of_clear : ∀ {depth : Nat} {ts : List (Tree ε α)}, O.Clear depth ts →
    O.meets depth ts = (leavesOf ts).map Sum.inr
  | _, [], _ => rfl
  | _, t :: ts, h => by
    obtain ⟨⟨hintact, hle⟩, hts⟩ := Obstacles.clear_cons.mp h
    rw [Obstacles.meets, leavesOf, List.map_append, Obstacles.meet_of_clear hintact hle,
      Obstacles.meets_of_clear hts]

end

/-! ## An obstacle -/

/-- Some of the first leaves, and then an obstacle. -/
def Obstacles.Blocked (O : Obstacles ε φ) (leaves : List α) (met : List (φ ⊕ α)) : Prop :=
  ∃ pre e post, met = pre.map Sum.inr ++ Sum.inl e :: post ∧ pre <+: leaves ∧
    (e = O.tooDeep ∨ ∃ x, e = O.cannotOpen x)

theorem Obstacles.Blocked.append_right {leaves more : List α} {met rest : List (φ ⊕ α)}
    (h : O.Blocked leaves met) : O.Blocked (leaves ++ more) (met ++ rest) := by
  obtain ⟨pre, e, post, rfl, hpre, he⟩ := h
  refine ⟨pre, e, post ++ rest, ?_, hpre.trans (List.prefix_append _ _), he⟩
  rw [List.append_assoc, List.cons_append]

theorem Obstacles.Blocked.append_left {leaves : List α} {met : List (φ ⊕ α)} (first : List α)
    (h : O.Blocked leaves met) : O.Blocked (first ++ leaves) (first.map Sum.inr ++ met) := by
  obtain ⟨pre, e, post, rfl, hpre, he⟩ := h
  refine ⟨first ++ pre, e, post, ?_, (List.prefix_append_right_inj first).mpr hpre, he⟩
  rw [List.map_append, List.append_assoc]

mutual

theorem Obstacles.meet_of_not_clear : ∀ {depth : Nat} {t : Tree ε α}, depth ≤ O.limit →
    ¬ (t.intact = true ∧ depth + t.height ≤ O.limit) → O.Blocked t.leaves (O.meet depth t)
  | _, .leaf a, hdepth, h => absurd ⟨rfl, hdepth⟩ h
  | depth, .node ts, hdepth, h => by
    rw [Obstacles.meet, Tree.leaves]
    split
    · exact ⟨[], _, [], rfl, List.nil_prefix, .inl rfl⟩
    · rename_i hlimit
      have hheight : (Tree.node ts).height = heightOf ts + 1 := rfl
      refine Obstacles.meets_of_not_clear (Nat.not_lt.mp hlimit) fun hclear => h ⟨hclear.1, ?_⟩
      have := hclear.2
      omega
  | _, .broken e, _, _ => ⟨[], _, [], rfl, List.nil_prefix, .inr ⟨e, rfl⟩⟩

/-- **A walk whose way is not clear** meets some first leaves and then an obstacle. -/
theorem Obstacles.meets_of_not_clear : ∀ {depth : Nat} {ts : List (Tree ε α)}, depth ≤ O.limit →
    ¬ O.Clear depth ts → O.Blocked (leavesOf ts) (O.meets depth ts)
  | _, [], hdepth, h => absurd ⟨rfl, hdepth⟩ h
  | depth, t :: ts, hdepth, h => by
    rw [Obstacles.meets, leavesOf]
    -- the obstacle is in the first tree, or behind its leaves
    by_cases ht : t.intact = true ∧ depth + t.height ≤ O.limit
    · rw [Obstacles.meet_of_clear ht.1 ht.2]
      refine Obstacles.Blocked.append_left t.leaves (Obstacles.meets_of_not_clear hdepth fun hts => h ?_)
      exact Obstacles.clear_cons.mpr ⟨ht, hts⟩
    · exact (Obstacles.meet_of_not_clear hdepth ht).append_right

end

end

/-! ## Walks -/

/-- A walk: its obstacles, and what to do at a leaf. -/
structure Walker (ε α : Type u) (φ σ : Type v) extends Obstacles ε φ where
  visit : σ → α → Except φ σ

section
variable {ε α : Type u} {φ σ : Type v} (W : Walker ε α φ σ)

mutual

/-- Walk a tree at `depth`, from the state `s`. -/
def Walker.walk (depth : Nat) (s : σ) : Tree ε α → Except φ σ
  | .leaf a => W.visit s a
  | .node ts => if W.limit < depth + 1 then .error W.tooDeep else Walker.walkAll (depth + 1) s ts
  | .broken e => .error (W.cannotOpen e)

/-- Walk one tree after the other. -/
def Walker.walkAll (depth : Nat) (s : σ) : List (Tree ε α) → Except φ σ
  | [] => .ok s
  | t :: ts => do
    let s ← Walker.walk depth s t
    Walker.walkAll depth s ts

end

/-- An obstacle stops the walk, a leaf is visited. -/
def Walker.pass (s : σ) : φ ⊕ α → Except φ σ
  | .inl e => .error e
  | .inr a => W.visit s a

end

section
variable {ε α : Type u} {φ σ : Type v} {W : Walker ε α φ σ} {depth : Nat} {s : σ}
  {ts : List (Tree ε α)}

mutual

theorem Walker.walk_eq_runM (W : Walker ε α φ σ) (depth : Nat) (s : σ) :
    ∀ t : Tree ε α, W.walk depth s t = runM W.pass s (W.meet depth t)
  | .leaf a => by
    show W.visit s a = W.visit s a >>= fun t => .ok t
    cases W.visit s a with
    | error e => rfl
    | ok t => rfl
  | .node ts => by
    rw [Walker.walk, Obstacles.meet]
    split
    · rfl
    · exact Walker.walkAll_eq_runM W (depth + 1) s ts
  | .broken e => rfl

/-- **A walk is a run** over what it meets. -/
theorem Walker.walkAll_eq_runM (W : Walker ε α φ σ) (depth : Nat) (s : σ) :
    ∀ ts : List (Tree ε α), W.walkAll depth s ts = runM W.pass s (W.meets depth ts)
  | [] => rfl
  | t :: ts => by
    rw [Walker.walkAll, Obstacles.meets, runM_append, Walker.walk_eq_runM W depth s t]
    cases runM W.pass s (W.meet depth t) with
    | error e => rfl
    | ok s' => exact Walker.walkAll_eq_runM W depth s' ts

end

/-- Leaves are visited one after the other. -/
theorem Walker.runM_leaves (W : Walker ε α φ σ) (as : List α) (s : σ) :
    runM W.pass s (as.map Sum.inr) = runM W.visit s as := by
  induction as generalizing s with
  | nil => rfl
  | cons a as ih =>
    show W.visit s a >>= (fun t => runM W.pass t (as.map Sum.inr))
      = W.visit s a >>= fun t => runM W.visit t as
    cases W.visit s a with
    | error e => rfl
    | ok t => exact ih t

/-- How the leaves are grouped does not matter. -/
theorem Walker.walkAll_of_clear (h : W.Clear depth ts) :
    W.walkAll depth s ts = runM W.visit s (leavesOf ts) := by
  rw [Walker.walkAll_eq_runM, Obstacles.meets_of_clear h, Walker.runM_leaves]

/-- **A walk whose way is not clear fails**: at a leaf before the obstacle, or there. -/
theorem Walker.walkAll_of_not_clear (hdepth : depth ≤ W.limit) (h : ¬ W.Clear depth ts) :
    (∃ pre e, pre <+: leavesOf ts ∧ runM W.visit s pre = .error e ∧
        W.walkAll depth s ts = .error e) ∨
      W.walkAll depth s ts = .error W.tooDeep ∨ ∃ x, W.walkAll depth s ts = .error (W.cannotOpen x) := by
  obtain ⟨pre, e, post, hmeets, hpre, he⟩ := Obstacles.meets_of_not_clear hdepth h
  rw [Walker.walkAll_eq_runM, hmeets, runM_append, Walker.runM_leaves]
  -- a visit before the obstacle may fail first
  cases hrun : runM W.visit s pre with
  | error e' => exact .inl ⟨pre, e', hpre, hrun, rfl⟩
  | ok t =>
    rw [ok_bind]
    rcases he with rfl | ⟨x, rfl⟩
    · exact .inr (.inl rfl)
    · exact .inr (.inr ⟨x, rfl⟩)

end

end Gemba.Lib
