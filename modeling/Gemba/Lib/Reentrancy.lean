/-
  Contracts that call out, and what holds of them whatever is done to them meanwhile.

  A contract is two functions on its store: `enter` takes a message and either finishes it or stops
  at a call out, leaving what is left to do; `resume` goes on when the account it called has returned.
  Between the two anybody may call the contract again, so a `Machine` is the store with the stack of
  the frames that are open.  Each frame keeps the store as it was when it was opened: a `revert`
  throws the topmost frame away and puts that store back, which is all a reverted call leaves.  The
  frames of other accounts are on the stack too (`attempt`), since a caller may catch its own revert
  and undo calls of ours that had gone through.

  * `Contract.Keeps` and `Keeps.run` — an invariant of the store and of the calls that wait, kept by
    `enter`, `resume` and the steps of the world between transactions, holds in every run;
  * `Contract.Moves` and `Moves.run` — what only ever grows, as long as the open frames stay open;
  * `reverted` — a call that reverts leaves the machine as the call found it.
-/
import Gemba.Lib.Runs

namespace Gemba.Lib

universe u v

/-- A contract with store `σ`, messages `μ`, answers `ρ` to its calls out, what is left of a call
    that waits `κ`, and the steps `τ` of the world between transactions. -/
structure Contract (ε : Type u) (σ : Type v) (κ : Type v) (μ ρ τ : Type v) where
  /-- A message arrives: the call is over, or waits for a call of its own. -/
  enter : σ → μ → Except ε (σ × Option κ)
  /-- The account a call was waiting for returned. -/
  resume : σ → κ → ρ → Except ε (σ × Option κ)
  /-- The world moves while no transaction runs. -/
  between : σ → τ → Except ε σ

/-- An open frame: the store it found, and what is left of the contract's call, or nothing for the
    frame of another account. -/
structure Frame (σ κ : Type v) where
  before : σ
  waiting : Option κ
deriving DecidableEq

/-- The store and the open frames, the topmost first. -/
structure Machine (σ κ : Type v) where
  store : σ
  frames : List (Frame σ κ)
deriving DecidableEq

/-- A machine at rest is its store. -/
theorem Machine.at_rest {σ κ : Type v} {m : Machine σ κ} (h : m.frames = []) : m = ⟨m.store, []⟩ := by
  rw [← h]

/-- What can happen next. -/
inductive Event (μ ρ τ : Type v) where
  /-- A message to the contract. -/
  | call (message : μ)
  /-- The account the topmost call waits for returned. -/
  | answer (returned : ρ)
  /-- The topmost frame reverts. -/
  | revert
  /-- Another account opens a frame of its own. -/
  | attempt
  /-- Its frame ends well. -/
  | settle
  /-- The world moves between two transactions. -/
  | between (step : τ)
deriving DecidableEq

section
variable {ε : Type u} {σ κ μ ρ τ : Type v}

/-- What the open calls are still to do, the topmost first. -/
def pending (fs : List (Frame σ κ)) : List κ := fs.filterMap Frame.waiting

/-- One event. -/
def Contract.step [Inhabited ε] (c : Contract ε σ κ μ ρ τ) (m : Machine σ κ) :
    Event μ ρ τ → Except ε (Machine σ κ)
  | .call x => do
    let (s, k) ← c.enter m.store x
    match k with
    | none => .ok ⟨s, m.frames⟩
    | some k => .ok ⟨s, ⟨m.store, some k⟩ :: m.frames⟩
  | .answer r =>
    match m.frames with
    | ⟨before, some k⟩ :: fs => do
      let (s, k') ← c.resume m.store k r
      match k' with
      | none => .ok ⟨s, fs⟩
      | some k' => .ok ⟨s, ⟨before, some k'⟩ :: fs⟩
    | _ => .error default
  | .revert =>
    match m.frames with
    | f :: fs => .ok ⟨f.before, fs⟩
    | [] => .error default
  | .attempt => .ok ⟨m.store, ⟨m.store, none⟩ :: m.frames⟩
  | .settle =>
    match m.frames with
    | ⟨_, none⟩ :: fs => .ok ⟨m.store, fs⟩
    | _ => .error default
  | .between e =>
    match m.frames with
    | [] => do
      let s ← c.between m.store e
      .ok ⟨s, []⟩
    | _ :: _ => .error default

/-! ## What an event did -/

variable [Inhabited ε] {c : Contract ε σ κ μ ρ τ} {m m' : Machine σ κ}

/-- **One event, once and for all.**  A call goes through at once or waits on top of the stack; an
    answer is taken by the topmost call, which ends or waits again; a revert puts back what the
    topmost frame found; a frame of another account comes and goes without touching the store. -/
inductive Happened (c : Contract ε σ κ μ ρ τ) (m : Machine σ κ) :
    Event μ ρ τ → Machine σ κ → Prop where
  | call {x : μ} {s : σ} (h : c.enter m.store x = .ok (s, none)) :
      Happened c m (.call x) ⟨s, m.frames⟩
  | wait {x : μ} {s : σ} {k : κ} (h : c.enter m.store x = .ok (s, some k)) :
      Happened c m (.call x) ⟨s, ⟨m.store, some k⟩ :: m.frames⟩
  | done {r : ρ} {s before : σ} {k : κ} {fs : List (Frame σ κ)}
      (hm : m.frames = ⟨before, some k⟩ :: fs) (h : c.resume m.store k r = .ok (s, none)) :
      Happened c m (.answer r) ⟨s, fs⟩
  | again {r : ρ} {s before : σ} {k k' : κ} {fs : List (Frame σ κ)}
      (hm : m.frames = ⟨before, some k⟩ :: fs) (h : c.resume m.store k r = .ok (s, some k')) :
      Happened c m (.answer r) ⟨s, ⟨before, some k'⟩ :: fs⟩
  | revert {f : Frame σ κ} {fs : List (Frame σ κ)} (hm : m.frames = f :: fs) :
      Happened c m .revert ⟨f.before, fs⟩
  | attempt : Happened c m .attempt ⟨m.store, ⟨m.store, none⟩ :: m.frames⟩
  | settle {before : σ} {fs : List (Frame σ κ)} (hm : m.frames = ⟨before, none⟩ :: fs) :
      Happened c m .settle ⟨m.store, fs⟩
  | between {e : τ} {s : σ} (hm : m.frames = []) (h : c.between m.store e = .ok s) :
      Happened c m (.between e) ⟨s, []⟩

theorem Contract.step_happened {e : Event μ ρ τ} (h : c.step m e = .ok m') :
    Happened c m e m' := by
  obtain ⟨store, frames⟩ := m
  cases e with
  | call x =>
    obtain ⟨⟨s, k⟩, henter, h⟩ := bind_eq_ok.mp h
    cases k with
    | none =>
      injection h with h
      subst h
      exact .call henter
    | some k =>
      injection h with h
      subst h
      exact .wait henter
  | answer r =>
    rcases frames with _ | ⟨⟨before, _ | k⟩, fs⟩
    · nomatch h
    · nomatch h
    · obtain ⟨⟨s, k'⟩, hresume, h⟩ := bind_eq_ok.mp h
      cases k' with
      | none =>
        injection h with h
        subst h
        exact .done rfl hresume
      | some k' =>
        injection h with h
        subst h
        exact .again rfl hresume
  | revert =>
    cases frames with
    | nil => nomatch h
    | cons f fs =>
      injection h with h
      subst h
      exact .revert rfl
  | attempt =>
    injection h with h
    subst h
    exact .attempt
  | settle =>
    rcases frames with _ | ⟨⟨before, _ | k⟩, fs⟩
    · nomatch h
    · injection h with h
      subst h
      exact .settle rfl
    · nomatch h
  | between e =>
    cases frames with
    | nil =>
      obtain ⟨s, hbetween, h⟩ := bind_eq_ok.mp h
      injection h with h
      subst h
      exact .between rfl hbetween
    | cons f fs => nomatch h

/-- An answer after which no function of the contract goes on is no step: what called out can only
    revert. -/
theorem Contract.answer_refused {r : ρ} (h : ∀ s k x, c.resume s k r ≠ .ok x) :
    c.step m (.answer r) ≠ .ok m' := by
  intro hs
  cases Contract.step_happened hs with
  | done _ hresume => exact h _ _ _ hresume
  | again _ hresume => exact h _ _ _ hresume

/-! ## The invariant rule -/

/-- `I` of the store and the calls that wait, here and at every store a revert can go back to. -/
def Sound (I : List κ → σ → Prop) : List (Frame σ κ) → σ → Prop
  | [], s => I [] s
  | f :: fs, s => I (pending (f :: fs)) s ∧ Sound I fs f.before

theorem Sound.here {I : List κ → σ → Prop} {fs : List (Frame σ κ)} {s : σ} (h : Sound I fs s) :
    I (pending fs) s := by
  cases fs with
  | nil => exact h
  | cons f fs => exact h.1

/-- The store moved, and the frames stay as they are. -/
theorem Sound.move {I : List κ → σ → Prop} {fs : List (Frame σ κ)} {s s' : σ} (h : Sound I fs s)
    (hs : I (pending fs) s') : Sound I fs s' := by
  cases fs with
  | nil => exact hs
  | cons f fs => exact ⟨hs, h.2⟩

/-- The messages, where they arrive, and the steps of the world that a run is made of. -/
def Event.Among (A : σ → μ → Prop) (B : τ → Prop) (s : σ) : Event μ ρ τ → Prop
  | .call x => A s x
  | .between e => B e
  | _ => True

instance Event.Among.decidable (A : σ → μ → Prop) (B : τ → Prop) (s : σ) [DecidablePred (A s)]
    [DecidablePred B] : DecidablePred (Event.Among (ρ := ρ) A B s)
  | .call x => inferInstanceAs (Decidable (A s x))
  | .between e => inferInstanceAs (Decidable (B e))
  | .answer _ => .isTrue trivial
  | .revert => .isTrue trivial
  | .attempt => .isTrue trivial
  | .settle => .isTrue trivial

/-- `I` is kept by the contract: when a message enters, when a call goes on, and between
    transactions.  A call that waits is on top of those that waited before it. -/
structure Contract.Keeps (c : Contract ε σ κ μ ρ τ) (A : σ → μ → Prop) (B : τ → Prop)
    (I : List κ → σ → Prop) : Prop where
  enter : ∀ {ks s x s' k}, I ks s → A s x → c.enter s x = .ok (s', k) → I (k.toList ++ ks) s'
  resume : ∀ {ks s k r s' k'}, I (k :: ks) s → c.resume s k r = .ok (s', k') →
    I (k'.toList ++ ks) s'
  between : ∀ {s e s'}, I [] s → B e → c.between s e = .ok s' → I [] s'

variable {A : σ → μ → Prop} {B : τ → Prop} {I : List κ → σ → Prop}

/-- One event keeps a sound stack sound. -/
theorem Contract.Keeps.step (hc : c.Keeps A B I) {e : Event μ ρ τ} (hI : Sound I m.frames m.store)
    (he : e.Among A B m.store) (h : c.step m e = .ok m') : Sound I m'.frames m'.store := by
  cases Contract.step_happened h with
  | call henter => exact hI.move (hc.enter hI.here he henter)
  | wait henter => exact ⟨hc.enter hI.here he henter, hI⟩
  | done hm hresume =>
    rw [hm] at hI
    exact hI.2.move (hc.resume hI.1 hresume)
  | again hm hresume =>
    rw [hm] at hI
    exact ⟨hc.resume hI.1 hresume, hI.2⟩
  | revert hm =>
    rw [hm] at hI
    exact hI.2
  | attempt => exact ⟨hI.here, hI⟩
  | settle hm =>
    rw [hm] at hI
    exact hI.2.move hI.1
  | between hm hbetween =>
    rw [hm] at hI
    exact hc.between hI he hbetween

/-- **The invariant rule.**  What the contract keeps holds in every run that starts with no frame
    open, at the store it reached and for the calls that wait there. -/
theorem Contract.Keeps.run (hc : c.Keeps A B I) {s₀ : σ} {es : List (Event μ ρ τ)} (h0 : I [] s₀)
    (h : Run c.step (fun t e => e.Among A B t.store) ⟨s₀, []⟩ es m) :
    I (pending m.frames) m.store := by
  have hsound : Sound I m.frames m.store := by
    have hstep : ∀ (t : Machine σ κ) (e : Event μ ρ τ) u, Sound I t.frames t.store →
        e.Among A B t.store → c.step t e = .ok u → Sound I u.frames u.store :=
      fun t e u hI hP hs => hc.step hI hP hs
    exact Run.inv (fun m => Sound I m.frames m.store) (show Sound I [] s₀ from h0) hstep h
  exact hsound.here

/-- The same when anything may happen. -/
theorem Contract.Keeps.run_all (hc : c.Keeps (fun _ _ => True) (fun _ => True) I) {s₀ : σ}
    {P : Machine σ κ → Event μ ρ τ → Prop} {es : List (Event μ ρ τ)} (h0 : I [] s₀)
    (h : Run c.step P ⟨s₀, []⟩ es m) : I (pending m.frames) m.store :=
  hc.run h0 (h.mono fun _ e _ => by cases e <;> trivial)

/-! ## What never goes back -/

/-- `R` from one store to the next, by everything the contract does. -/
structure Contract.Moves (c : Contract ε σ κ μ ρ τ) (R : σ → σ → Prop) : Prop where
  enter : ∀ {s x s' k}, c.enter s x = .ok (s', k) → R s s'
  resume : ∀ {s k r s' k'}, c.resume s k r = .ok (s', k') → R s s'
  between : ∀ {s e s'}, c.between s e = .ok s' → R s s'

/-- **What never goes back.**  A relation that the contract moves along relates the store of a
    machine to every store it reaches while the frames that are open stay open: only a revert that
    closes one of them goes back further. -/
theorem Contract.Moves.run {R : σ → σ → Prop} (hc : c.Moves R) (hrefl : ∀ s, R s s)
    (htrans : ∀ {s t u}, R s t → R t u → R s u) {P : Machine σ κ → Event μ ρ τ → Prop}
    {es : List (Event μ ρ τ)} (hP : ∀ t e, P t e → m.frames.length ≤ t.frames.length)
    (h : Run c.step P m es m') (hopen : m.frames.length ≤ m'.frames.length) : R m.store m'.store := by
  have hall : m.frames.length ≤ m'.frames.length →
      R m.store m'.store ∧ ∃ gs fs, m'.frames = gs ++ fs ∧ fs.length = m.frames.length ∧
        ∀ g ∈ gs, R m.store g.before := by
    refine Run.inv (fun t => m.frames.length ≤ t.frames.length → R m.store t.store ∧
      ∃ gs fs, t.frames = gs ++ fs ∧ fs.length = m.frames.length ∧
        ∀ g ∈ gs, R m.store g.before) ?_ ?_ h
    · exact fun _ => ⟨hrefl _, [], m.frames, rfl, rfl, fun g hg => absurd hg List.not_mem_nil⟩
    · intro t e u hI hPt hs hu
      obtain ⟨hR, gs, fs, ht, hlen, hgs⟩ := hI (hP t e hPt)
      -- a frame that opens, above those the machine started with
      have hpush : ∀ f : Frame σ κ, f.before = t.store → ∃ gs fs, f :: t.frames = gs ++ fs ∧
          fs.length = m.frames.length ∧ ∀ g ∈ gs, R m.store g.before := by
        intro f hf
        refine ⟨f :: gs, fs, by rw [ht]; rfl, hlen, fun g hg => ?_⟩
        rcases List.mem_cons.mp hg with rfl | hg
        · rw [hf]
          exact hR
        · exact hgs g hg
      -- the topmost frame closes: it was above them too
      have hpop : ∀ {f gs'}, t.frames = f :: gs' → m.frames.length ≤ gs'.length →
          R m.store f.before ∧ ∃ gs fs, gs' = gs ++ fs ∧ fs.length = m.frames.length ∧
            ∀ g ∈ gs, R m.store g.before := by
        intro f gs' hf hle
        rw [hf] at ht
        cases gs with
        | nil =>
          have := congrArg List.length ht
          rw [List.nil_append, hlen, List.length_cons] at this
          omega
        | cons g gs =>
          obtain ⟨rfl, rfl⟩ := List.cons.inj ht
          exact ⟨hgs f List.mem_cons_self, gs, fs, rfl, hlen,
            fun g hg => hgs g (List.mem_cons_of_mem _ hg)⟩
      cases Contract.step_happened hs with
      | call henter => exact ⟨htrans hR (hc.enter henter), gs, fs, ht, hlen, hgs⟩
      | wait henter => exact ⟨htrans hR (hc.enter henter), hpush _ rfl⟩
      | done hn hresume => exact ⟨htrans hR (hc.resume hresume), (hpop hn hu).2⟩
      | again hn hresume =>
        refine ⟨htrans hR (hc.resume hresume), ?_⟩
        rw [hn] at ht
        cases gs with
        | nil =>
          refine ⟨[], _, rfl, ?_, fun g hg => absurd hg List.not_mem_nil⟩
          rw [← hlen, ← show _ = fs from ht, List.length_cons, List.length_cons]
        | cons g gs =>
          obtain ⟨rfl, rfl⟩ := List.cons.inj ht
          have hbefore := hgs _ List.mem_cons_self
          refine ⟨_ :: gs, fs, rfl, hlen, fun g hg => ?_⟩
          rcases List.mem_cons.mp hg with rfl | hg
          · exact hbefore
          · exact hgs g (List.mem_cons_of_mem _ hg)
      | revert hn => exact hpop hn hu
      | attempt => exact ⟨hR, hpush _ rfl⟩
      | settle hn => exact ⟨hR, (hpop hn hu).2⟩
      | between hn hbetween =>
        refine ⟨htrans hR (hc.between hbetween), [], [], rfl, ?_, fun g hg => absurd hg List.not_mem_nil⟩
        exact (Nat.le_zero.mp hu).symm
  exact (hall hopen).1

/-! ## A call that reverts -/

/-- While a frame stays open, the frames under it and the store it found stay what they are. -/
theorem Run.under {P : Machine σ κ → Event μ ρ τ → Prop} {f : Frame σ κ} {fs : List (Frame σ κ)}
    {es : List (Event μ ρ τ)} (hm : m.frames = f :: fs)
    (hP : ∀ t e, P t e → fs.length < t.frames.length) (h : Run c.step P m es m')
    (hopen : fs.length < m'.frames.length) :
    ∃ gs k, m'.frames = gs ++ ⟨f.before, k⟩ :: fs := by
  refine Run.inv (fun t => fs.length < t.frames.length →
    ∃ gs k, t.frames = gs ++ ⟨f.before, k⟩ :: fs) ?_ ?_ h hopen
  · exact fun _ => ⟨[], f.waiting, hm⟩
  · intro t e u hI hPt hs hu
    obtain ⟨gs, k, ht⟩ := hI (hP t e hPt)
    cases Contract.step_happened hs with
    | call _ => exact ⟨gs, k, ht⟩
    | wait _ => exact ⟨_ :: gs, k, congrArg (_ :: ·) ht⟩
    | attempt => exact ⟨_ :: gs, k, congrArg (_ :: ·) ht⟩
    | between hn _ =>
      rw [hn] at ht
      exact absurd ht.symm (List.append_ne_nil_of_right_ne_nil gs (List.cons_ne_nil _ _))
    | done hn _ | revert hn | settle hn =>
      -- the topmost frame closed: it was not the last above `fs`, which the stack is still over
      rw [hn] at ht
      cases gs with
      | nil =>
        obtain ⟨-, rfl⟩ := List.cons.inj ht
        exact absurd hu (Nat.lt_irrefl _)
      | cons g gs => exact ⟨gs, k, (List.cons.inj ht).2⟩
    | again hn _ =>
      rw [hn] at ht
      cases gs with
      | nil =>
        obtain ⟨hg, rfl⟩ := List.cons.inj ht
        exact ⟨[], _, by rw [show f.before = _ from (congrArg Frame.before hg).symm]; rfl⟩
      | cons g gs => exact ⟨_ :: gs, k, congrArg (_ :: ·) (List.cons.inj ht).2⟩

/-- **A call that reverts leaves nothing behind.**  Whatever was done while it was open, the machine
    is the one it was called on. -/
theorem reverted {P : Machine σ κ → Event μ ρ τ → Prop} {x : μ} {t u v : Machine σ κ}
    {es : List (Event μ ρ τ)} (hcall : c.step m (.call x) = .ok t)
    (hwait : m.frames.length < t.frames.length)
    (hP : ∀ w e, P w e → m.frames.length < w.frames.length) (h : Run c.step P t es u)
    (hu : u.frames.length = m.frames.length + 1) (hrevert : c.step u .revert = .ok v) : v = m := by
  cases Contract.step_happened hcall with
  | call _ => exact absurd hwait (Nat.lt_irrefl _)
  | wait _ =>
    obtain ⟨gs, k, hf⟩ := Run.under rfl hP h (by omega)
    have hgs : gs = [] := by
      rw [hf, List.length_append, List.length_cons] at hu
      exact List.eq_nil_of_length_eq_zero (by omega)
    subst hgs
    cases Contract.step_happened hrevert with
    | revert hn =>
      rw [hf] at hn
      obtain ⟨rfl, rfl⟩ := List.cons.inj hn
      rfl

end
end Gemba.Lib
