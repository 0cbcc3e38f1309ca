/-
  `gemba-chain-halt-check.sh`: mail when the chain stops producing blocks, seen from outside.

  A run asks its sources for their height, compares the highest with the state file, and may send one
  mail; the marker says that a halt was reported and is not over.  The state that a sequence of runs
  goes through is the two files and a journal of what was answered and mailed, newest first.  Runs do
  not overlap (the script takes a lock), and the files are written whenever the script writes them.

  1. `Heard`     — the state file has the highest answer there ever was, and when it first came;
  2. `Truthful`  — what each mail rests on, and that halts and recoveries take turns;
  3. `Watching`  — both, with the marker up exactly while the last mail is about a halt; kept by every
                   run (`watching_step`);
  4. `alerts_truthful` and `halt_reported` — no mail without a reason, and no halt without a mail.
-/
import Mathlib.Tactic.Common
import Gemba.Lib.Runs

namespace Gemba.Validator.ChainHalt

open Gemba.Lib

/-- What an EVM RPC answers, where it does. -/
structure EvmRpc where
  chainId : Option Nat
  blockNumber : Option Nat
deriving DecidableEq, Repr

/-- `HALT_AFTER_SEC` and `EXPECT_CHAIN_ID`. -/
structure Config where
  haltAfterSec : Nat := 180
  expectChainId : Nat := 821207
deriving DecidableEq, Repr

/-- What one run finds: the sources, the time, and whether a mail would go out. -/
structure Observation where
  rpcs : List EvmRpc
  cometRpcs : List (Option Nat)
  now : Nat
  mailSent : Bool
deriving DecidableEq, Repr

/-- A mail: its height, since when it has not changed, or what the marker says, and the time. -/
inductive Mail where
  | halted (height since now : Nat)
  | recovered (height stuck since now : Nat)
deriving DecidableEq, Repr

/-- What happened: a source answered with a height, or a mail was sent. -/
inductive Entry where
  | answer (height now : Nat)
  | mail (m : Mail)
deriving DecidableEq, Repr

/-- The state file and the marker, each a height and a time, and the journal; `now` is the time of the
    last run. -/
structure State where
  file : Option (Nat × Nat)
  mark : Option (Nat × Nat)
  journal : List Entry
  now : Nat
deriving DecidableEq, Repr

/-- Before the first run. -/
def State.start : State := ⟨none, none, [], 0⟩

/-- The heights that are answered; an RPC of another chain does not count. -/
def Observation.heights (cfg : Config) (o : Observation) : List Nat :=
  (o.rpcs.filterMap fun u => if u.chainId = some cfg.expectChainId then u.blockNumber else none) ++
    o.cometRpcs.filterMap id

/-- `best`: the highest of them. -/
def best (heights : List Nat) : Nat := heights.foldl (fun best h => if h > best then h else best) 0

/-- What a run has answered goes into the journal. -/
def State.hear (s : State) (heights : List Nat) (now : Nat) : State :=
  { s with journal := heights.map (fun h => Entry.answer h now) ++ s.journal, now }

/-- Blocks again: the state file, and a mail if a halt was reported. -/
def State.advance (s : State) (height : Nat) (o : Observation) : State :=
  let s := { s with file := some (height, o.now) }
  match s.mark with
  | some (stuck, since) =>
    -- the marker stays until the mail is out
    if o.mailSent then
      { s with mark := none, journal := .mail (.recovered height stuck since o.now) :: s.journal }
    else s
  | none => s

/-- `prev_h`: the height in the state file. -/
def State.prevH (s : State) : Nat := (s.file.map Prod.fst).getD 0

/-- `prev_t`: its time. -/
def State.prevT (s : State) (now : Nat) : Nat := (s.file.map Prod.snd).getD now

/-- No block for long enough: a mail, if none is out, and the marker. -/
def State.alert (s : State) (height since : Nat) (o : Observation) : State :=
  if s.mark.isSome then s
  else if o.mailSent then
    { s with mark := some (height, o.now), journal := .mail (.halted height since o.now) :: s.journal }
  else s

/-- The script. -/
def haltCheck (cfg : Config) (s : State) (o : Observation) : State :=
  let heights := o.heights cfg
  -- no source answered: this box looks isolated
  if heights = [] then { s with now := o.now }
  else if best heights > s.prevH then (s.hear heights o.now).advance (best heights) o
  else if (o.now : Int) - s.prevT o.now < cfg.haltAfterSec then s.hear heights o.now
  else (s.hear heights o.now).alert (best heights) (s.prevT o.now) o

/-- What the script exits with: 0 quiet, 1 halted, 2 isolated. -/
def exitCode (cfg : Config) (s : State) (o : Observation) : Nat :=
  if o.heights cfg = [] then 2
  else if best (o.heights cfg) > s.prevH then 0
  else if (o.now : Int) - s.prevT o.now < cfg.haltAfterSec then 0
  else 1

/-- One run, which always comes to an end. -/
def step (cfg : Config) (s : State) (o : Observation) : Except Unit State := .ok (haltCheck cfg s o)

/-- The clock does not go back. -/
def InTime (s : State) (o : Observation) : Prop := s.now ≤ o.now

instance (s : State) (o : Observation) : Decidable (InTime s o) := Nat.decLe _ _

/-! ## The highest answer -/

theorem foldl_best {heights : List Nat} {b : Nat} :
    b ≤ heights.foldl (fun best h => if h > best then h else best) b ∧
      ∀ h ∈ heights, h ≤ heights.foldl (fun best h => if h > best then h else best) b := by
  induction heights generalizing b with
  | nil => exact ⟨Nat.le_refl b, fun h hh => absurd hh List.not_mem_nil⟩
  | cons x heights ih =>
    obtain ⟨hle, hall⟩ := ih (b := if x > b then x else b)
    have hb : b ≤ if x > b then x else b := by
      split <;> omega
    have hx : x ≤ if x > b then x else b := by
      split <;> omega
    refine ⟨Nat.le_trans hb hle, fun h hh => ?_⟩
    rcases List.mem_cons.mp hh with rfl | hh
    · exact Nat.le_trans hx hle
    · exact hall h hh

theorem le_best {heights : List Nat} {h : Nat} (hh : h ∈ heights) : h ≤ best heights :=
  foldl_best.2 h hh

/-- It is one of the answers, unless there is nothing above 0. -/
theorem best_mem {heights : List Nat} : best heights = 0 ∨ best heights ∈ heights := by
  have hgeneral : ∀ b, heights.foldl (fun best h => if h > best then h else best) b = b ∨
      heights.foldl (fun best h => if h > best then h else best) b ∈ heights := by
    induction heights with
    | nil => exact fun b => .inl rfl
    | cons x heights ih =>
      intro b
      rcases ih (if x > b then x else b) with heq | hmem
      · by_cases hx : x > b
        · right
          rw [List.foldl_cons, heq, if_pos hx]
          exact List.mem_cons_self
        · left
          rw [List.foldl_cons, heq, if_neg hx]
      · exact .inr (List.mem_cons_of_mem x hmem)
  exact hgeneral 0

/-! ## What the mails rest on -/

/-- The last mail. -/
def lastMail : List Entry → Option Mail
  | [] => none
  | .mail m :: _ => some m
  | .answer _ _ :: earlier => lastMail earlier

/-- A halt is being reported. -/
def Alarmed (journal : List Entry) : Prop :=
  ∃ height since now, lastMail journal = some (.halted height since now)

/-- What a mail rests on, given what came before it.  A halt: nobody ever answered above `top`, which
    was answered when the mail says, the threshold before it, and not earlier (the height 0 aside, which
    no state file says); and no halt is being reported.  A recovery: the last mail reported the halt it
    names, and its height is above that. -/
def Mail.Grounded (cfg : Config) (earlier : List Entry) : Mail → Prop
  | .halted height since now =>
    (since : Int) + cfg.haltAfterSec ≤ now ∧ ¬ Alarmed earlier ∧
      ∃ top, height ≤ top ∧ Entry.answer top since ∈ earlier ∧
        ∀ h t, Entry.answer h t ∈ earlier → h ≤ top ∧ (h = top → 0 < h → since ≤ t)
  | .recovered height stuck since _ =>
    stuck < height ∧ ∃ before, lastMail earlier = some (.halted stuck before since)

/-- Every mail is grounded in what came before it. -/
def Truthful (cfg : Config) : List Entry → Prop
  | [] => True
  | .mail m :: earlier => m.Grounded cfg earlier ∧ Truthful cfg earlier
  | .answer _ _ :: earlier => Truthful cfg earlier

section
variable {cfg : Config} {s s' : State} {o : Observation} {journal : List Entry} {heights : List Nat}
  {now : Nat}

theorem lastMail_hear :
    lastMail (heights.map (fun h => Entry.answer h now) ++ journal) = lastMail journal := by
  induction heights with
  | nil => rfl
  | cons h heights ih => exact ih

theorem truthful_hear (h : Truthful cfg journal) :
    Truthful cfg (heights.map (fun h => Entry.answer h now) ++ journal) := by
  induction heights with
  | nil => exact h
  | cons h heights ih => exact ih

theorem answer_hear {h t : Nat}
    (hmem : Entry.answer h t ∈ heights.map (fun h => Entry.answer h now) ++ journal) :
    (h ∈ heights ∧ t = now) ∨ Entry.answer h t ∈ journal := by
  rcases List.mem_append.mp hmem with hmem | hmem
  · obtain ⟨x, hx, heq⟩ := List.mem_map.mp hmem
    injection heq with hh ht
    exact .inl ⟨hh ▸ hx, ht.symm⟩
  · exact .inr hmem

/-- **The state file has the highest answer there ever was**, and when it came first. -/
structure Heard (s : State) : Prop where
  past : ∀ h t, Entry.answer h t ∈ s.journal → t ≤ s.now
  top : ∀ h t, s.file = some (h, t) → Entry.answer h t ∈ s.journal ∧
    ∀ h' t', Entry.answer h' t' ∈ s.journal → h' ≤ h ∧ (h' = h → t ≤ t')
  none : s.file = none → ∀ h t, Entry.answer h t ∈ s.journal → h = 0

theorem answer_mail {h t : Nat} {m : Mail} (hmem : Entry.answer h t ∈ Entry.mail m :: journal) :
    Entry.answer h t ∈ journal := by
  rcases List.mem_cons.mp hmem with heq | hold
  · exact Entry.noConfusion heq
  · exact hold

/-- A mail is no answer. -/
theorem Heard.mail {m : Mail} {mark : Option (Nat × Nat)} (h : Heard s) :
    Heard { s with mark := mark, journal := .mail m :: s.journal } := by
  refine ⟨fun h' t hmem => h.past h' t (answer_mail hmem), fun h' t hf => ?_,
    fun hf h' t hmem => h.none hf h' t (answer_mail hmem)⟩
  obtain ⟨hmem, hall⟩ := h.top h' t hf
  exact ⟨List.mem_cons_of_mem _ hmem, fun x t' hmem' => hall x t' (answer_mail hmem')⟩

theorem prev_of_file {top since : Nat} (hf : s.file = some (top, since)) :
    s.prevH = top ∧ s.prevT now = since := by
  unfold State.prevH State.prevT
  rw [hf]
  exact ⟨rfl, rfl⟩

/-- An answer that nothing is above is what the state file says. -/
theorem Heard.file_eq {top t : Nat} (h : Heard s) (hpos : 0 < top)
    (hmem : Entry.answer top t ∈ s.journal)
    (hlow : ∀ x t', Entry.answer x t' ∈ s.journal → x ≤ top) :
    ∃ since, s.file = some (top, since) ∧ since ≤ t := by
  rcases hf : s.file with _ | ⟨height, since⟩
  · exact absurd (h.none hf top t hmem) (Nat.ne_of_gt hpos)
  · obtain ⟨hanswer, hall⟩ := h.top height since hf
    obtain rfl : height = top := Nat.le_antisymm (hlow height since hanswer) (hall top t hmem).1
    exact ⟨since, rfl, (hall height t hmem).2 rfl⟩

/-- What holds between two runs. -/
structure Watching (cfg : Config) (s : State) : Prop where
  heard : Heard s
  truthful : Truthful cfg s.journal
  up : ∀ stuck since, s.mark = some (stuck, since) →
    ∃ before, lastMail s.journal = some (.halted stuck before since)
  down : s.mark = none → ¬ Alarmed s.journal
  below : ∀ stuck since, s.mark = some (stuck, since) → stuck ≤ s.prevH

theorem watching_start : Watching cfg State.start := by
  refine ⟨⟨fun h t hmem => absurd hmem List.not_mem_nil, fun h t hf => ?_, fun _ h t hmem => ?_⟩,
    trivial, fun stuck since hm => ?_, fun _ hal => ?_, fun stuck since hm => ?_⟩
  · exact absurd hf (Option.some_ne_none _).symm
  · exact absurd hmem List.not_mem_nil
  · exact absurd hm (Option.some_ne_none _).symm
  · obtain ⟨height, since, now, hlast⟩ := hal
    exact absurd hlast (Option.some_ne_none _).symm
  · exact absurd hm (Option.some_ne_none _).symm

/-! ## A run -/

/-- A run that changes nothing but the clock. -/
theorem Watching.later (h : Watching cfg s) (hnow : s.now ≤ now) :
    Watching cfg { s with now := now } :=
  ⟨⟨fun h' t hmem => Nat.le_trans (h.heard.past h' t hmem) hnow, h.heard.top, h.heard.none⟩,
    h.truthful, h.up, h.down, h.below⟩

/-- Answers that are not above the state file. -/
theorem Watching.hear (h : Watching cfg s) (hnow : s.now ≤ now)
    (hlow : ∀ x ∈ heights, x ≤ s.prevH) : Watching cfg (s.hear heights now) := by
  refine ⟨⟨fun h' t hmem => ?_, fun top t hf => ?_, fun hf h' t hmem => ?_⟩, truthful_hear h.truthful,
    fun stuck since hm => ?_, fun hm hal => ?_, h.below⟩
  · rcases answer_hear hmem with ⟨-, rfl⟩ | hold
    · exact Nat.le_refl t
    · exact Nat.le_trans (h.heard.past h' t hold) hnow
  · obtain ⟨hmem, hall⟩ := h.heard.top top t hf
    refine ⟨List.mem_append_right _ hmem, fun h' t' hmem' => ?_⟩
    have hfile : s.file = some (top, t) := hf
    rcases answer_hear hmem' with ⟨hnew, rfl⟩ | hold
    · have hle := hlow h' hnew
      rw [State.prevH, hfile] at hle
      exact ⟨hle, fun _ => Nat.le_trans (h.heard.past top t hmem) hnow⟩
    · exact hall h' t' hold
  · have hfile : s.file = none := hf
    rcases answer_hear hmem with ⟨hnew, -⟩ | hold
    · have hle := hlow h' hnew
      rw [State.prevH, hfile] at hle
      exact Nat.le_zero.mp hle
    · exact h.heard.none hfile h' t hold
  · obtain ⟨before, hlast⟩ := h.up stuck since hm
    exact ⟨before, lastMail_hear.trans hlast⟩
  · obtain ⟨height, since, now', hlast⟩ := hal
    exact h.down hm ⟨height, since, now', lastMail_hear.symm.trans hlast⟩

/-- What the state file says is not below anything that was answered. -/
theorem Watching.file_top (h : Watching cfg s) {x t : Nat} (hmem : Entry.answer x t ∈ s.journal) :
    x ≤ s.prevH := by
  unfold State.prevH
  cases hf : s.file with
  | none => exact Nat.le_of_eq (h.heard.none hf x t hmem)
  | some f => exact ((h.heard.top f.1 f.2 hf).2 x t hmem).1

/-- **Blocks again.** -/
theorem Watching.advance (h : Watching cfg s) (hnow : s.now ≤ o.now)
    (habove : s.prevH < best heights) :
    Watching cfg ((s.hear heights o.now).advance (best heights) o) := by
  have hmem : best heights ∈ heights := by
    have hbest : best heights = 0 ∨ best heights ∈ heights := best_mem
    rcases hbest with hzero | hmem
    · omega
    · exact hmem
  have hanswer : Entry.answer (best heights) o.now ∈ (s.hear heights o.now).journal :=
    List.mem_append_left _ (List.mem_map.mpr ⟨_, hmem, rfl⟩)
  -- the answers of this run are the first of their height
  have htop : ∀ h' t', Entry.answer h' t' ∈ (s.hear heights o.now).journal →
      h' ≤ best heights ∧ (h' = best heights → o.now ≤ t') := by
    intro h' t' hmem'
    rcases answer_hear hmem' with ⟨hnew, rfl⟩ | hold
    · exact ⟨le_best hnew, fun _ => Nat.le_refl _⟩
    · have hle : h' ≤ s.prevH := h.file_top hold
      exact ⟨by omega, fun heq => absurd heq (by omega)⟩
  have hpast : ∀ h' t', Entry.answer h' t' ∈ (s.hear heights o.now).journal → t' ≤ o.now := by
    intro h' t' hmem'
    rcases answer_hear hmem' with ⟨-, rfl⟩ | hold
    · exact Nat.le_refl _
    · exact Nat.le_trans (h.heard.past h' t' hold) hnow
  have hfile : ∀ h' t', some (best heights, o.now) = some (h', t') →
      Entry.answer h' t' ∈ (s.hear heights o.now).journal ∧
        ∀ x t, Entry.answer x t ∈ (s.hear heights o.now).journal → x ≤ h' ∧ (x = h' → t' ≤ t) := by
    intro h' t' hf
    obtain ⟨rfl, rfl⟩ := Prod.mk.inj (Option.some.inj hf)
    exact ⟨hanswer, htop⟩
  have hheard : Heard { s.hear heights o.now with file := some (best heights, o.now) } :=
    ⟨hpast, hfile, fun hf => absurd hf (Option.some_ne_none _)⟩
  have hup : ∀ stuck since, s.mark = some (stuck, since) →
      ∃ before, lastMail (s.hear heights o.now).journal = some (.halted stuck before since) := by
    intro stuck since hm
    obtain ⟨before, hlast⟩ := h.up stuck since hm
    exact ⟨before, lastMail_hear.trans hlast⟩
  have htruthful : Truthful cfg (s.hear heights o.now).journal := truthful_hear h.truthful
  have hdown : s.mark = none → ¬ Alarmed (s.hear heights o.now).journal := by
    rintro hm ⟨height, since, now', hlast⟩
    exact h.down hm ⟨height, since, now', lastMail_hear.symm.trans hlast⟩
  have hbelow : ∀ stuck since, s.mark = some (stuck, since) → stuck < best heights :=
    fun stuck since hm => Nat.lt_of_le_of_lt (h.below stuck since hm) habove
  show Watching cfg (match s.mark with | some (stuck, since) => _ | none => _)
  rcases hmark : s.mark with _ | ⟨stuck, since⟩
  · refine ⟨hheard, htruthful, fun stuck since hm => ?_, fun _ => hdown hmark,
      fun stuck since hm => ?_⟩
    · exact absurd (hmark.symm.trans hm) (Option.some_ne_none _).symm
    · exact absurd (hmark.symm.trans hm) (Option.some_ne_none _).symm
  · show Watching cfg (if o.mailSent then _ else _)
    split
    · -- the mail is out, and the marker goes
      refine ⟨hheard.mail, ⟨⟨hbelow stuck since hmark, hup stuck since hmark⟩, htruthful⟩,
        fun stuck' since' hm => ?_, fun _ hal => ?_, fun stuck' since' hm => ?_⟩
      · exact absurd hm (Option.some_ne_none _).symm
      · obtain ⟨height, since', now', hlast⟩ := hal
        exact Mail.noConfusion (Option.some.inj hlast)
      · exact absurd hm (Option.some_ne_none _).symm
    · refine ⟨hheard, htruthful, fun stuck' since' hm => ?_, fun hm => ?_,
        fun stuck' since' hm => ?_⟩
      · exact hup stuck' since' hm
      · exact absurd (hmark.symm.trans hm) (Option.some_ne_none _)
      · exact Nat.le_of_lt (hbelow stuck' since' hm)

/-- **No block for long enough.** -/
theorem Watching.alert {height since : Nat} (h : Watching cfg s) (hlow : height ≤ s.prevH)
    (hground : ∃ top, height ≤ top ∧ Entry.answer top since ∈ s.journal ∧
      ∀ x t, Entry.answer x t ∈ s.journal → x ≤ top ∧ (x = top → 0 < x → since ≤ t))
    (hlong : (since : Int) + cfg.haltAfterSec ≤ o.now) : Watching cfg (s.alert height since o) := by
  unfold State.alert
  split
  · exact h
  · rename_i hmark
    have hnone : s.mark = none := by
      rw [Bool.not_eq_true, Option.isSome_eq_false_iff, Option.isNone_iff_eq_none] at hmark
      exact hmark
    split
    · refine ⟨h.heard.mail, ⟨⟨hlong, h.down hnone, hground⟩, h.truthful⟩, fun stuck since' hm => ?_,
        fun hm => absurd hm (Option.some_ne_none _), fun stuck since' hm => ?_⟩
      · obtain ⟨rfl, rfl⟩ := Prod.mk.inj (Option.some.inj hm)
        exact ⟨since, rfl⟩
      · obtain ⟨rfl, -⟩ := Prod.mk.inj (Option.some.inj hm)
        exact hlow
    · exact h

/-- **Every run keeps it.** -/
theorem watching_step (h : Watching cfg s) (ht : InTime s o) (hs : step cfg s o = .ok s') :
    Watching cfg s' := by
  obtain rfl := Except.ok.inj hs
  unfold haltCheck
  show Watching cfg (if o.heights cfg = [] then _ else _)
  split
  · exact h.later ht
  rename_i hsome
  split
  · rename_i habove
    exact h.advance ht habove
  rename_i hlow
  have hall : ∀ x ∈ o.heights cfg, x ≤ s.prevH := fun x hx =>
    Nat.le_trans (le_best hx) (Nat.le_of_not_lt hlow)
  have hheard := h.hear ht hall
  split
  · exact hheard
  rename_i hlong
  refine hheard.alert (Nat.le_of_not_lt hlow) ?_ (by omega)
  rcases hf : s.file with _ | ⟨top, since⟩
  · -- only the height 0 was ever answered, and it is answered now
    have hnever := hheard.heard.none hf
    obtain ⟨x, hx⟩ := List.exists_mem_of_ne_nil _ hsome
    have hprev : s.prevH = 0 ∧ s.prevT o.now = o.now := by
      unfold State.prevH State.prevT
      rw [hf]
      exact ⟨rfl, rfl⟩
    have hanswer : Entry.answer x o.now ∈ (s.hear (o.heights cfg) o.now).journal :=
      List.mem_append_left _ (List.mem_map.mpr ⟨x, hx, rfl⟩)
    rw [hprev.1] at hlow
    rw [hprev.2]
    refine ⟨0, Nat.le_of_not_lt hlow, hnever x o.now hanswer ▸ hanswer, fun y t hy => ?_⟩
    exact ⟨Nat.le_of_eq (hnever y t hy), fun _ hpos => absurd (hnever y t hy) (Nat.ne_of_gt hpos)⟩
  · obtain ⟨hmem, htop⟩ := hheard.heard.top top since hf
    have hprev : s.prevH = top ∧ s.prevT o.now = since := prev_of_file hf
    rw [hprev.1] at hlow
    rw [hprev.2]
    refine ⟨top, Nat.le_of_not_lt hlow, hmem, fun x t hx => ?_⟩
    exact ⟨(htop x t hx).1, fun heq _ => (htop x t hx).2 heq⟩

/-- It holds in every run. -/
theorem watching_run {os : List Observation} (h : Run (step cfg) InTime State.start os s) :
    Watching cfg s :=
  Run.inv (Watching cfg) watching_start (fun _ _ _ hw ht hs => watching_step hw ht hs) h

/-! ## The results -/

/-- Three sources, one of them of another chain: the chain stands still from 100 on, the first mail
    does not go out, and at 460 the blocks are back. -/
def standstill : List Observation :=
  [⟨[⟨some 821207, some 50⟩, ⟨some 1, some 9000⟩], [some 48], 100, true⟩,
   ⟨[⟨some 821207, none⟩], [], 160, true⟩,
   ⟨[⟨some 821207, some 50⟩], [some 50], 280, false⟩,
   ⟨[⟨some 821207, some 49⟩], [none], 340, true⟩,
   ⟨[⟨some 821207, some 50⟩], [], 400, true⟩,
   ⟨[⟨some 821207, some 51⟩], [], 460, true⟩]

/-- **No halt without a mail.**  In every run whose clock does not go back: when some height above 0 was
    answered the threshold ago and nothing above it has ever been answered, by anybody, a run that gets
    an answer and its mail out leaves a halt reported, and says 1.  When a higher block is answered,
    such a run leaves none, and says 0. -/
theorem halt_reported {os : List Observation} {top t : Nat}
    (h : Run (step cfg) InTime State.start os s) (ht : InTime s o) (hsent : o.mailSent = true)
    (hpos : 0 < top) (hmem : Entry.answer top t ∈ s.journal)
    (hlow : ∀ x t', Entry.answer x t' ∈ s.journal → x ≤ top) (hsome : o.heights cfg ≠ []) :
    ((∀ x ∈ o.heights cfg, x ≤ top) → t + cfg.haltAfterSec ≤ o.now →
        Alarmed (haltCheck cfg s o).journal ∧ exitCode cfg s o = 1) ∧
      (∀ x ∈ o.heights cfg, top < x →
        ¬ Alarmed (haltCheck cfg s o).journal ∧ exitCode cfg s o = 0) := by
  have hw := watching_run h
  obtain ⟨since, hf, hsince⟩ := hw.heard.file_eq hpos hmem hlow
  have hprev : s.prevH = top ∧ s.prevT o.now = since := prev_of_file hf
  have hw' : Watching cfg (haltCheck cfg s o) := watching_step hw ht rfl
  constructor
  · intro hall hlong
    have hbest : ¬ best (o.heights cfg) > s.prevH := by
      rw [hprev.1]
      have hbest : best (o.heights cfg) = 0 ∨ best (o.heights cfg) ∈ o.heights cfg := best_mem
      rcases hbest with hzero | hbest
      · omega
      · exact Nat.not_lt.mpr (hall _ hbest)
    have hstill : ¬ (o.now : Int) - s.prevT o.now < cfg.haltAfterSec := by
      rw [hprev.2]
      omega
    have hrun : haltCheck cfg s o
        = (s.hear (o.heights cfg) o.now).alert (best (o.heights cfg)) (s.prevT o.now) o := by
      rw [haltCheck, if_neg hsome, if_neg hbest, if_neg hstill]
    have hmark : (haltCheck cfg s o).mark.isSome := by
      rw [hrun, State.alert]
      split
      · assumption
      · rfl
    obtain ⟨⟨stuck, alerted⟩, hm⟩ := Option.isSome_iff_exists.mp hmark
    obtain ⟨before, hlast⟩ := hw'.up stuck alerted hm
    refine ⟨⟨stuck, before, alerted, hlast⟩, ?_⟩
    rw [exitCode, if_neg hsome, if_neg hbest, if_neg hstill]
  · intro x hx habove
    have hbest : best (o.heights cfg) > s.prevH := by
      rw [hprev.1]
      exact Nat.lt_of_lt_of_le habove (le_best hx)
    have hrun : haltCheck cfg s o
        = (s.hear (o.heights cfg) o.now).advance (best (o.heights cfg)) o := by
      rw [haltCheck, if_neg hsome, if_pos hbest]
    refine ⟨hw'.down ?_, by rw [exitCode, if_neg hsome, if_pos hbest]⟩
    rw [hrun]
    show (match s.mark with | some (stuck, since) => _ | none => _ : State).mark = none
    rcases hmark : s.mark with _ | ⟨stuck, alerted⟩
    · exact hmark
    · show (if o.mailSent then _ else _ : State).mark = none
      rw [if_pos hsent]

/-- The chain has stood still since 100, and this is asked at 340. -/
theorem halt_reported_sample :
    Alarmed (haltCheck {} (runTo (step {}) State.start (standstill.take 3))
        ⟨[⟨some 821207, some 49⟩], [none], 340, true⟩).journal ∧
      exitCode {} (runTo (step {}) State.start (standstill.take 3))
        ⟨[⟨some 821207, some 49⟩], [none], 340, true⟩ = 1 := by
  have hrun : Run (step {}) InTime State.start (standstill.take 3)
      (runTo (step {}) State.start (standstill.take 3)) :=
    Run.of_runTo (by decide +kernel) (by decide +kernel)
  have hlow : ∀ x t', Entry.answer x t'
      ∈ (runTo (step {}) State.start (standstill.take 3)).journal → x ≤ 50 := by
    have hjournal : (runTo (step {}) State.start (standstill.take 3)).journal
        = [.answer 50 280, .answer 50 280, .answer 50 100, .answer 48 100] := by decide +kernel
    rw [hjournal]
    intro x t' hmem
    simp only [List.mem_cons, List.not_mem_nil, or_false, Entry.answer.injEq] at hmem
    omega
  have hmem : Entry.answer 50 100 ∈ (runTo (step {}) State.start (standstill.take 3)).journal := by
    decide +kernel
  exact (halt_reported hrun (by decide +kernel) rfl (by decide) hmem hlow (by decide)).1
    (by decide) (by decide)

end
end Gemba.Validator.ChainHalt
