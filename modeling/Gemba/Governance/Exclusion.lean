/-
  What an exclusion takes away.

  Excluding an account is meant to remove its power and its delegatee's at once.  For the votes of now
  it does: the account's delegation is taken back, and nobody may send to it.  For the votes of the past
  it does so for the account's own, which read as zero from then on.  But a proposal is voted on with
  the votes of its snapshot, and what an account had delegated to another by then is in the other's
  checkpoints, where the exclusion does not go.

  `holdings` says what a vote about a block ought to weigh, and `Remembered` that the checkpoints agree
  with it, at every block.  So the weight of a vote splits into what each account adds to it (`share`),
  and an excluded account adds nothing to any vote about a block exactly when it held nothing then, or
  named nobody, itself, or somebody who is excluded as well (`exclusion_immediate_iff`).  That is so
  when it was excluded at that block already.
-/
import Gemba.Governance.VotesChain
import Gemba.Governance.Proposals

namespace Gemba.Governance

open Gemba.Lib Gemba.Evm

/-! ## What a vote adds to the tally -/

/-- The votes cast. -/
def Tally.total (t : Tally) : Nat := t.againstVotes + t.forVotes + t.abstainVotes

namespace GembaGovernor

variable {g g' : GembaGovernor} {v : View} {account : Address} {pid : ProposalId} {support : Nat}

theorem countVote_total {p p' : ProposalVote} {weight : Nat}
    (h : countVote p account support weight = .ok p') :
    p'.toTally.total = p.toTally.total + weight := by
  obtain ⟨-, h⟩ := failIf_bind_eq_ok.mp h
  unfold Tally.total
  rcases ite_eq_ok.mp h with ⟨-, h⟩ | ⟨-, h⟩
  · obtain ⟨n, hn, h⟩ := bind_eq_ok.mp h
    injection h with h
    rw [← h, (add_eq_ok.mp hn).2]
    dsimp only
    omega
  rcases ite_eq_ok.mp h with ⟨-, h⟩ | ⟨-, h⟩
  · obtain ⟨n, hn, h⟩ := bind_eq_ok.mp h
    injection h with h
    rw [← h, (add_eq_ok.mp hn).2]
    dsimp only
    omega
  rcases ite_eq_ok.mp h with ⟨-, h⟩ | ⟨-, h⟩
  · obtain ⟨n, hn, h⟩ := bind_eq_ok.mp h
    injection h with h
    rw [← h, (add_eq_ok.mp hn).2]
    dsimp only
    omega
  · nomatch h

/-- A proposal that is open for votes has its snapshot in the past. -/
theorem snapshot_of_active (h : g.state v pid = .ok .active) :
    g.proposalSnapshot pid ≠ 0 ∧ g.proposalSnapshot pid < v.clock := by
  have hcore := state_eq_active_iff.mp h
  unfold coreState at hcore
  rcases ite_eq_ok.mp hcore with ⟨-, h⟩ | ⟨-, h⟩
  · nomatch h
  rcases ite_eq_ok.mp h with ⟨-, h⟩ | ⟨-, h⟩
  · nomatch h
  rcases ite_eq_ok.mp h with ⟨-, h⟩ | ⟨hexists, h⟩
  · nomatch h
  rcases ite_eq_ok.mp h with ⟨-, h⟩ | ⟨hstarted, -⟩
  · nomatch h
  exact ⟨hexists, not_le.mp hstarted⟩

/-- **A vote weighs what the voter had at the snapshot**, which is in the past. -/
theorem castVote_weight (h : g.castVote v account pid support = .ok g') :
    (g.proposalSnapshot pid ≠ 0 ∧ g.proposalSnapshot pid < v.clock) ∧
      ∃ weight, v.token.getPastVotes v.clock account (g.proposalSnapshot pid) = .ok weight ∧
        (g'.proposalVotes pid).toTally.total = (g.proposalVotes pid).toTally.total + weight := by
  obtain ⟨hactive, -⟩ := castVote_spec h
  obtain ⟨⟨⟩, -, h⟩ := bind_eq_ok.mp h
  obtain ⟨weight, hweight, h⟩ := bind_eq_ok.mp h
  obtain ⟨p, hp, h⟩ := bind_eq_ok.mp h
  injection h with h
  refine ⟨snapshot_of_active hactive, weight, hweight, ?_⟩
  rw [← h]
  show (if pid = pid then p else _).toTally.total = _
  rw [if_pos rfl, countVote_total hp]

/-- A Governor whose proposals are all open, with no vote cast, about block `t`. -/
def ballot (t clock : Nat) : GembaGovernor where
  supermajorityNumerator := 51
  criticalQuorumNumerator := 51
  criticalSupermajorityNumerator := 66
  criticalTarget := fun _ => false
  isCritical := fun _ => false
  proposals := fun _ => ⟨0, t, clock, false, false, 0⟩
  proposalVotes := fun _ => ⟨⟨0, 0, 0⟩, fun _ => false⟩
  votingDelay := 1
  votingPeriod := clock
  proposalThreshold := 0
  quorumNumeratorHistory := []
  timelock := 0
  timelockIds := fun _ => none
  governanceCall := []

/-- Such a Governor counts any vote that fits a tally. -/
theorem ballot_counts {t weight : Nat} (hzero : t ≠ 0) (hpast : t < v.clock)
    (hweight : v.token.getPastVotes v.clock account t = .ok weight) (hfits : weight < 2 ^ 256)
    (pid : ProposalId) : ∃ g', (ballot t v.clock).castVote v account pid 1 = .ok g' ∧
      (g'.proposalVotes pid).toTally.total = weight := by
  have hstate : (ballot t v.clock).state v pid = .ok .active := by
    apply state_eq_active_iff.mpr
    show (if t = 0 then _ else if v.clock ≤ t then _ else if v.clock ≤ t + v.clock then _ else _) = _
    rw [if_neg hzero, if_neg (not_le.mpr hpast), if_pos (Nat.le_add_left _ _)]
  have hvalid : (ballot t v.clock).validateState v pid [.active] = .ok ⟨⟩ := by
    unfold validateState
    rw [hstate]
    rfl
  have hadd : add 0 weight = .ok weight := add_eq_ok.mpr ⟨by omega, by omega⟩
  obtain ⟨p, hp⟩ : ∃ p, countVote ((ballot t v.clock).proposalVotes pid) account 1 weight = .ok p := by
    unfold countVote
    rw [failIf_neg (by exact Bool.false_ne_true), ok_bind, if_neg (by decide), if_pos rfl]
    show ∃ p, (add 0 weight >>= _) = .ok p
    rw [hadd]
    exact ⟨_, rfl⟩
  refine ⟨{ ballot t v.clock with
    proposalVotes := fun x => if x = pid then p else (ballot t v.clock).proposalVotes x }, ?_, ?_⟩
  · unfold castVote
    rw [hvalid, ok_bind]
    show (v.token.getPastVotes v.clock account t >>= fun _ => _) = _
    rw [hweight, ok_bind, hp]
    rfl
  · show (if pid = pid then p else _).toTally.total = weight
    rw [if_pos rfl, countVote_total hp]
    exact Nat.zero_add weight

end GembaGovernor

/-! ## The past -/

namespace VotesWorld

variable {self : Address} {w w' w₀ : VotesWorld} {as : List VotesLabel}
  {P : VotesWorld → VotesLabel → Prop} {a v : Address} {t weight : Nat}

/-- **The checkpoints remember the holdings.**  At every block, what is read of a delegatee is the sum
    of what those held who named it, and who was excluded named nobody. -/
structure Remembered (w : VotesWorld) : Prop where
  power : ∀ t d, d ≠ 0 → (w.token.delegateCheckpoints d).upperLookup t
    = gathered (w.holdings t).balance (w.holdings t).delegates d
  excluded : ∀ t a, (w.holdings t).excluded a = true → (w.holdings t).delegates a = 0
  nobody : ∀ t, (w.holdings t).balance 0 = 0

/-- Where the holdings are those of now, the newest checkpoints are read. -/
theorem remembered_now {s : GembaVotes} {clock : Nat} (hs : s.Sound clock) (hle : clock ≤ t)
    {d : Address} (hd : d ≠ 0) : (s.delegateCheckpoints d).upperLookup t
      = gathered s.holdings.balance s.holdings.delegates d := by
  rw [(hs.upto d).upperLookup_eq hle]
  exact hs.power d hd

theorem Genesis.remembered (h : Genesis w) : Remembered w := by
  obtain ⟨governance, initialExcluded, hconstruct⟩ := h.token
  have hs : w.token.Sound 0 := GembaVotes.construct_sound hconstruct
  refine ⟨?_, ?_, ?_⟩
  · intro t d hd
    rw [h.holdings]
    exact remembered_now hs (Nat.zero_le t) hd
  · intro t a ha
    rw [h.holdings] at ha ⊢
    exact hs.excluded a ha
  · intro t
    rw [h.holdings]
    exact hs.nobody.1

theorem Stepped.remembered (h : Stepped w w') (hs : Sound w) (hr : Remembered w) : Remembered w' := by
  cases h with
  | @changed token value amount h hsupply hpaid hw =>
    subst hw
    have hs' := h.sound hs.token
    refine ⟨?_, ?_, ?_⟩
    · intro t d hd
      show _ = gathered (if w.block.number ≤ t then token.holdings else w.holdings t).balance
        (if w.block.number ≤ t then token.holdings else w.holdings t).delegates d
      by_cases ht : w.block.number ≤ t
      · rw [if_pos ht]
        exact remembered_now hs' ht hd
      · rw [if_neg ht, ← hr.power t d hd]
        exact h.past d (not_le.mp ht)
    · intro t a
      show (if w.block.number ≤ t then token.holdings else w.holdings t).excluded a = true →
        (if w.block.number ≤ t then token.holdings else w.holdings t).delegates a = 0
      by_cases ht : w.block.number ≤ t
      · rw [if_pos ht]
        exact hs'.excluded a
      · rw [if_neg ht]
        exact hr.excluded t a
    · intro t
      show (if w.block.number ≤ t then token.holdings else w.holdings t).balance 0 = 0
      by_cases ht : w.block.number ≤ t
      · rw [if_pos ht]
        exact hs'.nobody.1
      · rw [if_neg ht]
        exact hr.nobody t
  | later hblock hnative hw =>
    subst hw
    exact ⟨hr.power, hr.excluded, hr.nobody⟩

theorem remembered_run (hgen : Genesis w₀) (h : Run (step self) P w₀ as w) : Remembered w := by
  induction h with
  | nil => exact hgen.remembered
  | snoc hrun _ hs ih => exact (step_inv hs).remembered (sound_run hgen hrun) ih

/-! ## Votes that can be cast -/

/-- What account `a` adds to a vote of `v` about block `t`. -/
def share (w : VotesWorld) (t : Nat) (v a : Address) : Nat :=
  if w.token.excluded v = true then 0
  else if (w.holdings t).delegates a = v then (w.holdings t).balance a else 0

/-- A vote of `v` about block `t` can be cast now, on some proposal of a Governor over this token, and
    adds `weight` to the proposal's tally. -/
def Castable (w : VotesWorld) (t : Nat) (v : Address) (weight : Nat) : Prop :=
  v ≠ 0 ∧ ∃ (g g' : GembaGovernor) (timelocks : Address → Option Timelock) (pid : ProposalId)
    (support : Nat), g.proposalSnapshot pid = t ∧
      g.castVote ⟨w.block, w.token, timelocks⟩ v pid support = .ok g' ∧
      (g'.proposalVotes pid).toTally.total = (g.proposalVotes pid).toTally.total + weight

/-- No vote about block `t` that can be cast carries weight that comes from `a`: it weighs what the
    other accounts add to it. -/
def Weightless (w : VotesWorld) (a : Address) (t : Nat) : Prop :=
  ∀ v weight, w.Castable t v weight → weight = ∑ x ∈ Finset.univ.erase a, w.share t v x

/-- Nobody adds to the vote of an excluded account. -/
theorem share_excluded (hex : w.token.excluded v = true) (x : Address) : w.share t v x = 0 := by
  unfold share
  rw [if_pos hex]

theorem share_free (hex : w.token.excluded v = false) (x : Address) : w.share t v x
    = if (w.holdings t).delegates x = v then (w.holdings t).balance x else 0 := by
  unfold share
  rw [hex, if_neg (by decide)]

/-- **The votes read** of an account are what every account adds to them. -/
theorem getPastVotes_eq (hs : Sound w) (hr : Remembered w) (hv : v ≠ 0) (ht : t < w.block.number)
    (a : Address) : ∃ votes, w.token.getPastVotes w.block.number v t = .ok votes ∧ votes < 2 ^ 256 ∧
      votes = w.share t v a + ∑ x ∈ Finset.univ.erase a, w.share t v x := by
  unfold GembaVotes.getPastVotes
  cases hex : w.token.excluded v with
  | true =>
    refine ⟨0, rfl, Nat.two_pow_pos 256, ?_⟩
    rw [share_excluded hex, Finset.sum_eq_zero fun x _ => share_excluded hex x, Nat.add_zero]
  | false =>
    rw [if_neg Bool.false_ne_true, GembaVotes.validateTimepoint, failIf_neg (not_le.mpr ht), ok_bind]
    refine ⟨_, rfl, ?_, ?_⟩
    · have hsmall := GembaVotes.upperLookup_small (hs.token.small v) t
      exact lt_trans hsmall (by decide)
    · rw [hr.power t v hv, gathered_split a, share_free hex,
        Finset.sum_congr rfl fun x _ => share_free hex x]

/-- **What a vote weighs**: what every account adds to it. -/
theorem castable_iff (hs : Sound w) (hr : Remembered w) (a : Address) :
    w.Castable t v weight ↔ v ≠ 0 ∧ t ≠ 0 ∧ t < w.block.number ∧
      weight = w.share t v a + ∑ x ∈ Finset.univ.erase a, w.share t v x := by
  constructor
  · rintro ⟨hv, g, g', timelocks, pid, support, hsnapshot, hcast, htotal⟩
    obtain ⟨⟨hzero, hpast⟩, weight', hweight, htotal'⟩ := GembaGovernor.castVote_weight hcast
    rw [hsnapshot] at hzero hpast hweight
    obtain ⟨votes, hvotes, -, hsum⟩ := getPastVotes_eq hs hr hv hpast a
    have hsame := hvotes.symm.trans hweight
    injection hsame with hsame
    refine ⟨hv, hzero, hpast, ?_⟩
    rw [← hsum, hsame]
    exact Nat.add_left_cancel (htotal.symm.trans htotal')
  · rintro ⟨hv, hzero, hpast, hweight⟩
    obtain ⟨votes, hvotes, hfits, hsum⟩ := getPastVotes_eq hs hr hv hpast a
    rw [hweight, ← hsum]
    obtain ⟨g', hcast, htotal⟩ := GembaGovernor.ballot_counts
      (v := ⟨w.block, w.token, fun _ => none⟩) hzero hpast hvotes hfits ⟨[], 0⟩
    refine ⟨hv, _, g', fun _ => none, ⟨[], 0⟩, 1, rfl, hcast, ?_⟩
    rw [htotal]
    exact (Nat.zero_add _).symm

/-- An account adds nothing to the votes about a block: it held nothing, or named nobody or an account
    that is excluded now. -/
def Silent (w : VotesWorld) (a : Address) (t : Nat) : Prop :=
  (w.holdings t).balance a = 0 ∨ (w.holdings t).delegates a = 0 ∨
    w.token.excluded ((w.holdings t).delegates a) = true

instance : Decidable (w.Silent a t) := inferInstanceAs (Decidable (_ ∨ _))

theorem weightless_iff (hs : Sound w) (hr : Remembered w) :
    w.Weightless a t ↔ t = 0 ∨ w.block.number ≤ t ∨ w.Silent a t := by
  constructor
  · intro hnone
    by_contra hnot
    unfold Silent at hnot
    rw [not_or, not_or, not_le, not_or, not_or, Bool.not_eq_true] at hnot
    obtain ⟨hzero, hpast, hheld, hnamed, hfree⟩ := hnot
    -- the account it named can cast a vote that carries what it held
    have hcast := (castable_iff hs hr a).mpr ⟨hnamed, hzero, hpast, rfl⟩
    have hweight := hnone _ _ hcast
    rw [share_free hfree, if_pos rfl] at hweight
    omega
  · intro hsilent v weight hcast
    obtain ⟨hv, hzero, hpast, hweight⟩ := (castable_iff hs hr a).mp hcast
    have hnone : w.share t v a = 0 := by
      cases hex : w.token.excluded v with
      | true => exact share_excluded hex a
      | false =>
        rw [share_free hex]
        by_cases hnamed : (w.holdings t).delegates a = v
        · rw [if_pos hnamed]
          rcases hsilent with h | h | h | h | h
          · exact absurd h hzero
          · exact absurd hpast (not_lt.mpr h)
          · exact h
          · exact absurd (hnamed.symm.trans h) hv
          · rw [hnamed, hex] at h
            nomatch h
        · rw [if_neg hnamed]
    rw [hweight, hnone, Nat.zero_add]

/-- **When an exclusion takes effect on the votes of the past.**  In every state of every run, and for
    every account that is excluded, no vote about block `t` that can be cast carries weight that comes
    from the account, exactly when the block is not open for votes, or the account held nothing then, or
    had named nobody or somebody who is excluded too.  That is the case for every block at whose end it
    was excluded. -/
theorem exclusion_immediate_iff (hgen : Genesis w₀) (h : Run (step self) (fun _ _ => True) w₀ as w)
    (ha : w.token.excluded a = true) (t : Nat) :
    (w.Weightless a t ↔ t = 0 ∨ w.block.number ≤ t ∨ w.Silent a t) ∧
      ((w.holdings t).excluded a = true → w.Weightless a t) ∧
      (∀ weight, w.Castable t a weight → weight = 0) := by
  have hs := sound_run hgen h
  have hr := remembered_run hgen h
  refine ⟨weightless_iff hs hr, ?_, ?_⟩
  · intro hex
    exact (weightless_iff hs hr).mpr (Or.inr (Or.inr (Or.inr (Or.inl (hr.excluded t a hex)))))
  · intro weight hcast
    obtain ⟨-, -, -, hweight⟩ := (castable_iff hs hr a).mp hcast
    rw [hweight, share_excluded ha, Finset.sum_eq_zero fun x _ => share_excluded ha x, Nat.add_zero]

/-- An excluded account's power is gone from every vote that can be cast. -/
def ExclusionImmediate : Prop :=
  ∀ {self : Address} {w₀ w : VotesWorld} {as : List VotesLabel} {a : Address} {t : Nat}, Genesis w₀ →
    Run (step self) (fun _ _ => True) w₀ as w → w.token.excluded a = true → w.Weightless a t

/-! ## Alice, Bob and the block before the exclusion -/

namespace Sample

def excluded : VotesWorld := runTo (step votes) start exclusion

theorem excluded_run : Run (step votes) (fun _ _ => True) start exclusion excluded :=
  Run.of_runTo (allowedM_of_forall fun _ _ _ => trivial) (by decide +kernel)

def args : GembaGovernor.Args where
  timelock := governance
  votingDelay := 1
  votingPeriod := 100
  proposalThreshold := 0
  quorumNumerator := 4
  supermajorityNumerator := 51
  criticalQuorumNumerator := 51
  criticalSupermajorityNumerator := 66

/-- What a Governor sees of the chain. -/
def view (w : VotesWorld) : View := ⟨w.block, w.token, fun _ => none⟩

/-- A payment of one, to be voted on with the votes of the second block. -/
def proposal : ProposalId := ⟨[⟨7, 1, []⟩], 0⟩

/-- Bob proposes in the first block, before Alice is excluded, and votes in the third, when she is: the
    votes for his proposal. -/
def forVotes : Call Nat := do
  let g ← GembaGovernor.construct args 1
  let g ← g.propose 3 (view (runTo (step votes) start (exclusion.take 2))) bob proposal.calls
    ⟨proposal.descriptionHash, none⟩
  let g ← g.castVote (view excluded) bob proposal 1
  .ok (g.proposalVotes proposal).forVotes

end Sample

open Sample in
theorem exclusion_immediate_iff_sample :
    ¬ excluded.Weightless alice 2 ∧ ∀ weight, excluded.Castable 2 alice weight → weight = 0 := by
  obtain ⟨hiff, -, hown⟩ := exclusion_immediate_iff start_genesis excluded_run (a := alice)
    (by decide +kernel) 2
  exact ⟨fun h => absurd (hiff.mp h) (by decide +kernel), hown⟩

open Sample in
theorem delegated_votes_survive_exclusion : ¬ ExclusionImmediate ∧ forVotes = .ok 100 := by
  refine ⟨?_, by decide +kernel⟩
  intro himmediate
  have hs := sound_run start_genesis excluded_run
  have hr := remembered_run start_genesis excluded_run
  have hweightless : excluded.Weightless alice 2 :=
    himmediate start_genesis excluded_run (by decide +kernel)
  exact absurd ((weightless_iff hs hr).mp hweightless) (by decide +kernel)

end VotesWorld
end Gemba.Governance
