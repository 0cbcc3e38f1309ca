/-
  `GembaVotes` on a chain, called by anyone.

  The token calls nobody but the recipient of a withdrawal, so the rest of the chain is whoever calls
  it: any account, at any time, in any order, and the recipient of a withdrawal too while the withdrawal
  waits for it (`entered`).  A call that reverts leaves no trace and is not in the run.

  The chain keeps two things the contract does not: `native`, the native GMB at its address, which can
  also grow without a call; and `holdings`, what every account held and whom it named at the end of
  each block, which is what a vote about that block ought to weigh.

  * `votes_accounted` — the token is backed by native GMB, and the votes are counted right, in every
    state.
-/
import Gemba.Lib.Runs
import Gemba.Governance.VotingPower

namespace Gemba.Governance

open Gemba.Lib Gemba.Evm
open Gemba.Reserves (Send)

/-- Who holds what, whom they name, and who is excluded. -/
structure Holdings where
  balance : Address → Nat
  delegates : Address → Address
  excluded : Address → Bool

def GembaVotes.holdings (s : GembaVotes) : Holdings := ⟨s.erc20.balances, s.delegates, s.excluded⟩

/-- The chain around the token. -/
structure VotesWorld where
  block : Block
  token : GembaVotes
  native : Nat
  /-- The holdings at the end of each block; from the current one on, those of now. -/
  holdings : Nat → Holdings

/-- One thing that happens. -/
inductive VotesLabel where
  | block (number timestamp : Nat)
  | call (sender : Address) (value : Nat) (fn : VotesFn)
  | delegateBySig (signer delegatee : Address) (nonce expiry : Nat)
  | permit (owner spender : Address) (value deadline : Nat)
  /-- The recipient of the withdrawal returns. -/
  | finish
  /-- Native GMB arrives without a call. -/
  | gift (amount : Nat)
deriving DecidableEq, Repr

namespace VotesWorld

/-- The chain with the token changed. -/
def record (w : VotesWorld) (token : GembaVotes) : VotesWorld :=
  { w with
    token
    holdings := fun t => if w.block.number ≤ t then token.holdings else w.holdings t }

/-- One step of the chain whose token is at `self`. -/
def step (self : Address) (w : VotesWorld) : VotesLabel → Call VotesWorld
  | .block number timestamp => do
    failIf (w.token.entered = true) .external
    failIf (number ≤ w.block.number ∨ 2 ^ 48 ≤ number ∨ timestamp < w.block.timestamp) .external
    .ok { w with block := ⟨number, timestamp⟩ }
  | .call sender value fn => do
    -- nobody calls from the zero address, and the token not from its own
    failIf (sender = 0 ∨ sender = self) .external
    let (token, out) ← w.token.call w.block sender value fn
    match out with
    | none => .ok { w.record token with native := w.native + value }
    | some s => do
      -- the token itself has no `receive`
      failIf (s.dst = self ∨ w.native + value < s.amount) (err "NativeSendFailed")
      .ok { w.record token with native := w.native + value - s.amount }
  | .delegateBySig signer delegatee nonce expiry => do
    let token ← w.token.delegateBySig w.block signer delegatee nonce expiry
    .ok (w.record token)
  | .permit owner spender value deadline => do
    let token ← w.token.permit w.block owner spender value deadline
    .ok (w.record token)
  | .finish => do
    failIf (w.token.entered = false) .external
    .ok (w.record w.token.finishSend)
  | .gift amount => .ok { w with native := w.native + amount }

/-- The token has just been deployed. -/
structure Genesis (w : VotesWorld) : Prop where
  token : ∃ governance initialExcluded, GembaVotes.construct governance initialExcluded = .ok w.token
  holdings : w.holdings = fun _ => w.token.holdings

end VotesWorld

/-! ## What a call is worth -/

namespace GembaVotes

variable {s s' : GembaVotes} {clock : Nat} {src dst account delegatee : Address} {value : Nat}

theorem Moved.burnt (h : Moved clock src 0 value s s') (hsrc : src ≠ 0) (hs : s.Sound clock) :
    s'.erc20.totalSupply + value = s.erc20.totalSupply := by
  have hbalance := h.balances src
  have hsupply := h.supply
  have hle := hs.balance_le src
  unfold at' at hbalance
  rw [if_pos rfl, if_neg hsrc, if_neg hsrc, Nat.add_zero] at hbalance
  rw [if_neg hsrc, if_pos rfl, Nat.add_zero] at hsupply
  omega

theorem moveDelegation_erc20 (h : s.moveDelegation clock account delegatee = .ok s') :
    s'.erc20 = s.erc20 := by
  obtain ⟨t, rfl, -⟩ := moveDelegateVotes_pushed h
  rfl

/-- **A call mints what it pays and burns what it is paid.** -/
theorem call_paid {b : Block} {sender : Address} {fn : VotesFn} {out : Option Send}
    (h : s.call b sender value fn = .ok (s', out)) (hs : s.Sound b.number) :
    s'.erc20.totalSupply + (out.elim 0 Send.amount) ≤ s.erc20.totalSupply + value := by
  replace h := called_of_call h
  cases h with
  | mint dst hdst h =>
    have hsupply := (update_moved h).supply
    rw [if_pos rfl, if_neg hdst] at hsupply
    rw [hsupply]
    exact le_rfl
  | @burn s₁ dst amount hsender h =>
    have hburnt := (update_moved h).burnt hsender hs
    show s₁.erc20.totalSupply + amount ≤ _
    omega
  | transfer dst amount h =>
    obtain ⟨⟨hsrc, hdst⟩, hmoved⟩ := transfer_moved h
    have hsupply := hmoved.supply
    rw [if_neg hsrc, if_neg hdst] at hsupply
    rw [hsupply]
    exact Nat.le_add_right _ _
  | transferFrom src dst amount herc20 h =>
    obtain ⟨⟨hsrc, hdst⟩, hmoved⟩ := transfer_moved h
    have hsupply := (hmoved.of_erc20 (erc20_spendAllowance_eq herc20)).supply
    rw [if_neg hsrc, if_neg hdst] at hsupply
    rw [hsupply]
    exact Nat.le_add_right _ _
  | approve spender amount h =>
    obtain ⟨e, he, h⟩ := bind_eq_ok.mp h
    injection h with h
    rw [← h]
    show e.totalSupply + 0 ≤ _
    rw [(erc20_approve_eq he).2]
    exact Nat.le_add_right _ _
  | delegate delegatee h =>
    obtain ⟨-, h⟩ := failIf_bind_eq_ok.mp h
    rw [moveDelegation_erc20 h]
    exact Nat.le_add_right _ _
  | setExcluded account isExcluded h =>
    obtain ⟨-, h⟩ := failIf_bind_eq_ok.mp h
    cases isExcluded with
    | false =>
      injection h with h
      rw [← h]
      exact Nat.le_add_right _ _
    | true =>
      have herc20 := moveDelegation_erc20 h
      rw [herc20]
      exact Nat.le_add_right _ _

end GembaVotes

/-! ## Runs -/

namespace VotesWorld

variable {self : Address} {w w' w₀ : VotesWorld} {l : VotesLabel} {as bs : List VotesLabel}
  {P : VotesWorld → VotesLabel → Prop}

/-- **What a step does**: it changes the token, paid in or out by native GMB, or only time and native
    GMB pass. -/
inductive Stepped (w w' : VotesWorld) : Prop where
  | changed {token : GembaVotes} (value amount : Nat)
      (h : GembaVotes.Changed w.block.number w.token token)
      (hsupply : w.token.Sound w.block.number →
        token.erc20.totalSupply + amount ≤ w.token.erc20.totalSupply + value)
      (hpaid : amount ≤ w.native + value)
      (hw : w' = { w.record token with native := w.native + value - amount })
  | later {block : Block} {native : Nat} (hblock : w.block.number ≤ block.number)
      (hnative : w.native ≤ native) (hw : w' = { w with block, native })

theorem step_inv (h : step self w l = .ok w') : Stepped w w' := by
  cases l with
  | block number timestamp =>
    obtain ⟨-, h⟩ := failIf_bind_eq_ok.mp h
    obtain ⟨hblock, h⟩ := failIf_bind_eq_ok.mp h
    injection h with h
    subst h
    refine .later ?_ le_rfl rfl
    show w.block.number ≤ number
    omega
  | call sender value fn =>
    obtain ⟨⟨⟩, hsender, h⟩ := bind_eq_ok.mp h
    obtain ⟨⟨token, out⟩, hcall, h⟩ := bind_eq_ok.mp h
    rw [failIf_eq_ok, not_or] at hsender
    have hchanged := GembaVotes.call_changed hcall hsender.1
    have hpaid := GembaVotes.call_paid hcall
    cases out with
    | none =>
      injection h with h
      exact .changed value 0 hchanged hpaid (Nat.zero_le _) h.symm
    | some s =>
      obtain ⟨hfunds, h⟩ := failIf_bind_eq_ok.mp h
      rw [not_or, not_lt] at hfunds
      injection h with h
      exact .changed value s.amount hchanged hpaid hfunds.2 h.symm
  | delegateBySig signer delegatee nonce expiry =>
    obtain ⟨token, hsig, h⟩ := bind_eq_ok.mp h
    injection h with h
    refine .changed 0 0 (GembaVotes.delegateBySig_changed hsig) ?_ (Nat.zero_le _) h.symm
    intro _
    obtain ⟨-, hsig⟩ := failIf_bind_eq_ok.mp hsig
    obtain ⟨-, hsig⟩ := failIf_bind_eq_ok.mp hsig
    obtain ⟨-, hsig⟩ := failIf_bind_eq_ok.mp hsig
    obtain ⟨-, hsig⟩ := failIf_bind_eq_ok.mp hsig
    have herc20 := GembaVotes.moveDelegation_erc20 hsig
    rw [herc20]
  | permit owner spender value deadline =>
    obtain ⟨token, hpermit, h⟩ := bind_eq_ok.mp h
    injection h with h
    refine .changed 0 0 (GembaVotes.permit_changed hpermit) ?_ (Nat.zero_le _) h.symm
    intro _
    obtain ⟨-, hpermit⟩ := failIf_bind_eq_ok.mp hpermit
    obtain ⟨e, he, hpermit⟩ := bind_eq_ok.mp hpermit
    injection hpermit with hpermit
    rw [← hpermit]
    exact (GembaVotes.erc20_approve_eq he).2.le
  | finish =>
    obtain ⟨-, h⟩ := failIf_bind_eq_ok.mp h
    injection h with h
    exact .changed 0 0 GembaVotes.finishSend_changed (fun _ => le_rfl) (Nat.zero_le _) h.symm
  | gift amount =>
    injection h with h
    subst h
    exact .later le_rfl (Nat.le_add_right _ _) rfl

/-- **The invariant of the chain**: the token's bookkeeping is right, it is backed by native GMB, and
    the holdings of the current block are those of now. -/
structure Sound (w : VotesWorld) : Prop where
  token : w.token.Sound w.block.number
  backed : w.token.erc20.totalSupply ≤ w.native
  now : ∀ t, w.block.number ≤ t → w.holdings t = w.token.holdings

theorem Genesis.sound (h : Genesis w) : Sound w := by
  obtain ⟨governance, initialExcluded, hconstruct⟩ := h.token
  refine ⟨GembaVotes.construct_sound hconstruct, ?_, ?_⟩
  · obtain ⟨⟨⟩, -, hconstruct⟩ := bind_eq_ok.mp hconstruct
    injection hconstruct with hconstruct
    rw [← hconstruct]
    exact Nat.zero_le _
  · intro t _
    rw [h.holdings]

theorem Stepped.sound (h : Stepped w w') (hs : Sound w) : Sound w' := by
  cases h with
  | @changed token value amount h hsupply hpaid hw =>
    subst hw
    have hle := hsupply hs.token
    have hbacked := hs.backed
    refine ⟨h.sound hs.token, ?_, ?_⟩
    · show token.erc20.totalSupply ≤ w.native + value - amount
      omega
    · intro t ht
      exact if_pos ht
  | later hblock hnative hw =>
    subst hw
    exact ⟨hs.token.later hblock, hs.backed.trans hnative, fun t ht => hs.now t (hblock.trans ht)⟩

theorem sound_run (hgen : Genesis w₀) (h : Run (step self) P w₀ as w) : Sound w :=
  h.inv Sound hgen.sound fun _ _ _ hI _ hs => (step_inv hs).sound hI

/-- An excluded account does not receive. -/
theorem Stepped.balance_le (h : Stepped w w') {a : Address} (ha : w.token.excluded a = true) :
    w'.token.erc20.balances a ≤ w.token.erc20.balances a := by
  cases h with
  | changed value amount h hsupply hpaid hw =>
    subst hw
    exact h.balance_le ha
  | later hblock hnative hw =>
    subst hw
    exact le_rfl

/-- What accounts can vote with is delegated to them by accounts that are not excluded. -/
theorem sum_getVotes_le {s : GembaVotes} {clock : Nat} (hs : s.Sound clock) :
    ∑ a, s.getVotes a ≤ ∑ a, if s.excluded a = true then 0 else s.erc20.balances a := by
  have hvotes : ∀ d, s.getVotes d = if d ≠ 0 ∧ s.excluded d = false
      then gathered s.erc20.balances s.delegates d else 0 := by
    intro d
    unfold GembaVotes.getVotes
    by_cases hd : d = 0
    · subst hd
      have hnone : Trace.latest (s.delegateCheckpoints 0) = 0 := by
        rw [hs.nobody.2.2]
        rfl
      rw [hnone, ite_self, if_neg fun h => h.1 rfl]
    · rw [hs.power d hd]
      cases hex : s.excluded d with
      | true => rw [if_pos rfl, if_neg fun h => nomatch h.2]
      | false => rw [if_neg (by decide), if_pos ⟨hd, rfl⟩]
  have hfree : ∀ a, (if s.excluded a = true then 0 else s.erc20.balances a)
      = if s.excluded a = false then s.erc20.balances a else 0 := by
    intro a
    cases s.excluded a with
    | true => rfl
    | false => rfl
  rw [Finset.sum_congr rfl fun d _ => hvotes d, Finset.sum_congr rfl fun a _ => hfree a]
  apply sum_gathered_le
  intro a ha
  cases hex : s.excluded a with
  | false => rfl
  | true => exact absurd (hs.excluded a hex) ha.1

/-- **The token's accounts are right.**  In every state of every run from its deployment: the native
    GMB it has covers the supply, and the supply is the sum of the balances; an excluded account
    delegates to nobody and has no votes, and its balance has not grown, nor will it, while it is
    excluded; and all votes together are at most what accounts that are not excluded hold. -/
theorem votes_accounted (hgen : Genesis w₀) (h : Run (step self) (fun _ _ => True) w₀ as w) :
    (w.token.erc20.totalSupply ≤ w.native ∧
        w.token.erc20.totalSupply = ∑ a, w.token.erc20.balances a) ∧
      (∀ a, w.token.excluded a = true → w.token.delegates a = 0 ∧ w.token.getVotes a = 0 ∧
        ∀ bs w', Run (step self) (fun v _ => v.token.excluded a = true) w bs w' →
          w'.token.erc20.balances a ≤ w.token.erc20.balances a) ∧
      ∑ a, w.token.getVotes a
        ≤ ∑ a, if w.token.excluded a = true then 0 else w.token.erc20.balances a := by
  have hs := sound_run hgen h
  refine ⟨⟨hs.backed, hs.token.supply⟩, ?_, sum_getVotes_le hs.token⟩
  intro a ha
  refine ⟨hs.token.excluded a ha, if_pos ha, ?_⟩
  intro bs w' hrun
  refine hrun.inv (fun v => v.token.erc20.balances a ≤ w.token.erc20.balances a) le_rfl ?_
  intro v _ v' hle hexcluded hstep
  exact ((step_inv hstep).balance_le hexcluded).trans hle

/-! ## A small electorate -/

namespace Sample

def governance : Address := 1
def votes : Address := 2
def alice : Address := 10
def bob : Address := 11

def token : GembaVotes where
  governance := governance
  excluded := fun a => a ≠ 0 ∧ a ∈ [(5 : Address)]
  erc20 := .empty
  delegates := fun _ => 0
  delegateCheckpoints := fun _ => []
  totalCheckpoints := []
  nonces := fun _ => 0
  entered := false

/-- The token just deployed, with one reserve excluded. -/
def start : VotesWorld where
  block := ⟨1, 1000⟩
  token := token
  native := 0
  holdings := fun _ => token.holdings

theorem start_genesis : Genesis start := ⟨⟨governance, [5], rfl⟩, rfl⟩

/-- Alice wraps 100 and delegates them to Bob; two blocks later governance excludes her. -/
def exclusion : List VotesLabel :=
  [.call alice 100 (.depositFor alice), .call alice 0 (.delegate bob), .block 2 1002,
    .block 3 1004, .call governance 0 (.setExcluded alice true)]

/-- Bob has wrapped 7 of his own, and Alice takes 40 out to an account that wraps them again before it
    returns. -/
def reentrant : List VotesLabel :=
  [.call bob 7 (.depositFor bob), .call bob 0 (.delegate bob), .call alice 0 (.withdrawTo 12 40),
    .call 12 40 (.depositFor 12), .finish]

end Sample

open Sample in
theorem votes_accounted_sample :
    (runTo (step votes) start (exclusion ++ reentrant)).token.erc20.totalSupply ≤ 107 ∧
      (runTo (step votes) start (exclusion ++ reentrant)).token.getVotes alice = 0 := by
  have hrun : Run (step votes) (fun _ _ => True) start (exclusion ++ reentrant)
      (runTo (step votes) start (exclusion ++ reentrant)) :=
    Run.of_runTo (allowedM_of_forall fun _ _ _ => trivial) (by decide +kernel)
  obtain ⟨⟨hbacked, -⟩, hexcluded, -⟩ := votes_accounted start_genesis hrun
  have hnative : (runTo (step votes) start (exclusion ++ reentrant)).native = 107 := by
    decide +kernel
  refine ⟨hnative ▸ hbacked, (hexcluded alice (by decide +kernel)).2.1⟩

end VotesWorld
end Gemba.Governance
