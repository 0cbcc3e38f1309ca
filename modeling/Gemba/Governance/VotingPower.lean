/-
  Where the voting power of `GembaVotes` is.

  The contract never adds balances up.  It keeps, for every delegatee, the power it should have, and
  moves the right amount from one delegatee to another with every mint, burn, transfer and delegation;
  an exclusion does it too.  `Sound` is what that bookkeeping is for: the newest checkpoint of a
  delegatee is the sum of the balances delegated to it, the total supply is the sum of all balances,
  and an excluded account delegates to nobody.

  `Changed` says once what a call can do to a token, and each function of the contract is shown to do
  that.  That `Sound` is kept is then one proof with four cases.

  1. `moveDelegateVotes_pushed` — power moves between two delegatees, at the current block only.
  2. `call_changed`             — what a call does.
  3. `Changed.sound`            — the invariant is kept.
-/
import Gemba.Lib.Representatives
import Gemba.Evm.Holders
import Gemba.Governance.GembaVotes

namespace Gemba.Governance

open Gemba.Lib Gemba.Evm
open Gemba.Reserves (Send)

namespace GembaVotes

/-! ## Moving power -/

/-- `amount` of power moved from the checkpoints of `src` to those of `dst`, at block `clock`.  The
    zero address has none. -/
structure Pushed (clock : Nat) (src dst : Address) (amount : Nat) (t t' : Address → History) :
    Prop where
  latest : ∀ d, d ≠ 0 → (t' d).latest + (if src = d then amount else 0)
    = (t d).latest + if dst = d then amount else 0
  nobody : t' 0 = t 0
  past : ∀ d, ∀ tp < clock, (t' d).upperLookup tp = (t d).upperLookup tp
  upto : (∀ d, (t d).Upto clock) → ∀ d, (t' d).Upto clock
  small : (∀ d, ∀ p ∈ t d, p.2 < 2 ^ 208) → ∀ d, ∀ p ∈ t' d, p.2 < 2 ^ 208

variable {s s' : GembaVotes} {clock : Nat} {src dst account delegatee : Address} {amount value : Nat}

theorem Pushed.refl (t : Address → History) (h : src = dst ∨ amount = 0) :
    Pushed clock src dst amount t t := by
  refine ⟨?_, rfl, fun _ _ _ => rfl, id, id⟩
  intro d _
  rcases h with rfl | rfl
  · rfl
  · rw [ite_self, ite_self]

/-- The delegatee that loses, then the one that gains. -/
theorem Pushed.trans {t t₁ t' : Address → History} (h : Pushed clock src 0 amount t t₁)
    (h' : Pushed clock 0 dst amount t₁ t') : Pushed clock src dst amount t t' := by
  refine ⟨?_, h'.nobody.trans h.nobody, ?_, fun hup => h'.upto (h.upto hup),
    fun hsmall => h'.small (h.small hsmall)⟩
  · intro d hd
    have hfirst := h.latest d hd
    have hsecond := h'.latest d hd
    rw [if_neg hd.symm] at hfirst hsecond
    omega
  · intro d tp htp
    rw [h'.past d tp htp, h.past d tp htp]

/-- What a push does to a trace. -/
theorem push_small {t t' : History} {v : Nat} (h : t.push clock v = some t') (hv : v < 2 ^ 208)
    (hsmall : ∀ p ∈ t, p.2 < 2 ^ 208) : ∀ p ∈ t', p.2 < 2 ^ 208 := by
  obtain ⟨rest, rfl, hrest⟩ := Trace.push_eq_some h
  intro p hp
  rcases List.mem_cons.mp hp with rfl | hp
  · exact hv
  · rcases hrest with rfl | ⟨old, rfl⟩
    · exact hsmall p hp
    · exact hsmall p (List.mem_cons_of_mem _ hp)

/-- The newest value of a trace with small values is small. -/
theorem latest_small {t : History} (hsmall : ∀ p ∈ t, p.2 < 2 ^ 208) : t.latest < 2 ^ 208 := by
  cases t with
  | nil => exact Nat.two_pow_pos 208
  | cons p rest => exact hsmall p List.mem_cons_self

theorem upperLookup_small {t : History} (hsmall : ∀ p ∈ t, p.2 < 2 ^ 208) (tp : Nat) :
    t.upperLookup tp < 2 ^ 208 := by
  induction t with
  | nil => exact Nat.two_pow_pos 208
  | cons p rest ih =>
    obtain ⟨k, v⟩ := p
    show (if k ≤ tp then v else Trace.upperLookup rest tp) < 2 ^ 208
    by_cases hk : k ≤ tp
    · rw [if_pos hk]
      exact hsmall (k, v) List.mem_cons_self
    · rw [if_neg hk]
      exact ih fun q hq => hsmall q (List.mem_cons_of_mem _ hq)

/-- The power of one delegatee becomes `v`: it is the one that loses, or the one that gains. -/
theorem push_pushed {t : History} {a : Address} {v : Nat} (ha : a ≠ 0) (hsrc : src = a ∨ src = 0)
    (hdst : dst = a ∨ dst = 0) (hpush : (s.delegateCheckpoints a).push clock v = some t)
    (hlatest : v + (if src = a then amount else 0)
      = (s.delegateCheckpoints a).latest + if dst = a then amount else 0)
    (hv : (∀ p ∈ s.delegateCheckpoints a, p.2 < 2 ^ 208) → v < 2 ^ 208) :
    Pushed clock src dst amount s.delegateCheckpoints (s.setCheckpoints a t).delegateCheckpoints := by
  have hother : ∀ {x d : Address}, x = a ∨ x = 0 → d ≠ 0 → d ≠ a → x ≠ d := by
    rintro x d (rfl | rfl) hd hda
    · exact hda.symm
    · exact hd.symm
  refine ⟨?_, ?_, ?_, ?_, ?_⟩
  · intro d hd
    show (if d = a then t else _).latest + _ = _
    by_cases hda : d = a
    · rw [hda, if_pos rfl, Trace.latest_push hpush]
      exact hlatest
    · rw [if_neg hda, if_neg (hother hsrc hd hda), if_neg (hother hdst hd hda)]
  · exact if_neg ha.symm
  · intro d tp htp
    show (if d = a then t else _).upperLookup tp = _
    by_cases hda : d = a
    · rw [if_pos hda, hda, Trace.upperLookup_push_of_lt hpush htp]
    · rw [if_neg hda]
  · intro hup d
    show (if d = a then t else _).Upto clock
    by_cases hda : d = a
    · rw [if_pos hda]
      exact (hup a).push hpush le_rfl
    · rw [if_neg hda]
      exact hup d
  · intro hsmall d
    show ∀ p ∈ (if d = a then t else _), _
    by_cases hda : d = a
    · rw [if_pos hda]
      exact push_small hpush (hv (hsmall a)) (hsmall a)
    · rw [if_neg hda]
      exact hsmall d

/-- A delegatee loses power. -/
theorem pushSubtract_pushed {t : History} (hsrc : src ≠ 0)
    (h : pushSubtract (s.delegateCheckpoints src) clock amount = .ok t) :
    Pushed clock src 0 amount s.delegateCheckpoints (s.setCheckpoints src t).delegateCheckpoints := by
  obtain ⟨delta, hdelta, hsub⟩ := bind_eq_ok.mp h
  obtain ⟨v, hv, hpushed⟩ := bind_eq_ok.mp hsub
  obtain ⟨-, hamount⟩ := toUint_eq_ok.mp hdelta
  obtain ⟨hle, hvalue⟩ := sub_eq_ok.mp hv
  rw [hamount] at hle hvalue
  refine push_pushed hsrc (.inl rfl) (.inr rfl) (pushCheckpoint_eq_ok.mp hpushed) ?_ fun hsmall => ?_
  · rw [if_pos rfl, if_neg hsrc.symm]
    omega
  · have hlatest := latest_small hsmall
    omega

/-- A delegatee gains power. -/
theorem pushAdd_pushed {t : History} (hdst : dst ≠ 0)
    (h : pushAdd (s.delegateCheckpoints dst) clock amount = .ok t) :
    Pushed clock 0 dst amount s.delegateCheckpoints (s.setCheckpoints dst t).delegateCheckpoints := by
  obtain ⟨delta, hdelta, hadd⟩ := bind_eq_ok.mp h
  obtain ⟨hfits, hpushed⟩ := failIf_bind_eq_ok.mp hadd
  obtain ⟨-, hamount⟩ := toUint_eq_ok.mp hdelta
  rw [not_le] at hfits
  rw [hamount] at hfits hpushed
  refine push_pushed hdst (.inr rfl) (.inl rfl) (pushCheckpoint_eq_ok.mp hpushed) ?_ fun _ => hfits
  rw [if_neg hdst.symm, if_pos rfl]
  rfl

/-- **Moving power** changes the checkpoints of two delegatees and nothing else. -/
theorem moveDelegateVotes_pushed (h : s.moveDelegateVotes clock src dst amount = .ok s') :
    ∃ t, s' = { s with delegateCheckpoints := t } ∧
      Pushed clock src dst amount s.delegateCheckpoints t := by
  unfold moveDelegateVotes at h
  by_cases hnop : src = dst ∨ amount = 0
  · rw [if_pos hnop] at h
    injection h with h
    exact ⟨s.delegateCheckpoints, h.symm, .refl _ hnop⟩
  rw [if_neg hnop] at h
  obtain ⟨s₁, h₁, h₂⟩ := bind_eq_ok.mp h
  have hlose : ∃ t₁, s₁ = { s with delegateCheckpoints := t₁ } ∧
      Pushed clock src 0 amount s.delegateCheckpoints t₁ := by
    by_cases hsrc : src = 0
    · rw [if_pos hsrc] at h₁
      injection h₁ with h₁
      exact ⟨s.delegateCheckpoints, h₁.symm, .refl _ (Or.inl hsrc)⟩
    · rw [if_neg hsrc] at h₁
      obtain ⟨t₁, ht₁, h₁⟩ := bind_eq_ok.mp h₁
      injection h₁ with h₁
      exact ⟨_, h₁.symm, pushSubtract_pushed hsrc ht₁⟩
  obtain ⟨t₁, rfl, hlost⟩ := hlose
  by_cases hdst : dst = 0
  · rw [if_pos hdst] at h₂
    injection h₂ with h₂
    exact ⟨t₁, h₂.symm, hdst ▸ hlost⟩
  · rw [if_neg hdst] at h₂
    obtain ⟨t₂, ht₂, h₂⟩ := bind_eq_ok.mp h₂
    injection h₂ with h₂
    exact ⟨_, h₂.symm, hlost.trans (pushAdd_pushed hdst ht₂)⟩

/-! ## What a call does -/

/-- A mint, a burn or a transfer, and the power that goes with it. -/
structure Moved (clock : Nat) (src dst : Address) (value : Nat) (s s' : GembaVotes) : Prop where
  free : dst ≠ 0 → s.excluded dst = false
  supply : s'.erc20.totalSupply
    = (s.erc20.totalSupply + if src = 0 then value else 0) - if dst = 0 then value else 0
  balances : ∀ x, s'.erc20.balances x + at' src value x = s.erc20.balances x + at' dst value x
  delegates : s'.delegates = s.delegates
  excluded : s'.excluded = s.excluded
  pushed : Pushed clock (s.delegates src) (s.delegates dst) value s.delegateCheckpoints
    s'.delegateCheckpoints

/-- **What a call does to the token.** -/
inductive Changed (clock : Nat) (s s' : GembaVotes) : Prop where
  | moved (src dst : Address) (value : Nat) (h : Moved clock src dst value s s')
  /-- An account delegates, on its own or because it is excluded now. -/
  | delegated (account delegatee : Address) (haccount : account = 0 → delegatee = 0)
      (hexcluded : ∀ a, s'.excluded a = true → s.excluded a = true ∨ a = account)
      (hfree : s'.excluded account = true → delegatee = 0)
      (hsupply : s'.erc20.totalSupply = s.erc20.totalSupply)
      (hbalances : s'.erc20.balances = s.erc20.balances)
      (hdelegates : ∀ a, s'.delegates a = if a = account then delegatee else s.delegates a)
      (hpushed : Pushed clock (s.delegates account) delegatee (s.erc20.balances account)
        s.delegateCheckpoints s'.delegateCheckpoints)
  /-- Nothing but allowances, nonces and the guard, and maybe an account that is excluded no more. -/
  | quiet (hexcluded : ∀ a, s'.excluded a = true → s.excluded a = true)
      (hsupply : s'.erc20.totalSupply = s.erc20.totalSupply)
      (hbalances : s'.erc20.balances = s.erc20.balances) (hdelegates : s'.delegates = s.delegates)
      (hcheckpoints : s'.delegateCheckpoints = s.delegateCheckpoints)

theorem Changed.refl (s : GembaVotes) : Changed clock s s :=
  .quiet (fun _ => id) rfl rfl rfl rfl

theorem update_moved (h : s.update clock src dst value = .ok s') :
    Moved clock src dst value s s' := by
  obtain ⟨⟨⟩, hfree, h⟩ := bind_eq_ok.mp h
  obtain ⟨erc20, herc20, h⟩ := bind_eq_ok.mp h
  obtain ⟨-, h⟩ := failIf_bind_eq_ok.mp h
  obtain ⟨s₁, h₁, h⟩ := bind_eq_ok.mp h
  obtain ⟨s₂, h₂, h⟩ := bind_eq_ok.mp h
  rw [failIf_eq_ok, not_and, Bool.not_eq_true] at hfree
  -- the checkpoints of the total come first, and are all that changes
  have htotal₁ : ∃ t, s₁ = { s with erc20 := erc20, totalCheckpoints := t } := by
    by_cases hsrc : src = 0
    · rw [if_pos hsrc] at h₁
      obtain ⟨t, -, h₁⟩ := bind_eq_ok.mp h₁
      injection h₁ with h₁
      exact ⟨t, h₁.symm⟩
    · rw [if_neg hsrc] at h₁
      injection h₁ with h₁
      exact ⟨s.totalCheckpoints, h₁.symm⟩
  obtain ⟨t₁, rfl⟩ := htotal₁
  have htotal₂ : ∃ t, s₂ = { s with erc20 := erc20, totalCheckpoints := t } := by
    by_cases hdst : dst = 0
    · rw [if_pos hdst] at h₂
      obtain ⟨t, -, h₂⟩ := bind_eq_ok.mp h₂
      injection h₂ with h₂
      exact ⟨t, h₂.symm⟩
    · rw [if_neg hdst] at h₂
      injection h₂ with h₂
      exact ⟨t₁, h₂.symm⟩
  obtain ⟨t₂, rfl⟩ := htotal₂
  obtain ⟨t, rfl, hpushed⟩ := moveDelegateVotes_pushed h
  exact ⟨hfree, Erc20.update_totalSupply herc20, erc20_update_balances herc20, rfl, rfl, hpushed⟩

theorem transfer_moved (h : s.transfer clock src dst value = .ok s') :
    (src ≠ 0 ∧ dst ≠ 0) ∧ Moved clock src dst value s s' := by
  obtain ⟨⟨⟩, hsrc, h⟩ := bind_eq_ok.mp h
  obtain ⟨⟨⟩, hdst, h⟩ := bind_eq_ok.mp h
  exact ⟨⟨failIf_eq_ok.mp hsrc, failIf_eq_ok.mp hdst⟩, update_moved h⟩

theorem erc20_approve_eq {e e' : Erc20} (h : e.approve src dst value = .ok e') :
    e'.balances = e.balances ∧ e'.totalSupply = e.totalSupply := by
  obtain ⟨-, h⟩ := failIf_bind_eq_ok.mp h
  obtain ⟨-, h⟩ := failIf_bind_eq_ok.mp h
  injection h with h
  rw [← h]
  exact ⟨rfl, rfl⟩

theorem erc20_spendAllowance_eq {e e' : Erc20} (h : e.spendAllowance src dst value = .ok e') :
    e'.balances = e.balances ∧ e'.totalSupply = e.totalSupply := by
  unfold Erc20.spendAllowance at h
  split at h
  · obtain ⟨⟨⟩, -, h⟩ := bind_eq_ok.mp h
    exact erc20_approve_eq h
  · injection h with h
    rw [h]
    exact ⟨rfl, rfl⟩

/-- What is moved in a token that differs in allowances only is moved in the token. -/
theorem Moved.of_erc20 {e : Erc20} (h : Moved clock src dst value { s with erc20 := e } s')
    (he : e.balances = s.erc20.balances ∧ e.totalSupply = s.erc20.totalSupply) :
    Moved clock src dst value s s' := by
  obtain ⟨hbal, hsup⟩ := he
  refine ⟨h.free, ?_, ?_, h.delegates, h.excluded, h.pushed⟩
  · rw [← hsup]
    exact h.supply
  · rw [← hbal]
    exact h.balances

/-- An account delegates; the token's exclusions may be about to change. -/
theorem moveDelegation_changed (h : s.moveDelegation clock account delegatee = .ok s')
    (haccount : account = 0 → delegatee = 0) (hfree : s.excluded account = true → delegatee = 0) :
    Changed clock s s' := by
  obtain ⟨t, rfl, hpushed⟩ := moveDelegateVotes_pushed h
  exact .delegated account delegatee haccount (fun _ => Or.inl) hfree rfl rfl (fun _ => rfl) hpushed

theorem delegate_changed (h : s.delegate clock account delegatee = .ok s') (haccount : account ≠ 0) :
    Changed clock s s' := by
  obtain ⟨hfree, h⟩ := failIf_bind_eq_ok.mp h
  rw [not_and, not_not] at hfree
  exact moveDelegation_changed h (fun he => absurd he haccount) hfree

theorem setExcluded_changed {sender : Address} {isExcluded : Bool}
    (h : s.setExcluded clock sender account isExcluded = .ok s') : Changed clock s s' := by
  obtain ⟨-, h⟩ := failIf_bind_eq_ok.mp h
  cases isExcluded with
  | false =>
    injection h with h
    subst h
    refine .quiet ?_ rfl rfl rfl rfl
    intro a ha
    dsimp only at ha
    have hne : ¬ a = account := by
      intro he
      rw [if_pos he] at ha
      nomatch ha
    rw [if_neg hne] at ha
    exact ha
  | true =>
    obtain ⟨t, rfl, hpushed⟩ := moveDelegateVotes_pushed h
    refine .delegated account 0 (fun _ => rfl) ?_ (fun _ => rfl) rfl rfl (fun _ => rfl) hpushed
    intro a ha
    by_cases he : a = account
    · exact Or.inr he
    · exact Or.inl ((if_neg he).symm.trans ha)

theorem delegateBySig_changed {b : Block} {nonce expiry : Nat}
    (h : s.delegateBySig b account delegatee nonce expiry = .ok s') : Changed b.number s s' := by
  obtain ⟨-, h⟩ := failIf_bind_eq_ok.mp h
  obtain ⟨⟨⟩, haccount, h⟩ := bind_eq_ok.mp h
  obtain ⟨-, h⟩ := failIf_bind_eq_ok.mp h
  rw [failIf_eq_ok] at haccount
  cases delegate_changed h haccount with
  | moved src dst value h => exact .moved src dst value ⟨h.1, h.2, h.3, h.4, h.5, h.6⟩
  | delegated a d ha hexcluded hfree hsupply hbalances hdelegates hpushed =>
    exact .delegated a d ha hexcluded hfree hsupply hbalances hdelegates hpushed
  | quiet hexcluded hsupply hbalances hdelegates hcheckpoints =>
    exact .quiet hexcluded hsupply hbalances hdelegates hcheckpoints

theorem approve_changed (h : s.approve src dst value = .ok s') : Changed clock s s' := by
  obtain ⟨e, he, h⟩ := bind_eq_ok.mp h
  injection h with h
  subst h
  obtain ⟨hbal, hsup⟩ := erc20_approve_eq he
  exact .quiet (fun _ => id) hsup hbal rfl rfl

theorem permit_changed {b : Block} {deadline : Nat} (h : s.permit b src dst value deadline = .ok s') :
    Changed clock s s' := by
  obtain ⟨-, h⟩ := failIf_bind_eq_ok.mp h
  obtain ⟨e, he, h⟩ := bind_eq_ok.mp h
  injection h with h
  subst h
  obtain ⟨hbal, hsup⟩ := erc20_approve_eq he
  exact .quiet (fun _ => id) hsup hbal rfl rfl

theorem finishSend_changed : Changed clock s s.finishSend := .quiet (fun _ => id) rfl rfl rfl rfl

/-- **What a call of an account does**, and what it sends out. -/
theorem call_changed {b : Block} {sender : Address} {fn : VotesFn} {out : Option Send}
    (h : s.call b sender value fn = .ok (s', out)) (hsender : sender ≠ 0) :
    Changed b.number s s' := by
  replace h := called_of_call h
  cases h with
  | mint dst hdst h => exact .moved 0 dst value (update_moved h)
  | burn dst amount hsender h =>
    have hmoved := update_moved h
    exact .moved sender 0 amount
      ⟨hmoved.1, hmoved.2, hmoved.3, hmoved.4, hmoved.5, hmoved.6⟩
  | transfer dst amount h => exact .moved sender dst amount (transfer_moved h).2
  | transferFrom src dst amount herc20 h =>
    exact .moved src dst amount ((transfer_moved h).2.of_erc20 (erc20_spendAllowance_eq herc20))
  | approve spender amount h => exact approve_changed h
  | delegate delegatee h => exact delegate_changed h hsender
  | setExcluded account isExcluded h => exact setExcluded_changed h

/-! ## The invariant -/

/-- **The bookkeeping is right** at block `clock`. -/
structure Sound (s : GembaVotes) (clock : Nat) : Prop where
  nobody : s.erc20.balances 0 = 0 ∧ s.delegates 0 = 0 ∧ s.delegateCheckpoints 0 = []
  supply : s.erc20.totalSupply = ∑ a, s.erc20.balances a
  power : ∀ d, d ≠ 0 →
    (s.delegateCheckpoints d).latest = gathered s.erc20.balances s.delegates d
  excluded : ∀ a, s.excluded a = true → s.delegates a = 0
  upto : ∀ d, (s.delegateCheckpoints d).Upto clock
  small : ∀ d, ∀ p ∈ s.delegateCheckpoints d, p.2 < 2 ^ 208

theorem construct_sound {governance : Address} {initialExcluded : List Address}
    (h : construct governance initialExcluded = .ok s) : Sound s clock := by
  obtain ⟨-, h⟩ := failIf_bind_eq_ok.mp h
  injection h with h
  subst h
  refine ⟨⟨rfl, rfl, rfl⟩, ?_, ?_, fun _ _ => rfl, ?_, ?_⟩
  · exact Finset.sum_const_zero.symm
  · intro d hd
    unfold gathered
    exact (Finset.sum_eq_zero fun a _ => ite_self _).symm
  · intro d p hp
    nomatch hp
  · intro d p hp
    nomatch hp

theorem Sound.later {later : Nat} (h : Sound s clock) (hle : clock ≤ later) : Sound s later :=
  ⟨h.nobody, h.supply, h.power, h.excluded, fun d => (h.upto d).mono hle, h.small⟩

/-- What an account holds is part of the supply. -/
theorem Sound.balance_le (h : Sound s clock) (a : Address) :
    s.erc20.balances a ≤ s.erc20.totalSupply := by
  rw [h.supply]
  exact Finset.single_le_sum (fun x _ => Nat.zero_le (s.erc20.balances x)) (Finset.mem_univ a)

/-- The balances at an account are gathered by its delegatee. -/
theorem gathered_at {rep : Address → Address} {d : Address} (hrep : rep 0 = 0) (hd : d ≠ 0)
    (a : Address) (v : Nat) : gathered (at' a v) rep d = if rep a = d then v else 0 := by
  unfold at'
  rw [gathered_single]
  by_cases ha : a = 0
  · subst ha
    rw [hrep, if_pos rfl, ite_self, if_neg hd.symm]
  · rw [if_neg ha]

/-- **Every call keeps the bookkeeping right.** -/
theorem Changed.sound (h : Changed clock s s') (hs : Sound s clock) : Sound s' clock := by
  obtain ⟨hbalance0, hdelegate0, hcheckpoint0⟩ := hs.nobody
  cases h with
  | moved src dst value h =>
    obtain ⟨-, hsupply, hbalances, hdelegates, hexcluded, hpushed⟩ := h
    obtain ⟨hzero, htotal⟩ := Erc20.Backed.update ⟨hbalance0, hs.supply⟩ hsupply hbalances
    refine ⟨⟨hzero, by rw [hdelegates, hdelegate0], by rw [hpushed.nobody, hcheckpoint0]⟩,
      htotal, ?_, ?_, hpushed.upto hs.upto, hpushed.small hs.small⟩
    · intro d hd
      have hlatest := hpushed.latest d hd
      have hgathered : gathered _ s.delegates d + gathered _ s.delegates d
          = gathered _ s.delegates d + gathered _ s.delegates d := gathered_balance hbalances
      rw [gathered_at hdelegate0 hd, gathered_at hdelegate0 hd] at hgathered
      rw [hs.power d hd] at hlatest
      rw [hdelegates]
      omega
    · intro a ha
      rw [hdelegates]
      rw [hexcluded] at ha
      exact hs.excluded a ha
  | delegated account delegatee haccount hexcluded hfree hsupply hbalances hdelegates hpushed =>
    have hdelegates0 : s'.delegates 0 = 0 := by
      rw [hdelegates]
      by_cases ha : (0 : Address) = account
      · rw [if_pos ha]
        exact haccount ha.symm
      · rw [if_neg ha]
        exact hdelegate0
    refine ⟨⟨by rw [hbalances, hbalance0], hdelegates0, by rw [hpushed.nobody, hcheckpoint0]⟩,
      by rw [hsupply, hbalances, hs.supply], ?_, ?_, hpushed.upto hs.upto, hpushed.small hs.small⟩
    · intro d hd
      have hlatest := hpushed.latest d hd
      have hrename : gathered s.erc20.balances s'.delegates d
          + (if s.delegates account = d then s.erc20.balances account else 0)
          = gathered s.erc20.balances s.delegates d
            + if s'.delegates account = d then s.erc20.balances account else 0 := by
        apply gathered_rename
        intro x hx
        rw [hdelegates, if_neg hx]
      have hnew : s'.delegates account = delegatee := by
        rw [hdelegates, if_pos rfl]
      rw [hnew] at hrename
      rw [hs.power d hd] at hlatest
      rw [hbalances]
      omega
    · intro a ha
      rw [hdelegates]
      by_cases he : a = account
      · subst he
        rw [if_pos rfl]
        exact hfree ha
      · rw [if_neg he]
        exact hs.excluded a ((hexcluded a ha).resolve_right he)
  | quiet hexcluded hsupply hbalances hdelegates hcheckpoints =>
    refine ⟨⟨by rw [hbalances, hbalance0], by rw [hdelegates, hdelegate0],
      by rw [hcheckpoints, hcheckpoint0]⟩, by rw [hsupply, hbalances, hs.supply], ?_, ?_, ?_, ?_⟩
    · intro d hd
      rw [hcheckpoints, hbalances, hdelegates]
      exact hs.power d hd
    · intro a ha
      rw [hdelegates]
      exact hs.excluded a (hexcluded a ha)
    · rw [hcheckpoints]
      exact hs.upto
    · rw [hcheckpoints]
      exact hs.small

/-- An excluded account receives nothing. -/
theorem Changed.balance_le (h : Changed clock s s') {a : Address}
    (hexcluded : s.excluded a = true) : s'.erc20.balances a ≤ s.erc20.balances a := by
  cases h with
  | moved src dst value h =>
    have hx := h.balances a
    have hnone : at' dst value a = 0 := by
      unfold at'
      by_cases hd : a = dst
      · rw [if_pos hd]
        by_cases hd0 : dst = 0
        · rw [if_pos hd0]
        · have hfree := h.free hd0
          rw [← hd, hexcluded] at hfree
          nomatch hfree
      · rw [if_neg hd]
    omega
  | delegated _ _ _ _ _ _ hbalances _ _ => rw [hbalances]
  | quiet _ _ hbalances _ _ => rw [hbalances]

/-- The past stays. -/
theorem Changed.past (h : Changed clock s s') (d : Address) {tp : Nat} (htp : tp < clock) :
    (s'.delegateCheckpoints d).upperLookup tp = (s.delegateCheckpoints d).upperLookup tp := by
  cases h with
  | moved _ _ _ h => exact h.pushed.past d tp htp
  | delegated _ _ _ _ _ _ _ _ hpushed => exact hpushed.past d tp htp
  | quiet _ _ _ _ hcheckpoints => rw [hcheckpoints]

end GembaVotes
end Gemba.Governance
