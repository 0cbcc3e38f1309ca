/-
  The limits a reserve pays out within, over all the payments it has made.

  `Reserve.call_change` says what one call can do.  Here the payments are added up: a grant is counted
  in a window, and windows are apart; a drip waits for the one before it.  The limits are those the
  reserve had at the start; its owner may have tightened them since.

  * `PaidWithin`  — payments within the limits of a reserve as it was;
  * `loosens`     — a call of the owner that moves the reserve past them;
  * `Books`       — a reserve now, with its payments, against the reserve as it was;
  * `Books.call`  — a call keeps the books, if the owner loosens nothing.
-/
import Gemba.Governance.Dao

namespace Gemba.Governance

open Gemba.Lib Gemba.Evm
open Gemba.Reserves (Reserve Send Exit ReserveFn Payment BaseReserve PublicReserve GembaDripFaucet)

/-! ## Payments within limits -/

/-- What was granted in the window that started at `window`. -/
def grantedIn (window : Nat) : List Outflow → Nat
  | [] => 0
  | o :: outs => (if o.exit = .grant window then o.amount else 0) + grantedIn window outs

/-- The payments are grants within the limits of `p`: of its granter or owner, up to the cap a call
    and, if there is one, the cap a window; windows are a window's length apart. -/
structure GrantsWithin (p : PublicReserve) (outs : List Outflow) : Prop where
  grant : ∀ o ∈ outs, (o.caller = p.granter ∨ o.caller = p.owner) ∧ o.amount ≤ p.perGrantCap ∧
    ∃ window, o.exit = .grant window ∧ (p.epochCap ≠ 0 → window ≤ o.time)
  window : p.epochCap ≠ 0 → ∀ s, grantedIn s outs ≤ p.epochCap
  apart : p.epochCap ≠ 0 → ∀ s s', 0 < grantedIn s outs → 0 < grantedIn s' outs → s < s' →
    s + p.epochLength ≤ s'

/-- The payments, newest first, are drips within the limits of `f`: of at most its amount, down to
    its floor, and to one recipient a cooldown apart. -/
structure DripsWithin (f : GembaDripFaucet) (outs : List Outflow) : Prop where
  drip : ∀ o ∈ outs, o.exit = .drip ∧ o.amount ≤ f.dripAmount ∧ f.minBalance ≤ o.left
  cooled : outs.Pairwise fun later earlier =>
    later.dst = earlier.dst → earlier.time + f.cooldown ≤ later.time

/-- The payments are grants or drips within the limits of the reserve. -/
def PaidWithin : Reserve → List Outflow → Prop
  | .plain _, outs => outs = []
  | .publicReserve p, outs => GrantsWithin p outs
  | .dripFaucet f, outs => DripsWithin f outs
  | .unknown _, _ => False

/-- The functions of a reserve that are Critical by their selector. -/
def isCriticalFn : ReserveFn → Bool
  | .release .. | .upgradeToAndCall .. => true
  | _ => false

/-- **The owner's call `fn` at `now` moves the reserve `R` past what `R₀` was**: another owner, another
    granter who may call, a higher cap, a shorter window or cooldown, a lower floor, or a window that is
    under way forgotten. -/
def loosens (now : Nat) : Reserve → Reserve → ReserveFn → Bool
  | R₀, _, .transferOwnership newOwner => newOwner ≠ R₀.base.owner
  | _, _, .renounceOwnership => true
  | .publicReserve p₀, _, .setGranter newGranter =>
    newGranter ≠ p₀.granter ∧ newGranter ≠ p₀.owner ∧ newGranter ≠ 0
  | .publicReserve p₀, _, .setPerGrantCap newCap => p₀.perGrantCap < newCap
  | .publicReserve p₀, .publicReserve p, .setEpochLimit newCap newLength =>
    p₀.epochCap ≠ 0 ∧ (newCap = 0 ∨ p₀.epochCap < newCap ∨ newLength < p₀.epochLength ∨
      (p.epochSpent ≠ 0 ∧ now < p.epochStart + p.epochLength))
  | .dripFaucet f₀, _, .setDripParams dripAmount cooldown minBalance =>
    f₀.dripAmount < dripAmount ∨ cooldown < f₀.cooldown ∨ minBalance < f₀.minBalance
  | _, _, _ => false

/-! ## Windows -/

/-- The limits of the tap are those of `p₀`, or tighter ones. -/
structure TighterTap (p₀ p : PublicReserve) : Prop where
  granter : p.granter = p₀.granter ∨ p.granter = p₀.owner ∨ p.granter = 0
  perGrantCap : p.perGrantCap ≤ p₀.perGrantCap
  window : p₀.epochCap ≠ 0 →
    p.epochCap ≠ 0 ∧ p.epochCap ≤ p₀.epochCap ∧ p₀.epochLength ≤ p.epochLength

/-- The window of `p` at `now` accounts for what was granted in it; earlier ones are over. -/
structure Windowed (p₀ p : PublicReserve) (now : Nat) (outs : List Outflow) : Prop where
  length : 0 < p₀.epochLength
  started : p.epochStart ≤ now
  spent : grantedIn p.epochStart outs ≤ p.epochSpent
  past : ∀ s, 0 < grantedIn s outs → s = p.epochStart ∨ s + p₀.epochLength ≤ p.epochStart

section
variable {p₀ p p' : PublicReserve} {now amount : Nat} {outs : List Outflow} {o : Outflow}
  {sender : Address}

/-- Once the window has run out, nothing was granted in one that starts now. -/
theorem Windowed.fresh (h : Windowed p₀ p now outs) (hlength : p₀.epochLength ≤ p.epochLength)
    (hover : p.epochStart + p.epochLength ≤ now) : grantedIn now outs = 0 := by
  have hpos := h.length
  by_contra hne
  rcases h.past now (Nat.pos_of_ne_zero hne) with hnow | hnow
  · omega
  · omega

/-- Nothing was granted in a window that is over or unspent, so that one may start now. -/
theorem Windowed.restart (h : Windowed p₀ p now outs) (hlength : p₀.epochLength ≤ p.epochLength)
    (hidle : p.epochSpent = 0 ∨ p.epochStart + p.epochLength ≤ now) (hstart : p'.epochStart = now)
    (hspent : p'.epochSpent = 0) : Windowed p₀ p' now outs := by
  have hpos := h.length
  have hstarted := h.started
  have hzero := h.spent
  -- what was granted so far is a window's length behind
  have hbehind : ∀ s, 0 < grantedIn s outs → s + p₀.epochLength ≤ now := by
    intro s hs
    rcases h.past s hs with rfl | hs'
    · rcases hidle with hidle | hidle
      · omega
      · omega
    · omega
  refine ⟨hpos, Nat.le_of_eq hstart, ?_, ?_⟩
  · rw [hstart, hspent]
    by_contra hne
    have := hbehind now (by omega)
    omega
  · intro s hs
    rw [hstart]
    exact .inr (hbehind s hs)

theorem grantedIn_cons_same {s : Nat} (h : o.exit = .grant s) :
    grantedIn s (o :: outs) = o.amount + grantedIn s outs := by
  show (if o.exit = .grant s then o.amount else 0) + _ = _
  rw [if_pos h]

theorem grantedIn_cons_ne {s s' : Nat} (h : o.exit = .grant s) (hne : s' ≠ s) :
    grantedIn s' (o :: outs) = grantedIn s' outs := by
  show (if o.exit = .grant s' then o.amount else 0) + _ = _
  rw [if_neg, Nat.zero_add]
  intro h'
  have hs : Exit.grant s' = .grant s := h'.symm.trans h
  injection hs with hs
  exact hne hs

/-- **A grant is counted in its window**, the one under way or a new one. -/
theorem Windowed.grant (h : Windowed p₀ p now outs) (hlength : p₀.epochLength ≤ p.epochLength)
    (hcap : p.epochCap ≠ 0) (hgrant : p.Granted p' sender amount now)
    (hexit : o.exit = .grant p'.epochStart) (hamount : o.amount = amount) :
    Windowed p₀ p' now (o :: outs) := by
  have hstarted := h.started
  have hspent := h.spent
  have hpos := h.length
  obtain ⟨-, ⟨-, hstart, hsum⟩ | ⟨hover, hstart, hsum⟩⟩ := hgrant.window hcap
  · refine ⟨hpos, by omega, ?_, ?_⟩
    · rw [grantedIn_cons_same hexit, hamount, hstart, hsum]
      omega
    · intro s hs
      by_cases hsame : s = p'.epochStart
      · exact .inl hsame
      · rw [grantedIn_cons_ne hexit hsame] at hs
        rw [hstart]
        exact h.past s hs
  · -- the grant opens a window, and those before are over
    have hfresh := h.fresh hlength hover
    refine ⟨hpos, by omega, ?_, ?_⟩
    · rw [grantedIn_cons_same hexit, hamount, hstart, hsum, hfresh]
      omega
    · intro s hs
      by_cases hsame : s = p'.epochStart
      · exact .inl hsame
      · rw [grantedIn_cons_ne hexit hsame] at hs
        right
        rcases h.past s hs with rfl | hs'
        · omega
        · omega

/-- **A grant keeps the payments within the limits.** -/
theorem GrantsWithin.grant_cons (h : GrantsWithin p₀ outs) (hkept : p₀.owner = p.owner)
    (htap : TighterTap p₀ p) (hwindow : p₀.epochCap ≠ 0 → Windowed p₀ p now outs)
    (hgrant : p.Granted p' sender amount now) (hsender : sender ≠ 0)
    (hexit : o.exit = .grant p'.epochStart) (hamount : o.amount = amount) (hcaller : o.caller = sender)
    (htime : o.time = now) : GrantsWithin p₀ (o :: outs) := by
  have hnext : p₀.epochCap ≠ 0 → Windowed p₀ p' now (o :: outs) := by
    intro hcap
    obtain ⟨hne, -, hlength⟩ := htap.window hcap
    exact (hwindow hcap).grant hlength hne hgrant hexit hamount
  refine ⟨?_, ?_, ?_⟩
  · intro o' ho'
    rcases List.mem_cons.mp ho' with rfl | ho'
    · refine ⟨?_, ?_, p'.epochStart, hexit, fun hcap => ?_⟩
      · rw [hcaller]
        rcases hgrant.caller with hc | hc
        · rcases htap.granter with hg | hg | hg
          · exact .inl (hc.trans hg)
          · exact .inr (hc.trans hg)
          · exact absurd (hc.trans hg) hsender
        · exact .inr (hc.trans hkept.symm)
      · rw [hamount]
        exact Nat.le_trans hgrant.withinCap htap.perGrantCap
      · rw [htime]
        exact (hnext hcap).started
    · exact h.grant o' ho'
  · intro hcap s
    obtain ⟨hne, hle, -⟩ := htap.window hcap
    by_cases hs : s = p'.epochStart
    · have hspent := (hnext hcap).spent
      have hbound := (hgrant.window hne).1
      rw [hgrant.terms.2.2.1] at hbound
      rw [hs]
      omega
    · rw [grantedIn_cons_ne hexit hs]
      exact h.window hcap s
  · intro hcap s s' hs hs' hlt
    by_cases hlast : s' = p'.epochStart
    · rcases (hnext hcap).past s hs with heq | hle
      · omega
      · omega
    · -- the later window is not the current one, so neither is
      have hpos := (hnext hcap).length
      have hle := (hnext hcap).past s' hs'
      have hne : s ≠ p'.epochStart := by omega
      rw [grantedIn_cons_ne hexit hlast] at hs'
      rw [grantedIn_cons_ne hexit hne] at hs
      exact h.apart hcap s s' hs hs' hlt

end

/-! ## Books -/

/-- The limits of the faucet are those of `f₀`, or tighter ones. -/
structure TighterDrip (f₀ f : GembaDripFaucet) : Prop where
  dripAmount : f.dripAmount ≤ f₀.dripAmount
  cooldown : f₀.cooldown ≤ f.cooldown
  minBalance : f₀.minBalance ≤ f.minBalance

/-- **The books of a reserve.**  `R` is what `R₀` has become by `now`: the same code and owner, limits
    as tight or tighter, and `outs`, what it paid out, within those of `R₀`. -/
inductive Books (now : Nat) : Reserve → Reserve → List Outflow → Prop where
  | plain {r₀ r : BaseReserve} (hkept : r₀.Kept r) : Books now (.plain r₀) (.plain r) []
  | publicReserve {p₀ p : PublicReserve} {outs : List Outflow}
      (hkept : p₀.toBaseReserve.Kept p.toBaseReserve) (htap : TighterTap p₀ p)
      (hpaid : GrantsWithin p₀ outs) (hwindow : p₀.epochCap ≠ 0 → Windowed p₀ p now outs) :
      Books now (.publicReserve p₀) (.publicReserve p) outs
  | dripFaucet {f₀ f : GembaDripFaucet} {outs : List Outflow}
      (hkept : f₀.toBaseReserve.Kept f.toBaseReserve) (hdrip : TighterDrip f₀ f)
      (hpaid : DripsWithin f₀ outs)
      (hlast : ∀ o ∈ outs, f.lastDrip o.dst ≠ 0 ∧ o.time ≤ f.lastDrip o.dst) :
      Books now (.dripFaucet f₀) (.dripFaucet f) outs

namespace Books

variable {now now' balance value : Nat} {R₀ R R' : Reserve} {outs : List Outflow} {b : Block}
  {sender reserve : Address} {fn : ReserveFn} {out : Option Payment}

theorem kept (h : Books now R₀ R outs) : R₀.base.Kept R.base := by
  cases h with
  | plain hkept => exact hkept
  | publicReserve hkept => exact hkept
  | dripFaucet hkept => exact hkept

theorem paidWithin (h : Books now R₀ R outs) : PaidWithin R₀ outs := by
  cases h with
  | plain hkept => exact rfl
  | publicReserve hkept htap hpaid => exact hpaid
  | dripFaucet hkept hdrip hpaid => exact hpaid

theorem isUnknown_eq (h : Books now R₀ R outs) : R.isUnknown = false := by
  cases h <;> rfl

theorem later (h : Books now R₀ R outs) (hle : now ≤ now') : Books now' R₀ R outs := by
  cases h with
  | plain hkept => exact .plain hkept
  | publicReserve hkept htap hpaid hwindow =>
    refine .publicReserve hkept htap hpaid fun hcap => ?_
    obtain ⟨hlength, hstarted, hspent, hpast⟩ := hwindow hcap
    exact ⟨hlength, Nat.le_trans hstarted hle, hspent, hpast⟩
  | dripFaucet hkept hdrip hpaid hlast => exact .dripFaucet hkept hdrip hpaid hlast

/-- Bookkeeping of the guardian and of the guard. -/
theorem setBase (h : Books now R₀ R outs) {r : BaseReserve} (hr : R.base.Kept r) :
    Books now R₀ (R.setBase r) outs := by
  have hkept : R₀.base.Kept r :=
    ⟨hr.impl.trans h.kept.impl, hr.owner.trans h.kept.owner⟩
  cases h with
  | plain => exact .plain hkept
  | publicReserve _ htap hpaid hwindow =>
    exact .publicReserve hkept ⟨htap.granter, htap.perGrantCap, htap.window⟩ hpaid fun hcap =>
      ⟨(hwindow hcap).length, (hwindow hcap).started, (hwindow hcap).spent, (hwindow hcap).past⟩
  | dripFaucet _ hdrip hpaid hlast =>
    exact .dripFaucet hkept ⟨hdrip.dripAmount, hdrip.cooldown, hdrip.minBalance⟩ hpaid hlast

/-- The payments after a call. -/
def record (b : Block) (sender reserve : Address) (balance : Nat) (outs : List Outflow) :
    Option Payment → List Outflow
  | none => outs
  | some p => ⟨reserve, p.send.dst, p.send.amount, sender, b.timestamp, balance - p.send.amount,
      p.exit⟩ :: outs

/-- **What can happen without the owner keeps the books.** -/
theorem change (h : Books b.timestamp R₀ R outs) (hc : Reserve.Change b sender balance R R' out)
    (hsender : sender ≠ 0) (htime : 0 < b.timestamp) :
    Books b.timestamp R₀ R' (record b sender reserve balance outs out) := by
  cases hc with
  | housekeeping himpl howner => exact h.setBase ⟨himpl, howner⟩
  | @grant p p' dst amount hgrant =>
    cases h with
    | publicReserve hkept htap hpaid hwindow =>
      obtain ⟨hg, hcap, hepoch, hlength⟩ := hgrant.terms
      have hbase : p.toBaseReserve.Kept p'.toBaseReserve := by
        rw [hgrant.base]
        exact ⟨rfl, rfl⟩
      refine .publicReserve ⟨hbase.impl.trans hkept.impl, hbase.owner.trans hkept.owner⟩
        ⟨hg ▸ htap.granter, hcap ▸ htap.perGrantCap, hepoch ▸ hlength ▸ htap.window⟩ ?_ ?_
      · exact hpaid.grant_cons hkept.owner.symm htap hwindow hgrant hsender rfl rfl rfl rfl
      · intro hne
        obtain ⟨hne', -, hle⟩ := htap.window hne
        exact (hwindow hne).grant hle hne' hgrant rfl rfl
  | @drip f f' recipient hd =>
    cases h with
    | dripFaucet hkept hdrip hpaid hlast =>
      rw [hd.result]
      refine .dripFaucet ⟨hkept.impl, hkept.owner⟩
        ⟨hdrip.dripAmount, hdrip.cooldown, hdrip.minBalance⟩ ⟨?_, ?_⟩ ?_
      · intro o ho
        rcases List.mem_cons.mp ho with rfl | ho
        · exact ⟨rfl, hdrip.dripAmount, Nat.le_trans hdrip.minBalance hd.floor.2⟩
        · exact hpaid.drip o ho
      · refine List.pairwise_cons.mpr ⟨?_, hpaid.cooled⟩
        intro o ho hdst
        obtain ⟨hne, hle⟩ := hlast o ho
        have hdst : recipient = o.dst := hdst
        have hcool := hdrip.cooldown
        show o.time + _ ≤ b.timestamp
        rcases hd.cooled with hzero | hcooled
        · rw [hdst] at hzero
          exact absurd hzero hne
        · rw [hdst] at hcooled
          omega
      · intro o ho
        show (if o.dst = recipient then b.timestamp else f.lastDrip o.dst) ≠ 0 ∧
          o.time ≤ if o.dst = recipient then b.timestamp else f.lastDrip o.dst
        rcases List.mem_cons.mp ho with rfl | ho
        · rw [if_pos rfl]
          exact ⟨Nat.pos_iff_ne_zero.mp htime, Nat.le_refl _⟩
        · obtain ⟨hne, hle⟩ := hlast o ho
          by_cases hdst : o.dst = recipient
          · rw [if_pos hdst]
            refine ⟨Nat.pos_iff_ne_zero.mp htime, ?_⟩
            rcases hd.cooled with hzero | hcooled
            · rw [hdst] at hne
              exact absurd hzero hne
            · rw [hdst] at hle
              omega
          · rw [if_neg hdst]
            exact ⟨hne, hle⟩

/-- A governing function of the owner that is neither Critical nor loosens anything, and pays nothing
    out. -/
theorem govern (h : Books b.timestamp R₀ R outs)
    (hrun : R.run b sender balance fn = .ok (R', out)) (hgoverns : fn.governs = true)
    (hminor : isCriticalFn fn = false) (htight : loosens b.timestamp R₀ R fn = false) :
    out = none ∧ Books b.timestamp R₀ R' outs := by
  cases fn with
  | transferOwnership newOwner =>
    obtain ⟨r, hr, hrun⟩ := bind_eq_ok.mp hrun
    obtain ⟨-, hr⟩ := failIf_bind_eq_ok.mp hr
    obtain ⟨-, hr⟩ := failIf_bind_eq_ok.mp hr
    injection hr with hr
    injection hrun with hrun
    injection hrun with hR hout
    subst hr hR
    have hsame : newOwner = R₀.base.owner := not_not.mp (of_decide_eq_false htight)
    exact ⟨hout.symm, h.setBase ⟨rfl, hsame.trans h.kept.owner.symm⟩⟩
  | renounceOwnership =>
    cases h with
    | plain => nomatch htight
    | publicReserve => nomatch htight
    | dripFaucet => nomatch htight
  | setEpochLimit newCap newLength =>
    obtain ⟨p, p', rfl, hp', rfl, hout⟩ := Reserve.publicReserve_set hrun
    obtain ⟨⟨⟩, -, hp'⟩ := bind_eq_ok.mp hp'
    obtain ⟨⟨⟩, -, hp'⟩ := bind_eq_ok.mp hp'
    injection hp' with hp'
    subst hp'
    cases h with
    | @publicReserve p₀ _ _ hkept htap hpaid hwindow =>
      have htight := of_decide_eq_false htight
      refine ⟨hout, .publicReserve hkept ⟨htap.granter, htap.perGrantCap, ?_⟩ hpaid ?_⟩
      · intro hcap
        show newCap ≠ 0 ∧ newCap ≤ p₀.epochCap ∧ p₀.epochLength ≤ newLength
        omega
      · intro hcap
        obtain ⟨-, -, hlength⟩ := htap.window hcap
        refine (hwindow hcap).restart hlength ?_ rfl rfl
        omega
  | setGranter newGranter =>
    obtain ⟨p, p', rfl, hp', rfl, hout⟩ := Reserve.publicReserve_set hrun
    obtain ⟨⟨⟩, -, hp'⟩ := bind_eq_ok.mp hp'
    injection hp' with hp'
    subst hp'
    cases h with
    | @publicReserve p₀ _ _ hkept htap hpaid hwindow =>
      have htight := of_decide_eq_false htight
      refine ⟨hout, .publicReserve hkept ⟨?_, htap.perGrantCap, htap.window⟩ hpaid ?_⟩
      · by_contra hne
        simp only [not_or] at hne
        exact htight hne
      · intro hcap
        exact ⟨(hwindow hcap).length, (hwindow hcap).started, (hwindow hcap).spent,
          (hwindow hcap).past⟩
  | setPerGrantCap newCap =>
    obtain ⟨p, p', rfl, hp', rfl, hout⟩ := Reserve.publicReserve_set hrun
    obtain ⟨⟨⟩, -, hp'⟩ := bind_eq_ok.mp hp'
    injection hp' with hp'
    subst hp'
    cases h with
    | publicReserve hkept htap hpaid hwindow =>
      have htight := of_decide_eq_false htight
      refine ⟨hout, .publicReserve hkept ⟨htap.granter, Nat.le_of_not_lt htight, htap.window⟩
        hpaid ?_⟩
      intro hcap
      exact ⟨(hwindow hcap).length, (hwindow hcap).started, (hwindow hcap).spent,
        (hwindow hcap).past⟩
  | setDripParams dripAmount cooldown minBalance =>
    obtain ⟨f, f', rfl, hf', rfl, hout⟩ := Reserve.dripFaucet_set hrun
    obtain ⟨⟨⟩, -, hf'⟩ := bind_eq_ok.mp hf'
    obtain ⟨⟨⟩, -, hf'⟩ := bind_eq_ok.mp hf'
    injection hf' with hf'
    subst hf'
    cases h with
    | @dripFaucet f₀ _ _ hkept hdrip hpaid hlast =>
      have htight := of_decide_eq_false htight
      refine ⟨hout, .dripFaucet hkept ⟨?_, ?_, ?_⟩ hpaid hlast⟩
      · show dripAmount ≤ f₀.dripAmount
        omega
      · show f₀.cooldown ≤ cooldown
        omega
      · show f₀.minBalance ≤ minBalance
        omega
  | release dst amount => nomatch hminor
  | upgradeToAndCall newImplementation => nomatch hminor
  | pause => nomatch hgoverns
  | unpause => nomatch hgoverns
  | setPauser newPauser => nomatch hgoverns
  | grant dst amount => nomatch hgoverns
  | claim => nomatch hgoverns
  | dripTo recipient => nomatch hgoverns

/-- **A call keeps the books, if the owner loosens nothing.** -/
theorem call (h : Books b.timestamp R₀ R outs)
    (hcall : R.call b sender value balance fn = .ok (R', out)) (hsender : sender ≠ 0)
    (htime : 0 < b.timestamp)
    (howner : sender = R₀.base.owner →
      isCriticalFn fn = false ∧ loosens b.timestamp R₀ R fn = false) :
    Books b.timestamp R₀ R' (record b sender reserve balance outs out) := by
  by_cases hfn : fn.governs = false ∨ sender ≠ R.base.owner
  · exact h.change (Reserve.call_change hcall h.isUnknown_eq hfn) hsender htime
  · simp only [not_or, Bool.not_eq_false, not_not] at hfn
    obtain ⟨hgoverns, hsame⟩ := hfn
    obtain ⟨hminor, htight⟩ := howner (hsame.trans h.kept.owner)
    unfold Reserve.call at hcall
    rw [h.isUnknown_eq, if_neg Bool.false_ne_true] at hcall
    obtain ⟨⟨⟩, -, hrun⟩ := bind_eq_ok.mp hcall
    obtain ⟨rfl, hbooks⟩ := h.govern hrun hgoverns hminor htight
    exact hbooks

/-- The recipient of a payment returned. -/
theorem finishSend (h : Books now R₀ R outs) : Books now R₀ R.finishSend outs :=
  h.setBase ⟨rfl, rfl⟩

end Books

end Gemba.Governance
