/-
  The Cosmos SDK bank: coins, balances, sends and burns.

  The bank is outside the repository; what the modules rely on is that a send or a burn either does
  exactly what was asked or fails and changes nothing.  `Bank.send` and `Bank.burn` are that: the
  answer is the new bank or a fault, and the argument `fault` lets the environment make any call
  fail.  A call that is allowed to go through still checks what the SDK checks: that the coins are
  valid (positive, one per denomination, in order) and that the sender has them.

  The bank keeps the supply of each denomination as a number of its own, next to the balances, and
  an account's coins can be listed because the denominations in use are known.  `received` adds up
  what was ever credited to an account, which is what its `coin_received` events say.

  * `Bank.Backed` — no balance is negative and the supply is the sum of the balances;
  * `Bank.Backed.send`, `Bank.Backed.burn` — sends and burns keep it.
-/
import Mathlib.Algebra.BigOperators.Group.Finset.Basic
import Mathlib.Algebra.BigOperators.Group.Finset.Piecewise
import Mathlib.Data.Finset.Insert
import Mathlib.Data.String.Basic
import Gemba.Sdk.LegacyDec

namespace Gemba.Sdk

open Gemba.Lib

/-! ## Coins -/

/-- `sdk.ValidateDenom`: a letter, then 2 to 127 letters, digits or one of `/:._-`. -/
def validateDenom (denom : String) : Bool :=
  match denom.toList with
  | [] => false
  | c :: cs => c.isAlpha && decide (2 ≤ cs.length) && decide (cs.length ≤ 127) &&
      cs.all fun c => c.isAlphanum || c ∈ ['/', ':', '.', '_', '-']

/-- `sdk.Coin`. -/
structure Coin where
  denom : String
  amount : Int
deriving DecidableEq, Repr

/-- `sdk.NewCoin(denom, amount)`, which panics on coins that make no sense. -/
def newCoin (denom : String) (amount : Int) : Outcome Coin := do
  failIf (validateDenom denom = false) (.panic s!"invalid denom: {denom}")
  failIf (amount < 0) (.panic s!"negative coin amount: {amount}")
  .ok ⟨denom, amount⟩

theorem newCoin_eq_ok {denom : String} {amount : Int} {c : Coin}
    (h : newCoin denom amount = .ok c) :
    validateDenom denom = true ∧ 0 ≤ amount ∧ c = ⟨denom, amount⟩ := by
  obtain ⟨⟨⟩, hdenom, h⟩ := bind_eq_ok.mp h
  obtain ⟨⟨⟩, hamount, h⟩ := bind_eq_ok.mp h
  injection h with h
  rw [failIf_eq_ok, Bool.not_eq_false] at hdenom
  rw [failIf_eq_ok, not_lt] at hamount
  exact ⟨hdenom, hamount, h.symm⟩

/-- Coins that make sense. -/
theorem newCoin_of {denom : String} {amount : Int} (hdenom : validateDenom denom = true)
    (hamount : 0 ≤ amount) : newCoin denom amount = .ok ⟨denom, amount⟩ := by
  unfold newCoin
  rw [failIf_neg (by rw [hdenom]; decide), ok_bind, failIf_neg (not_lt.mpr hamount), ok_bind]

/-- `sdk.Coins`. -/
abbrev Coins := List Coin

namespace Coins

/-- `coins.AmountOf(denom)`. -/
def amountOf : Coins → String → Int
  | [], _ => 0
  | c :: cs, d => (if c.denom = d then c.amount else 0) + amountOf cs d

/-- `coins.Add(coin)`: into its place in the order of denominations. -/
def add : Coins → Coin → Coins
  | [], c => [c]
  | x :: xs, c =>
    if c.denom < x.denom then c :: x :: xs
    else if c.denom = x.denom then ⟨x.denom, x.amount + c.amount⟩ :: xs
    else x :: add xs c

/-- `coins.IsValid()`. -/
structure IsValid (cs : Coins) : Prop where
  sorted : cs.Pairwise fun c e => c.denom < e.denom
  positive : ∀ c ∈ cs, 0 < c.amount
  denoms : ∀ c ∈ cs, validateDenom c.denom = true

instance (cs : Coins) : Decidable (IsValid cs) :=
  decidable_of_iff ((cs.Pairwise fun c e => c.denom < e.denom) ∧ (∀ c ∈ cs, 0 < c.amount) ∧
      ∀ c ∈ cs, validateDenom c.denom = true)
    ⟨fun h => ⟨h.1, h.2.1, h.2.2⟩, fun h => ⟨h.sorted, h.positive, h.denoms⟩⟩

variable {cs : Coins} {c : Coin} {d : String}

@[simp] theorem amountOf_nil : amountOf [] d = 0 := rfl

@[simp] theorem amountOf_cons :
    amountOf (c :: cs) d = (if c.denom = d then c.amount else 0) + amountOf cs d := rfl

/-- Adding a coin adds its amount to its denomination. -/
@[simp] theorem amountOf_add :
    amountOf (add cs c) d = amountOf cs d + if c.denom = d then c.amount else 0 := by
  induction cs with
  | nil => rw [add, amountOf_cons, amountOf_nil, Int.add_zero, Int.zero_add]
  | cons x xs ih =>
    rw [add]
    split
    · rw [amountOf_cons]
      omega
    · split
      · rename_i heq
        show (if x.denom = d then x.amount + c.amount else 0) + amountOf xs d = _
        rw [amountOf_cons, heq]
        split
        · omega
        · omega
      · rw [amountOf_cons, amountOf_cons, ih]
        omega

theorem IsValid.tail (h : IsValid (c :: cs)) : IsValid cs :=
  ⟨(List.pairwise_cons.mp h.sorted).2, fun e he => h.positive e (List.mem_cons_of_mem c he),
    fun e he => h.denoms e (List.mem_cons_of_mem c he)⟩

/-- A denomination no coin has. -/
theorem amountOf_of_notMem (h : ∀ c ∈ cs, c.denom ≠ d) : amountOf cs d = 0 := by
  induction cs with
  | nil => rfl
  | cons x xs ih =>
    rw [amountOf_cons, if_neg (h x List.mem_cons_self),
      ih fun c hc => h c (List.mem_cons_of_mem x hc)]
    rfl

/-- Valid coins hold one coin per denomination. -/
theorem IsValid.amountOf_of_mem (h : IsValid cs) (hc : c ∈ cs) :
    amountOf cs c.denom = c.amount := by
  induction cs with
  | nil => nomatch hc
  | cons x xs ih =>
    have hlt := (List.pairwise_cons.mp h.sorted).1
    rw [amountOf_cons]
    rcases List.mem_cons.mp hc with rfl | hc
    · rw [if_pos rfl, amountOf_of_notMem fun e he => (hlt e he).ne', Int.add_zero]
    · rw [if_neg (hlt c hc).ne, ih h.tail hc, Int.zero_add]

theorem IsValid.amountOf_nonneg (h : IsValid cs) (d : String) : 0 ≤ amountOf cs d := by
  by_cases hd : ∃ c ∈ cs, c.denom = d
  · obtain ⟨c, hc, rfl⟩ := hd
    rw [h.amountOf_of_mem hc]
    exact (h.positive c hc).le
  · rw [amountOf_of_notMem fun c hc heq => hd ⟨c, hc, heq⟩]

/-- One positive coin. -/
theorem isValid_singleton (hdenom : validateDenom c.denom = true) (hpos : 0 < c.amount) :
    IsValid [c] := by
  refine ⟨List.pairwise_singleton _ c, ?_, ?_⟩
  · intro e he
    rw [List.mem_singleton.mp he]
    exact hpos
  · intro e he
    rw [List.mem_singleton.mp he]
    exact hdenom

end Coins

/-! ## The bank -/

/-- Who holds coins: a module account, or a user's. -/
inductive Account where
  | module (name : String)
  | user (id : Nat)
deriving DecidableEq, Repr

/-- The state of the bank. -/
structure Bank where
  /-- The denominations in use, in order. -/
  denoms : List String
  sorted : denoms.Pairwise (· < ·)
  valid : ∀ d ∈ denoms, validateDenom d = true
  balance : Account → String → Int
  supply : String → Int
  /-- What was credited to an account so far. -/
  received : Account → String → Int

namespace Bank

/-- `GetAllBalances(addr)`. -/
def getAllBalances (b : Bank) (a : Account) : Coins :=
  (b.denoms.filter fun d => decide (b.balance a d ≠ 0)).map fun d => ⟨d, b.balance a d⟩

/-- The bank with `amt` moved from `src` to `dst`. -/
def move (b : Bank) (src dst : Account) (amt : Coins) : Bank :=
  { b with
    balance := fun a d => b.balance a d - (if a = src then amt.amountOf d else 0)
      + if a = dst then amt.amountOf d else 0
    received := fun a d => b.received a d + if a = dst then amt.amountOf d else 0 }

/-- The bank with `amt` of `a` destroyed. -/
def destroy (b : Bank) (a : Account) (amt : Coins) : Bank :=
  { b with
    balance := fun x d => b.balance x d - if x = a then amt.amountOf d else 0
    supply := fun d => b.supply d - amt.amountOf d }

/-- What a send or a burn checks: nothing else is wrong, the coins are valid, the account has them. -/
def check (b : Bank) (fault : Option Fault) (src : Account) (amt : Coins) : Outcome PUnit := do
  match fault with
  | some e => .error e
  | none =>
    failIf (¬ amt.IsValid) (.error "invalid coins")
    failIf (∃ c ∈ amt, b.balance src c.denom < c.amount) (.error "insufficient funds")

/-- A send between accounts. -/
def send (b : Bank) (fault : Option Fault) (src dst : Account) (amt : Coins) : Outcome Bank := do
  b.check fault src amt
  .ok (b.move src dst amt)

/-- `BurnCoins`. -/
def burn (b : Bank) (fault : Option Fault) (a : Account) (amt : Coins) : Outcome Bank := do
  b.check fault a amt
  .ok (b.destroy a amt)

variable {b b' : Bank} {fault : Option Fault} {src dst a : Account} {amt : Coins}

theorem check_eq_ok {x : PUnit} (h : b.check fault src amt = .ok x) :
    fault = none ∧ amt.IsValid ∧ ∀ c ∈ amt, c.amount ≤ b.balance src c.denom := by
  cases fault with
  | some e => nomatch h
  | none =>
    obtain ⟨hvalid, h⟩ := failIf_bind_eq_ok.mp h
    rw [not_not] at hvalid
    rw [failIf_eq_ok] at h
    refine ⟨rfl, hvalid, ?_⟩
    intro c hc
    exact not_lt.mp fun hlt => h ⟨c, hc, hlt⟩

theorem check_of (hvalid : amt.IsValid) (hle : ∀ c ∈ amt, c.amount ≤ b.balance src c.denom) :
    b.check none src amt = .ok ⟨⟩ := by
  show (failIf _ _ >>= fun _ => failIf _ _) = _
  rw [failIf_neg (not_not.mpr hvalid), ok_bind]
  apply failIf_neg
  rintro ⟨c, hc, hlt⟩
  exact absurd (hle c hc) (not_le.mpr hlt)

/-- **A send that went through moved exactly the coins.** -/
theorem send_spec (h : b.send fault src dst amt = .ok b') :
    fault = none ∧ amt.IsValid ∧ (∀ c ∈ amt, c.amount ≤ b.balance src c.denom) ∧
      b' = b.move src dst amt := by
  obtain ⟨⟨⟩, hcheck, h⟩ := bind_eq_ok.mp h
  injection h with h
  obtain ⟨hfault, hvalid, hle⟩ := check_eq_ok hcheck
  exact ⟨hfault, hvalid, hle, h.symm⟩

theorem burn_spec (h : b.burn fault a amt = .ok b') :
    fault = none ∧ amt.IsValid ∧ (∀ c ∈ amt, c.amount ≤ b.balance a c.denom) ∧
      b' = b.destroy a amt := by
  obtain ⟨⟨⟩, hcheck, h⟩ := bind_eq_ok.mp h
  injection h with h
  obtain ⟨hfault, hvalid, hle⟩ := check_eq_ok hcheck
  exact ⟨hfault, hvalid, hle, h.symm⟩

/-! ## Supply and balances agree -/

/-- **The books balance**: no balance is negative, only denominations in use are held, and the supply
    of each is the sum of its balances. -/
structure Backed (b : Bank) : Prop where
  nonneg : ∀ a d, 0 ≤ b.balance a d
  covered : ∀ a, ∀ d ∉ b.denoms, b.balance a d = 0
  total : ∃ accounts : Finset Account, (∀ a ∉ accounts, ∀ d, b.balance a d = 0) ∧
    ∀ d, b.supply d = ∑ a ∈ accounts, b.balance a d

/-- The coins an account holds are valid coins. -/
theorem getAllBalances_valid (b : Bank) (h : b.Backed) (a : Account) :
    (b.getAllBalances a).IsValid := by
  refine ⟨?_, ?_, ?_⟩
  · unfold getAllBalances
    rw [List.pairwise_map]
    exact b.sorted.filter _
  · intro c hc
    obtain ⟨d, hd, rfl⟩ := List.mem_map.mp hc
    have hne := of_decide_eq_true (List.mem_filter.mp hd).2
    have hnonneg := h.nonneg a d
    show 0 < b.balance a d
    omega
  · intro c hc
    obtain ⟨d, hd, rfl⟩ := List.mem_map.mp hc
    exact b.valid d (List.mem_filter.mp hd).1

/-- **Listing an account's coins shows all it holds.** -/
theorem amountOf_getAllBalances (b : Bank) (h : b.Backed) (a : Account) (d : String) :
    (b.getAllBalances a).amountOf d = b.balance a d := by
  by_cases hd : d ∈ b.denoms ∧ b.balance a d ≠ 0
  · have hmem : (⟨d, b.balance a d⟩ : Coin) ∈ b.getAllBalances a :=
      List.mem_map.mpr ⟨d, List.mem_filter.mpr ⟨hd.1, decide_eq_true hd.2⟩, rfl⟩
    exact (b.getAllBalances_valid h a).amountOf_of_mem hmem
  · have hzero : b.balance a d = 0 := by
      by_cases hin : d ∈ b.denoms
      · exact not_not.mp fun hne => hd ⟨hin, hne⟩
      · exact h.covered a d hin
    rw [hzero]
    apply Coins.amountOf_of_notMem
    intro c hc heq
    obtain ⟨x, hx, rfl⟩ := List.mem_map.mp hc
    have hne := of_decide_eq_true (List.mem_filter.mp hx).2
    subst heq
    exact hne hzero

/-- An account that has each coin has the amount of each denomination. -/
theorem Backed.amountOf_le (h : b.Backed) (hvalid : amt.IsValid)
    (hle : ∀ c ∈ amt, c.amount ≤ b.balance src c.denom) (d : String) :
    amt.amountOf d ≤ b.balance src d := by
  by_cases hd : ∃ c ∈ amt, c.denom = d
  · obtain ⟨c, hc, rfl⟩ := hd
    rw [hvalid.amountOf_of_mem hc]
    exact hle c hc
  · rw [Coins.amountOf_of_notMem fun c hc heq => hd ⟨c, hc, heq⟩]
    exact h.nonneg src d

/-- Coins an account has are of denominations in use. -/
theorem Backed.amountOf_covered (h : b.Backed) (hvalid : amt.IsValid)
    (hle : ∀ c ∈ amt, c.amount ≤ b.balance src c.denom) {d : String} (hd : d ∉ b.denoms) :
    amt.amountOf d = 0 := by
  have hupper := h.amountOf_le hvalid hle d
  have hlower := hvalid.amountOf_nonneg d
  rw [h.covered src d hd] at hupper
  omega

/-- The sum of balances over more accounts is the same when the others hold nothing. -/
theorem sum_insert_insert {accounts : Finset Account} {d : String} (x y : Account)
    (hzero : ∀ a ∉ accounts, ∀ d, b.balance a d = 0) :
    ∑ a ∈ insert x (insert y accounts), b.balance a d = ∑ a ∈ accounts, b.balance a d := by
  symm
  apply Finset.sum_subset
  · intro a ha
    exact Finset.mem_insert_of_mem (Finset.mem_insert_of_mem ha)
  · intro a _ ha
    exact hzero a ha d

theorem Backed.send (h : b.Backed) (hs : b.send fault src dst amt = .ok b') : b'.Backed := by
  obtain ⟨-, hvalid, hle, rfl⟩ := send_spec hs
  refine ⟨?_, ?_, ?_⟩
  · intro a d
    have hbalance := h.nonneg a d
    have hpaid := h.amountOf_le hvalid hle d
    have hamount := hvalid.amountOf_nonneg d
    show 0 ≤ b.balance a d - _ + _
    split
    · rename_i ha
      subst ha
      split
      · omega
      · omega
    · split
      · omega
      · omega
  · intro a d hd
    have hbalance := h.covered a d hd
    have hamount := h.amountOf_covered hvalid hle hd
    show b.balance a d - _ + _ = 0
    rw [hamount, hbalance]
    simp
  · obtain ⟨accounts, hzero, hsum⟩ := h.total
    refine ⟨insert src (insert dst accounts), ?_, ?_⟩
    · intro a ha d
      rw [Finset.mem_insert, Finset.mem_insert, not_or, not_or] at ha
      show b.balance a d - _ + _ = 0
      rw [if_neg ha.1, if_neg ha.2.1, hzero a ha.2.2]
      rfl
    · -- what leaves one account arrives in the other
      intro d
      show b.supply d = ∑ a ∈ _, (b.balance a d - _ + _)
      rw [Finset.sum_add_distrib, Finset.sum_sub_distrib, sum_insert_insert src dst hzero,
        Finset.sum_ite_eq', Finset.sum_ite_eq', if_pos (Finset.mem_insert_self _ _),
        if_pos (Finset.mem_insert_of_mem (Finset.mem_insert_self _ _)), hsum d, sub_add_cancel]

theorem Backed.burn (h : b.Backed) (hs : b.burn fault a amt = .ok b') : b'.Backed := by
  obtain ⟨-, hvalid, hle, rfl⟩ := burn_spec hs
  refine ⟨?_, ?_, ?_⟩
  · intro x d
    have hbalance := h.nonneg x d
    have hpaid := h.amountOf_le hvalid hle d
    show 0 ≤ b.balance x d - _
    split
    · rename_i hx
      subst hx
      omega
    · omega
  · intro x d hd
    have hbalance := h.covered x d hd
    have hamount := h.amountOf_covered hvalid hle hd
    show b.balance x d - _ = 0
    rw [hamount, hbalance]
    simp
  · obtain ⟨accounts, hzero, hsum⟩ := h.total
    refine ⟨insert a (insert a accounts), ?_, ?_⟩
    · intro x hx d
      rw [Finset.mem_insert, Finset.mem_insert, not_or, not_or] at hx
      show b.balance x d - _ = 0
      rw [if_neg hx.1, hzero x hx.2.2]
      rfl
    · intro d
      show b.supply d - amt.amountOf d = ∑ x ∈ _, (b.balance x d - _)
      rw [Finset.sum_sub_distrib, sum_insert_insert a a hzero, Finset.sum_ite_eq',
        if_pos (Finset.mem_insert_self _ _), hsum d]

end Bank
end Gemba.Sdk
