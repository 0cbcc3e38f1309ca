/-
  The compounding script and the counter it reads: `daily_remaining` of `auto-compound.sh` against
  `dailyBondUsed` and `setDailyBondUsed` of `keeper.go`.

  The script asks a node for the raw bytes under `0x02` and its validator's address and decodes them
  with `od`, `tail` and `tr`.  Nothing but this file's text ties that decoder to the Go encoder: the
  eight bytes of the day, folded in 64-bit arithmetic that wraps; the rest, of which it keeps the
  digits; the day it compares with, taken from the latest block.

  1. **The keeper** — after writes in the order of their blocks, the counter of a later block is the
     last total written on its day (`usedOn_writeAll`).
  2. **The decoder** — an entry that a write of a total ≥ 0 left is decoded to what the keeper reads
     from it (`usedIn_entry`); `Written`, kept by every write, says that there are no others.
  3. **The script** — it computes `MAX_DAILY_ADD` minus the keeper's counter
     (`dailyRemaining_eq`), and what it then submits stays within a cap that is at least
     `MAX_DAILY_ADD` (`reads_the_counter`).

  The node's three answers (`debug addr`, `/status`, `/abci_query`) come from outside the repository:
  `Node` holds them and `Node.Serves` is what a working node answers.  The base64 around the value
  and the texts of the log are left out.  `bc` computes with integers of any size; the breaks it puts
  into numbers of more than 68 digits are left out too (`bc` skips them when it reads them back).
-/
import Gemba.Valgate.RemainingBond

namespace Gemba.Valgate

open Gemba.Lib Gemba.Sdk

/-! ## The writes of the keeper -/

/-- One `setDailyBondUsed`: a total, not below 0, at the time of its block. -/
structure BondWrite where
  valoper : ValAddress
  blockTime : BlockTime
  total : MathInt
  nonneg : ∃ n : Nat, total.val? = some (n : Int)

/-- The writes in order, from the store `kv`. -/
def writeAll (kv : Store) (ws : List BondWrite) : Store :=
  ws.foldl (fun kv w => setDailyBondUsed ⟨kv, w.blockTime⟩ w.valoper w.total) kv

/-- The last total written for `valoper` on `day`, 0 when there is none. -/
def lastTotal (ws : List BondWrite) (valoper : ValAddress) (day : Nat) : MathInt :=
  match (ws.filter fun w => w.valoper = valoper ∧ w.blockTime.day = day).getLast? with
  | some w => w.total
  | none => .zeroInt

/-- The blocks of the writes follow each other in time. -/
def InOrder (ws : List BondWrite) : Prop :=
  ws.Pairwise fun w w' => w.blockTime.unix ≤ w'.blockTime.unix

instance (ws : List BondWrite) : Decidable (InOrder ws) :=
  inferInstanceAs (Decidable (ws.Pairwise fun w w' => w.blockTime.unix ≤ w'.blockTime.unix))

section
variable {kv : Store} {ws : List BondWrite} {w : BondWrite} {valoper : ValAddress} {day : Nat}

@[simp] theorem writeAll_nil (kv : Store) : writeAll kv [] = kv := rfl

theorem writeAll_snoc (kv : Store) (ws : List BondWrite) (w : BondWrite) :
    writeAll kv (ws ++ [w]) = setDailyBondUsed ⟨writeAll kv ws, w.blockTime⟩ w.valoper w.total := by
  rw [writeAll, List.foldl_append]
  rfl

theorem BondWrite.isNil_total (w : BondWrite) : w.total.isNil = false := by
  obtain ⟨n, hn⟩ := w.nonneg
  obtain ⟨h, hw⟩ := MathInt.val?_eq_some.mp hn
  rw [hw]
  rfl

/-- A write touches its own validator's entry only. -/
theorem writeAll_snoc_of_ne {k : Bytes} (h : k ≠ dailyBondKey w.valoper) :
    writeAll kv (ws ++ [w]) k = writeAll kv ws k := by
  rw [writeAll_snoc]
  exact Store.set_of_ne h

/-- No write touches the parameters. -/
theorem writeAll_paramsKey (kv : Store) (ws : List BondWrite) :
    writeAll kv ws paramsKey = kv paramsKey := by
  induction ws using List.reverseRecOn with
  | nil => rfl
  | append_singleton ws w ih =>
    rw [writeAll_snoc, setDailyBondUsed_paramsKey]
    exact ih

theorem lastTotal_snoc (ws : List BondWrite) (w : BondWrite) (valoper : ValAddress) (day : Nat) :
    lastTotal (ws ++ [w]) valoper day =
      if w.valoper = valoper ∧ w.blockTime.day = day then w.total
      else lastTotal ws valoper day := by
  unfold lastTotal
  rw [List.filter_append]
  by_cases h : w.valoper = valoper ∧ w.blockTime.day = day
  · rw [if_pos h, List.filter_cons_of_pos (by simpa using h), List.filter_nil,
      List.getLast?_concat]
  · rw [if_neg h, List.filter_cons_of_neg (by simpa using h), List.filter_nil, List.append_nil]

/-- Nothing was written on a day after the last write. -/
theorem lastTotal_of_day_lt (h : ∀ w ∈ ws, w.blockTime.day < day) :
    lastTotal ws valoper day = .zeroInt := by
  have hempty : (ws.filter fun w => w.valoper = valoper ∧ w.blockTime.day = day) = [] := by
    rw [List.filter_eq_nil_iff]
    intro w hw hsel
    have hday := (of_decide_eq_true hsel).2
    exact absurd hday (Nat.ne_of_lt (h w hw))
  rw [lastTotal, hempty]
  rfl

/-- **The counter of a later block.**  It is the last total written on the block's day.  The order of
    the blocks is what makes it so: an entry keeps one day only, so a write of an earlier day after
    one of this day would hide it. -/
theorem usedOn_writeAll (hfresh : ∀ v, kv (dailyBondKey v) = none) (horder : InOrder ws)
    (hlater : ∀ w ∈ ws, w.blockTime.day ≤ day) (valoper : ValAddress) :
    dailyBondUsedOn (writeAll kv ws) day valoper = lastTotal ws valoper day := by
  induction ws using List.reverseRecOn with
  | nil =>
    rw [writeAll_nil, dailyBondUsedOn, hfresh valoper]
    rfl
  | append_singleton ws w ih =>
    obtain ⟨horder', -, hlast⟩ := List.pairwise_append.mp horder
    have hw : w.blockTime.day ≤ day := hlater w (List.mem_append_right _ List.mem_cons_self)
    have hbefore : ∀ w' ∈ ws, w'.blockTime.day ≤ w.blockTime.day :=
      fun w' hw' => BlockTime.day_mono (hlast w' hw' w List.mem_cons_self)
    rw [writeAll_snoc, usedOn_setDailyBondUsed _ _ w.isNil_total, lastTotal_snoc]
    dsimp only
    by_cases hv : valoper = w.valoper
    · subst hv
      rw [if_pos rfl]
      by_cases hday : day = w.blockTime.day
      · rw [if_pos hday, if_pos ⟨rfl, hday.symm⟩]
      · -- the day is over: the entry reads 0, and no write can be of this day
        have hpast : ∀ w' ∈ ws, w'.blockTime.day < day :=
          fun w' hw' => by have := hbefore w' hw'; omega
        rw [if_neg hday, if_neg (fun h => hday h.2.symm), lastTotal_of_day_lt hpast]
    · rw [if_neg hv, if_neg (fun h => hv h.1.symm)]
      exact ih horder' (fun w' hw' => hlater w' (List.mem_append_left _ hw'))

end

/-! ## The decoder of the script -/

/-- `stored=$(( stored * 256 + b ))` over the bytes of `od -An -tu1 -N8`, in `bash`'s 64 bits. -/
def storedDay (raw : Bytes) : Int :=
  (raw.take 8).foldl (fun stored b => Int.bmod (stored * 256 + b.toNat) (2 ^ 64)) 0

/-- `tail -c +9 | tr -cd '0-9'`. -/
def tailDigits (raw : Bytes) : Bytes :=
  (raw.drop 8).filter fun b => 48 ≤ b.toNat ∧ b.toNat ≤ 57

/-- `${used:-0}` as `bc` reads it. -/
def bcNumber (digits : Bytes) : Int := ((parseDecimalNat digits).getD 0 : Nat)

/-- `used`, from the value under the validator's key; a missing and an empty value are one to `jq`. -/
def usedIn (value : Option Bytes) (day : Int) : Int :=
  match value with
  | none => 0
  | some [] => 0
  | some raw => if storedDay raw = day then bcNumber (tailDigits raw) else 0

/-- The fold does not wrap while the number is below `2 ^ 63`. -/
theorem foldl_bmod (bs : Bytes) (acc : Nat)
    (h : bs.foldl (fun acc b => acc * 256 + b.toNat) acc < 2 ^ 63) :
    bs.foldl (fun stored b => Int.bmod (stored * 256 + b.toNat) (2 ^ 64)) (acc : Int) =
      (bs.foldl (fun acc b => acc * 256 + b.toNat) acc : Nat) := by
  have hle : ∀ (bs : Bytes) (acc : Nat), acc ≤ bs.foldl (fun acc b => acc * 256 + b.toNat) acc := by
    intro bs
    induction bs with
    | nil => exact fun acc => Nat.le_refl acc
    | cons b bs ih =>
      intro acc
      have := ih (acc * 256 + b.toNat)
      rw [List.foldl_cons]
      omega
  induction bs generalizing acc with
  | nil => rfl
  | cons b bs ih =>
    rw [List.foldl_cons] at h
    have hacc : acc * 256 + b.toNat < 2 ^ 63 := Nat.lt_of_le_of_lt (hle bs _) h
    have hbmod : Int.bmod ((acc : Int) * 256 + b.toNat) (2 ^ 64) = (acc * 256 + b.toNat : Nat) := by
      rw [Int.bmod_eq_emod_of_lt (by omega)]
      omega
    rw [List.foldl_cons, List.foldl_cons, hbmod]
    exact ih _ h

/-- The value a write leaves. -/
def BondWrite.entry (w : BondWrite) : Bytes := toBE 8 w.blockTime.day ++ w.total.marshal

section
variable {kv : Store} {ws : List BondWrite} {w : BondWrite} {valoper : ValAddress} {day : Nat}

/-- The script reads the day of the write. -/
theorem storedDay_entry (w : BondWrite) : storedDay w.entry = w.blockTime.day := by
  have hread : ofBE (toBE 8 w.blockTime.day) = w.blockTime.day :=
    ofBE_toBE_of_lt w.blockTime.day_lt
  have hday : w.blockTime.day < 2 ^ 63 := Nat.lt_of_le_of_lt (Nat.div_le_self _ _) w.blockTime.inRange
  have hfold := foldl_bmod (toBE 8 w.blockTime.day) 0 (by rw [← ofBE, hread]; exact hday)
  rw [storedDay, BondWrite.entry, List.take_left' (length_toBE 8 _)]
  rw [← ofBE, hread] at hfold
  exact hfold

/-- It keeps the whole text of the total: a number that is not below 0 is written in digits only. -/
theorem bcNumber_entry (w : BondWrite) : bcNumber (tailDigits w.entry) = w.total.val := by
  obtain ⟨n, hn⟩ := w.nonneg
  obtain ⟨hbits, hw⟩ := MathInt.val?_eq_some.mp hn
  have htext : w.total.marshal = decimalNat n := by
    have hsign : ¬ (n : Int) < 0 := by omega
    rw [hw, MathInt.marshal, decimal, if_neg hsign]
    rfl
  have hkeep : tailDigits w.entry = decimalNat n := by
    rw [tailDigits, BondWrite.entry, List.drop_left' (length_toBE 8 _), htext]
    exact List.filter_eq_self.mpr fun b hb => decide_eq_true (digit_of_mem_decimalNat hb)
  rw [bcNumber, hkeep, parseDecimalNat_decimalNat, hw]
  rfl

/-- **Two decoders of one entry.**  On the entry of a write the script reads what the keeper does. -/
theorem usedIn_entry (w : BondWrite) (day : Nat) :
    usedIn (some w.entry) day = if day = w.blockTime.day then w.total.val else 0 := by
  have hcons : ∃ b rest, w.entry = b :: rest := ⟨_, _, rfl⟩
  obtain ⟨b, rest, hb⟩ := hcons
  have hused : usedIn (some w.entry) day =
      if storedDay w.entry = day then bcNumber (tailDigits w.entry) else 0 := by
    rw [hb]
    rfl
  rw [hused, storedDay_entry, bcNumber_entry]
  by_cases hday : day = w.blockTime.day
  · rw [if_pos hday, if_pos (by rw [hday])]
  · rw [if_neg hday, if_neg (by omega)]

/-- The counters hold what writes left there, or nothing. -/
def Written (kv : Store) : Prop :=
  ∀ v bz, kv (dailyBondKey v) = some bz → ∃ w : BondWrite, bz = w.entry

/-- Every write keeps it so. -/
theorem written_writeAll (hfresh : ∀ v, kv (dailyBondKey v) = none) (ws : List BondWrite) :
    Written (writeAll kv ws) := by
  induction ws using List.reverseRecOn with
  | nil =>
    intro v bz hbz
    rw [writeAll_nil, hfresh v] at hbz
    nomatch hbz
  | append_singleton ws w ih =>
    intro v bz hbz
    by_cases hv : v = w.valoper
    · subst hv
      rw [writeAll_snoc, setDailyBondUsed, Store.set_same] at hbz
      injection hbz with hbz
      exact ⟨w, hbz.symm⟩
    · rw [writeAll_snoc_of_ne (fun h => hv (dailyBondKey_inj.mp h))] at hbz
      exact ih v bz hbz

/-- **The decoders agree on every counter.** -/
theorem usedIn_eq (h : Written kv) (valoper : ValAddress) (day : Nat) :
    usedIn (kv (dailyBondKey valoper)) day = (dailyBondUsedOn kv day valoper).val := by
  cases hkey : kv (dailyBondKey valoper) with
  | none =>
    rw [dailyBondUsedOn, hkey]
    rfl
  | some bz =>
    obtain ⟨w, rfl⟩ := h valoper bz hkey
    -- the keeper reads the entry as if it had been written just now
    have hwritten : dailyBondUsedOn kv day valoper =
        dailyBondUsedOn (setDailyBondUsed ⟨kv, w.blockTime⟩ valoper w.total) day valoper := by
      rw [dailyBondUsedOn, dailyBondUsedOn, hkey, setDailyBondUsed, Store.set_same]
      rfl
    rw [usedIn_entry, hwritten, usedOn_setDailyBondUsed _ _ w.isNil_total, if_pos rfl]
    dsimp only
    by_cases hday : day = w.blockTime.day
    · rw [if_pos hday, if_pos hday]
    · rw [if_neg hday, if_neg hday]
      rfl

end

/-! ## The script -/

/-- What a node answers to the script. -/
structure Node where
  /-- The digits `gembad debug addr` prints after `Address hex: 0x`. -/
  debugAddr : List Char
  /-- `sync_info.latest_block_time` of `/status`. -/
  latestBlockTime : Option BlockTime
  /-- The value `/abci_query` returns for the `data` parameter, under `/store/valgate/key`. -/
  abciQuery : List Char → Option Bytes

/-- `daily_remaining`; `none` is `return 1`. -/
def dailyRemaining (node : Node) (maxDailyAdd : Int) : Option Int :=
  let hex := node.debugAddr.map Char.toLower
  if hex = [] then none
  else match node.latestBlockTime with
    | none => none
    | some t =>
      let day : Int := (t.unix / 86400 : Nat)
      some (maxDailyAdd - usedIn (node.abciQuery (['0', 'x', '0', '2'] ++ hex)) day)

/-- The settings of the script that the amount depends on, as the numbers their texts spell. -/
structure Settings where
  maxDailyAdd : Int
  reinvestPct : Int
  minReinvest : Int

/-- The amount the script delegates after it received `received`; `none` is a run that ends before
    that.  A failing `daily_remaining` falls back to the whole cap. -/
def submitted (cfg : Settings) (node : Node) (received : Int) : Option Int :=
  if received ≤ 0 then none
  else
    let reinvest := (received * cfg.reinvestPct).tdiv 100
    let remaining := (dailyRemaining node cfg.maxDailyAdd).getD cfg.maxDailyAdd
    if remaining ≤ 0 then none
    else
      let reinvest := if reinvest > remaining then remaining else reinvest
      if reinvest < cfg.minReinvest then none else some reinvest

/-- A working node at the state of `ctx`: it knows the address in some casing, and answers from its
    committed store at the latest block. -/
structure Node.Serves (node : Node) (ctx : Ctx) (valoper : ValAddress) : Prop where
  debugAddr : node.debugAddr.map Char.toLower = hexText valoper
  latestBlockTime : node.latestBlockTime = some ctx.blockTime
  abciQuery : ∀ key : Bytes, node.abciQuery (['0', 'x'] ++ hexText key) = ctx.kv key

section
variable {B : AddressCodec} {ctx : Ctx} {valoper : ValAddress} {node : Node} {p : Params}
  {amount : MathInt} {a : Int}

/-- `0x02` before the digits of an address asks for the validator's key. -/
theorem hexText_dailyBondKey (valoper : ValAddress) :
    ['0', 'x'] ++ hexText (dailyBondKey valoper) = ['0', 'x', '0', '2'] ++ hexText valoper := rfl

/-- **What the script computes.**  `MAX_DAILY_ADD` minus the counter of the keeper. -/
theorem dailyRemaining_eq (hkv : Written ctx.kv) (haddr : valoper ≠ [])
    (hnode : node.Serves ctx valoper) (maxDailyAdd : Int) :
    dailyRemaining node maxDailyAdd = some (maxDailyAdd - (dailyBondUsed ctx valoper).val) := by
  have hhex : hexText valoper ≠ [] := fun h => haddr (hexText_eq_nil.mp h)
  rw [dailyRemaining, hnode.debugAddr, if_neg hhex, hnode.latestBlockTime,
    ← hexText_dailyBondKey, hnode.abciQuery]
  dsimp only
  rw [← BlockTime.day, usedIn_eq hkv]
  rfl

/-- What is submitted is at most what remains. -/
theorem submitted_le {cfg : Settings} {received remaining : Int}
    (hrem : dailyRemaining node cfg.maxDailyAdd = some remaining)
    (h : submitted cfg node received = some a) : a ≤ remaining := by
  rw [submitted, hrem, Option.getD_some] at h
  dsimp only at h
  have hclamp : (if (received * cfg.reinvestPct).tdiv 100 > remaining then remaining
      else (received * cfg.reinvestPct).tdiv 100) ≤ remaining := by
    split
    · exact Int.le_refl remaining
    · omega
  generalize (if (received * cfg.reinvestPct).tdiv 100 > remaining then remaining
      else (received * cfg.reinvestPct).tdiv 100) = clamped at h hclamp
  by_cases hreceived : received ≤ 0
  · rw [if_pos hreceived] at h
    nomatch h
  rw [if_neg hreceived] at h
  by_cases hover : remaining ≤ 0
  · rw [if_pos hover] at h
    nomatch h
  rw [if_neg hover] at h
  by_cases hmin : clamped < cfg.minReinvest
  · rw [if_pos hmin] at h
    nomatch h
  rw [if_neg hmin] at h
  injection h with h
  rw [← h]
  exact hclamp

/-- The counter is not below 0. -/
theorem dailyBondUsed_nonneg (hkv : Written ctx.kv) (valoper : ValAddress) :
    0 ≤ (dailyBondUsed ctx valoper).val := by
  rw [dailyBondUsed, ← usedIn_eq hkv]
  unfold usedIn
  split
  · exact Int.le_refl 0
  · exact Int.le_refl 0
  · split
    · exact Int.natCast_nonneg _
    · exact Int.le_refl 0

/-- An amount that keeps the counter within the cap is accepted, when the counter is not below 0. -/
theorem checkDailyBond_within (hp : getParams ctx.kv = .ok p)
    (hused : 0 ≤ (dailyBondUsed ctx valoper).val) (hamount : amount.val? = some a)
    (hcap : 0 < p.maxDailyBondIncrease.val →
      (dailyBondUsed ctx valoper).val + a ≤ p.maxDailyBondIncrease.val) :
    succeeds (CheckDailyBond B ctx valoper amount) := by
  by_cases hpos : 0 < p.maxDailyBondIncrease.val
  · obtain ⟨habits, rfl⟩ := MathInt.val?_eq_some.mp hamount
    exact (checkDailyBond_capped hp (MathInt.val?_of_pos hpos) hpos hamount (by omega)).mpr
      (hcap hpos)
  · exact checkDailyBond_uncapped hp (not_lt.mp hpos)

end

/-- **The script reads the counter the chain writes.**  After any writes, in the order of their
    blocks, and at any later block time: the keeper's counter is the last total written on that day;
    each write left the parameters and the other validators' entries as they were; the script
    computes `MAX_DAILY_ADD` minus the counter; and when `MAX_DAILY_ADD` is at most the cap (or there
    is no cap) the amount it submits passes the check. -/
theorem reads_the_counter {B : AddressCodec} {kv : Store} {ws : List BondWrite} {t : BlockTime}
    {valoper : ValAddress} {node : Node} {p : Params}
    (hfresh : ∀ v, kv (dailyBondKey v) = none) (hp : getParams kv = .ok p)
    (horder : InOrder ws) (hlater : ∀ w ∈ ws, w.blockTime.unix ≤ t.unix)
    (haddr : valoper ≠ []) (hnode : node.Serves ⟨writeAll kv ws, t⟩ valoper) :
    dailyBondUsed ⟨writeAll kv ws, t⟩ valoper = lastTotal ws valoper t.day ∧
      (∀ before w after, ws = before ++ w :: after →
        writeAll kv (before ++ [w]) paramsKey = writeAll kv before paramsKey ∧
          ∀ v, v ≠ w.valoper →
            writeAll kv (before ++ [w]) (dailyBondKey v) = writeAll kv before (dailyBondKey v)) ∧
      (∀ maxDailyAdd, dailyRemaining node maxDailyAdd =
        some (maxDailyAdd - (dailyBondUsed ⟨writeAll kv ws, t⟩ valoper).val)) ∧
      ∀ (cfg : Settings) (received a : Int) (amount : MathInt),
        (0 < p.maxDailyBondIncrease.val → cfg.maxDailyAdd ≤ p.maxDailyBondIncrease.val) →
        submitted cfg node received = some a → amount.val? = some a →
        succeeds (CheckDailyBond B ⟨writeAll kv ws, t⟩ valoper amount) := by
  have hwritten : Written (writeAll kv ws) := written_writeAll hfresh ws
  have hremaining : ∀ maxDailyAdd, dailyRemaining node maxDailyAdd =
      some (maxDailyAdd - (dailyBondUsed ⟨writeAll kv ws, t⟩ valoper).val) :=
    dailyRemaining_eq hwritten haddr hnode
  refine ⟨?_, ?_, hremaining, ?_⟩
  · exact usedOn_writeAll hfresh horder (fun w hw => BlockTime.day_mono (hlater w hw)) valoper
  · intro before w _ _
    refine ⟨?_, fun v hv => writeAll_snoc_of_ne (fun h => hv (dailyBondKey_inj.mp h))⟩
    exact writeAll_snoc_of_ne (fun h => dailyBondKey_ne_paramsKey w.valoper h.symm)
  · intro cfg received a amount hmax hsubmitted hamount
    have hparams : getParams (writeAll kv ws) = .ok p := by
      rw [getParams, writeAll_paramsKey]
      exact hp
    have hle := submitted_le (hremaining cfg.maxDailyAdd) hsubmitted
    have hused : 0 ≤ (dailyBondUsed ⟨writeAll kv ws, t⟩ valoper).val :=
      dailyBondUsed_nonneg hwritten valoper
    refine checkDailyBond_within hparams hused hamount (fun hpos => ?_)
    have := hmax hpos
    omega

/-! ### A day with 35 of 50 GMB used -/

/-- 40 GMB on the first day, 35 GMB early on the second. -/
def sampleWrites : List BondWrite :=
  [⟨sampleAddress, ⟨3600, by decide⟩, .int (40 * oneGmb) (by decide), ⟨40 * 10 ^ 18, by decide⟩⟩,
    ⟨sampleAddress, ⟨90000, by decide⟩, .int (35 * oneGmb) (by decide), ⟨35 * 10 ^ 18, by decide⟩⟩]

/-- The state later on the second day. -/
def sampleCtx : Ctx :=
  ⟨writeAll (storeWithCap (.int (50 * oneGmb) (by decide))) sampleWrites, ⟨100000, by decide⟩⟩

/-- A node there: it prints the address with its checksum's capitals. -/
def sampleNode : Node where
  debugAddr := sampleHex.toList.drop 2
  latestBlockTime := some sampleCtx.blockTime
  abciQuery data := sampleCtx.kv (hexBytes (data.drop 2))

theorem sampleNode_serves : sampleNode.Serves sampleCtx sampleAddress where
  debugAddr := by decide
  latestBlockTime := rfl
  abciQuery key := by
    show sampleCtx.kv (hexBytes (hexText key)) = sampleCtx.kv key
    rw [hexBytes_hexText]

/-- Half of 100 GMB is clamped to the 15 that are left, and the chain takes them. -/
theorem reads_the_counter_sample :
    dailyRemaining sampleNode (50 * oneGmb) = some (15 * oneGmb) ∧
      submitted ⟨50 * oneGmb, 50, oneGmb⟩ sampleNode (100 * oneGmb) = some (15 * oneGmb) ∧
      succeeds (CheckDailyBond sampleCodec sampleCtx sampleAddress
        (.int (15 * oneGmb) (by decide))) := by
  have hfresh : ∀ v, storeWithCap (.int (50 * oneGmb) (by decide)) (dailyBondKey v) = none :=
    fun v => Store.set_of_ne (dailyBondKey_ne_paramsKey v)
  obtain ⟨hused, -, hremaining, hpasses⟩ := reads_the_counter (B := sampleCodec) hfresh
    (getParams_storeWithCap _) (by decide) (by decide) (by decide) sampleNode_serves
  have hleft : dailyRemaining sampleNode (50 * oneGmb) = some (15 * oneGmb) := by
    rw [hremaining, hused]
    decide
  have hclamped : submitted ⟨50 * oneGmb, 50, oneGmb⟩ sampleNode (100 * oneGmb) =
      some (15 * oneGmb) := by
    rw [submitted, hleft]
    decide
  exact ⟨hleft, hclamped, hpasses _ _ _ _ (fun _ => by decide) hclamped rfl⟩

end Gemba.Valgate
