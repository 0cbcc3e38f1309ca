/-
  The deployment: how `DeployGovernance` wires the contracts, and where runs start from.

  `deploy` follows the script: the Timelock with an open executor role and the deployer as temporary
  administrator, the four reserves owned by it, the token with the reserves excluded, the Governor,
  and the hand-over of the Timelock's roles.  `EmergencyPause` appears only as an address: what it can
  do to a reserve is pause it, as the pauser of that reserve.

  * `Genesis`  — a Governor just constructed, on any chain: the start of the runs about governance;
  * `Deployed` — the wiring of the treasury: the start of the runs about the reserves;
  * `deploy_deployed` — the script establishes both.
-/
import Gemba.Governance.Proposals

namespace Gemba.Governance

open Gemba.Lib Gemba.Evm
open Gemba.Reserves (Reserve BaseReserve PublicReserve GembaDripFaucet ReserveFn)

def VOTING_DELAY : Nat := 1
def PROPOSAL_THRESHOLD : Nat := 0
def SUPERMAJORITY : Nat := 51
def CRITICAL_QUORUM : Nat := 51
def CRITICAL_SUPERMAJORITY : Nat := 66
def PER_GRANT_CAP : Nat := 1000 * 10 ^ 18
def FAUCET_EPOCH_CAP : Nat := 100000 * 10 ^ 18
def FAUCET_EPOCH_LENGTH : Nat := 86400

/-- What the script takes from its environment: addresses, keys and overrides. -/
structure Environment where
  governor : Address
  token : Address
  timelock : Address
  deployer : Address
  pause : Address
  /-- The implementation and the proxy of each reserve. -/
  publicReserve : Address × Address
  foundation : Address × Address
  dao : Address × Address
  contingency : Address × Address
  excludeExtra : List Address
  minDelay : Nat
  votingPeriod : Nat
  quorumPct : Nat
  /-- Native balances once the reserves are funded. -/
  balance : Address → Nat

namespace Environment

/-- Where the Governor and the token are. -/
def wiring (e : Environment) : Wiring := ⟨e.governor, e.token⟩

/-- The arguments the script constructs the Governor with. -/
def governorArgs (e : Environment) : GembaGovernor.Args where
  timelock := e.timelock
  votingDelay := VOTING_DELAY
  votingPeriod := e.votingPeriod
  proposalThreshold := PROPOSAL_THRESHOLD
  quorumNumerator := e.quorumPct
  supermajorityNumerator := SUPERMAJORITY
  criticalQuorumNumerator := CRITICAL_QUORUM
  criticalSupermajorityNumerator := CRITICAL_SUPERMAJORITY

/-- The Timelock after the hand-over: the Governor proposes and cancels, the deployer is out. -/
def deployTimelock (e : Environment) : Call Timelock := do
  let t := Timelock.construct e.timelock e.minDelay [] [0] e.deployer
  let t ← t.configure e.timelock e.deployer (.grantRole PROPOSER_ROLE e.governor)
  let t ← t.configure e.timelock e.deployer (.grantRole CANCELLER_ROLE e.governor)
  t.configure e.timelock e.deployer (.renounceRole DEFAULT_ADMIN_ROLE e.deployer)

/-- `DeployGovernance.run()`, at block `b`. -/
def deploy (e : Environment) (b : Block) : Call World := do
  let timelock ← e.deployTimelock
  let faucet ← PublicReserve.init e.publicReserve.1 e.timelock e.pause e.deployer PER_GRANT_CAP
    FAUCET_EPOCH_CAP FAUCET_EPOCH_LENGTH b.timestamp
  let foundation ← BaseReserve.init e.foundation.1 e.timelock e.pause
  let dao ← BaseReserve.init e.dao.1 e.timelock e.pause
  let contingency ← BaseReserve.init e.contingency.1 e.timelock e.pause
  let token ← GembaVotes.construct e.timelock
    ([e.publicReserve.2, e.foundation.2, e.dao.2, e.contingency.2] ++ e.excludeExtra)
  let governor ← GembaGovernor.construct e.governorArgs b.number
  .ok
    { block := b
      governor
      token
      timelocks := fun a => if a = e.timelock then some timelock else none
      reserves := fun a =>
        if a = e.publicReserve.2 then some (.publicReserve faucet)
        else if a = e.foundation.2 then some (.plain foundation)
        else if a = e.dao.2 then some (.plain dao)
        else if a = e.contingency.2 then some (.plain contingency)
        else none
      balance := e.balance
      frames := []
      outflows := [] }

/-- The accounts are different, and none is the zero address. -/
def Distinct (e : Environment) : Prop :=
  [0, e.governor, e.token, e.timelock, e.deployer, e.publicReserve.2, e.foundation.2, e.dao.2,
    e.contingency.2].Nodup

instance (e : Environment) : Decidable e.Distinct := inferInstanceAs (Decidable (List.Nodup _))

end Environment

/-! ## Where runs start -/

/-- The Governor was just constructed, and nothing is under way. -/
structure Genesis (w : World) : Prop where
  governor : ∃ args, GembaGovernor.construct args w.block.number = .ok w.governor
  idle : w.frames = []

/-- A reserve right after its initialization, not after `clock`, with the owner it was given. -/
inductive Initialized (owner : Address) (clock : Nat) : Reserve → Prop where
  | plain {impl pauser : Address} {r : BaseReserve} (h : BaseReserve.init impl owner pauser = .ok r) :
      Initialized owner clock (.plain r)
  | publicReserve {impl pauser granter : Address} {perGrantCap epochCap epochLength now : Nat}
      {p : PublicReserve} (hnow : now ≤ clock) (h : PublicReserve.init impl owner pauser granter
        perGrantCap epochCap epochLength now = .ok p) : Initialized owner clock (.publicReserve p)
  | dripFaucet {impl pauser : Address} {dripAmount cooldown minBalance : Nat} {f : GembaDripFaucet}
      (h : GembaDripFaucet.init impl owner pauser dripAmount cooldown minBalance = .ok f) :
      Initialized owner clock (.dripFaucet f)

/-- **The deployed wiring.**  Every reserve is owned by the Timelock at `T`, on which only the
    Governor proposes and which administers itself; the Governor, which flags no target, executes
    through it. -/
structure Deployed (d : Wiring) (T : Address) (w : World) : Prop extends Genesis w where
  executor : w.governor.timelock = T
  timelock : ∃ t, w.timelocks T = some t ∧ (∀ a, t.hasRole PROPOSER_ROLE a = true → a = d.governor) ∧
    (∀ a, t.hasRole DEFAULT_ADMIN_ROLE a = true → a = T) ∧ ∀ op, t.timestamps op = 0
  /-- No two contracts share an address, and none is at the zero address. -/
  addresses : T ≠ d.governor ∧ T ≠ d.token ∧ d.governor ≠ 0 ∧ w.timelocks 0 = none ∧
    w.timelocks d.governor = none ∧ w.timelocks d.token = none
  reserves : ∀ r R, w.reserves r = some R →
    Initialized T w.block.timestamp R ∧ r ≠ d.governor ∧ r ≠ d.token ∧ w.timelocks r = none
  started : 0 < w.block.timestamp
  untouched : w.outflows = []

namespace Environment

variable {e : Environment} {b : Block} {w : World}

/-- What the hand-over leaves: one proposer, one administrator, no operation. -/
theorem deployTimelock_spec {t : Timelock} (h : e.deployTimelock = .ok t) :
    (∀ a, t.hasRole PROPOSER_ROLE a = true → a = e.governor) ∧
      (∀ a, t.hasRole DEFAULT_ADMIN_ROLE a = true → a = e.timelock) ∧ ∀ op, t.timestamps op = 0 := by
  obtain ⟨t₁, h₁, h⟩ := bind_eq_ok.mp h
  obtain ⟨t₂, h₂, h⟩ := bind_eq_ok.mp h
  obtain ⟨-, h₁⟩ := failIf_bind_eq_ok.mp h₁
  obtain ⟨-, h₂⟩ := failIf_bind_eq_ok.mp h₂
  obtain ⟨-, h⟩ := failIf_bind_eq_ok.mp h
  injection h₁ with h₁
  injection h₂ with h₂
  injection h with h
  subst h₁ h₂ h
  have hroles : ∀ role a,
      ((((Timelock.construct e.timelock e.minDelay [] [0] e.deployer).setRole PROPOSER_ROLE e.governor
        true).setRole CANCELLER_ROLE e.governor true).setRole DEFAULT_ADMIN_ROLE e.deployer
          false).hasRole role a
        = if role = DEFAULT_ADMIN_ROLE ∧ a = e.deployer then false
          else if role = CANCELLER_ROLE ∧ a = e.governor then true
          else if role = PROPOSER_ROLE ∧ a = e.governor then true
          else (Timelock.construct e.timelock e.minDelay [] [0] e.deployer).hasRole role a :=
    fun _ _ => rfl
  refine ⟨?_, ?_, fun _ => rfl⟩
  · intro a ha
    by_contra hne
    rw [hroles, if_neg (fun hc => absurd hc.1 (by decide)), if_neg (fun hc => hne hc.2),
      if_neg (fun hc => hne hc.2)] at ha
    simp [Timelock.construct, PROPOSER_ROLE, DEFAULT_ADMIN_ROLE, EXECUTOR_ROLE] at ha
  · intro a ha
    by_contra hne
    by_cases hdep : a = e.deployer
    · rw [hroles, if_pos ⟨rfl, hdep⟩] at ha
      nomatch ha
    · rw [hroles, if_neg (fun hc => hdep hc.2), if_neg (fun hc => absurd hc.1 (by decide)),
        if_neg (fun hc => absurd hc.1 (by decide))] at ha
      simp [Timelock.construct, PROPOSER_ROLE, CANCELLER_ROLE, DEFAULT_ADMIN_ROLE, EXECUTOR_ROLE,
        hne, hdep] at ha

/-- After the hand-over every role of the Timelock is its own, the Governor's or everyone's. -/
theorem deploy_holders (h : e.deploy b = .ok w) : ∃ t, w.timelocks e.timelock = some t ∧
    ∀ role a, t.hasRole role a = true → a = e.timelock ∨ a = e.governor ∨ a = 0 := by
  obtain ⟨t, ht, h⟩ := bind_eq_ok.mp h
  obtain ⟨t₁, h₁, ht⟩ := bind_eq_ok.mp ht
  obtain ⟨t₂, h₂, ht⟩ := bind_eq_ok.mp ht
  obtain ⟨-, h₁⟩ := failIf_bind_eq_ok.mp h₁
  obtain ⟨-, h₂⟩ := failIf_bind_eq_ok.mp h₂
  obtain ⟨-, ht⟩ := failIf_bind_eq_ok.mp ht
  injection h₁ with h₁
  injection h₂ with h₂
  injection ht with ht
  subst h₁ h₂ ht
  obtain ⟨faucet, -, h⟩ := bind_eq_ok.mp h
  obtain ⟨foundation, -, h⟩ := bind_eq_ok.mp h
  obtain ⟨dao, -, h⟩ := bind_eq_ok.mp h
  obtain ⟨contingency, -, h⟩ := bind_eq_ok.mp h
  obtain ⟨token, -, h⟩ := bind_eq_ok.mp h
  obtain ⟨governor, -, h⟩ := bind_eq_ok.mp h
  injection h with h
  subst h
  refine ⟨_, if_pos rfl, fun role a ha => ?_⟩
  by_contra hne
  simp only [not_or] at hne
  obtain ⟨hself, hgovernor, hzero⟩ := hne
  simp only [Timelock.setRole, Timelock.construct, hself, hgovernor, hzero, and_false, if_false,
    false_or, List.not_mem_nil, List.mem_singleton, or_false] at ha
  split at ha
  · nomatch ha
  · rename_i hdeployer
    have hadmin := of_decide_eq_true ha
    exact hdeployer ⟨hadmin.1, hadmin.2.2⟩

/-- **The script establishes the wiring.** -/
theorem deploy_deployed (hd : e.Distinct) (hb : 0 < b.timestamp) (h : e.deploy b = .ok w) :
    Deployed e.wiring e.timelock w := by
  obtain ⟨timelock, htimelock, h⟩ := bind_eq_ok.mp h
  obtain ⟨faucet, hfaucet, h⟩ := bind_eq_ok.mp h
  obtain ⟨foundation, hfoundation, h⟩ := bind_eq_ok.mp h
  obtain ⟨dao, hdao, h⟩ := bind_eq_ok.mp h
  obtain ⟨contingency, hcontingency, h⟩ := bind_eq_ok.mp h
  obtain ⟨token, -, h⟩ := bind_eq_ok.mp h
  obtain ⟨governor, hgovernor, h⟩ := bind_eq_ok.mp h
  injection h with h
  subst h
  obtain ⟨-, -, -, hexecutor, -⟩ := GembaGovernor.construct_spec hgovernor
  have hd : List.Nodup _ := hd
  simp only [List.nodup_cons, List.mem_cons, not_or, List.not_mem_nil] at hd
  obtain ⟨⟨h0g, h0t, h0T, -⟩, ⟨hgt, hgT, -, hgp, hgf, hgd, hgc, -⟩, ⟨htT, -, htp, htf, htd, htc, -⟩,
    ⟨-, hTp, hTf, hTd, hTc, -⟩, -⟩ := hd
  -- a reserve is neither the Governor, the token nor the Timelock
  have hplace : ∀ r R, (if r = e.publicReserve.2 then some (Reserve.publicReserve faucet)
      else if r = e.foundation.2 then some (.plain foundation)
      else if r = e.dao.2 then some (.plain dao)
      else if r = e.contingency.2 then some (.plain contingency) else none) = some R →
      Initialized e.timelock b.timestamp R ∧ r ≠ e.governor ∧ r ≠ e.token ∧ r ≠ e.timelock := by
    intro r R hR
    by_cases hp : r = e.publicReserve.2
    · rw [if_pos hp] at hR
      injection hR with hR
      subst hR hp
      exact ⟨.publicReserve (Nat.le_refl _) hfaucet, Ne.symm hgp, Ne.symm htp, Ne.symm hTp⟩
    rw [if_neg hp] at hR
    by_cases hf : r = e.foundation.2
    · rw [if_pos hf] at hR
      injection hR with hR
      subst hR hf
      exact ⟨.plain hfoundation, Ne.symm hgf, Ne.symm htf, Ne.symm hTf⟩
    rw [if_neg hf] at hR
    by_cases hdao' : r = e.dao.2
    · rw [if_pos hdao'] at hR
      injection hR with hR
      subst hR hdao'
      exact ⟨.plain hdao, Ne.symm hgd, Ne.symm htd, Ne.symm hTd⟩
    rw [if_neg hdao'] at hR
    by_cases hc : r = e.contingency.2
    · rw [if_pos hc] at hR
      injection hR with hR
      subst hR hc
      exact ⟨.plain hcontingency, Ne.symm hgc, Ne.symm htc, Ne.symm hTc⟩
    rw [if_neg hc] at hR
    nomatch hR
  refine ⟨⟨⟨e.governorArgs, hgovernor⟩, rfl⟩, hexecutor,
    ⟨timelock, if_pos rfl, deployTimelock_spec htimelock⟩, ?_, ?_, hb, rfl⟩
  · exact ⟨Ne.symm hgT, Ne.symm htT, Ne.symm h0g, if_neg h0T, if_neg hgT, if_neg htT⟩
  · intro r R hR
    obtain ⟨hinit, hg, ht, hT⟩ := hplace r R hR
    exact ⟨hinit, hg, ht, if_neg hT⟩

end Environment

/-! ## A rehearsal

  A deployment with the script's defaults, on small addresses, and the labels that take proposals
  through a vote.  Runs on concrete inputs start here. -/

namespace Rehearsal

def env : Environment where
  governor := 0x60
  token := 0x70
  timelock := 0x71
  deployer := 0xd0
  pause := 0xe0
  publicReserve := (0x10, 0x11)
  foundation := (0x20, 0x21)
  dao := (0x30, 0x31)
  contingency := (0x40, 0x41)
  excludeExtra := []
  minDelay := 300
  votingPeriod := 86400
  quorumPct := 40
  balance := fun a => if a = 0x21 then 15000000 * 10 ^ 18 else 0

theorem deploys : (env.deploy ⟨1, 1000⟩).toOption.isSome = true := by decide +kernel

/-- The chain right after the deployment. -/
def start : World := (env.deploy ⟨1, 1000⟩).toOption.get deploys

theorem deploy_eq : env.deploy ⟨1, 1000⟩ = .ok start :=
  toOption_eq_some.mp (Option.some_get deploys).symm

theorem start_deployed : Deployed env.wiring env.timelock start :=
  Environment.deploy_deployed (by decide) (by decide) deploy_eq

/-- An account gets native GMB, wraps it and delegates to itself. -/
def enter (a : Address) (amount : Nat) : List Label :=
  [.bank a amount,
   .call a env.token amount (encodeCall (VotesFn.depositFor a).sel [a.toNat]),
   .call a env.token 0 (encodeCall (VotesFn.delegate a).sel [a.toNat])]

/-- A proposal is queued, waits for the Timelock's delay and is executed. -/
def carryOut (sender : Address) (pid : ProposalId) (number timestamp : Nat) : List Label :=
  [.queue sender pid, .block number timestamp, .execute sender 0 pid]
    ++ pid.calls.map (fun _ => .act) ++ [.finish, .finish]

def alice : Address := 0xa1
def bob : Address := 0xb0

/-- Alice holds 45% of the votes and Bob the rest, and both can vote from block 2 on. -/
def electorate : List Label := enter alice 450 ++ enter bob 550 ++ [.block 2 1010]

/-- A proposal to give the foundation's reserve another pauser: Standard. -/
def replacePauser : ProposalId :=
  ⟨[⟨0x21, 0, encodeCall (ReserveFn.setPauser 0xe1).sel [0xe1]⟩], 1⟩

/-- A proposal to set the Standard quorum: Critical. -/
def setQuorum (n : Nat) : ProposalId :=
  ⟨[⟨env.governor, 0, encodeCall (GovernorFn.updateQuorumNumerator n).sel [n]⟩], 2⟩

/-- A proposal to set the voting delay: Critical. -/
def setDelay (n : Nat) : ProposalId :=
  ⟨[⟨env.governor, 0, encodeCall (GovernorFn.setVotingDelay n).sel [n]⟩], 3⟩

def propose (sender : Address) (pid : ProposalId) : Label :=
  .propose sender pid.calls ⟨pid.descriptionHash, none⟩

end Rehearsal
end Gemba.Governance
