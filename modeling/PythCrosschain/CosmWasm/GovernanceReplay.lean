import PythCrosschain.CosmWasm.Governance
import PythCrosschain.Lib.ReplayCounter
import PythCrosschain.Lib.Transactions

/-!
# The CosmWasm contract: runs of governance

`governance_sequence_number` is compared with the sequence of every VAA, and a transfer sets it
to the sequence of the claim; `governance_source_index` counts the transfers. A ledger is a
configuration with the VAAs that were executed and the claims that took effect.

The results are:

- `execute_panics`: a call panics exactly when it gets to a claim of the index zero;
- `claims_step`: a claim takes effect at most once, and every transfer counts;
- `governance_runs`: no VAA is executed twice and no call panics in a run whose claims are not
  of the index zero, nor older than an executed VAA of the emitter that takes over;
- `governance_runs_fail`: both happen without that condition.
-/

namespace PythCrosschain.CosmWasm

open Rust (propagate_eq_ok okOr_ne_panic propagate_ne_panic require_ne_panic bind_ne_panic)

/-! ## What a call does -/

/-- The index that a claim asks for, where the claim is for the chain. -/
def claimedIndex (chainId : BitVec 16) (claim : GovernanceVAA) : Option (BitVec 32) :=
  match GovernanceInstruction.deserialize claim.payload with
  | .ok instruction =>
    match instruction.action with
    | .requestGovernanceDataSourceTransfer index =>
      if instruction.ForChain chainId then some index else none
    | _ => none
  | .error _ => none

/-- The VAA of a call passes all checks up to its action. -/
structure Accepts (env : GovernanceEnv) (state : GovernedConfig) (data : Bytes)
    (vaa : GovernanceVAA) (instruction : GovernanceInstruction) : Prop where
  verified : env.parseAndVerifyVaa state data = .ok vaa
  source : state.governanceSource = vaa.source
  ahead : state.governanceSequenceNumber < vaa.sequence
  payload : GovernanceInstruction.deserialize vaa.payload = .ok instruction
  chain : instruction.ForChain state.chainId
  target : instruction.module = .target

/-- The VAA of a call that authorizes a transfer, and the claim that it carries, where both
pass the checks before the transfer begins. -/
def carriedClaim (env : GovernanceEnv) (state : GovernedConfig) (data : Bytes) :
    Option (GovernanceVAA × GovernanceVAA) := do
  let vaa ← (env.parseAndVerifyVaa state data).toOption
  guard (state.governanceSource = vaa.source ∧ state.governanceSequenceNumber < vaa.sequence)
  let instruction ← (GovernanceInstruction.deserialize vaa.payload).toOption
  guard (instruction.ForChain state.chainId ∧ instruction.module = .target)
  match instruction.action with
  | .authorizeGovernanceDataSourceTransfer claimVaa => do
    let claim ← (env.parseAndVerifyVaa state claimVaa).toOption
    return (vaa, claim)
  | _ => none

section

variable {env : GovernanceEnv} {state : GovernedConfig} {data : Bytes}

theorem carriedClaim_eq_some {vaa claim : GovernanceVAA} :
    carriedClaim env state data = some (vaa, claim) ↔
      ∃ instruction claimVaa, Accepts env state data vaa instruction ∧
        instruction.action = .authorizeGovernanceDataSourceTransfer claimVaa ∧
        env.parseAndVerifyVaa state claimVaa = .ok claim := by
  simp only [carriedClaim, Option.bind_eq_bind, Option.bind_eq_some_iff, except_toOption_eq_some,
    Option.guard_eq_some', Option.pure_def]
  constructor
  · rintro ⟨vaa', hverified, _, ⟨hsource, hahead⟩, instruction, hpayload, _, ⟨hchain, htarget⟩, h⟩
    split at h
    · next claimVaa haction =>
      simp only [Option.bind_eq_some_iff, except_toOption_eq_some, Option.some.injEq] at h
      obtain ⟨claim', hclaim, heq⟩ := h
      obtain ⟨rfl, rfl⟩ := Prod.mk.inj heq
      exact ⟨instruction, claimVaa, ⟨hverified, hsource, hahead, hpayload, hchain, htarget⟩,
        haction, hclaim⟩
    · exact absurd h nofun
  · rintro ⟨instruction, claimVaa, haccepts, haction, hclaim⟩
    refine ⟨vaa, haccepts.verified, (), ⟨haccepts.source, haccepts.ahead⟩, instruction,
      haccepts.payload, (), ⟨haccepts.chain, haccepts.target⟩, ?_⟩
    simp only [haction, hclaim, Except.toOption, Option.bind_some]

/-! ### Transfers -/

theorem claimedIndex_eq_some {chainId : BitVec 16} {claim : GovernanceVAA} {index : BitVec 32} :
    claimedIndex chainId claim = some index ↔
      ∃ instruction, GovernanceInstruction.deserialize claim.payload = .ok instruction ∧
        instruction.ForChain chainId ∧
        instruction.action = .requestGovernanceDataSourceTransfer index := by
  unfold claimedIndex
  cases GovernanceInstruction.deserialize claim.payload with
  | error e => exact ⟨nofun, nofun⟩
  | ok instruction =>
    dsimp only
    constructor
    · intro h
      split at h
      · next index' haction =>
        split at h
        · next hchain =>
          cases h
          exact ⟨instruction, rfl, hchain, haction⟩
        · exact absurd h nofun
      · exact absurd h nofun
    · rintro ⟨_, ⟨⟩, hchain, haction⟩
      rw [haction]
      exact if_pos hchain

theorem sub_one_eq_ok {index previous : BitVec 32} :
    (Rust.sub true index 1 : CallResult (BitVec 32)) = .ok previous ↔
      index.toNat = previous.toNat + 1 := by
  rw [Rust.sub, if_pos rfl, Rust.unwrap_eq_ok, Rust.checkedSub_eq_some]
  have hone : (1 : BitVec 32).toNat = 1 := rfl
  omega

theorem sub_one_panics {index : BitVec 32} :
    (Rust.sub true index 1 : CallResult (BitVec 32)) = .error .panic ↔ index = 0 := by
  constructor
  · intro h
    by_contra hne
    have hpos : (1 : BitVec 32).toNat ≤ index.toNat :=
      Nat.pos_of_ne_zero fun hzero => hne (BitVec.eq_of_toNat_eq hzero)
    rw [Rust.sub_of_le true hpos] at h
    exact absurd h nofun
  · rintro rfl
    rfl

/-- A claim takes effect where it asks for the next index. -/
theorem transferGovernance_eq_ok {nextConfig cfg : GovernedConfig} {claim : GovernanceVAA} :
    transferGovernance nextConfig state claim = .ok cfg ↔
      ∃ index, claimedIndex state.chainId claim = some index ∧
        index.toNat = state.governanceSourceIndex.toNat + 1 ∧
        cfg = { nextConfig with
          governanceSourceIndex := index
          governanceSource := claim.source
          governanceSequenceNumber := claim.sequence } := by
  simp only [transferGovernance, except_bind_eq_ok, Rust.mapErr_eq_ok, Rust.require_eq_ok,
    claimedIndex_eq_some]
  constructor
  · rintro ⟨instruction, hpayload, _, hchain, h⟩
    split at h
    · next index haction =>
      simp only [except_bind_eq_ok, sub_one_eq_ok, Rust.require_eq_ok] at h
      obtain ⟨previous, hindex, _, rfl, hcfg⟩ := h
      cases hcfg
      exact ⟨index, ⟨instruction, hpayload, hchain, haction⟩, hindex, rfl⟩
    · cases h
  · rintro ⟨index, ⟨instruction, hpayload, hchain, haction⟩, hindex, rfl⟩
    refine ⟨instruction, hpayload, (), hchain, ?_⟩
    simp only [haction, except_bind_eq_ok, sub_one_eq_ok, Rust.require_eq_ok]
    exact ⟨state.governanceSourceIndex, hindex, (), rfl, rfl⟩

theorem transferGovernance_panics {nextConfig : GovernedConfig} {claim : GovernanceVAA} :
    transferGovernance nextConfig state claim = .error .panic ↔
      claimedIndex state.chainId claim = some 0 := by
  rw [claimedIndex_eq_some, transferGovernance, Rust.bind_eq_panic]
  constructor
  · rintro (h | ⟨instruction, hpayload, h⟩)
    · exact absurd h Rust.mapErr_ne_panic
    rcases Rust.bind_eq_panic.mp h with h | ⟨_, hchain, h⟩
    · exact absurd h require_ne_panic
    split at h
    · next index haction =>
      rcases Rust.bind_eq_panic.mp h with h | ⟨previous, _, h⟩
      · rw [sub_one_panics] at h
        subst h
        exact ⟨instruction, Rust.mapErr_eq_ok.mp hpayload, Rust.require_eq_ok.mp hchain, haction⟩
      · exact absurd h (bind_ne_panic require_ne_panic fun _ _ => nofun)
    · exact absurd h nofun
  · rintro ⟨instruction, hpayload, hchain, haction⟩
    refine .inr ⟨instruction, Rust.mapErr_eq_ok.mpr hpayload, ?_⟩
    refine Rust.bind_eq_panic.mpr (.inr ⟨(), Rust.require_eq_ok.mpr hchain, ?_⟩)
    rw [haction]
    exact Rust.bind_eq_panic.mpr (.inl (sub_one_panics.mpr rfl))

/-! ### Calls -/

/-- What executing a VAA does to the fields that protect from replays. -/
inductive GuardChange (env : GovernanceEnv) (state : GovernedConfig) (vaa : GovernanceVAA)
    (action : GovernanceAction) (cfg : GovernedConfig) : Prop
  | kept : (∀ claimVaa, action ≠ .authorizeGovernanceDataSourceTransfer claimVaa) →
      cfg.governanceSource = state.governanceSource →
      cfg.governanceSourceIndex = state.governanceSourceIndex →
      cfg.governanceSequenceNumber = vaa.sequence → GuardChange env state vaa action cfg
  | transferred (claimVaa : Bytes) (claim : GovernanceVAA) (index : BitVec 32) :
      action = .authorizeGovernanceDataSourceTransfer claimVaa →
      env.parseAndVerifyVaa state claimVaa = .ok claim →
      claimedIndex state.chainId claim = some index →
      index.toNat = state.governanceSourceIndex.toNat + 1 →
      cfg.governanceSource = claim.source →
      cfg.governanceSourceIndex = index →
      cfg.governanceSequenceNumber = claim.sequence → GuardChange env state vaa action cfg

theorem executeAction_change {instruction : GovernanceInstruction} {vaa : GovernanceVAA}
    {cfg : GovernedConfig} {messages : List Migrate}
    (h : executeAction env state { state with governanceSequenceNumber := vaa.sequence }
      instruction = .ok (cfg, messages)) :
    cfg.chainId = state.chainId ∧ GuardChange env state vaa instruction.action cfg := by
  unfold executeAction at h
  split at h
  · next haction =>
    obtain ⟨_, _, h⟩ := except_bind_eq_ok.mp h
    cases h
    exact ⟨rfl, .kept (by simp [haction]) rfl rfl rfl⟩
  · next claimVaa haction =>
    simp only [except_bind_eq_ok, transferGovernance_eq_ok] at h
    obtain ⟨claim, hclaim, _, ⟨index, hclaimed, hindex, rfl⟩, h⟩ := h
    cases h
    exact ⟨rfl, .transferred claimVaa claim index haction hclaim hclaimed hindex rfl rfl rfl⟩
  · next haction =>
    cases h
    exact ⟨rfl, .kept (by simp [haction]) rfl rfl rfl⟩
  · next haction =>
    obtain ⟨_, _, h⟩ := except_bind_eq_ok.mp h
    cases h
    exact ⟨rfl, .kept (by simp [haction]) rfl rfl rfl⟩
  · next haction =>
    cases h
    exact ⟨rfl, .kept (by simp [haction]) rfl rfl rfl⟩
  · cases h

theorem execute_change {cfg : GovernedConfig} {messages : List Migrate}
    (h : executeGovernanceInstruction env state data = .ok (cfg, messages)) :
    ∃ vaa instruction, Accepts env state data vaa instruction ∧ cfg.chainId = state.chainId ∧
      GuardChange env state vaa instruction.action cfg := by
  simp only [executeGovernanceInstruction, verifyVaaFromGovernanceSource, except_bind_eq_ok,
    Rust.mapErr_eq_ok, Rust.require_eq_ok] at h
  obtain ⟨vaa, hverified, _, hsource, _, hahead, instruction, hpayload, _, hchain, _, htarget, h⟩ :=
    h
  exact ⟨vaa, instruction, ⟨hverified, hsource, hahead, hpayload, hchain, htarget⟩,
    executeAction_change h⟩

theorem newFeeAmount_ne_panic (val expo : BitVec 64) : newFeeAmount val expo ≠ .error .panic :=
  bind_ne_panic okOr_ne_panic fun _ _ => bind_ne_panic okOr_ne_panic fun _ _ => okOr_ne_panic

theorem executeAction_panics {instruction : GovernanceInstruction}
    {updatedConfig : GovernedConfig} :
    executeAction env state updatedConfig instruction = .error .panic ↔
      ∃ claimVaa claim, instruction.action = .authorizeGovernanceDataSourceTransfer claimVaa ∧
        env.parseAndVerifyVaa state claimVaa = .ok claim ∧
        claimedIndex state.chainId claim = some 0 := by
  unfold executeAction
  cases haction : instruction.action with
  | authorizeGovernanceDataSourceTransfer claimVaa =>
    constructor
    · intro h
      rcases Rust.bind_eq_panic.mp h with h | ⟨claim, hclaim, h⟩
      · exact absurd h propagate_ne_panic
      rcases Rust.bind_eq_panic.mp h with h | ⟨_, _, h⟩
      · exact ⟨claimVaa, claim, rfl, hclaim, transferGovernance_panics.mp h⟩
      · exact absurd h nofun
    · rintro ⟨_, claim, ⟨⟩, hclaim, hindex⟩
      exact Rust.bind_eq_panic.mpr (.inr ⟨claim, hclaim,
        Rust.bind_eq_panic.mpr (.inl (transferGovernance_panics.mpr hindex))⟩)
  | upgradeContract codeId =>
    exact iff_of_false (bind_ne_panic require_ne_panic fun _ _ => nofun) nofun
  | setFee val expo =>
    exact iff_of_false (bind_ne_panic (newFeeAmount_ne_panic val expo) fun _ _ => nofun) nofun
  | setDataSources dataSources => exact iff_of_false nofun nofun
  | setValidPeriod validSeconds => exact iff_of_false nofun nofun
  | requestGovernanceDataSourceTransfer index => exact iff_of_false nofun nofun

/-- **A call panics exactly when it gets to a claim of the index zero.** -/
theorem execute_panics :
    executeGovernanceInstruction env state data = .error .panic ↔
      ∃ vaa claim, carriedClaim env state data = some (vaa, claim) ∧
        claimedIndex state.chainId claim = some 0 := by
  unfold executeGovernanceInstruction
  constructor
  · intro h
    rcases Rust.bind_eq_panic.mp h with h | ⟨vaa, hverified, h⟩
    · exact absurd h propagate_ne_panic
    rcases Rust.bind_eq_panic.mp h with h | ⟨_, hsource, h⟩
    · exact absurd h require_ne_panic
    rcases Rust.bind_eq_panic.mp h with h | ⟨_, hahead, h⟩
    · exact absurd h require_ne_panic
    rcases Rust.bind_eq_panic.mp h with h | ⟨instruction, hpayload, h⟩
    · exact absurd h Rust.mapErr_ne_panic
    rcases Rust.bind_eq_panic.mp h with h | ⟨_, hchain, h⟩
    · exact absurd h require_ne_panic
    rcases Rust.bind_eq_panic.mp h with h | ⟨_, htarget, h⟩
    · exact absurd h require_ne_panic
    obtain ⟨claimVaa, claim, haction, hclaim, hindex⟩ := executeAction_panics.mp h
    have haccepts : Accepts env state data vaa instruction :=
      ⟨hverified, Rust.require_eq_ok.mp hsource, Rust.require_eq_ok.mp hahead,
        Rust.mapErr_eq_ok.mp hpayload, Rust.require_eq_ok.mp hchain, Rust.require_eq_ok.mp htarget⟩
    exact ⟨vaa, claim, carriedClaim_eq_some.mpr ⟨instruction, claimVaa, haccepts, haction, hclaim⟩,
      hindex⟩
  · rintro ⟨vaa, claim, hcarried, hindex⟩
    obtain ⟨instruction, claimVaa, haccepts, haction, hclaim⟩ := carriedClaim_eq_some.mp hcarried
    refine Rust.bind_eq_panic.mpr (.inr ⟨vaa, haccepts.verified, ?_⟩)
    refine Rust.bind_eq_panic.mpr (.inr ⟨(), Rust.require_eq_ok.mpr haccepts.source, ?_⟩)
    refine Rust.bind_eq_panic.mpr (.inr ⟨(), Rust.require_eq_ok.mpr haccepts.ahead, ?_⟩)
    refine Rust.bind_eq_panic.mpr (.inr ⟨_, Rust.mapErr_eq_ok.mpr haccepts.payload, ?_⟩)
    refine Rust.bind_eq_panic.mpr (.inr ⟨(), Rust.require_eq_ok.mpr haccepts.chain, ?_⟩)
    refine Rust.bind_eq_panic.mpr (.inr ⟨(), Rust.require_eq_ok.mpr haccepts.target, ?_⟩)
    exact executeAction_panics.mpr ⟨claimVaa, claim, haction, hclaim, hindex⟩

end

/-! ## Ledgers -/

structure VaaId where
  source : PythDataSource
  sequence : BitVec 64
deriving DecidableEq, Repr

def GovernanceVAA.id (vaa : GovernanceVAA) : VaaId where
  source := vaa.source
  sequence := vaa.sequence

/-- A call of `ExecuteGovernanceInstruction`, with the block in which it is executed. -/
structure GovernanceCall where
  env : GovernanceEnv
  data : Bytes

/-- The configuration, the VAAs that were executed so far, and the claims that took effect. -/
structure Ledger where
  config : GovernedConfig
  executed : List VaaId := []
  claims : List GovernanceVAA := []

def Ledger.execute (call : GovernanceCall) (l : Ledger) : CallResult Ledger := do
  let (config, _) ← executeGovernanceInstruction call.env l.config call.data
  let vaa := (call.env.parseAndVerifyVaa l.config call.data).toOption
  let carried := carriedClaim call.env l.config call.data
  return {
    config := config
    executed := l.executed ++ (vaa.map GovernanceVAA.id).toList
    claims := l.claims ++ (carried.map Prod.snd).toList }

section

variable {call : GovernanceCall} {l l' : Ledger}

/-- A call that succeeds executes one VAA, and where the action of it is a transfer, the claim
takes effect. -/
theorem ledger_change (h : l.execute call = .ok l') :
    ∃ vaa instruction, Accepts call.env l.config call.data vaa instruction ∧
      l'.executed = l.executed ++ [vaa.id] ∧ l'.config.chainId = l.config.chainId ∧
      GuardChange call.env l.config vaa instruction.action l'.config ∧
      ((l'.claims = l.claims ∧
          l'.config.governanceSourceIndex = l.config.governanceSourceIndex) ∨
        ∃ claim, carriedClaim call.env l.config call.data = some (vaa, claim) ∧
          claimedIndex l.config.chainId claim = some l'.config.governanceSourceIndex ∧
          l'.config.governanceSourceIndex.toNat = l.config.governanceSourceIndex.toNat + 1 ∧
          l'.claims = l.claims ++ [claim]) := by
  obtain ⟨⟨config, messages⟩, hexecute, h⟩ := except_bind_eq_ok.mp h
  cases h
  obtain ⟨vaa, instruction, haccepts, hchain, hchange⟩ := execute_change hexecute
  refine ⟨vaa, instruction, haccepts, ?_, hchain, hchange, ?_⟩
  · rw [haccepts.verified]
    rfl
  cases hchange with
  | kept hother _ hindex _ =>
    have hnone : carriedClaim call.env l.config call.data = none := by
      refine Option.eq_none_iff_forall_ne_some.mpr fun carried hcarried => ?_
      obtain ⟨instruction', claimVaa, haccepts', haction, -⟩ := carriedClaim_eq_some.mp hcarried
      obtain rfl := Except.ok.inj (haccepts.verified.symm.trans haccepts'.verified)
      obtain rfl := Except.ok.inj (haccepts.payload.symm.trans haccepts'.payload)
      exact hother claimVaa haction
    refine .inl ⟨?_, hindex⟩
    rw [hnone]
    exact List.append_nil l.claims
  | transferred claimVaa claim index haction hclaim hclaimed hnext _ hindex _ =>
    subst hindex
    have hcarried : carriedClaim call.env l.config call.data = some (vaa, claim) :=
      carriedClaim_eq_some.mpr ⟨instruction, claimVaa, haccepts, haction, hclaim⟩
    refine .inr ⟨claim, hcarried, hclaimed, hnext, ?_⟩
    rw [hcarried]
    rfl

/-! ### Claims -/

/-- No claim took effect twice, the index counts the claims from `start` on, and it is ahead of
the indices of all claims. -/
structure ClaimsSound (start : Nat) (l : Ledger) : Prop where
  nodup : l.claims.Nodup
  counted : l.config.governanceSourceIndex.toNat = start + l.claims.length
  behind : ∀ claim ∈ l.claims, ∃ index, claimedIndex l.config.chainId claim = some index ∧
    index.toNat ≤ l.config.governanceSourceIndex.toNat

/-- **A claim takes effect at most once, and every transfer counts.** -/
theorem claims_step {start : Nat} (hl : ClaimsSound start l) (h : l.execute call = .ok l') :
    ClaimsSound start l' := by
  obtain ⟨vaa, instruction, -, -, hchain, -, ⟨hclaims, hindex⟩ | ⟨claim, -, hclaimed, hnext,
    hclaims⟩⟩ := ledger_change h
  · refine ⟨hclaims ▸ hl.nodup, ?_, ?_⟩
    · rw [hindex, hclaims]
      exact hl.counted
    · rw [hclaims, hchain, hindex]
      exact hl.behind
  · have hnew : claim ∉ l.claims := by
      intro hmem
      obtain ⟨index, hclaimed', hle⟩ := hl.behind claim hmem
      obtain rfl := Option.some.inj (hclaimed.symm.trans hclaimed')
      exact absurd hle (Nat.not_le.mpr (hnext ▸ Nat.lt_succ_self _))
    refine ⟨?_, ?_, ?_⟩
    · rw [hclaims]
      exact List.nodup_append.mpr ⟨hl.nodup, List.nodup_singleton claim, fun a ha b hb =>
        List.mem_singleton.mp hb ▸ fun heq => hnew (heq ▸ ha)⟩
    · rw [hnext, hl.counted, hclaims, List.length_append]
      rfl
    · intro other hother
      rw [hclaims] at hother
      rw [hchain]
      rcases List.mem_append.mp hother with hold | hlast
      · obtain ⟨index, hclaimed', hle⟩ := hl.behind other hold
        exact ⟨index, hclaimed', hle.trans (hnext ▸ Nat.le_succ _)⟩
      · rw [List.mem_singleton.mp hlast]
        exact ⟨_, hclaimed, le_rfl⟩

/-! ### Sequences -/

/-- If the call gets to a claim, then the claim is not of the index zero, and if it is of the
next index, then it is not older than any executed VAA of its emitter, the VAA that carries it
included. -/
def ClaimIsSafe (l : Ledger) (call : GovernanceCall) : Prop :=
  ∀ carried ∈ carriedClaim call.env l.config call.data,
    claimedIndex l.config.chainId carried.2 ≠ some 0 ∧
      (claimedIndex l.config.chainId carried.2 = some (l.config.governanceSourceIndex + 1) →
        ∀ id ∈ l.executed ++ [carried.1.id],
          id.source = carried.2.source → id.sequence ≤ carried.2.sequence)

instance decidableClaimIsSafe (l : Ledger) (call : GovernanceCall) :
    Decidable (ClaimIsSafe l call) :=
  inferInstanceAs (Decidable (∀ carried ∈ carriedClaim call.env l.config call.data,
    claimedIndex l.config.chainId carried.2 ≠ some 0 ∧
      (claimedIndex l.config.chainId carried.2 = some (l.config.governanceSourceIndex + 1) →
        ∀ id ∈ l.executed ++ [carried.1.id],
          id.source = carried.2.source → id.sequence ≤ carried.2.sequence)))

/-- The replay guard of a ledger. -/
def guardOf (l : Ledger) : Counter PythDataSource where
  source := l.config.governanceSource
  last := l.config.governanceSequenceNumber.toNat
  executed := l.executed.map fun id => (id.source, id.sequence.toNat)

/-- A call that succeeds is a move of the replay guard. -/
theorem execute_move (hsafe : ClaimIsSafe l call) (h : l.execute call = .ok l') :
    (guardOf l).FreshMove (guardOf l') := by
  obtain ⟨vaa, instruction, haccepts, hexecuted, -, hchange, -⟩ := ledger_change h
  have hahead : (guardOf l).last < vaa.sequence.toNat := BitVec.lt_def.mp haccepts.ahead
  have hlist : (guardOf l').executed
      = (guardOf l).executed ++ [((guardOf l).source, vaa.sequence.toNat)] := by
    have hid : vaa.id.source = l.config.governanceSource := haccepts.source.symm
    simp only [guardOf, hexecuted, List.map_append, List.map_cons, List.map_nil, hid]
    rfl
  cases hchange with
  | kept _ hgoverns _ hlast =>
    have hguard : guardOf l' = { guardOf l with
        last := vaa.sequence.toNat
        executed := (guardOf l).executed ++ [((guardOf l).source, vaa.sequence.toNat)] } := by
      rw [← hlist]
      simp only [guardOf, hgoverns, hlast]
    rw [hguard]
    exact .execute hahead
  | transferred claimVaa claim index haction hclaim hclaimed hnext hgoverns _ hlast =>
    have hguard : guardOf l' = {
        source := claim.source
        last := claim.sequence.toNat
        executed := (guardOf l).executed ++ [((guardOf l).source, vaa.sequence.toNat)] } := by
      rw [← hlist]
      simp only [guardOf, hgoverns, hlast]
    rw [hguard]
    refine .handOver hahead fun k hk => ?_
    rw [← hlist] at hk
    obtain ⟨id, hid, hpair⟩ := List.mem_map.mp hk
    obtain ⟨hsource, rfl⟩ := Prod.mk.inj hpair
    have hcarried : carriedClaim call.env l.config call.data = some (vaa, claim) :=
      carriedClaim_eq_some.mpr ⟨instruction, claimVaa, haccepts, haction, hclaim⟩
    have hindex : index = l.config.governanceSourceIndex + 1 := by
      apply BitVec.eq_of_toNat_eq
      rw [BitVec.toNat_add, hnext, Nat.mod_eq_of_lt (hnext ▸ index.isLt)]
      rfl
    have hfresh := (hsafe (vaa, claim) hcarried).2 (hindex ▸ hclaimed)
    exact BitVec.le_def.mp (hfresh id (hexecuted ▸ hid) hsource)

theorem execute_ne_panic (hsafe : ClaimIsSafe l call) :
    executeGovernanceInstruction call.env l.config call.data ≠ .error .panic := by
  intro h
  obtain ⟨vaa, claim, hcarried, hzero⟩ := execute_panics.mp h
  exact (hsafe (vaa, claim) hcarried).1 hzero

/-- Outside the condition, a transfer lets an executed VAA through the replay guard again. -/
theorem accepts_of_stale_claim {vaa claim old : GovernanceVAA} {instruction : GovernanceInstruction}
    {env : GovernanceEnv} {data : Bytes} (h : l.execute call = .ok l')
    (hcarried : carriedClaim call.env l.config call.data = some (vaa, claim))
    (hsource : old.source = claim.source) (hstale : claim.sequence < old.sequence)
    (hverified : env.parseAndVerifyVaa l'.config data = .ok old)
    (hpayload : GovernanceInstruction.deserialize old.payload = .ok instruction)
    (hchain : instruction.ForChain l.config.chainId) (htarget : instruction.module = .target) :
    Accepts env l'.config data old instruction := by
  obtain ⟨vaa₁, instruction₁, haccepts₁, -, hsame, hchange, -⟩ := ledger_change h
  obtain ⟨instruction₂, claimVaa, haccepts₂, haction, hclaim⟩ := carriedClaim_eq_some.mp hcarried
  obtain rfl := Except.ok.inj (haccepts₁.verified.symm.trans haccepts₂.verified)
  obtain rfl := Except.ok.inj (haccepts₁.payload.symm.trans haccepts₂.payload)
  cases hchange with
  | kept hother _ _ _ => exact absurd haction (hother claimVaa)
  | transferred claimVaa' claim' index haction' hclaim' _ _ hgoverns _ hlast =>
    obtain rfl := GovernanceAction.authorizeGovernanceDataSourceTransfer.inj
      (haction'.symm.trans haction)
    obtain rfl := Except.ok.inj (hclaim'.symm.trans hclaim)
    exact ⟨hverified, hgoverns.trans hsource.symm, hlast ▸ hstale, hpayload, hsame ▸ hchain,
      htarget⟩

end

/-! ## Runs -/

/-- Nothing was done twice, and the index counts the transfers from `start` on. -/
structure DoneOnce (start : BitVec 32) (l : Ledger) : Prop where
  executed : l.executed.Nodup
  claims : l.claims.Nodup
  counted : l.config.governanceSourceIndex.toNat = start.toNat + l.claims.length

/-- **Governance with claims that are not stale and not of the index zero**: no VAA is executed
twice, no claim takes effect twice, the index counts the transfers, and no call panics. -/
theorem governance_runs (config : GovernedConfig) (calls : List GovernanceCall)
    (h : Along Ledger.execute ClaimIsSafe { config := config } calls) :
    Always Ledger.execute (DoneOnce config.governanceSourceIndex) { config := config } calls ∧
    Along Ledger.execute (fun l call =>
      executeGovernanceInstruction call.env l.config call.data ≠ .error .panic)
      { config := config } calls := by
  refine ⟨?_, h.mono fun l call => execute_ne_panic⟩
  have hsound : (guardOf { config := config }).Sound := ⟨List.nodup_nil, nofun⟩
  have hclaims : ClaimsSound config.governanceSourceIndex.toNat { config := config } :=
    ⟨List.nodup_nil, rfl, nofun⟩
  have halways : Always Ledger.execute
      (fun l => (guardOf l).Sound ∧ ClaimsSound config.governanceSourceIndex.toNat l)
      { config := config } calls := by
    refine always_of_along ⟨hsound, hclaims⟩ (fun call l l' hl hsafe hstep => ?_) h
    exact ⟨(execute_move hsafe hstep).sound hl.1, claims_step hl.2 hstep⟩
  exact halways.mono fun l hl => ⟨hl.1.nodup.of_map _, hl.2.nodup, hl.2.counted⟩

/-! ### Two sources that hand the governance over and back -/

def exGovernanceA : PythDataSource := { emitter := [0xa], chainId := 1 }
def exGovernanceB : PythDataSource := { emitter := [0xb], chainId := 1 }

def exGovernanceVaa (source : PythDataSource) (sequence : BitVec 64) (action : UInt8)
    (payload : Bytes) : StdResult GovernanceVAA :=
  .ok { emitterChain := source.chainId
        emitterAddress := source.emitter
        sequence := sequence
        payload := PYTH_GOVERNANCE_MAGIC ++ [1, action, 0, 0] ++ payload }

/-- The VAAs that the guardians signed, each encoded as one byte. -/
def exVerifyVAA : Bytes → StdResult GovernanceVAA
  -- two claims of A
  | [0xa1] => exGovernanceVaa exGovernanceA 1 5 [0, 0, 0, 2]
  | [0xa4] => exGovernanceVaa exGovernanceA 4 5 [0, 0, 0, 2]
  -- the valid period is set, and the governance goes to B
  | [0xa2] => exGovernanceVaa exGovernanceA 2 4 [0, 0, 0, 0, 0, 0, 0, 60]
  | [0xa3] => exGovernanceVaa exGovernanceA 3 1 [0xb1]
  -- a claim of B, and the governance goes back to A with its old or its new claim
  | [0xb1] => exGovernanceVaa exGovernanceB 1 5 [0, 0, 0, 1]
  | [0xb2] => exGovernanceVaa exGovernanceB 2 1 [0xa1]
  | [0xb3] => exGovernanceVaa exGovernanceB 3 1 [0xa4]
  -- a claim of B of the index zero, which A authorizes
  | [0xb0] => exGovernanceVaa exGovernanceB 1 5 [0, 0, 0, 0]
  | [0xa5] => exGovernanceVaa exGovernanceA 5 1 [0xb0]
  | _ => .error .notFound

def exGovernanceCall (data : Bytes) : GovernanceCall where
  env.blockTime := 0
  env.contractAddress := "pyth"
  env.verifyVAA _ data _ := exVerifyVAA data
  data := data

def exGovernedConfig : GovernedConfig where
  wormholeContract := "wormhole"
  dataSources := ∅
  governanceSource := exGovernanceA
  governanceSourceIndex := 0
  governanceSequenceNumber := 0
  chainId := 2
  validTimePeriod := 60
  fee := { amount := 1, denom := "uatom" }

theorem governance_runs_there_and_back :
    (runAll Ledger.execute { config := exGovernedConfig }
      ([[0xa2], [0xa3], [0xb3], [0xa2]].map exGovernanceCall)).executed
        = [⟨exGovernanceA, 2⟩, ⟨exGovernanceA, 3⟩, ⟨exGovernanceB, 3⟩] ∧
    Always Ledger.execute (DoneOnce 0) { config := exGovernedConfig }
      ([[0xa2], [0xa3], [0xb3], [0xa2]].map exGovernanceCall) := by
  have hsafe : Along Ledger.execute ClaimIsSafe { config := exGovernedConfig }
      ([[0xa2], [0xa3], [0xb3], [0xa2]].map exGovernanceCall) := by decide +kernel
  exact ⟨by decide +kernel, (governance_runs exGovernedConfig _ hsafe).1⟩

/-- The VAA that set the valid period is executed again after the governance went to B and,
with a claim that is older than it, back to A; and a claim of the index zero makes a call
panic. -/
theorem governance_runs_fail :
    (¬∀ (config : GovernedConfig) (calls : List GovernanceCall),
      (runAll Ledger.execute { config := config } calls).executed.Nodup) ∧
    ¬∀ (config : GovernedConfig) (call : GovernanceCall),
      executeGovernanceInstruction call.env config call.data ≠ .error .panic := by
  constructor
  · intro h
    have hnodup := h exGovernedConfig ([[0xa2], [0xa3], [0xb2], [0xa2]].map exGovernanceCall)
    have hexecuted : (runAll Ledger.execute { config := exGovernedConfig }
        ([[0xa2], [0xa3], [0xb2], [0xa2]].map exGovernanceCall)).executed
          = [⟨exGovernanceA, 2⟩, ⟨exGovernanceA, 3⟩, ⟨exGovernanceB, 2⟩, ⟨exGovernanceA, 2⟩] := by
      decide +kernel
    rw [hexecuted] at hnodup
    exact absurd hnodup (by decide)
  · intro h
    have hclaim : ∃ carried ∈ carriedClaim (exGovernanceCall [0xa5]).env exGovernedConfig [0xa5],
        claimedIndex exGovernedConfig.chainId carried.2 = some 0 := by decide +kernel
    obtain ⟨⟨vaa, claim⟩, hcarried, hindex⟩ := hclaim
    exact h exGovernedConfig (exGovernanceCall [0xa5])
      (execute_panics.mpr ⟨vaa, claim, hcarried, hindex⟩)

end PythCrosschain.CosmWasm
