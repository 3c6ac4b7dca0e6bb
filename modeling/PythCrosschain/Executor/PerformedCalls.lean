import PythCrosschain.Executor.Contract
import PythCrosschain.XcAdmin.GovernancePayload

/-!
# The calls of the executor over whole runs

Whatever the called contracts do, the record of the performed calls ascends by sequence, and each
entry is the action that its message encodes. The results are:

- `parseGovernanceInstruction_eq_ok`: what the parser accepts;
- `encode_parses` and `exists_action`: actions and payloads, in both directions;
- `Inv.execute`: what a call of `execute` preserves;
- `executor_runs`: what holds in every configuration of every run.
-/

namespace PythCrosschain.Executor

open Pyth (VM MAGIC)
open BytesLib (field toField_eq_ok sliceToEnd_eq_ok)
open XcAdmin (EvmExecute IsAddress)

/-! ## Payloads -/

/-- The instruction of a payload that the parser accepts. -/
def instructionOf (payload : Bytes) : GovernanceInstruction where
  governanceModule := .evmExecutor
  action := .execute
  targetChainId := field payload 6 16 2
  executorAddress := field payload 8 160 20
  callAddress := field payload 28 160 20
  value := field payload 48 256 32
  callData := payload.drop 80

/-- The header of a message for executors, and 80 bytes at least. -/
structure IsInstruction (payload : Bytes) : Prop where
  length : 80 ≤ payload.length
  magic : (field payload 0 32 4 : Uint32) = MAGIC
  governanceModule : (field payload 4 8 1 : Uint8) = 2
  action : (field payload 5 8 1 : Uint8) = 0

theorem enumOfUint8_eq_ok {α : Type} {values : List α} {n : Uint8} {a : α} :
    enumOfUint8 values n = .ok a ↔ values[n.toNat]? = some a := by
  unfold enumOfUint8
  cases values[n.toNat]? with
  | none => exact iff_of_false nofun nofun
  | some b => rw [Except.ok.injEq, Option.some.injEq]

theorem module_iff {n : Uint8} :
    ([.executor, .target, .evmExecutor, .stacksTarget] : List Pyth.GovernanceModule)[n.toNat]?
      = some .evmExecutor ↔ n = 2 := by
  have htwo : n = 2 ↔ n.toNat = 2 := BitVec.toNat_inj.symm
  rw [htwo]
  match n.toNat with
  | 0 => decide
  | 1 => decide
  | 2 => decide
  | 3 => decide
  | k + 4 => exact iff_of_false nofun nofun

theorem action_iff {n : Uint8} {action : ExecutorAction} :
    ([.execute] : List ExecutorAction)[n.toNat]? = some action ↔ n = 0 := by
  cases action
  constructor
  · intro h
    have hlength := (List.getElem?_eq_some_iff.mp h).1
    exact BitVec.eq_of_toNat_eq (Nat.lt_one_iff.mp hlength)
  · rintro rfl
    rfl

theorem parseGovernanceInstruction_eq_ok {payload : Bytes} {gi : GovernanceInstruction} :
    parseGovernanceInstruction payload = .ok gi ↔
      IsInstruction payload ∧ gi = instructionOf payload := by
  simp only [parseGovernanceInstruction, bind_eq_ok, require_eq_ok, pure_eq_ok, toField_eq_ok,
    sliceToEnd_eq_ok, enumOfUint8_eq_ok, BytesLib.toUint32, BytesLib.toUint8, BytesLib.toUint16,
    BytesLib.toAddress, toUint256, Nat.zero_add, Nat.reduceAdd]
  constructor
  · rintro ⟨_, ⟨-, rfl⟩, _, hmagic, _, ⟨-, rfl⟩, _, hmodule, _, rfl, _, ⟨-, rfl⟩, action, haction,
      _, ⟨-, rfl⟩, _, ⟨-, rfl⟩, _, ⟨-, rfl⟩, _, ⟨-, rfl⟩, _, ⟨hlength, rfl⟩, rfl⟩
    cases action
    exact ⟨⟨hlength, hmagic, module_iff.mp hmodule, action_iff.mp haction⟩, rfl⟩
  · rintro ⟨⟨hlength, hmagic, hmodule, haction⟩, rfl⟩
    exact ⟨_, ⟨by omega, rfl⟩, (), hmagic, _, ⟨by omega, rfl⟩, _, module_iff.mpr hmodule, (), rfl,
      _, ⟨by omega, rfl⟩, .execute, action_iff.mpr haction, _, ⟨by omega, rfl⟩, _, ⟨by omega, rfl⟩,
      _, ⟨by omega, rfl⟩, _, ⟨by omega, rfl⟩, _, ⟨hlength, rfl⟩, rfl⟩

section

variable {ChainName : Type} {toChainId : ChainName → Option (BitVec 16)}

/-- The bytes of a field that has all their bits. -/
theorem take_eq_bytesBE {payload : Bytes} {start w k : ℕ} (hw : 256 ^ k = 2 ^ w)
    (h : start + k ≤ payload.length) :
    (payload.drop start).take k = bytesBE k (field payload start w k).toNat := by
  have hlength : ((payload.drop start).take k).length = k := by
    rw [List.length_take, List.length_drop]
    omega
  have hlt := natBE_lt ((payload.drop start).take k)
  have hbytes := bytesBE_natBE ((payload.drop start).take k)
  rw [hlength] at hlt hbytes
  rw [field, BitVec.toNat_ofNat, Nat.mod_eq_of_lt (hw ▸ hlt), hbytes]

theorem drop_split {payload : Bytes} (start k : ℕ) :
    payload.drop start = (payload.drop start).take k ++ payload.drop (start + k) := by
  rw [← List.drop_drop, List.take_append_drop]

/-- The header that the proposers write. -/
def headerBytes (chain : BitVec 16) : Bytes :=
  [0x50, 0x54, 0x47, 0x4d, 2, 0] ++ bytesBE 2 chain.toNat

theorem encode_eq {action : EvmExecute ChainName} {payload : Bytes} :
    action.encode toChainId = some payload ↔
      ∃ chain, toChainId action.targetChainId = some chain ∧
        payload = headerBytes chain ++ (XcAdmin.HexBytes.encode 20 action.executorAddress
          ++ XcAdmin.HexBytes.encode 20 action.callAddress ++ bytesBE 32 action.value
          ++ action.calldata) := by
  have hheader (chain : BitVec 16) : bytesLE 4 XcAdmin.MAGIC_NUMBER
      ++ [XcAdmin.ActionName.execute.moduleId, XcAdmin.ActionName.execute.actionId]
      ++ bytesBE 2 chain.toNat = headerBytes chain := rfl
  simp only [EvmExecute.encode, XcAdmin.encodeWithPayload, XcAdmin.PythGovernanceHeader.encode,
    Option.bind_eq_bind, Option.bind_eq_some_iff, Option.pure_def, Option.some.injEq, hheader,
    XcAdmin.UIntBE.encode]
  constructor
  · rintro ⟨_, ⟨chain, hchain, rfl⟩, rfl⟩
    exact ⟨chain, hchain, rfl⟩
  · rintro ⟨chain, hchain, rfl⟩
    exact ⟨_, ⟨chain, hchain, rfl⟩, rfl⟩

theorem field_append {w : ℕ} (before part after : Bytes) {start k : ℕ}
    (hstart : before.length = start) (hk : part.length = k) :
    field (before ++ (part ++ after)) start w k = BitVec.ofNat w (natBE part) := by
  subst hstart hk
  rw [field, List.drop_left, List.take_left]

theorem ofNat_natBE_bytesBE {w k n : ℕ} (hn : n < 256 ^ k) :
    BitVec.ofNat w (natBE (bytesBE k n)) = BitVec.ofNat w n := by
  rw [natBE_bytesBE, Nat.mod_eq_of_lt hn]

/-- The address of a text. -/
def addressOf (address : Bytes) : Address := BitVec.ofNat 160 (natBE address)

/-- The instruction that an action stands for, with the bytes of its addresses. -/
def instructionFor (action : EvmExecute ChainName) (chain : BitVec 16)
    (executorAddress callAddress : Bytes) : GovernanceInstruction where
  governanceModule := .evmExecutor
  action := .execute
  targetChainId := chain
  executorAddress := addressOf executorAddress
  callAddress := addressOf callAddress
  value := BitVec.ofNat 256 action.value
  callData := action.calldata

/-- The parser reads the fields of an action that is in range. -/
theorem encode_parses {action : EvmExecute ChainName} {payload executorAddress callAddress : Bytes}
    {chain : BitVec 16} (hchain : toChainId action.targetChainId = some chain)
    (hexecutor : IsAddress action.executorAddress executorAddress)
    (hcall : IsAddress action.callAddress callAddress) (hvalue : action.value < 2 ^ 256)
    (hencode : action.encode toChainId = some payload) :
    parseGovernanceInstruction payload
      = .ok (instructionFor action chain executorAddress callAddress) := by
  obtain ⟨chain', hchain', rfl⟩ := encode_eq.mp hencode
  cases hchain.symm.trans hchain'
  rw [XcAdmin.HexBytes.encode_of_isAddress hexecutor, XcAdmin.HexBytes.encode_of_isAddress hcall]
  have he := hexecutor.2
  have hc := hcall.2
  have hchainLt : chain.toNat < 256 ^ 2 := chain.isLt
  have hvalueLt : action.value < 256 ^ 32 := hvalue.trans_eq (by decide)
  have hsplit : headerBytes chain ++ (executorAddress ++ callAddress ++ bytesBE 32 action.value
      ++ action.calldata)
      = [0x50, 0x54, 0x47, 0x4d] ++ ([2] ++ ([0] ++ (bytesBE 2 chain.toNat ++ (executorAddress
        ++ (callAddress ++ (bytesBE 32 action.value ++ action.calldata)))))) := by
    simp only [headerBytes, List.append_assoc]
    rfl
  have hlength : (headerBytes chain ++ (executorAddress ++ callAddress
      ++ bytesBE 32 action.value ++ action.calldata)).length = 80 + action.calldata.length := by
    simp only [headerBytes, List.length_append, List.length_cons, List.length_nil, length_bytesBE,
      he, hc]
    omega
  rw [parseGovernanceInstruction_eq_ok]
  refine ⟨⟨by omega, ?magic, ?module, ?action⟩, ?fields⟩
  case magic =>
    have h := @field_append 32 [] [0x50, 0x54, 0x47, 0x4d] (([2] : Bytes) ++ (([0] : Bytes)
      ++ (bytesBE 2 chain.toNat ++ (executorAddress ++ (callAddress
        ++ (bytesBE 32 action.value ++ action.calldata)))))) 0 4 rfl rfl
    rw [List.nil_append] at h
    rw [hsplit, h]
    decide
  case module =>
    rw [hsplit, @field_append 8 [0x50, 0x54, 0x47, 0x4d] [2] _ 4 1 rfl rfl]
    decide
  case action =>
    rw [hsplit, ← List.append_assoc, @field_append 8 ([0x50, 0x54, 0x47, 0x4d] ++ [2]) [0] _ 5 1
      rfl rfl]
    decide
  case fields =>
    have hheader : (headerBytes chain).length = 8 := rfl
    have htarget : (field (headerBytes chain ++ (executorAddress ++ callAddress
        ++ bytesBE 32 action.value ++ action.calldata)) 6 16 2 : Uint16) = chain := by
      rw [headerBytes, List.append_assoc, @field_append 16 _ (bytesBE 2 chain.toNat) _ 6 2 rfl
        (length_bytesBE ..), ofNat_natBE_bytesBE hchainLt, BitVec.ofNat_toNat, BitVec.setWidth_eq]
    have hexec : (field (headerBytes chain ++ (executorAddress ++ callAddress
        ++ bytesBE 32 action.value ++ action.calldata)) 8 160 20 : Address)
        = addressOf executorAddress := by
      simp only [List.append_assoc]
      exact field_append _ _ _ hheader he
    have hcallee : (field (headerBytes chain ++ (executorAddress ++ callAddress
        ++ bytesBE 32 action.value ++ action.calldata)) 28 160 20 : Address)
        = addressOf callAddress := by
      simp only [List.append_assoc]
      rw [← List.append_assoc]
      exact field_append _ _ _ (by rw [List.length_append, hheader, he]) hc
    have hval : (field (headerBytes chain ++ (executorAddress ++ callAddress
        ++ bytesBE 32 action.value ++ action.calldata)) 48 256 32 : Uint256)
        = BitVec.ofNat 256 action.value := by
      simp only [List.append_assoc]
      rw [← List.append_assoc, ← List.append_assoc, @field_append 256 _ (bytesBE 32 action.value) _
        48 32 (by rw [List.length_append, List.length_append, hheader, he, hc])
        (length_bytesBE ..), ofNat_natBE_bytesBE hvalueLt]
    have hdata : (headerBytes chain ++ (executorAddress ++ callAddress
        ++ bytesBE 32 action.value ++ action.calldata)).drop 80 = action.calldata := by
      rw [← List.append_assoc]
      refine List.drop_left' ?_
      simp only [List.length_append, hheader, he, hc, length_bytesBE]
    rw [instructionOf, htarget, hexec, hcallee, hval, hdata]
    rfl

/-- A payload that the parser accepts is an action for its chain, if the chain has a name. -/
theorem exists_action {payload : Bytes} (h : IsInstruction payload) {name : ChainName}
    (hname : toChainId name = some (field payload 6 16 2)) :
    ∃ action : EvmExecute ChainName, action.InRange ∧ action.targetChainId = name ∧
      action.encode toChainId = some payload ∧
      action.executorAddress = Hex.encode ((payload.drop 8).take 20) ∧
      action.callAddress = Hex.encode ((payload.drop 28).take 20) ∧
      action.value = (field payload 48 256 32 : Uint256).toNat ∧
      action.calldata = payload.drop 80 := by
  have hlength := h.length
  have htake {start : ℕ} (hstart : start + 20 ≤ payload.length) :
      ((payload.drop start).take 20).length = 20 := by
    rw [List.length_take, List.length_drop]
    omega
  have hexecutor := XcAdmin.isAddress_encode (@htake 8 (by omega))
  have hcall := XcAdmin.isAddress_encode (@htake 28 (by omega))
  refine ⟨⟨name, Hex.encode ((payload.drop 8).take 20), Hex.encode ((payload.drop 28).take 20),
    (field payload 48 256 32 : Uint256).toNat, payload.drop 80⟩,
    ⟨⟨_, hexecutor⟩, ⟨_, hcall⟩, (field payload 48 256 32 : Uint256).isLt⟩, rfl, ?_, rfl, rfl, rfl,
    rfl⟩
  refine encode_eq.mpr ⟨_, hname, ?_⟩
  simp only [XcAdmin.HexBytes.encode_of_isAddress hexecutor,
    XcAdmin.HexBytes.encode_of_isAddress hcall]
  have hmagic : (payload.drop 0).take 4 = [0x50, 0x54, 0x47, 0x4d] := by
    rw [@take_eq_bytesBE _ 0 32 4 (by decide) (by omega), h.magic]
    decide
  have hmodule : (payload.drop 4).take 1 = [2] := by
    rw [@take_eq_bytesBE _ 4 8 1 (by decide) (by omega), h.governanceModule]
    decide
  have haction : (payload.drop 5).take 1 = [0] := by
    rw [@take_eq_bytesBE _ 5 8 1 (by decide) (by omega), h.action]
    decide
  calc payload
      = payload.drop 0 := rfl
    _ = [0x50, 0x54, 0x47, 0x4d] ++ ([2] ++ ([0] ++ ((payload.drop 6).take 2
          ++ ((payload.drop 8).take 20 ++ ((payload.drop 28).take 20
            ++ ((payload.drop 48).take 32 ++ payload.drop 80)))))) := by
        conv_lhs => rw [drop_split 0 4, hmagic, drop_split (0 + 4) 1, hmodule,
          drop_split (0 + 4 + 1) 1, haction, drop_split (0 + 4 + 1 + 1) 2,
          drop_split (0 + 4 + 1 + 1 + 2) 20, drop_split (0 + 4 + 1 + 1 + 2 + 20) 20,
          drop_split (0 + 4 + 1 + 1 + 2 + 20 + 20) 32]
    _ = _ := by
        rw [@take_eq_bytesBE _ 6 16 2 (by decide) (by omega),
          @take_eq_bytesBE _ 48 256 32 (by decide) (by omega)]
        simp only [headerBytes, List.append_assoc]
        rfl

/-! ## What one call does -/

variable {cfg : ExecutorConfig} {parseVM : Bytes → Option VM} {call : Execute} {s s' : State}

/-- What `execute` checks before it calls. -/
structure Accepts (cfg : ExecutorConfig) (parseVM : Bytes → Option VM) (encodedVm : Bytes)
    (vm : VM) : Prop where
  parsed : parseVM encodedVm = some vm
  emitterChainId : vm.emitterChainId = cfg.ownerEmitterChainId
  emitterAddress : vm.emitterAddress = cfg.ownerEmitterAddress
  instruction : IsInstruction vm.payload
  target : (field vm.payload 6 16 2 : Uint16) = cfg.chainId ∨ (field vm.payload 6 16 2 : Uint16) = 0
  executor : (field vm.payload 8 160 20 : Address) = cfg.address

/-- The call that is recorded for a message. -/
def performedFor (encodedVm : Bytes) (vm : VM) : PerformedCall where
  encodedVm
  vm
  callAddress := field vm.payload 28 160 20
  value := field vm.payload 48 256 32
  callData := vm.payload.drop 80

theorem execute_eq_ok :
    execute cfg parseVM call s = .ok s' ↔
      ∃ vm, Accepts cfg parseVM call.encodedVm vm ∧ call.valid = true ∧
        vm.sequence > s.lastExecutedSequence ∧
        call.hasCode (field vm.payload 28 160 20) = true ∧
        s' = ⟨vm.sequence, s.performed ++ [performedFor call.encodedVm vm]⟩ := by
  simp only [execute, verifyGovernanceVM, parseAndVerifyVM, bind_eq_ok, require_eq_ok, pure_eq_ok,
    callResult_eq_ok, parseGovernanceInstruction_eq_ok]
  constructor
  · rintro ⟨_, ⟨_, ⟨vm, hparsed, rfl⟩, _, hvalid, _, ⟨hchain, haddress⟩, _, hsequence, rfl⟩, _,
      ⟨hinstruction, rfl⟩, _, htarget, _, ⟨-, hexecutor⟩, _, hcode, rfl⟩
    exact ⟨vm, ⟨hparsed, hchain, haddress, hinstruction, htarget, hexecutor⟩, hvalid, hsequence,
      hcode, rfl⟩
  · rintro ⟨vm, h, hvalid, hsequence, hcode, rfl⟩
    exact ⟨_, ⟨_, ⟨vm, h.parsed, rfl⟩, (), hvalid, (), ⟨h.emitterChainId, h.emitterAddress⟩, (),
      hsequence, rfl⟩, _, ⟨h.instruction, rfl⟩, (), h.target, (), ⟨trivial, h.executor⟩, (), hcode,
      rfl⟩

/-- The record ascends up to the sequence that was executed last. -/
structure Inv (cfg : ExecutorConfig) (parseVM : Bytes → Option VM) (s : State) : Prop where
  ascends : (s.performed.map fun p => p.vm.sequence).Pairwise (· < ·)
  behind : ∀ p ∈ s.performed, p.vm.sequence ≤ s.lastExecutedSequence
  accepted : ∀ p ∈ s.performed, Accepts cfg parseVM p.encodedVm p.vm ∧
    p = performedFor p.encodedVm p.vm

theorem Inv.execute (h : Inv cfg parseVM s) (hs : Executor.execute cfg parseVM call s = .ok s') :
    Inv cfg parseVM s' := by
  obtain ⟨vm, haccepts, -, hsequence, -, rfl⟩ := execute_eq_ok.mp hs
  have hbehind (p : PerformedCall) (hp : p ∈ s.performed) : p.vm.sequence < vm.sequence :=
    BitVec.lt_def.mpr (Nat.lt_of_le_of_lt (BitVec.le_def.mp (h.behind p hp))
      (BitVec.lt_def.mp hsequence))
  refine ⟨?_, fun p hp => ?_, fun p hp => ?_⟩
  · rw [List.map_append, List.pairwise_append]
    refine ⟨h.ascends, List.pairwise_singleton _ _, ?_⟩
    rintro _ hold _ hnew
    obtain ⟨p, hp, rfl⟩ := List.mem_map.mp hold
    rw [List.mem_singleton.mp hnew]
    exact hbehind p hp
  · rcases List.mem_append.mp hp with hold | hnew
    · exact BitVec.le_of_lt (hbehind p hold)
    · rw [List.mem_singleton.mp hnew]
      exact BitVec.le_refl _
  · rcases List.mem_append.mp hp with hold | hnew
    · exact h.accepted p hold
    · rw [List.mem_singleton.mp hnew]
      exact ⟨haccepts, rfl⟩

theorem inv_of_reachable {c : Config State Unit} (h : (executor cfg parseVM).Reachable c) :
    Inv cfg parseVM c.state := by
  refine h.invariant (fun s hs => ?_) fun s s' _ hinv hmove => ?_
  · have hempty : s.performed = [] := hs
    have hnone (p : PerformedCall) (hp : p ∈ s.performed) : False := by
      rw [hempty] at hp
      cases hp
    refine ⟨?_, fun p hp => (hnone p hp).elim, fun p hp => (hnone p hp).elim⟩
    rw [hempty]
    exact .nil
  · cases hmove with
    | start hstart =>
      obtain ⟨s', hs', rfl⟩ := Option.map_eq_some_iff.mp hstart
      exact hinv.execute (toOption_eq_some.mp hs')
    | @resume _ ok _ hresume =>
      cases ok with
      | true =>
        cases hresume
        exact hinv
      | false => cases hresume

end

/-! ## Whole runs -/

/-- An instruction with the fields of an action. -/
structure SameFields {ChainName : Type} (toChainId : ChainName → Option (BitVec 16))
    (action : EvmExecute ChainName) (gi : GovernanceInstruction) : Prop where
  targetChainId : toChainId action.targetChainId = some gi.targetChainId
  executorAddress : IsAddress action.executorAddress (packed 20 gi.executorAddress)
  callAddress : IsAddress action.callAddress (packed 20 gi.callAddress)
  value : gi.value.toNat = action.value
  callData : gi.callData = action.calldata

/-- A performed call is the action that its message encodes, for this contract and its chain or for
all chains. -/
structure IsActionOf {ChainName : Type} (toChainId : ChainName → Option (BitVec 16))
    (cfg : ExecutorConfig) (p : PerformedCall) (action : EvmExecute ChainName) : Prop where
  inRange : action.InRange
  encode : action.encode toChainId = some p.vm.payload
  fields : SameFields toChainId action
    { instructionOf p.vm.payload with
      executorAddress := cfg.address
      callAddress := p.callAddress
      value := p.value
      callData := p.callData }
  target : toChainId action.targetChainId = some cfg.chainId ∨
    toChainId action.targetChainId = some 0
  emitterChainId : p.vm.emitterChainId = cfg.ownerEmitterChainId
  emitterAddress : p.vm.emitterAddress = cfg.ownerEmitterAddress

section

variable {ChainName : Type} {toChainId : ChainName → Option (BitVec 16)} {cfg : ExecutorConfig}
  {parseVM : Bytes → Option VM}

theorem packed_addressOf {address : Bytes} (h : address.length = 20) :
    packed 20 (addressOf address) = address := by
  have hlt := natBE_lt address
  have hpow : 256 ^ 20 = 2 ^ 160 := by decide
  have hbytes := bytesBE_natBE address
  rw [h] at hlt hbytes
  rw [packed, addressOf, BitVec.toNat_ofNat, Nat.mod_eq_of_lt (hpow ▸ hlt), hbytes]

theorem exists_actionOf (hthis : ∃ name, toChainId name = some cfg.chainId)
    (hall : ∃ name, toChainId name = some 0) {p : PerformedCall}
    (haccepts : Accepts cfg parseVM p.encodedVm p.vm) (hp : p = performedFor p.encodedVm p.vm) :
    ∃ action : EvmExecute ChainName, IsActionOf toChainId cfg p action := by
  have hname : ∃ name, toChainId name = some (field p.vm.payload 6 16 2) := by
    rcases haccepts.target with htarget | htarget
    · rw [htarget]
      exact hthis
    · rw [htarget]
      exact hall
  obtain ⟨name, hname⟩ := hname
  obtain ⟨action, hrange, rfl, hencode, hexecutor, hcall, hvalue, hdata⟩ :=
    exists_action haccepts.instruction hname
  have hlength := haccepts.instruction.length
  have haddress {start : ℕ} (hstart : start + 20 ≤ p.vm.payload.length) :
      IsAddress (Hex.encode ((p.vm.payload.drop start).take 20))
        (packed 20 (field p.vm.payload start 160 20 : Address)) := by
    have hbytes := @take_eq_bytesBE p.vm.payload start 160 20 (by decide) hstart
    refine ⟨(Hex.decode_encode _).trans (congrArg some hbytes), length_packed 20 _⟩
  refine ⟨action, hrange, hencode, ⟨hname, ?_, ?_, ?_, ?_⟩, ?_, haccepts.emitterChainId,
    haccepts.emitterAddress⟩
  · rw [hexecutor, ← haccepts.executor]
    exact haddress (by omega)
  · rw [hcall, hp]
    exact haddress (by omega)
  · rw [hvalue, hp]
    rfl
  · rw [hdata, hp]
    rfl
  · rcases haccepts.target with htarget | htarget
    · exact .inl (htarget ▸ hname)
    · exact .inr (htarget ▸ hname)

theorem action_parses {action : EvmExecute ChainName} (h : action.InRange)
    (hchain : (toChainId action.targetChainId).isSome) :
    ∃ payload gi, action.encode toChainId = some payload ∧
      parseGovernanceInstruction payload = .ok gi ∧ SameFields toChainId action gi := by
  obtain ⟨chain, hchain⟩ := Option.isSome_iff_exists.mp hchain
  obtain ⟨executorAddress, hexecutor⟩ := h.executorAddress
  obtain ⟨callAddress, hcall⟩ := h.callAddress
  have hencode := (@encode_eq _ toChainId action _).mpr ⟨chain, hchain, rfl⟩
  refine ⟨_, _, hencode, encode_parses hchain hexecutor hcall h.value hencode, hchain, ?_, ?_, ?_,
    rfl⟩
  · rw [instructionFor, packed_addressOf hexecutor.2]
    exact hexecutor
  · rw [instructionFor, packed_addressOf hcall.2]
    exact hcall
  · exact Nat.mod_eq_of_lt h.value

/-- How a pending call ends: it keeps what was done since, or restores what was there before. -/
theorem call_ends {c d : Config State Unit} {s' t : State} {f : Frame State Unit}
    (h : Relation.ReflTransGen ((executor cfg parseVM).StepAbove c.stack)
      ⟨s', .waiting c.state s' () :: c.stack⟩ ⟨t, f :: c.stack⟩)
    (hstep : (executor cfg parseVM).Step ⟨t, f :: c.stack⟩ d) (hend : d.stack = c.stack) :
    d = ⟨t, c.stack⟩ ∨ d = c := by
  obtain ⟨atCall, k, rfl⟩ := Component.frame_of_pending h
  have hlonger {g : Frame State Unit} {fs : List (Frame State Unit)}
      (hsame : g :: fs = c.stack) (hfs : fs.length = c.stack.length) : False := by
    have hlength := congrArg List.length hsame
    rw [List.length_cons] at hlength
    omega
  cases hstep with
  | call _ => exact (hlonger hend rfl).elim
  | enter _ =>
    have hlength := congrArg List.length hend
    simp only [List.length_cons] at hlength
    omega
  | checkpoint =>
    have hlength := congrArg List.length hend
    simp only [List.length_cons] at hlength
    omega
  | @finish _ _ _ _ _ _ ok hresume =>
    cases ok with
    | true =>
      cases hresume
      exact .inl rfl
    | false => cases hresume
  | @callAgain _ _ _ _ _ _ _ ok hresume => exact (hlonger hend rfl).elim
  | abort => exact .inr rfl

end

/-- **The calls of the executor.** In every configuration of every run, whatever is called from
inside the calls: the sequences of the performed calls ascend, and no message has performed two; a
pending call ends with all that was done since, or restores the state before it; each performed
call is the action that its message encodes, from the owner, for this contract and for its chain or
all chains. And the payload of every action is parsed to its fields. -/
theorem executor_runs {ChainName : Type} (toChainId : ChainName → Option (BitVec 16))
    (parseVM : Bytes → Option VM) (cfg : ExecutorConfig)
    (hthis : ∃ name, toChainId name = some cfg.chainId) (hall : ∃ name, toChainId name = some 0)
    (c : Config State Unit) (hc : (executor cfg parseVM).Reachable c) :
    (c.state.performed.map fun p => p.vm.sequence).Pairwise (· < ·) ∧
    (c.state.performed.map PerformedCall.encodedVm).Nodup ∧
    (∀ p ∈ c.state.performed, parseVM p.encodedVm = some p.vm ∧
      ∃ action : EvmExecute ChainName, IsActionOf toChainId cfg p action) ∧
    (∀ call s', (executor cfg parseVM).start call c.state = some (.external s' ()) →
      ∀ t f d, Relation.ReflTransGen ((executor cfg parseVM).StepAbove c.stack)
          ⟨s', .waiting c.state s' () :: c.stack⟩ ⟨t, f :: c.stack⟩ →
        (executor cfg parseVM).Step ⟨t, f :: c.stack⟩ d → d.stack = c.stack →
        d = ⟨t, c.stack⟩ ∨ d = c) ∧
    ∀ action : EvmExecute ChainName, action.InRange → (toChainId action.targetChainId).isSome →
      ∃ payload gi, action.encode toChainId = some payload ∧
        parseGovernanceInstruction payload = .ok gi ∧ SameFields toChainId action gi := by
  have hinv := inv_of_reachable hc
  refine ⟨hinv.ascends, ?_, fun p hp => ?_, fun _ _ _ t f d h hstep hend => call_ends h hstep hend,
    fun action hrange hchain => action_parses hrange hchain⟩
  · -- the message determines the sequence
    have hparsed (p : PerformedCall) (hp : p ∈ c.state.performed) :
        parseVM p.encodedVm = some p.vm := (hinv.accepted p hp).1.parsed
    refine (List.pairwise_map.mpr ?_ : List.Pairwise _ _)
    refine (List.pairwise_map.mp hinv.ascends).imp_of_mem fun {p q} hp hq hlt hsame => ?_
    have hvm : p.vm = q.vm := by
      have hp' := hparsed p hp
      rw [hsame, hparsed q hq] at hp'
      exact (Option.some.inj hp').symm
    rw [hvm] at hlt
    exact absurd (BitVec.lt_def.mp hlt) (Nat.lt_irrefl _)
  · obtain ⟨haccepts, hrecord⟩ := hinv.accepted p hp
    exact ⟨haccepts.parsed, exists_actionOf hthis hall haccepts hrecord⟩

/-! ### Three calls of a contract -/

inductive ExChain where
  | unset
  | ethereum
deriving DecidableEq, Repr

def ExChain.toChainId : ExChain → Option (BitVec 16)
  | unset => some 0
  | ethereum => some 2

def exConfig : ExecutorConfig where
  address := 0x0a0b
  chainId := 2
  ownerEmitterChainId := 1
  ownerEmitterAddress := 0x5635979a221c34931e32620b9293a463065555ea71fe97cd6237ade875b12e9e

/-- A call with four bytes of data, for this chain. -/
def exAction : EvmExecute ExChain where
  targetChainId := .ethereum
  executorAddress := "0000000000000000000000000000000000000a0b".toList
  callAddress := "0000000000000000000000000000000000000c0d".toList
  value := 7
  calldata := [1, 2, 3, 4]

/-- The same call for all chains. -/
def exBroadcast : EvmExecute ExChain := { exAction with targetChainId := .unset }

def exVm (sequence : Uint64) (action : EvmExecute ExChain) : VM where
  emitterChainId := exConfig.ownerEmitterChainId
  emitterAddress := exConfig.ownerEmitterAddress
  sequence := sequence
  payload := (action.encode ExChain.toChainId).getD []

/-- Three messages of the owner. -/
def exMessages : List (Bytes × VM) :=
  [([1], exVm 5 exAction), ([2], exVm 6 exBroadcast), ([3], exVm 7 exAction)]

def exParseVM (encodedVm : Bytes) : Option VM :=
  (exMessages.find? fun message => message.1 = encodedVm).map Prod.snd

def exCall (n : ℕ) : Execute where
  encodedVm := [UInt8.ofNat (n + 1)]
  valid := true
  hasCode address := address = 0x0c0d

/-- After the first `n` calls. -/
def exState (n : ℕ) : State where
  lastExecutedSequence := BitVec.ofNat 64 (4 + n)
  performed := (exMessages.take n).map fun message =>
    ⟨message.1, message.2, 0x0c0d, 7, [1, 2, 3, 4]⟩

theorem exState_start {n : ℕ} (h : n < 3) :
    (executor exConfig exParseVM).start (exCall n) (exState n)
      = some (.external (exState (n + 1)) ()) := by
  have hrun : ∀ n < 3, (execute exConfig exParseVM (exCall n) (exState n)).toOption
      = some (exState (n + 1)) := by
    decide +kernel
  show (execute exConfig exParseVM (exCall n) (exState n)).toOption.map
    (fun s => (.external s () : Outcome State Unit)) = _
  rw [hrun n h]
  rfl

/-- The first call is performed, and the second one from inside it. The third one fails. -/
theorem exState_reachable : (executor exConfig exParseVM).Reachable ⟨exState 2, []⟩ := by
  have hreturns {s atCall : State} {fs : List (Frame State Unit)} {saved : State} :
      (executor exConfig exParseVM).Step ⟨s, .waiting saved atCall () :: fs⟩ ⟨s, fs⟩ :=
    .finish (show (executor exConfig exParseVM).resume () true (if true then s else atCall)
      = some (.done s) from rfl)
  have hnested : Relation.ReflTransGen (executor exConfig exParseVM).Step ⟨exState 0, []⟩
      ⟨exState 2, []⟩ :=
    .head (.enter (exState_start (by decide))) <| .head (.enter (exState_start (by decide))) <|
      .head hreturns <| .single hreturns
  exact ⟨exState 0, rfl, (hnested.tail (.enter (exState_start (by decide)))).tail .abort⟩

theorem exBroadcast_inRange : exBroadcast.InRange where
  executorAddress := ⟨bytesBE 20 0x0a0b, by decide +kernel, by decide⟩
  callAddress := ⟨bytesBE 20 0x0c0d, by decide +kernel, by decide⟩
  value := by decide

/-- Two calls are performed, each once and in this order. A third one that starts then keeps its
record or leaves none. -/
theorem executor_runs_example :
    (exState 2).performed.length = 2 ∧
    ((exState 2).performed.map fun p => p.vm.sequence).Pairwise (· < ·) ∧
    ((exState 2).performed.map PerformedCall.encodedVm).Nodup ∧
    (∀ p ∈ (exState 2).performed, exParseVM p.encodedVm = some p.vm ∧
      ∃ action : EvmExecute ExChain, IsActionOf ExChain.toChainId exConfig p action) ∧
    (∀ d, (executor exConfig exParseVM).Step ⟨exState 3, [.waiting (exState 2) (exState 3) ()]⟩ d →
      d.stack = [] → d = ⟨exState 3, []⟩ ∨ d = ⟨exState 2, []⟩) ∧
    ∃ payload gi, exBroadcast.encode ExChain.toChainId = some payload ∧
      parseGovernanceInstruction payload = .ok gi ∧
      SameFields ExChain.toChainId exBroadcast gi := by
  obtain ⟨hascend, honce, hactions, hends, hparsed⟩ := executor_runs ExChain.toChainId exParseVM
    exConfig ⟨.ethereum, rfl⟩ ⟨.unset, rfl⟩ _ exState_reachable
  exact ⟨rfl, hascend, honce, hactions,
    fun d => hends (exCall 2) (exState 3) (exState_start (by decide)) _ _ d .refl,
    hparsed exBroadcast exBroadcast_inRange rfl⟩

end PythCrosschain.Executor
