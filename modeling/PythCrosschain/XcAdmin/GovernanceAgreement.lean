import PythCrosschain.CosmWasm.GovernanceCodec
import PythCrosschain.Executor.PerformedCalls
import PythCrosschain.XcAdmin.GovernanceActions

/-!
# Governance payloads: what is proposed, shown and executed

A payload is a header and the fields of its action (`encode_eq`), and `decodeGovernancePayload`
looks at the two apart (`decode_append`).

Results:
1. `shown_as_proposed`: an action that is proposed is shown as it was proposed.
2. `evm_agreement`: what the EVM contract parses is shown with the same fields and written with
   the same bytes, and what is written is parsed to the same fields.
3. `cosmWasm_agreement`: the same for the CosmWasm contract.
-/

namespace PythCrosschain.XcAdmin

/-! ## Chains -/

namespace Chains

variable {ChainName : Type} [DecidableEq ChainName] {chains : Chains ChainName}
  {chainName : ChainName} {chainId : BitVec 16}

/-- The name that is shown for an id has that id. -/
theorem toChainId_of_toChainName (h : chains.toChainName chainId = some chainName) :
    chains.toChainId chainName = some chainId := by
  obtain ⟨entry, hentry, rfl⟩ := Option.map_eq_some_iff.mp h
  have hmem := List.mem_reverse.mp (List.mem_of_find?_eq_some hentry)
  have hid : entry.2 = chainId := by simpa using List.find?_some hentry
  obtain ⟨found, hfound⟩ := Option.isSome_iff_exists.mp (List.find?_isSome.mpr
    ⟨entry, hmem, decide_eq_true rfl⟩ :
      (chains.entries.find? fun other => other.1 = entry.1).isSome)
  have hname : found.1 = entry.1 := by simpa using List.find?_some hfound
  have hsame : found = entry :=
    List.inj_on_of_nodup_map chains.nodup (List.mem_of_find?_eq_some hfound) hmem hname
  rw [toChainId, hfound, hsame, Option.map_some, hid]

end Chains

/-! ## The header -/

/-- The header of an action for the chain with an id. -/
def headerOf (action : ActionName) (chain : BitVec 16) : Bytes :=
  bytesLE 4 MAGIC_NUMBER ++ [action.moduleId, action.actionId] ++ bytesBE 2 chain.toNat

theorem length_headerOf (action : ActionName) (chain : BitVec 16) :
    (headerOf action chain).length = 8 := by
  simp only [headerOf, List.length_append, length_bytesLE, length_bytesBE, List.length_cons,
    List.length_nil]

theorem toActionName_of (action : ActionName) :
    toActionName action.moduleId.toNat action.actionId.toNat = some action := by
  cases action <;> rfl

namespace Layout

variable {span offset : ℕ} {before bytes rest b : Bytes}

theorem bytesAt_append (h : bytes.length = span) (hbefore : before.length = offset) :
    bytesAt span (before ++ (bytes ++ rest)) offset = bytes := by
  rw [bytesAt, ← hbefore, List.drop_left, ← h, List.take_left]

theorem numberAt_append (h : bytes.length = span) (hbefore : before.length = offset) :
    numberAt span (before ++ (bytes ++ rest)) offset = .ok bytes := by
  rw [numberAt, if_pos, bytesAt_append h hbefore]
  rw [List.length_append, List.length_append, h, hbefore]
  omega

theorem numberAt_zero (h : bytes.length = span) (rest : Bytes) :
    numberAt span (bytes ++ rest) 0 = .ok bytes :=
  @numberAt_append span 0 [] bytes rest h List.length_nil

theorem bytesAt_shift (hbefore : before.length = 8) :
    bytesAt span (before ++ b) (8 + offset) = bytesAt span b offset := by
  rw [bytesAt, bytesAt, ← hbefore, List.drop_length_add_append]

theorem numberAt_shift (hbefore : before.length = 8) :
    numberAt span (before ++ b) (8 + offset) = numberAt span b offset := by
  have hiff : 8 + offset + span ≤ (before ++ b).length ↔ offset + span ≤ b.length := by
    rw [List.length_append, hbefore]
    omega
  rw [numberAt, numberAt, bytesAt_shift hbefore]
  exact if_congr hiff rfl rfl

end Layout

section

variable {ChainName : Type} {chains : Chains ChainName} {chainName : ChainName}
  {chain : BitVec 16}

theorem header_split (action : ActionName) (payload : Bytes) :
    headerOf action chain ++ payload = bytesLE 4 MAGIC_NUMBER ++
      ([action.moduleId] ++ ([action.actionId] ++ (bytesBE 2 chain.toNat ++ payload))) := by
  simp only [headerOf, List.append_assoc, List.cons_append, List.nil_append]

theorem natBE_singleton (b : UInt8) : natBE [b] = b.toNat := by
  simp only [natBE, List.length_nil, pow_zero, mul_one, add_zero]

theorem header_magicNumber (action : ActionName) (payload : Bytes) :
    Layout.decodeU32 (headerOf action chain ++ payload) 0 = .ok MAGIC_NUMBER := by
  have hnumber : natLE (bytesLE 4 MAGIC_NUMBER) = MAGIC_NUMBER :=
    (natLE_bytesLE 4 MAGIC_NUMBER).trans (Nat.mod_eq_of_lt (by decide))
  rw [header_split, Layout.decodeU32, Layout.numberAt_zero (length_bytesLE 4 MAGIC_NUMBER)]
  exact congrArg Except.ok hnumber

theorem header_module (action : ActionName) (payload : Bytes) :
    Layout.decodeU8 (headerOf action chain ++ payload) 4 = .ok action.moduleId.toNat := by
  rw [header_split, Layout.decodeU8,
    Layout.numberAt_append (List.length_singleton) (length_bytesLE 4 MAGIC_NUMBER)]
  exact congrArg Except.ok (natBE_singleton _)

theorem header_action (action : ActionName) (payload : Bytes) :
    Layout.decodeU8 (headerOf action chain ++ payload) 5 = .ok action.actionId.toNat := by
  have hbefore : (bytesLE 4 MAGIC_NUMBER ++ [action.moduleId]).length = 5 := by
    rw [List.length_append, length_bytesLE, List.length_singleton]
  rw [header_split, Layout.decodeU8, ← List.append_assoc (bytesLE 4 MAGIC_NUMBER),
    Layout.numberAt_append List.length_singleton hbefore]
  exact congrArg Except.ok (natBE_singleton _)

theorem header_chain (action : ActionName) (payload : Bytes) :
    Layout.decodeU16be (headerOf action chain ++ payload) 6 = .ok chain.toNat := by
  have hbefore : (bytesLE 4 MAGIC_NUMBER ++ [action.moduleId] ++ [action.actionId]).length = 6 := by
    rw [List.length_append, List.length_append, length_bytesLE, List.length_singleton,
      List.length_singleton]
  have hlt : chain.toNat < 256 ^ 2 := chain.isLt
  rw [header_split, Layout.decodeU16be, ← List.append_assoc (bytesLE 4 MAGIC_NUMBER),
    ← List.append_assoc _ [action.actionId],
    Layout.numberAt_append (length_bytesBE 2 chain.toNat) hbefore]
  exact congrArg Except.ok ((natBE_bytesBE 2 _).trans (Nat.mod_eq_of_lt hlt))

theorem header_decode (hname : chains.toChainName chain = some chainName) (action : ActionName)
    (payload : Bytes) :
    PythGovernanceHeader.decode chains (headerOf action chain ++ payload) =
      some ⟨chainName, action⟩ := by
  have hid : BitVec.ofNat 16 chain.toNat = chain := by
    rw [BitVec.ofNat_toNat, BitVec.setWidth_eq]
  rw [PythGovernanceHeader.decode, header_magicNumber, header_module, header_action, header_chain]
  simp only [Except.toOption, Option.bind_eq_bind, Option.bind_some, hid, hname, toActionName_of,
    ne_eq, not_true_eq_false, if_false, Option.pure_def]

end

/-! ## Header and payload -/

namespace PythGovernanceAction

variable {ChainName : Type}

def targetChainId : PythGovernanceAction ChainName → ChainName
  | executePostedVaa action => action.targetChainId
  | cosmosUpgradeContract chain _ => chain
  | upgradeContract256Bit chain _ => chain
  | evmUpgradeContract chain _ => chain
  | authorizeGovernanceDataSourceTransfer chain _ => chain
  | setDataSources chain _ => chain
  | setFee chain _ _ => chain
  | setFeeInToken chain _ _ _ => chain
  | setValidPeriod chain _ => chain
  | requestGovernanceDataSourceTransfer chain _ => chain
  | evmSetWormholeAddress chain _ => chain
  | starknetSetWormholeAddress chain _ => chain
  | evmExecute action => action.targetChainId

def actionName : PythGovernanceAction ChainName → ActionName
  | executePostedVaa _ => .executePostedVaa
  | cosmosUpgradeContract _ _ => .upgradeContract
  | upgradeContract256Bit _ _ => .upgradeContract
  | evmUpgradeContract _ _ => .upgradeContract
  | authorizeGovernanceDataSourceTransfer _ _ => .authorizeGovernanceDataSourceTransfer
  | setDataSources _ _ => .setDataSources
  | setFee _ _ _ => .setFee
  | setFeeInToken _ _ _ _ => .setFeeInToken
  | setValidPeriod _ _ => .setValidPeriod
  | requestGovernanceDataSourceTransfer _ _ => .requestGovernanceDataSourceTransfer
  | evmSetWormholeAddress _ _ => .setWormholeAddress
  | starknetSetWormholeAddress _ _ => .setWormholeAddress
  | evmExecute _ => .execute

/-- What is written behind the header. -/
def payload : PythGovernanceAction ChainName → Option Bytes
  | executePostedVaa action =>
    Vector.encode PACKET_DATA_SIZE (Layout.instructionDataLayout PACKET_DATA_SIZE)
      action.instructions []
  | cosmosUpgradeContract _ codeId => some (UIntBE.encode 8 codeId)
  | upgradeContract256Bit _ hash => some (HexBytes.encode 32 hash)
  | evmUpgradeContract _ address => some (HexBytes.encode 20 address)
  | authorizeGovernanceDataSourceTransfer _ claimVaa => some claimVaa
  | setDataSources _ dataSources => do
    let numSources ← Layout.encodeNumber 1 dataSources.length
    let sources ← dataSources.mapM DataSource.encode
    return numSources ++ sources.flatten
  | setFee _ newFeeValue newFeeExpo =>
    some (UIntBE.encode 8 newFeeValue ++ UIntBE.encode 8 newFeeExpo)
  | setFeeInToken _ newFeeValue newFeeExpo token => do
    let tokenLen ← Layout.encodeNumber 1 token.length
    return UIntBE.encode 8 newFeeValue ++ (UIntBE.encode 8 newFeeExpo ++ (tokenLen ++ token))
  | setValidPeriod _ newValidPeriod => some (UIntBE.encode 8 newValidPeriod)
  | requestGovernanceDataSourceTransfer _ index => Layout.encodeNumber 4 index
  | evmSetWormholeAddress _ address => some (HexBytes.encode 20 address)
  | starknetSetWormholeAddress _ address => some (HexBytes.encode 32 address)
  | evmExecute action => some (HexBytes.encode 20 action.executorAddress ++
      (HexBytes.encode 20 action.callAddress ++ (UIntBE.encode 32 action.value ++ action.calldata)))

theorem encodeWithPayload_eq (toChainId : ChainName → Option (BitVec 16)) (chain : ChainName)
    (action : ActionName) (payload : Bytes) :
    encodeWithPayload toChainId ⟨chain, action⟩ payload =
      (toChainId chain).map (headerOf action · ++ payload) := by
  unfold encodeWithPayload PythGovernanceHeader.encode
  cases toChainId chain <;> rfl

theorem encode_fields {toChainId : ChainName → Option (BitVec 16)}
    {a : PythGovernanceAction ChainName} {fields : Bytes}
    (h : a.encode toChainId =
      encodeWithPayload toChainId ⟨a.targetChainId, a.actionName⟩ fields)
    (hfields : a.payload = some fields) :
    a.encode toChainId = do
      let chain ← toChainId a.targetChainId
      let payload ← a.payload
      return headerOf a.actionName chain ++ payload := by
  rw [h, hfields, encodeWithPayload_eq]
  cases toChainId a.targetChainId <;> rfl

/-- An encoding is a header and a payload. -/
theorem encode_eq (toChainId : ChainName → Option (BitVec 16))
    (a : PythGovernanceAction ChainName) :
    a.encode toChainId = do
      let chain ← toChainId a.targetChainId
      let payload ← a.payload
      return headerOf a.actionName chain ++ payload := by
  cases a with
  | executePostedVaa action =>
    unfold encode ExecutePostedVaa.encode payload
    dsimp only [targetChainId, actionName]
    unfold PythGovernanceHeader.encode
    cases toChainId action.targetChainId <;> rfl
  | setDataSources chain dataSources =>
    unfold encode payload PythGovernanceHeader.encode
    dsimp only [targetChainId, actionName]
    cases toChainId chain with
    | none => rfl
    | some id =>
      cases Layout.encodeNumber 1 dataSources.length with
      | none => rfl
      | some numSources =>
        cases dataSources.mapM DataSource.encode with
        | none => rfl
        | some sources => exact congrArg some (List.append_assoc _ _ _)
  | setFeeInToken chain value expo token =>
    unfold encode payload PythGovernanceHeader.encode
    dsimp only [targetChainId, actionName]
    cases toChainId chain with
    | none => rfl
    | some id =>
      cases Layout.encodeNumber 1 token.length with
      | none => rfl
      | some tokenLen =>
        refine congrArg some ?_
        simp only [headerOf, List.append_assoc]
  | requestGovernanceDataSourceTransfer chain index =>
    unfold encode payload PythGovernanceHeader.encode
    dsimp only [targetChainId, actionName]
    cases toChainId chain <;> rfl
  | evmExecute action =>
    unfold encode EvmExecute.encode payload
    dsimp only [targetChainId, actionName]
    rw [encodeWithPayload_eq]
    cases toChainId action.targetChainId with
    | none => rfl
    | some id =>
      refine congrArg some ?_
      simp only [List.append_assoc]
  | cosmosUpgradeContract chain codeId =>
    exact encode_fields rfl rfl
  | upgradeContract256Bit chain hash =>
    exact encode_fields rfl rfl
  | evmUpgradeContract chain address =>
    exact encode_fields rfl rfl
  | authorizeGovernanceDataSourceTransfer chain claimVaa =>
    exact encode_fields rfl rfl
  | setFee chain value expo =>
    exact encode_fields rfl rfl
  | setValidPeriod chain validPeriod =>
    exact encode_fields rfl rfl
  | evmSetWormholeAddress chain address =>
    exact encode_fields rfl rfl
  | starknetSetWormholeAddress chain address =>
    exact encode_fields rfl rfl

theorem encode_eq_some {toChainId : ChainName → Option (BitVec 16)}
    {a : PythGovernanceAction ChainName} {bytes : Bytes} :
    a.encode toChainId = some bytes ↔ ∃ chain payload, toChainId a.targetChainId = some chain ∧
      a.payload = some payload ∧ bytes = headerOf a.actionName chain ++ payload := by
  rw [encode_eq]
  simp only [Option.bind_eq_bind, Option.bind_eq_some_iff, Option.pure_def, Option.some.injEq]
  constructor
  · rintro ⟨chain, hchain, payload, hpayload, rfl⟩
    exact ⟨chain, payload, hchain, hpayload, rfl⟩
  · rintro ⟨chain, payload, hchain, hpayload, rfl⟩
    exact ⟨chain, hchain, payload, hpayload, rfl⟩

section

variable {chains : Chains ChainName} {chainName : ChainName} {chain : BitVec 16}

/-- What is shown of a payload, for the name and the action of its header. -/
def decodePayload (chainName : ChainName) (action : ActionName) (payload : Bytes) :
    Except LayoutError (Option (PythGovernanceAction ChainName)) :=
  match action with
  | .executePostedVaa => .ok do
    let instructions ← (Vector.decode Layout.instructionLayout payload 0).toOption
    return executePostedVaa
      ⟨chainName, instructions.map DecodedInstruction.toTransactionInstruction⟩
  | .upgradeContract => .ok <|
    if payload.length = 8 then some (cosmosUpgradeContract chainName (UIntBE.decode 8 payload 0))
    else if payload.length = 32 then
      some (upgradeContract256Bit chainName (HexBytes.decode 32 payload 0))
    else if payload.length = 20 then
      some (evmUpgradeContract chainName (HexBytes.decode 20 payload 0))
    else none
  | .authorizeGovernanceDataSourceTransfer =>
    .ok (some (authorizeGovernanceDataSourceTransfer chainName payload))
  | .setDataSources => do
    let numSources ← Layout.decodeU8 payload 0
    let dataSources ← decodeDataSources payload numSources 1
    return some (setDataSources chainName dataSources)
  | .setFee =>
    .ok (some (setFee chainName (UIntBE.decode 8 payload 0) (UIntBE.decode 8 payload 8)))
  | .setFeeInToken => do
    let _ ← Layout.decodeU8 payload 16
    return some (setFeeInToken chainName (UIntBE.decode 8 payload 0) (UIntBE.decode 8 payload 8)
      (payload.drop 17))
  | .setValidPeriod => .ok (some (setValidPeriod chainName (UIntBE.decode 8 payload 0)))
  | .requestGovernanceDataSourceTransfer => .ok do
    let index ← (Layout.decodeU32be payload 0).toOption
    return requestGovernanceDataSourceTransfer chainName index
  | .setWormholeAddress => .ok <|
    if payload.length = 20 then
      some (evmSetWormholeAddress chainName (HexBytes.decode 20 payload 0))
    else if payload.length = 32 then
      some (starknetSetWormholeAddress chainName (HexBytes.decode 32 payload 0))
    else none
  | .execute =>
    .ok (some (evmExecute ⟨chainName, HexBytes.decode 20 payload 0, HexBytes.decode 20 payload 20,
      UIntBE.decode 32 payload 40, payload.drop 72⟩))

theorem decodeFields_append {T : Type} (hname : chains.toChainName chain = some chainName)
    (action : ActionName) (payload : Bytes) (layout : Bytes → T)
    (build : ChainName → T → PythGovernanceAction ChainName) :
    decodeFields chains (headerOf action chain ++ payload) action layout build =
      some (build chainName (layout payload)) := by
  have hdrop : (headerOf action chain ++ payload).drop PythGovernanceHeader.span = payload :=
    List.drop_left' (length_headerOf action chain)
  unfold decodeFields decodeWithPayload
  rw [header_decode hname, hdrop]
  simp [Except.toOption]

theorem decodeDataSources_shift {before b : Bytes} (hbefore : before.length = 8)
    (numSources index : ℕ) :
    decodeDataSources (before ++ b) numSources (8 + index) =
      decodeDataSources b numSources index := by
  induction numSources generalizing index with
  | zero => rfl
  | succ numSources ih =>
    rw [decodeDataSources, decodeDataSources, DataSource.decode, DataSource.decode,
      Layout.decodeU16be, Layout.decodeU16be, Layout.numberAt_shift hbefore, HexBytes.decode,
      HexBytes.decode, Nat.add_assoc 8 index 2, Layout.bytesAt_shift hbefore, Nat.add_assoc 8 index,
      ih]

/-- The header only says what the payload is read as. -/
theorem decode_append (hname : chains.toChainName chain = some chainName) (action : ActionName)
    (payload : Bytes) :
    decodeGovernancePayload chains (headerOf action chain ++ payload) =
      decodePayload chainName action payload := by
  have hlength := length_headerOf action chain
  have hpayload : (headerOf action chain ++ payload).length - PythGovernanceHeader.span =
      payload.length := by
    rw [List.length_append, hlength]
    exact Nat.add_sub_cancel_left _ _
  have hdrop : (headerOf action chain ++ payload).drop PythGovernanceHeader.span = payload :=
    List.drop_left' hlength
  unfold decodeGovernancePayload
  rw [header_decode hname, hpayload]
  cases action with
  | executePostedVaa =>
    dsimp only
    rw [decodeExecutePostedVaa, header_decode hname, hdrop]
    rfl
  | upgradeContract =>
    dsimp only
    rw [decodeCosmosUpgradeContract, decodeUpgradeContract256Bit, decodeEvmUpgradeContract,
      decodeFields_append hname, decodeFields_append hname, decodeFields_append hname]
    rfl
  | authorizeGovernanceDataSourceTransfer =>
    exact congrArg Except.ok (decodeFields_append hname _ _ _ _)
  | setDataSources =>
    dsimp only
    have hzero : PythGovernanceHeader.span = 8 + 0 := rfl
    have hone : 8 + 0 + 1 = 8 + 1 := rfl
    rw [decodeSetDataSources, header_decode hname]
    dsimp only
    rw [if_neg (fun h => h rfl), hzero, hone, Layout.decodeU8, Layout.numberAt_shift hlength]
    simp only [decodeDataSources_shift hlength]
    rfl
  | setFee => exact congrArg Except.ok (decodeFields_append hname _ _ _ _)
  | setFeeInToken =>
    dsimp only
    have hindex : PythGovernanceHeader.span = 8 := rfl
    rw [decodeSetFeeInToken, header_decode hname]
    dsimp only
    have hvalue : Layout.bytesAt 8 (headerOf .setFeeInToken chain ++ payload) 8 =
        Layout.bytesAt 8 payload 0 := @Layout.bytesAt_shift 8 0 _ _ hlength
    have htoken : (headerOf .setFeeInToken chain ++ payload).drop (8 + 17) = payload.drop 17 := by
      rw [← hlength, List.drop_length_add_append]
    rw [if_neg (fun h => h rfl), hindex, Layout.decodeU8, Layout.numberAt_shift hlength,
      UIntBE.decode, UIntBE.decode, Layout.bytesAt_shift hlength, hvalue, htoken]
    rfl
  | setValidPeriod => exact congrArg Except.ok (decodeFields_append hname _ _ _ _)
  | requestGovernanceDataSourceTransfer =>
    dsimp only
    rw [decodeRequestGovernanceDataSourceTransfer, decodeWithPayload, header_decode hname, hdrop]
    cases h : Layout.decodeU32be payload 0 <;> simp [decodePayload, h, Except.toOption]
  | setWormholeAddress =>
    dsimp only
    rw [decodeEvmSetWormholeAddress, decodeStarknetSetWormholeAddress,
      decodeFields_append hname, decodeFields_append hname]
    rfl
  | execute => exact congrArg Except.ok (decodeFields_append hname _ _ _ _)

end

end PythGovernanceAction

/-! ## What is written is read -/

namespace Layout

variable {before rest bytes : Bytes}

theorem decodeU8_append (b : UInt8) :
    decodeU8 (before ++ (b :: rest)) before.length = .ok b.toNat := by
  have h := @numberAt_append 1 before.length before [b] rest rfl rfl
  rw [List.singleton_append] at h
  rw [decodeU8, h]
  exact congrArg Except.ok (natBE_singleton b)

theorem decodeU32_append {n : ℕ} (hn : n < 2 ^ 32) :
    decodeU32 (before ++ (bytesLE 4 n ++ rest)) before.length = .ok n := by
  rw [decodeU32, numberAt_append (length_bytesLE 4 n) rfl]
  exact congrArg Except.ok ((natLE_bytesLE 4 n).trans (Nat.mod_eq_of_lt hn))

theorem decodeU16be_append {n : ℕ} (hn : n < 256 ^ 2) :
    decodeU16be (before ++ (bytesBE 2 n ++ rest)) before.length = .ok n := by
  rw [decodeU16be, numberAt_append (length_bytesBE 2 n) rfl]
  exact congrArg Except.ok ((natBE_bytesBE 2 n).trans (Nat.mod_eq_of_lt hn))

/-- The layout reads a value from its bytes, wherever they are. -/
def ReadsElement {T : Type} (element : ElementLayout T) (bytes : Bytes) (value : T) : Prop :=
  ∀ before rest : Bytes,
    element.decode (before ++ (bytes ++ rest)) before.length = .ok value ∧
      element.getSpan (before ++ (bytes ++ rest)) before.length = .ok bytes.length

theorem decodeSeq_append {T V : Type} {element : ElementLayout T} {encoded : V → Bytes}
    {value : V → T} (vs : List V) (h : ∀ v ∈ vs, ReadsElement element (encoded v) (value v))
    (before rest : Bytes) :
    decodeSeq element (before ++ (vs.flatMap encoded ++ rest)) vs.length before.length =
      .ok (vs.map value) := by
  induction vs generalizing before with
  | nil => rfl
  | cons v vs ih =>
    obtain ⟨hvalue, hspan⟩ := h v List.mem_cons_self before (vs.flatMap encoded ++ rest)
    have htail := ih (fun v hv => h v (List.mem_cons_of_mem _ hv)) (before ++ encoded v)
    rw [List.append_assoc, List.length_append] at htail
    rw [List.flatMap_cons, List.append_assoc, List.length_cons, decodeSeq, hvalue, hspan]
    show (decodeSeq element _ vs.length (before.length + (encoded v).length) >>= _) = _
    rw [htail]
    rfl

theorem vector_append {T V : Type} {element : ElementLayout T} (encoded : V → Bytes)
    {value : V → T} (vs : List V) (hlength : vs.length < 2 ^ 32)
    (h : ∀ v ∈ vs, ReadsElement element (encoded v) (value v)) (before rest : Bytes) :
    Vector.decode element (before ++ (bytesLE 4 vs.length ++ (vs.flatMap encoded ++ rest)))
      before.length = .ok (vs.map value) := by
  have hseq := decodeSeq_append vs h (before ++ bytesLE 4 vs.length) rest
  rw [List.append_assoc, List.length_append, length_bytesLE] at hseq
  unfold Vector.decode
  rw [decodeU32_append hlength]
  exact hseq

theorem vectorSpan_append {n : ℕ} (hn : n < 2 ^ 32) (elementSpan : ℕ) (before rest : Bytes) :
    Vector.getSpan elementSpan (before ++ (bytesLE 4 n ++ rest)) before.length =
      .ok (4 + elementSpan * n) := by
  unfold Vector.getSpan
  rw [decodeU32_append hn]
  rfl

/-- What is read of an account. -/
def metadataOf (acc : Solana.AccountMeta) : AccountMetadata where
  pubkey := acc.pubkey.val
  isSigner := if acc.isSigner then 1 else 0
  isWritable := if acc.isWritable then 1 else 0

/-- What is read of an instruction. -/
def decodedOf (ix : TransactionInstruction) : DecodedInstruction where
  programId := ix.programId.val
  accounts := ix.keys.map metadataOf
  data := ix.data.map UInt8.toNat

theorem reads_account (acc : Solana.AccountMeta) :
    ReadsElement accountMetadataLayout (accountBytes acc) (metadataOf acc) := by
  intro before rest
  have hsigner := @decodeU8_append (before ++ acc.pubkey.val)
    ((if acc.isWritable then (1 : UInt8) else 0) :: rest) (if acc.isSigner then 1 else 0)
  have hwritable := @decodeU8_append
    (before ++ acc.pubkey.val ++ [if acc.isSigner then (1 : UInt8) else 0]) rest
    (if acc.isWritable then 1 else 0)
  have hpubkey := @bytesAt_append 32 before.length before acc.pubkey.val
    ([if acc.isSigner then (1 : UInt8) else 0, if acc.isWritable then 1 else 0] ++ rest)
    acc.pubkey.property rfl
  simp only [List.length_append, List.length_singleton, acc.pubkey.property, List.append_assoc,
    List.cons_append, List.nil_append, Nat.reduceAdd] at hsigner hwritable hpubkey
  refine ⟨?_, by rw [length_accountBytes]; rfl⟩
  simp only [accountMetadataLayout, accountBytes, List.append_assoc, List.cons_append,
    List.nil_append, hsigner, hwritable, hpubkey]
  obtain ⟨pubkey, isSigner, isWritable⟩ := acc
  cases isSigner <;> cases isWritable <;> rfl

theorem reads_byte (b : UInt8) : ReadsElement u8Layout [b] b.toNat :=
  fun _ _ => ⟨decodeU8_append b, rfl⟩

theorem reads_instruction {ix : TransactionInstruction} (hkeys : ix.keys.length < 2 ^ 32)
    (hdata : ix.data.length < 2 ^ 32) :
    ReadsElement instructionLayout (instructionBytes ix) (decodedOf ix) := by
  intro before rest
  have hprogram := @bytesAt_append 32 before.length before ix.programId.val
    (bytesLE 4 ix.keys.length ++ (ix.keys.flatMap accountBytes ++
      (bytesLE 4 ix.data.length ++ (ix.data ++ rest)))) ix.programId.property rfl
  have haccounts := vector_append accountBytes ix.keys hkeys (fun acc _ => reads_account acc)
    (before ++ ix.programId.val) (bytesLE 4 ix.data.length ++ (ix.data ++ rest))
  have haccountsSpan := vectorSpan_append hkeys 34 (before ++ ix.programId.val)
    (ix.keys.flatMap accountBytes ++ (bytesLE 4 ix.data.length ++ (ix.data ++ rest)))
  have hbytes := vector_append (fun b => [b]) ix.data hdata (fun b _ => reads_byte b)
    (before ++ ix.programId.val ++ (bytesLE 4 ix.keys.length ++ ix.keys.flatMap accountBytes)) rest
  have hbytesSpan := vectorSpan_append hdata 1
    (before ++ ix.programId.val ++ (bytesLE 4 ix.keys.length ++ ix.keys.flatMap accountBytes))
    (ix.data ++ rest)
  have hspan : before.length + (32 + (4 + ix.keys.length * 34)) =
      before.length + (32 + (4 + 34 * ix.keys.length)) := by rw [Nat.mul_comm]
  simp only [List.length_append, ix.programId.property, length_bytesLE,
    length_flatMap_accountBytes, List.append_assoc, List.flatMap_singleton', hspan]
    at haccounts haccountsSpan hbytes hbytesSpan hprogram
  rw [instructionBytes]
  constructor
  · simp only [instructionLayout, List.append_assoc, haccounts, haccountsSpan, Nat.add_assoc]
    show (Vector.decode u8Layout _ _ >>= _) = _
    rw [hbytes, hprogram]
    rfl
  · simp only [instructionLayout, List.append_assoc, haccountsSpan, Nat.add_assoc]
    show (Vector.getSpan 1 _ _ >>= _) = _
    rw [hbytesSpan]
    refine congrArg Except.ok ?_
    simp only [List.length_append, ix.programId.property, length_bytesLE,
      length_flatMap_accountBytes]
    omega

end Layout

theorem PublicKey.ofBytes_val (key : Solana.Pubkey) : PublicKey.ofBytes key.val = key := by
  refine Subtype.ext ?_
  show (List.replicate 32 0 ++ key.val).drop key.val.length = key.val
  rw [key.property]
  exact List.drop_left' List.length_replicate

theorem toTransactionInstruction_decodedOf (ix : TransactionInstruction) :
    (Layout.decodedOf ix).toTransactionInstruction = ix := by
  have hkeys (keys : List Solana.AccountMeta) : (keys.map Layout.metadataOf).map
      (fun acc : AccountMetadata => (⟨PublicKey.ofBytes acc.pubkey, acc.isSigner != 0,
        acc.isWritable != 0⟩ : Solana.AccountMeta)) = keys := by
    rw [List.map_map]
    refine (List.map_congr_left fun acc _ => ?_).trans (List.map_id keys)
    obtain ⟨pubkey, isSigner, isWritable⟩ := acc
    cases isSigner <;> cases isWritable <;>
      simp [Layout.metadataOf, PublicKey.ofBytes_val]
  have hdata (data : Bytes) : (data.map UInt8.toNat).map UInt8.ofNat = data := by
    rw [List.map_map]
    exact (List.map_congr_left fun b _ => UInt8.ofNat_toNat).trans (List.map_id data)
  obtain ⟨programId, keys, data⟩ := ix
  simp only [DecodedInstruction.toTransactionInstruction, Layout.decodedOf,
    PublicKey.ofBytes_val, hkeys, hdata]

/-! ## Round trip -/

theorem HexBytes.encode_of_decode {text : List Char} {bytes : Bytes} {span : ℕ}
    (h : Hex.decode text = some bytes) (hlength : bytes.length = span) :
    HexBytes.encode span text = bytes := by
  rw [HexBytes.encode, hexPairs_of_decode h, List.take_append_of_le_length hlength.ge,
    List.take_of_length_le hlength.le]

namespace PythGovernanceAction

variable {ChainName : Type}

/-- A text of `n` bytes. -/
def HexText (n : ℕ) (text : List Char) : Prop :=
  ∃ bytes, Hex.decode text = some bytes ∧ bytes.length = n

/-- The fields are as long as the layouts expect, and numbers of 8 or 32 bytes fit. -/
def InRange : PythGovernanceAction ChainName → Prop
  | executePostedVaa _ => True
  | cosmosUpgradeContract _ codeId => codeId < 2 ^ 64
  | upgradeContract256Bit _ hash => HexText 32 hash
  | evmUpgradeContract _ address => HexText 20 address
  | authorizeGovernanceDataSourceTransfer _ _ => True
  | setDataSources _ dataSources => ∀ source ∈ dataSources, HexText 32 source.emitterAddress
  | setFee _ newFeeValue newFeeExpo => newFeeValue < 2 ^ 64 ∧ newFeeExpo < 2 ^ 64
  | setFeeInToken _ newFeeValue newFeeExpo _ => newFeeValue < 2 ^ 64 ∧ newFeeExpo < 2 ^ 64
  | setValidPeriod _ newValidPeriod => newValidPeriod < 2 ^ 64
  | requestGovernanceDataSourceTransfer _ _ => True
  | evmSetWormholeAddress _ address => HexText 20 address
  | starknetSetWormholeAddress _ address => HexText 32 address
  | evmExecute action => action.InRange

end PythGovernanceAction

/-- The text with digits of the lower case. -/
def lowerHex (text : List Char) : List Char := Hex.encode (hexPairs text)

section

variable {text : List Char} {n : ℕ}

theorem HexBytes.length_encode (h : PythGovernanceAction.HexText n text) :
    (HexBytes.encode n text).length = n := by
  obtain ⟨bytes, hdecode, hlength⟩ := h
  rw [HexBytes.encode_of_decode hdecode hlength, hlength]

theorem HexBytes.decode_append (h : PythGovernanceAction.HexText n text) (before rest : Bytes) :
    HexBytes.decode n (before ++ (HexBytes.encode n text ++ rest)) before.length =
      lowerHex text := by
  obtain ⟨bytes, hdecode, hlength⟩ := h
  rw [HexBytes.encode_of_decode hdecode hlength, HexBytes.decode,
    Layout.bytesAt_append hlength rfl, lowerHex, hexPairs_of_decode hdecode]

theorem HexBytes.decode_encode (h : PythGovernanceAction.HexText n text) :
    HexBytes.decode n (HexBytes.encode n text) 0 = lowerHex text := by
  have happend := HexBytes.decode_append h [] []
  rwa [List.nil_append, List.append_nil] at happend

theorem UIntBE.length_encode (span v : ℕ) : (UIntBE.encode span v).length = span :=
  length_bytesBE span v

theorem UIntBE.decode_append (span : ℕ) {v : ℕ} (hv : v < 256 ^ span) (before rest : Bytes) :
    UIntBE.decode span (before ++ (UIntBE.encode span v ++ rest)) before.length = v := by
  rw [UIntBE.decode, UIntBE.encode, Layout.bytesAt_append (length_bytesBE span v) rfl,
    natBE_bytesBE, Nat.mod_eq_of_lt hv]

theorem UIntBE.decode_encode_append (span : ℕ) {v : ℕ} (hv : v < 256 ^ span) (rest : Bytes) :
    UIntBE.decode span (UIntBE.encode span v ++ rest) 0 = v :=
  UIntBE.decode_append span hv [] rest

theorem UIntBE.decode_encode (span : ℕ) {v : ℕ} (hv : v < 256 ^ span) :
    UIntBE.decode span (UIntBE.encode span v) 0 = v := by
  have happend := UIntBE.decode_encode_append span hv []
  rwa [List.append_nil] at happend

end

namespace PythGovernanceAction

variable {ChainName : Type}

/-- What is shown of a data source. -/
def shownSource (source : DataSource) : DataSource :=
  { source with emitterAddress := lowerHex source.emitterAddress }

/-- The action with the texts as they are shown, in the lower case. -/
def shown : PythGovernanceAction ChainName → PythGovernanceAction ChainName
  | upgradeContract256Bit chain hash => upgradeContract256Bit chain (lowerHex hash)
  | evmUpgradeContract chain address => evmUpgradeContract chain (lowerHex address)
  | setDataSources chain dataSources => setDataSources chain (dataSources.map shownSource)
  | evmSetWormholeAddress chain address => evmSetWormholeAddress chain (lowerHex address)
  | starknetSetWormholeAddress chain address =>
    starknetSetWormholeAddress chain (lowerHex address)
  | evmExecute action => evmExecute { action with
      executorAddress := lowerHex action.executorAddress
      callAddress := lowerHex action.callAddress }
  | a => a

theorem encodeNumber_eq_some {span n : ℕ} {bytes : Bytes} :
    Layout.encodeNumber span n = some bytes ↔ n < 256 ^ span ∧ bytes = bytesBE span n := by
  unfold Layout.encodeNumber
  split
  · next hn => exact ⟨fun h => ⟨hn, (Option.some.inj h).symm⟩, fun h => congrArg some h.2.symm⟩
  · next hn => exact ⟨nofun, fun h => absurd h.1 hn⟩

/-- The data sources that were written one after the other are read. -/
theorem decodeDataSources_append {dataSources : List DataSource} {sources : List Bytes}
    (hsources : dataSources.mapM DataSource.encode = some sources)
    (h : ∀ source ∈ dataSources, HexText 32 source.emitterAddress) (before rest : Bytes) :
    decodeDataSources (before ++ (sources.flatten ++ rest)) dataSources.length before.length =
      .ok (dataSources.map shownSource) := by
  induction dataSources generalizing before sources with
  | nil => rfl
  | cons source dataSources ih =>
    rw [List.mapM_cons] at hsources
    simp only [Option.bind_eq_bind, Option.bind_eq_some_iff, Option.pure_def,
      Option.some.injEq] at hsources
    obtain ⟨first, hfirst, tail, htail, rfl⟩ := hsources
    unfold DataSource.encode at hfirst
    simp only [Option.bind_eq_bind, Option.bind_eq_some_iff, Option.pure_def, Option.some.injEq,
      encodeNumber_eq_some] at hfirst
    obtain ⟨_, ⟨hchain, rfl⟩, rfl⟩ := hfirst
    have haddress := h source List.mem_cons_self
    have hread := HexBytes.decode_append haddress (before ++ bytesBE 2 source.emitterChain)
      (tail.flatten ++ rest)
    have hrest := ih htail (fun source hmem => h source (List.mem_cons_of_mem _ hmem))
      (before ++ (bytesBE 2 source.emitterChain ++ HexBytes.encode 32 source.emitterAddress))
    simp only [List.length_append, length_bytesBE, HexBytes.length_encode haddress,
      List.append_assoc, Nat.reduceAdd] at hread hrest
    rw [List.flatten_cons, List.append_assoc, List.append_assoc, List.length_cons,
      decodeDataSources, DataSource.decode, Layout.decodeU16be_append hchain, hread]
    show (decodeDataSources _ dataSources.length (before.length + 34) >>= _) = _
    rw [hrest]
    rfl

theorem payload_executePostedVaa {action : ExecutePostedVaa ChainName} {bytes : Bytes}
    (h : (executePostedVaa action).payload = some bytes) :
    4 + sizeOf action.instructions ≤ PACKET_DATA_SIZE ∧
      bytes = bytesLE 4 action.instructions.length ++
        action.instructions.flatMap instructionBytes := by
  have hwrites := @writes_instructions PACKET_DATA_SIZE (by decide) action.instructions []
  rw [List.length_append, length_bytesLE, length_flatMap_instructionBytes, List.length_nil,
    Nat.zero_add, List.nil_append] at hwrites
  rw [payload, hwrites] at h
  split at h
  · next hfits => exact ⟨hfits, (Option.some.inj h).symm⟩
  · cases h

theorem decode_executePostedVaa {action : ExecutePostedVaa ChainName} {bytes : Bytes}
    (h : (executePostedVaa action).payload = some bytes) :
    decodePayload action.targetChainId .executePostedVaa bytes =
      .ok (some (executePostedVaa action)) := by
  obtain ⟨hfits, rfl⟩ := payload_executePostedVaa h
  have hpacket : PACKET_DATA_SIZE < 2 ^ 32 := by decide
  have hcount := length_le_sizeOf action.instructions
  have hreads (ix : TransactionInstruction) (hix : ix ∈ action.instructions) :
      Layout.ReadsElement Layout.instructionLayout (instructionBytes ix)
        (Layout.decodedOf ix) := by
    have hle := sizeOfExecutorInstruction_le hix
    unfold sizeOfExecutorInstruction at hle
    exact Layout.reads_instruction (by omega) (by omega)
  have hread := Layout.vector_append instructionBytes action.instructions (by omega) hreads [] []
  rw [List.nil_append, List.append_nil, List.length_nil] at hread
  have hsame : (action.instructions.map Layout.decodedOf).map
      DecodedInstruction.toTransactionInstruction = action.instructions := by
    rw [List.map_map]
    exact (List.map_congr_left fun ix _ => toTransactionInstruction_decodedOf ix).trans
      (List.map_id _)
  unfold decodePayload
  rw [hread]
  show Except.ok (some (executePostedVaa ⟨_, _⟩)) = _
  rw [hsame]

/-- What is written of the fields is read as the fields. -/
theorem decodePayload_payload {a : PythGovernanceAction ChainName} {bytes : Bytes}
    (hrange : a.InRange) (h : a.payload = some bytes) :
    decodePayload a.targetChainId a.actionName bytes = .ok (some a.shown) := by
  cases a with
  | executePostedVaa action => exact decode_executePostedVaa h
  | cosmosUpgradeContract chain codeId =>
    cases h
    dsimp only [decodePayload, actionName, targetChainId, shown]
    rw [if_pos (UIntBE.length_encode 8 codeId), UIntBE.decode_encode 8 hrange]
  | upgradeContract256Bit chain hash =>
    cases h
    have hlength := HexBytes.length_encode hrange
    dsimp only [decodePayload, actionName, targetChainId, shown]
    rw [if_neg (by rw [hlength]; decide), if_pos hlength, HexBytes.decode_encode hrange]
  | evmUpgradeContract chain address =>
    cases h
    have hlength := HexBytes.length_encode hrange
    dsimp only [decodePayload, actionName, targetChainId, shown]
    rw [if_neg (by rw [hlength]; decide), if_neg (by rw [hlength]; decide), if_pos hlength,
      HexBytes.decode_encode hrange]
  | authorizeGovernanceDataSourceTransfer chain claimVaa =>
    cases h
    rfl
  | setDataSources chain dataSources =>
    unfold payload at h
    simp only [Option.bind_eq_bind, Option.bind_eq_some_iff, Option.pure_def, Option.some.injEq,
      encodeNumber_eq_some] at h
    obtain ⟨_, ⟨hlength, rfl⟩, sources, hsources, rfl⟩ := h
    have hcount := Layout.numberAt_zero (length_bytesBE 1 dataSources.length) sources.flatten
    have hread := decodeDataSources_append hsources hrange (bytesBE 1 dataSources.length) []
    rw [List.append_nil, length_bytesBE] at hread
    have hnumber : natBE (bytesBE 1 dataSources.length) = dataSources.length :=
      (natBE_bytesBE 1 _).trans (Nat.mod_eq_of_lt hlength)
    dsimp only [decodePayload, actionName, targetChainId, shown]
    rw [Layout.decodeU8, hcount]
    show (decodeDataSources _ (natBE (bytesBE 1 dataSources.length)) 1 >>= _) = _
    rw [hnumber, hread]
    rfl
  | setFee chain value expo =>
    cases h
    have hexpo := UIntBE.decode_append 8 hrange.2 (UIntBE.encode 8 value) []
    rw [List.append_nil, UIntBE.length_encode] at hexpo
    dsimp only [decodePayload, actionName, targetChainId, shown]
    rw [UIntBE.decode_encode_append 8 hrange.1, hexpo]
  | setFeeInToken chain value expo token =>
    unfold payload at h
    simp only [Option.bind_eq_bind, Option.bind_eq_some_iff, Option.pure_def, Option.some.injEq,
      encodeNumber_eq_some] at h
    obtain ⟨_, ⟨hlength, rfl⟩, rfl⟩ := h
    have hexpo := UIntBE.decode_append 8 hrange.2 (UIntBE.encode 8 value)
      (bytesBE 1 token.length ++ token)
    have hcount := @Layout.numberAt_append 1 16 (UIntBE.encode 8 value ++ UIntBE.encode 8 expo)
      _ token (length_bytesBE 1 token.length) rfl
    have hdrop : (UIntBE.encode 8 value ++ (UIntBE.encode 8 expo ++ bytesBE 1 token.length) ++
        token).drop 17 = token :=
      List.drop_left' (by simp only [List.length_append, UIntBE.length_encode, length_bytesBE])
    simp only [UIntBE.length_encode, List.append_assoc] at hexpo hcount hdrop
    dsimp only [decodePayload, actionName, targetChainId, shown]
    rw [Layout.decodeU8, hcount, UIntBE.decode_encode_append 8 hrange.1, hexpo, hdrop]
    rfl
  | setValidPeriod chain validPeriod =>
    cases h
    dsimp only [decodePayload, actionName, targetChainId, shown]
    rw [UIntBE.decode_encode 8 hrange]
  | requestGovernanceDataSourceTransfer chain index =>
    obtain ⟨hindex, rfl⟩ := encodeNumber_eq_some.mp h
    have hread := Layout.numberAt_zero (length_bytesBE 4 index) []
    rw [List.append_nil] at hread
    have hnumber : natBE (bytesBE 4 index) = index :=
      (natBE_bytesBE 4 index).trans (Nat.mod_eq_of_lt hindex)
    dsimp only [decodePayload, actionName, targetChainId, shown]
    rw [Layout.decodeU32be, hread]
    show Except.ok (some (requestGovernanceDataSourceTransfer chain (natBE (bytesBE 4 index)))) = _
    rw [hnumber]
  | evmSetWormholeAddress chain address =>
    cases h
    have hlength := HexBytes.length_encode hrange
    dsimp only [decodePayload, actionName, targetChainId, shown]
    rw [if_pos hlength, HexBytes.decode_encode hrange]
  | starknetSetWormholeAddress chain address =>
    cases h
    have hlength := HexBytes.length_encode hrange
    dsimp only [decodePayload, actionName, targetChainId, shown]
    rw [if_neg (by rw [hlength]; decide), if_pos hlength, HexBytes.decode_encode hrange]
  | evmExecute action =>
    cases h
    obtain ⟨executor, hexecutor, hexecutorLength⟩ := hrange.executorAddress
    obtain ⟨call, hcall, hcallLength⟩ := hrange.callAddress
    have hexecutorText : HexText 20 action.executorAddress := ⟨_, hexecutor, hexecutorLength⟩
    have hcallText : HexText 20 action.callAddress := ⟨_, hcall, hcallLength⟩
    have hfirst := HexBytes.decode_append hexecutorText []
      (HexBytes.encode 20 action.callAddress ++ (UIntBE.encode 32 action.value ++ action.calldata))
    have hsecond := HexBytes.decode_append hcallText (HexBytes.encode 20 action.executorAddress)
      (UIntBE.encode 32 action.value ++ action.calldata)
    have hvalue := UIntBE.decode_append 32 hrange.value
      (HexBytes.encode 20 action.executorAddress ++ HexBytes.encode 20 action.callAddress)
      action.calldata
    have hdrop : (HexBytes.encode 20 action.executorAddress ++ (HexBytes.encode 20
        action.callAddress ++ UIntBE.encode 32 action.value) ++ action.calldata).drop 72 =
          action.calldata :=
      List.drop_left' (by simp only [List.length_append, UIntBE.length_encode,
        HexBytes.length_encode hexecutorText, HexBytes.length_encode hcallText])
    simp only [List.length_append, HexBytes.length_encode hexecutorText,
      HexBytes.length_encode hcallText, List.append_assoc, List.nil_append, List.length_nil,
      Nat.reduceAdd] at hfirst hsecond hvalue hdrop
    dsimp only [decodePayload, actionName, targetChainId, shown]
    rw [hfirst, hsecond, hvalue, hdrop]

/-- **A proposal is shown as it was proposed**, with hexadecimal texts in the lower case. -/
theorem shown_as_proposed [DecidableEq ChainName] (chains : Chains ChainName)
    (a : PythGovernanceAction ChainName) (bytes : Bytes) (hrange : a.InRange)
    (hname : ∀ chain, chains.toChainId a.targetChainId = some chain →
      chains.toChainName chain = some a.targetChainId)
    (hencode : a.encode chains.toChainId = some bytes) :
    decodeGovernancePayload chains bytes = .ok (some a.shown) := by
  obtain ⟨chain, payload, hchain, hpayload, rfl⟩ := encode_eq_some.mp hencode
  rw [decode_append (hname chain hchain)]
  exact decodePayload_payload hrange hpayload

inductive ExChain where
  | unset
  | ethereum
  | osmosis
deriving DecidableEq

def exChains : Chains ExChain where
  entries := [(.unset, 0), (.ethereum, 2), (.osmosis, 60014)]
  nodup := by decide

/-- The first address is written in the upper case. -/
def exDataSources : List DataSource :=
  [⟨26, "E101FAEDAC5851E32B9B23B5F9411A8C2BAC4AAE3ED4DD7B811DD1A72EA4AA71".toList⟩,
    ⟨1, "6bb14509a612f01fbbc4cffeebd4bbfb492a86df717ebe92eb6df432a3f00a25".toList⟩]

theorem exDataSources_hexText : ∀ source ∈ exDataSources, HexText 32 source.emitterAddress := by
  refine List.forall_mem_cons.mpr ⟨?_, List.forall_mem_singleton.mpr ?_⟩
  · exact ⟨bytesBE 32 0xe101faedac5851e32b9b23b5f9411a8c2bac4aae3ed4dd7b811dd1a72ea4aa71,
      by decide +kernel, length_bytesBE _ _⟩
  · exact ⟨bytesBE 32 0x6bb14509a612f01fbbc4cffeebd4bbfb492a86df717ebe92eb6df432a3f00a25,
      by decide +kernel, length_bytesBE _ _⟩

theorem shown_as_proposed_example :
    ∃ bytes, (setDataSources .ethereum exDataSources).encode exChains.toChainId = some bytes ∧
      decodeGovernancePayload exChains bytes
        = .ok (some (setDataSources .ethereum (exDataSources.map shownSource))) := by
  have hsome : ((setDataSources .ethereum exDataSources).encode exChains.toChainId).isSome := by
    decide +kernel
  obtain ⟨bytes, hencode⟩ := Option.isSome_iff_exists.mp hsome
  have hname : ∀ chain, exChains.toChainId .ethereum = some chain →
      exChains.toChainName chain = some .ethereum := by
    rintro chain ⟨⟩
    rfl
  exact ⟨bytes, hencode, shown_as_proposed exChains (setDataSources .ethereum exDataSources) bytes
    exDataSources_hexText hname hencode⟩

end PythGovernanceAction

/-! ## The EVM contract -/

open BytesLib (field)
open Executor (take_eq_bytesBE drop_split)

/-- A parsed instruction with its payload. -/
inductive EvmAction where
  | upgradeContract (newImplementation : Address)
  | authorizeGovernanceDataSourceTransfer (claimVaa : Bytes)
  | setDataSources (dataSources : List Pyth.DataSource)
  | setFee (newFee : Uint256)
  | setValidPeriod (newValidPeriod : Uint256)
  | requestGovernanceDataSourceTransfer (governanceDataSourceIndex : Uint32)
  | setWormholeAddress (newWormholeAddress : Address)
deriving DecidableEq

/-- The parser of the payload of an action. -/
def parseEvmPayload (payload : Bytes) : Pyth.GovernanceAction → Pyth.Result EvmAction
  | .upgradeContract => .upgradeContract <$> Pyth.parseUpgradeContractPayload payload
  | .authorizeGovernanceDataSourceTransfer => .authorizeGovernanceDataSourceTransfer <$>
      Pyth.parseAuthorizeGovernanceDataSourceTransferPayload payload
  | .setDataSources => .setDataSources <$> Pyth.parseSetDataSourcesPayload payload
  | .setFee => .setFee <$> Pyth.parseSetFeePayload payload
  | .setValidPeriod => .setValidPeriod <$> Pyth.parseSetValidPeriodPayload payload
  | .requestGovernanceDataSourceTransfer => .requestGovernanceDataSourceTransfer <$>
      Pyth.parseRequestGovernanceDataSourceTransferPayload payload
  | .setWormholeAddress => .setWormholeAddress <$> Pyth.parseSetWormholeAddressPayload payload

/-- The target chain and the action of a message, as the contract parses them. -/
def parseEvm (bytes : Bytes) : Pyth.Result (Uint16 × EvmAction) := do
  let gi ← Pyth.parseGovernanceInstruction bytes
  let action ← parseEvmPayload gi.payload gi.action
  return (gi.targetChainId, action)

/-- The name of an action of the contract. -/
def evmActionName : Pyth.GovernanceAction → ActionName
  | .upgradeContract => .upgradeContract
  | .authorizeGovernanceDataSourceTransfer => .authorizeGovernanceDataSourceTransfer
  | .setDataSources => .setDataSources
  | .setFee => .setFee
  | .setValidPeriod => .setValidPeriod
  | .requestGovernanceDataSourceTransfer => .requestGovernanceDataSourceTransfer
  | .setWormholeAddress => .setWormholeAddress

theorem evmAction_iff {n : Uint8} {action : Pyth.GovernanceAction} :
    Pyth.GovernanceAction.ofUint8 n = .ok action ↔
      n.toNat = (evmActionName action).actionId.toNat := by
  unfold Pyth.GovernanceAction.ofUint8 Pyth.enumOfUint8
  match n.toNat with
  | 0 => cases action <;> decide
  | 1 => cases action <;> decide
  | 2 => cases action <;> decide
  | 3 => cases action <;> decide
  | 4 => cases action <;> decide
  | 5 => cases action <;> decide
  | 6 => cases action <;> decide
  | k + 7 => cases action <;> exact iff_of_false nofun nofun

theorem evmModule_iff {n : Uint8} :
    Pyth.GovernanceModule.ofUint8 n = .ok Pyth.MODULE ↔ n.toNat = 1 := by
  unfold Pyth.GovernanceModule.ofUint8 Pyth.enumOfUint8
  match n.toNat with
  | 0 => decide
  | 1 => decide
  | 2 => decide
  | 3 => decide
  | k + 4 => exact iff_of_false nofun nofun

theorem evmActionName_moduleId (action : Pyth.GovernanceAction) :
    (evmActionName action).moduleId = 1 := by
  cases action <;> rfl

/-- A field that stands behind other bytes. -/
theorem field_append {before bytes rest : Bytes} {offset w k : ℕ} (h : bytes.length = k)
    (hbefore : before.length = offset) :
    field (before ++ (bytes ++ rest)) offset w k = BitVec.ofNat w (natBE bytes) := by
  rw [field, ← hbefore, List.drop_left, ← h, List.take_left]

theorem bytesBE_one {n : ℕ} {b : UInt8} (h : n = b.toNat) : bytesBE 1 n = [b] := by
  rw [h]
  have hbytes := bytesBE_natBE [b]
  rwa [natBE_singleton] at hbytes

/-- The bytes of a field that is there. -/
theorem take_field (payload : Bytes) (start : ℕ) {w k : ℕ} (hw : 256 ^ k = 2 ^ w)
    (hlength : start + k ≤ payload.length) :
    (payload.drop start).take k = bytesBE k (field payload start w k).toNat :=
  take_eq_bytesBE hw hlength

theorem magic_eq : bytesBE 4 Pyth.MAGIC.toNat = bytesLE 4 MAGIC_NUMBER := by decide

/-- What the contract parses is a header and a payload. -/
theorem parseGovernanceInstruction_iff {bytes : Bytes} {gi : Pyth.GovernanceInstruction} :
    Pyth.parseGovernanceInstruction bytes = .ok gi ↔ gi.governanceModule = Pyth.MODULE ∧
      bytes = headerOf (evmActionName gi.action) gi.targetChainId ++ gi.payload := by
  simp only [Pyth.parseGovernanceInstruction, bind_eq_ok, require_eq_ok, pure_eq_ok,
    BytesLib.toField_eq_ok, BytesLib.sliceToEnd_eq_ok, BytesLib.toUint32, BytesLib.toUint8,
    BytesLib.toUint16, Nat.zero_add, Nat.reduceAdd]
  constructor
  · rintro ⟨_, ⟨-, rfl⟩, _, hmagic, _, ⟨-, rfl⟩, module, hmodule, _, rfl, _, ⟨-, rfl⟩, action,
      haction, _, ⟨-, rfl⟩, _, ⟨hlength, rfl⟩, rfl⟩
    refine ⟨rfl, ?_⟩
    have hfour := take_field bytes 0 (w := 32) (k := 4) (by decide) (by omega)
    have hfive := take_field bytes 4 (w := 8) (k := 1) (by decide) (by omega)
    have hsix := take_field bytes 5 (w := 8) (k := 1) (by decide) (by omega)
    have height := take_field bytes 6 (w := 16) (k := 2) (by decide) (by omega)
    rw [hmagic, magic_eq] at hfour
    rw [bytesBE_one (b := 1) (evmModule_iff.mp hmodule)] at hfive
    rw [bytesBE_one (evmAction_iff.mp haction)] at hsix
    have hsplit : bytes.drop 0 = _ := drop_split 0 4
    rw [drop_split 4 1, drop_split 5 1, drop_split 6 2, hfour, hfive, hsix, height,
      List.drop_zero] at hsplit
    exact hsplit.trans (by rw [header_split, evmActionName_moduleId])
  · rintro ⟨hmodule, hbytes⟩
    obtain ⟨module, action, targetChainId, payload⟩ := gi
    dsimp only at hmodule hbytes
    subst hmodule
    have hlength : 8 ≤ bytes.length := by
      rw [hbytes, List.length_append, length_headerOf]
      exact Nat.le_add_right 8 _
    have hdrop : bytes.drop 8 = payload := by
      rw [hbytes]
      exact List.drop_left' (length_headerOf _ _)
    rw [header_split, evmActionName_moduleId] at hbytes
    have hmagic : field bytes 0 32 4 = Pyth.MAGIC := by
      rw [hbytes, ← List.nil_append (bytesLE 4 MAGIC_NUMBER ++ _),
        field_append (length_bytesLE 4 MAGIC_NUMBER) List.length_nil, ← magic_eq]
      decide
    have hmodule : (field bytes 4 8 1).toNat = 1 := by
      rw [hbytes, field_append List.length_singleton (length_bytesLE 4 MAGIC_NUMBER)]
      decide
    have haction : (field bytes 5 8 1).toNat = (evmActionName action).actionId.toNat := by
      rw [hbytes, ← List.append_assoc (bytesLE 4 MAGIC_NUMBER), field_append List.length_singleton
        (by rw [List.length_append, length_bytesLE, List.length_singleton]), natBE_singleton,
        BitVec.toNat_ofNat]
      exact Nat.mod_eq_of_lt (UInt8.toNat_lt _)
    have hchain : field bytes 6 16 2 = targetChainId := by
      rw [hbytes, ← List.append_assoc (bytesLE 4 MAGIC_NUMBER), ← List.append_assoc _ [_],
        field_append (length_bytesBE 2 _) (by simp only [List.length_append, length_bytesLE,
          List.length_singleton]), natBE_bytesBE, Nat.mod_eq_of_lt
        (show targetChainId.toNat < 256 ^ 2 from targetChainId.isLt), BitVec.ofNat_toNat,
        BitVec.setWidth_eq]
    exact ⟨_, ⟨by omega, rfl⟩, (), hmagic, _, ⟨by omega, rfl⟩, _, evmModule_iff.mpr hmodule, (),
      rfl, _, ⟨by omega, rfl⟩, action, evmAction_iff.mpr haction, _, ⟨by omega, rfl⟩, _,
      ⟨hlength, rfl⟩, by rw [hchain, hdrop]⟩

/-! ### Payloads -/

section

variable {payload : Bytes}

/-- A field that is the whole payload. -/
theorem whole_field {w k : ℕ} (hw : 256 ^ k = 2 ^ w) (hlength : payload.length = k)
    {v : BitVec w} (hv : v = field payload 0 w k) : payload = bytesBE k v.toNat := by
  have hbytes := take_field payload 0 hw (by rw [hlength, Nat.zero_add])
  rw [List.drop_zero, List.take_of_length_le hlength.le, ← hv] at hbytes
  exact hbytes

theorem field_bytesBE {w k : ℕ} (hw : 256 ^ k = 2 ^ w) {offset : ℕ} (before : Bytes)
    (hbefore : before.length = offset) (v : BitVec w) (rest : Bytes) :
    field (before ++ (bytesBE k v.toNat ++ rest)) offset w k = v := by
  have hlt : v.toNat < 256 ^ k := hw ▸ v.isLt
  rw [field_append (length_bytesBE k _) hbefore, natBE_bytesBE, Nat.mod_eq_of_lt hlt,
    BitVec.ofNat_toNat, BitVec.setWidth_eq]

theorem field_whole {w k : ℕ} (hw : 256 ^ k = 2 ^ w) (v : BitVec w) :
    field (bytesBE k v.toNat) 0 w k = v := by
  have h := field_bytesBE hw [] rfl v []
  rwa [List.nil_append, List.append_nil] at h

theorem parseAddressPayload_iff {address : Address} :
    Pyth.parseAddressPayload payload = .ok address ↔ payload = bytesBE 20 address.toNat := by
  simp only [Pyth.parseAddressPayload, Pyth.requireEnd, bind_eq_ok, require_eq_ok, pure_eq_ok,
    BytesLib.toAddress, BytesLib.toField_eq_ok, Nat.zero_add]
  constructor
  · rintro ⟨_, ⟨-, rfl⟩, _, hlength, rfl⟩
    exact whole_field (by decide) hlength rfl
  · rintro rfl
    have hlength := length_bytesBE 20 address.toNat
    exact ⟨_, ⟨hlength.ge, rfl⟩, (), hlength, field_whole (by decide) address⟩

theorem parseRequest_iff {index : Uint32} :
    Pyth.parseRequestGovernanceDataSourceTransferPayload payload = .ok index ↔
      payload = bytesBE 4 index.toNat := by
  simp only [Pyth.parseRequestGovernanceDataSourceTransferPayload, Pyth.requireEnd, bind_eq_ok,
    require_eq_ok, pure_eq_ok, BytesLib.toUint32, BytesLib.toField_eq_ok, Nat.zero_add]
  constructor
  · rintro ⟨_, ⟨-, rfl⟩, _, hlength, rfl⟩
    exact whole_field (by decide) hlength rfl
  · rintro rfl
    have hlength := length_bytesBE 4 index.toNat
    exact ⟨_, ⟨hlength.ge, rfl⟩, (), hlength, field_whole (by decide) index⟩

theorem parseSetValidPeriod_iff {validPeriod : Uint256} :
    Pyth.parseSetValidPeriodPayload payload = .ok validPeriod ↔
      ∃ n : Uint64, validPeriod = n.setWidth 256 ∧ payload = bytesBE 8 n.toNat := by
  simp only [Pyth.parseSetValidPeriodPayload, Pyth.requireEnd, bind_eq_ok, require_eq_ok,
    pure_eq_ok, BytesLib.toUint64, BytesLib.toField_eq_ok, Nat.zero_add]
  constructor
  · rintro ⟨_, ⟨-, rfl⟩, _, hlength, rfl⟩
    exact ⟨_, rfl, whole_field (by decide) hlength rfl⟩
  · rintro ⟨n, rfl, rfl⟩
    have hlength := length_bytesBE 8 n.toNat
    exact ⟨_, ⟨hlength.ge, rfl⟩, (), hlength,
      congrArg (BitVec.setWidth 256) (field_whole (by decide) n)⟩

/-- The power of ten is computed first, so an exponent of 78 or more reverts. -/
theorem parseSetFee_iff {newFee : Uint256} :
    Pyth.parseSetFeePayload payload = .ok newFee ↔ ∃ val expo : Uint64, expo.toNat < 78 ∧
      newFee.toNat = val.toNat * 10 ^ expo.toNat ∧
      payload = bytesBE 8 val.toNat ++ bytesBE 8 expo.toNat := by
  simp only [Pyth.parseSetFeePayload, Pyth.requireEnd, Pyth.checkedPowTen, bind_eq_ok,
    require_eq_ok, pure_eq_ok, BytesLib.toUint64, BytesLib.toField_eq_ok, checkedMul_eq_ok,
    Nat.zero_add, Nat.reduceAdd]
  have hpower (expo : ℕ) (h : expo < 78) : (BitVec.ofNat 256 (10 ^ expo)).toNat = 10 ^ expo := by
    refine BitVec.toNat_ofNat .. |>.trans (Nat.mod_eq_of_lt ?_)
    exact (Nat.pow_le_pow_right (by decide) (Nat.le_of_lt_succ h)).trans_lt (by decide)
  have hwide (val : Uint64) : (val.setWidth 256).toNat = val.toNat :=
    BitVec.toNat_setWidth_of_le (by decide)
  constructor
  · rintro ⟨_, ⟨-, rfl⟩, _, ⟨-, rfl⟩, power, hpow, _, hfee, _, hlength, rfl⟩
    split at hpow
    · next hexpo =>
      cases hpow
      rw [hpower _ hexpo, hwide] at hfee
      refine ⟨_, _, hexpo, hfee, ?_⟩
      have hval := take_field payload 0 (w := 64) (k := 8) (by decide) (by omega)
      have hrest := take_field payload 8 (w := 64) (k := 8) (by decide) (by omega)
      rw [← hval, ← hrest, List.drop_zero, List.take_of_length_le (l := payload.drop 8)
        (by rw [List.length_drop, hlength]), List.take_append_drop]
    · cases hpow
  · rintro ⟨val, expo, hexpo, hfee, rfl⟩
    have hlength : (bytesBE 8 val.toNat ++ bytesBE 8 expo.toNat).length = 16 := by
      rw [List.length_append, length_bytesBE, length_bytesBE]
    have hval : field (bytesBE 8 val.toNat ++ bytesBE 8 expo.toNat) 0 64 8 = val := by
      have h := field_bytesBE (k := 8) (by decide) [] rfl val (bytesBE 8 expo.toNat)
      rwa [List.nil_append] at h
    have hread : field (bytesBE 8 val.toNat ++ bytesBE 8 expo.toNat) 8 64 8 = expo := by
      have h := field_bytesBE (k := 8) (by decide) _ (length_bytesBE 8 val.toNat) expo []
      rwa [List.append_nil] at h
    refine ⟨_, ⟨by rw [hlength]; decide, rfl⟩, _, ⟨hlength.ge, rfl⟩,
      BitVec.ofNat 256 (10 ^ expo.toNat), ?_, newFee, ?_, (), hlength, rfl⟩
    · rw [hread]
      exact if_pos hexpo
    · rw [hval, hwide, hpower _ hexpo]
      exact hfee

/-- The bytes of a data source. -/
def sourceBytes (source : Pyth.DataSource) : Bytes :=
  bytesBE 2 source.chainId.toNat ++ bytesBE 32 source.emitterAddress.toNat

theorem length_sourceBytes (source : Pyth.DataSource) : (sourceBytes source).length = 34 := by
  rw [sourceBytes, List.length_append, length_bytesBE, length_bytesBE]

theorem parseDataSources_append (dataSources : List Pyth.DataSource) (before rest : Bytes) :
    Pyth.parseDataSources (before ++ (dataSources.flatMap sourceBytes ++ rest)) before.length
      dataSources.length = .ok (dataSources, before.length + 34 * dataSources.length) := by
  induction dataSources generalizing before with
  | nil => rfl
  | cons source dataSources ih =>
    have htail := ih (before ++ sourceBytes source)
    rw [List.append_assoc, List.length_append, length_sourceBytes] at htail
    have hchain := field_bytesBE (k := 2) (by decide) before rfl source.chainId
      (bytesBE 32 source.emitterAddress.toNat ++
        (dataSources.flatMap sourceBytes ++ rest))
    have hbefore : (before ++ bytesBE 2 source.chainId.toNat).length = before.length + 2 := by
      rw [List.length_append, length_bytesBE]
    have hemitter := field_bytesBE (k := 32) (by decide) _ hbefore source.emitterAddress
      (dataSources.flatMap sourceBytes ++ rest)
    have hlength : before.length + 34 ≤ (before ++ (sourceBytes source ++
        (dataSources.flatMap sourceBytes ++ rest))).length := by
      simp only [List.length_append, length_sourceBytes]
      omega
    rw [List.flatMap_cons, List.append_assoc, List.length_cons]
    simp only [Pyth.parseDataSources, bind_eq_ok, pure_eq_ok, BytesLib.toUint16,
      BytesLib.toBytes32, BytesLib.toField_eq_ok]
    refine ⟨_, ⟨by omega, rfl⟩, _, ⟨by omega, rfl⟩, _, htail, ?_⟩
    simp only [sourceBytes, List.append_assoc] at hchain hemitter ⊢
    rw [hchain, hemitter]
    exact congrArg (Prod.mk _) (by omega)

theorem parseDataSources_ok {n index stop : ℕ} {dataSources : List Pyth.DataSource}
    (h : Pyth.parseDataSources payload index n = .ok (dataSources, stop)) :
    dataSources.length = n ∧ stop = index + 34 * n ∧
      (stop = payload.length → payload.drop index = dataSources.flatMap sourceBytes) := by
  induction n generalizing index dataSources with
  | zero =>
    obtain ⟨rfl, rfl⟩ := Prod.mk.inj (Except.ok.inj h)
    exact ⟨rfl, rfl, fun hstop => List.drop_eq_nil_of_le hstop.ge⟩
  | succ n ih =>
    simp only [Pyth.parseDataSources, bind_eq_ok, pure_eq_ok, BytesLib.toUint16,
      BytesLib.toBytes32, BytesLib.toField_eq_ok] at h
    obtain ⟨_, ⟨-, rfl⟩, _, ⟨hlength, rfl⟩, ⟨rest, stop'⟩, hrest, hpair⟩ := h
    obtain ⟨rfl, rfl⟩ := Prod.mk.inj hpair
    obtain ⟨hcount, hstop, hread⟩ := ih hrest
    refine ⟨congrArg (· + 1) hcount, by rw [hstop]; omega, fun hend => ?_⟩
    have hchain := take_field payload index (w := 16) (k := 2) (by decide) (by omega)
    have hemitter := take_field payload (index + 2) (w := 256) (k := 32) (by decide) (by omega)
    rw [drop_split index 2, drop_split (index + 2) 32, hread hend, hchain, hemitter,
      List.flatMap_cons, sourceBytes, List.append_assoc]

theorem parseSetDataSources_iff {dataSources : List Pyth.DataSource} :
    Pyth.parseSetDataSourcesPayload payload = .ok dataSources ↔ dataSources.length < 256 ∧
      payload = bytesBE 1 dataSources.length ++ dataSources.flatMap sourceBytes := by
  simp only [Pyth.parseSetDataSourcesPayload, Pyth.requireEnd, bind_eq_ok, require_eq_ok,
    pure_eq_ok, BytesLib.toUint8, BytesLib.toField_eq_ok, Nat.zero_add]
  constructor
  · rintro ⟨_, ⟨hlength, rfl⟩, ⟨dataSources, stop⟩, hread, _, hend, rfl⟩
    obtain ⟨hcount, -, hbytes⟩ := parseDataSources_ok hread
    have hone := take_field payload 0 (w := 8) (k := 1) (by decide) hlength
    rw [← hcount, List.drop_zero] at hone
    refine ⟨hcount ▸ BitVec.isLt _, ?_⟩
    rw [← hbytes hend.symm, ← hone, List.take_append_drop]
  · rintro ⟨hcount, rfl⟩
    have hread := parseDataSources_append dataSources (bytesBE 1 dataSources.length) []
    have hfield : (field (bytesBE 1 dataSources.length ++ dataSources.flatMap sourceBytes) 0 8 1 :
        Uint8).toNat = dataSources.length := by
      have h := @field_append [] _ (dataSources.flatMap sourceBytes) 0 8 1
        (length_bytesBE 1 dataSources.length) List.length_nil
      rw [List.nil_append] at h
      rw [h, natBE_bytesBE, BitVec.toNat_ofNat]
      omega
    rw [List.append_nil, length_bytesBE] at hread
    have hlength : (bytesBE 1 dataSources.length ++ dataSources.flatMap sourceBytes).length =
        1 + 34 * dataSources.length := by
      rw [List.length_append, length_bytesBE, List.length_flatMap,
        List.map_congr_left (fun s _ => length_sourceBytes s), List.map_const',
        List.sum_replicate_nat, Nat.mul_comm]
    exact ⟨_, ⟨by omega, rfl⟩, (dataSources, 1 + 34 * dataSources.length),
      by rw [hfield]; exact hread, (), hlength, rfl⟩

end

/-! ### Actions -/

/-- The text of a number of `n` bytes. -/
def hexOf (n v : ℕ) : List Char := Hex.encode (bytesBE n v)

theorem hexText_hexOf (n v : ℕ) : PythGovernanceAction.HexText n (hexOf n v) :=
  ⟨_, Hex.decode_encode _, length_bytesBE n v⟩

theorem encode_hexOf (n v : ℕ) : HexBytes.encode n (hexOf n v) = bytesBE n v :=
  HexBytes.encode_of_decode (Hex.decode_encode _) (length_bytesBE n v)

theorem lowerHex_hexOf (n v : ℕ) : lowerHex (hexOf n v) = hexOf n v := by
  rw [lowerHex, hexOf, hexPairs_of_decode (Hex.decode_encode _)]

/-- How a data source of the contract is shown. -/
def sourceText (source : Pyth.DataSource) : DataSource where
  emitterChain := source.chainId.toNat
  emitterAddress := hexOf 32 source.emitterAddress.toNat

theorem encode_sourceText (source : Pyth.DataSource) :
    (sourceText source).encode = some (sourceBytes source) := by
  have hchain : source.chainId.toNat < 256 ^ 2 := source.chainId.isLt
  rw [DataSource.encode, sourceText, Layout.encodeNumber, if_pos hchain, encode_hexOf]
  rfl

theorem mapM_sourceText (dataSources : List Pyth.DataSource) :
    (dataSources.map sourceText).mapM DataSource.encode = some (dataSources.map sourceBytes) := by
  induction dataSources with
  | nil => rfl
  | cons source dataSources ih =>
    rw [List.map_cons, List.mapM_cons, encode_sourceText, ih]
    rfl

/-- The action that is shown, by the side of the one that the contract parses. The fee is a product,
which does not determine its factors. -/
inductive ShowsEvm {ChainName : Type} (chain : ChainName) :
    PythGovernanceAction ChainName → EvmAction → Prop
  | upgradeContract (newImplementation : Address) :
      ShowsEvm chain (.evmUpgradeContract chain (hexOf 20 newImplementation.toNat))
        (.upgradeContract newImplementation)
  | authorizeGovernanceDataSourceTransfer (claimVaa : Bytes) :
      ShowsEvm chain (.authorizeGovernanceDataSourceTransfer chain claimVaa)
        (.authorizeGovernanceDataSourceTransfer claimVaa)
  | setDataSources (dataSources : List Pyth.DataSource) :
      ShowsEvm chain (.setDataSources chain (dataSources.map sourceText))
        (.setDataSources dataSources)
  | setFee (val expo : Uint64) (newFee : Uint256) : expo.toNat < 78 →
      newFee.toNat = val.toNat * 10 ^ expo.toNat →
      ShowsEvm chain (.setFee chain val.toNat expo.toNat) (.setFee newFee)
  | setValidPeriod (newValidPeriod : Uint64) :
      ShowsEvm chain (.setValidPeriod chain newValidPeriod.toNat)
        (.setValidPeriod (newValidPeriod.setWidth 256))
  | requestGovernanceDataSourceTransfer (index : Uint32) :
      ShowsEvm chain (.requestGovernanceDataSourceTransfer chain index.toNat)
        (.requestGovernanceDataSourceTransfer index)
  | setWormholeAddress (newWormholeAddress : Address) :
      ShowsEvm chain (.evmSetWormholeAddress chain (hexOf 20 newWormholeAddress.toNat))
        (.setWormholeAddress newWormholeAddress)

section

variable {ChainName : Type} {chain : ChainName} {a : PythGovernanceAction ChainName}
  {e : EvmAction} {payload : Bytes}

theorem ShowsEvm.targetChainId (h : ShowsEvm chain a e) : a.targetChainId = chain := by
  cases h <;> rfl

theorem ShowsEvm.inRange (h : ShowsEvm chain a e) : a.InRange := by
  cases h with
  | upgradeContract => exact hexText_hexOf 20 _
  | authorizeGovernanceDataSourceTransfer => trivial
  | setDataSources dataSources =>
    intro source hsource
    obtain ⟨source, -, rfl⟩ := List.mem_map.mp hsource
    exact hexText_hexOf 32 _
  | setFee val expo => exact ⟨val.isLt, expo.isLt⟩
  | setValidPeriod newValidPeriod => exact newValidPeriod.isLt
  | requestGovernanceDataSourceTransfer => trivial
  | setWormholeAddress => exact hexText_hexOf 20 _

theorem ShowsEvm.shown (h : ShowsEvm chain a e) : a.shown = a := by
  cases h with
  | upgradeContract =>
    exact congrArg (PythGovernanceAction.evmUpgradeContract chain) (lowerHex_hexOf 20 _)
  | setDataSources dataSources =>
    refine congrArg (PythGovernanceAction.setDataSources chain) ?_
    rw [List.map_map]
    exact List.map_congr_left fun source _ =>
      congrArg (DataSource.mk source.chainId.toNat) (lowerHex_hexOf 32 _)
  | setWormholeAddress =>
    exact congrArg (PythGovernanceAction.evmSetWormholeAddress chain) (lowerHex_hexOf 20 _)
  | authorizeGovernanceDataSourceTransfer => rfl
  | setFee => rfl
  | setValidPeriod => rfl
  | requestGovernanceDataSourceTransfer => rfl

theorem payload_setDataSources {dataSources : List Pyth.DataSource} :
    (PythGovernanceAction.setDataSources chain (dataSources.map sourceText)).payload =
        some payload ↔
      dataSources.length < 256 ∧
        payload = bytesBE 1 dataSources.length ++ dataSources.flatMap sourceBytes := by
  rw [PythGovernanceAction.payload, mapM_sourceText, List.length_map]
  simp only [Option.bind_eq_bind, Option.bind_eq_some_iff, Option.pure_def, Option.some.injEq,
    PythGovernanceAction.encodeNumber_eq_some]
  constructor
  · rintro ⟨_, ⟨hlength, rfl⟩, _, rfl, rfl⟩
    exact ⟨hlength, rfl⟩
  · rintro ⟨hlength, rfl⟩
    exact ⟨_, ⟨hlength, rfl⟩, _, rfl, rfl⟩

/-- What is written of the action that is shown is parsed as the other one. -/
theorem ShowsEvm.parses (h : ShowsEvm chain a e) (hpayload : a.payload = some payload) :
    ∃ action, evmActionName action = a.actionName ∧ parseEvmPayload payload action = .ok e := by
  cases h with
  | upgradeContract newImplementation =>
    cases hpayload
    refine ⟨.upgradeContract, rfl, congrArg (EvmAction.upgradeContract <$> ·)
      (parseAddressPayload_iff.mpr (encode_hexOf 20 _))⟩
  | authorizeGovernanceDataSourceTransfer claimVaa =>
    cases hpayload
    exact ⟨.authorizeGovernanceDataSourceTransfer, rfl, rfl⟩
  | setDataSources dataSources =>
    exact ⟨.setDataSources, rfl, congrArg (EvmAction.setDataSources <$> ·)
      (parseSetDataSources_iff.mpr (payload_setDataSources.mp hpayload))⟩
  | setFee val expo newFee hexpo hfee =>
    cases hpayload
    exact ⟨.setFee, rfl, congrArg (EvmAction.setFee <$> ·)
      (parseSetFee_iff.mpr ⟨val, expo, hexpo, hfee, rfl⟩)⟩
  | setValidPeriod newValidPeriod =>
    cases hpayload
    exact ⟨.setValidPeriod, rfl, congrArg (EvmAction.setValidPeriod <$> ·)
      (parseSetValidPeriod_iff.mpr ⟨newValidPeriod, rfl, rfl⟩)⟩
  | requestGovernanceDataSourceTransfer index =>
    obtain ⟨-, rfl⟩ := PythGovernanceAction.encodeNumber_eq_some.mp hpayload
    exact ⟨.requestGovernanceDataSourceTransfer, rfl,
      congrArg (EvmAction.requestGovernanceDataSourceTransfer <$> ·)
        (parseRequest_iff.mpr rfl)⟩
  | setWormholeAddress newWormholeAddress =>
    cases hpayload
    exact ⟨.setWormholeAddress, rfl, congrArg (EvmAction.setWormholeAddress <$> ·)
      (parseAddressPayload_iff.mpr (encode_hexOf 20 _))⟩

/-- What is parsed is what is written of an action. -/
theorem exists_shows {action : Pyth.GovernanceAction} (chain : ChainName)
    (h : parseEvmPayload payload action = .ok e) :
    ∃ a, ShowsEvm chain a e ∧ a.actionName = evmActionName action ∧ a.payload = some payload := by
  cases action with
  | upgradeContract =>
    obtain ⟨address, haddress, rfl⟩ := except_map_eq_ok.mp h
    obtain rfl := parseAddressPayload_iff.mp haddress
    exact ⟨_, .upgradeContract address, rfl, congrArg some (encode_hexOf 20 _)⟩
  | authorizeGovernanceDataSourceTransfer =>
    obtain ⟨claimVaa, hvaa, rfl⟩ := except_map_eq_ok.mp h
    cases hvaa
    exact ⟨_, .authorizeGovernanceDataSourceTransfer payload, rfl, rfl⟩
  | setDataSources =>
    obtain ⟨dataSources, hsources, rfl⟩ := except_map_eq_ok.mp h
    exact ⟨_, .setDataSources dataSources, rfl,
      payload_setDataSources.mpr (parseSetDataSources_iff.mp hsources)⟩
  | setFee =>
    obtain ⟨newFee, hparse, rfl⟩ := except_map_eq_ok.mp h
    obtain ⟨val, expo, hexpo, hfee, rfl⟩ := parseSetFee_iff.mp hparse
    exact ⟨_, .setFee val expo newFee hexpo hfee, rfl, rfl⟩
  | setValidPeriod =>
    obtain ⟨_, hperiod, rfl⟩ := except_map_eq_ok.mp h
    obtain ⟨newValidPeriod, rfl, rfl⟩ := parseSetValidPeriod_iff.mp hperiod
    exact ⟨_, .setValidPeriod newValidPeriod, rfl, rfl⟩
  | requestGovernanceDataSourceTransfer =>
    obtain ⟨index, hindex, rfl⟩ := except_map_eq_ok.mp h
    obtain rfl := parseRequest_iff.mp hindex
    exact ⟨_, .requestGovernanceDataSourceTransfer index, rfl,
      PythGovernanceAction.encodeNumber_eq_some.mpr ⟨index.isLt, rfl⟩⟩
  | setWormholeAddress =>
    obtain ⟨address, haddress, rfl⟩ := except_map_eq_ok.mp h
    obtain rfl := parseAddressPayload_iff.mp haddress
    exact ⟨_, .setWormholeAddress address, rfl, congrArg some (encode_hexOf 20 _)⟩

end

/-- **Reviewers see what the EVM contract executes.** A message for a known chain is parsed as an
action exactly when it is shown as that action and is its encoding. -/
theorem evm_agreement {ChainName : Type} [DecidableEq ChainName] (chains : Chains ChainName)
    (chainName : ChainName) (chain : BitVec 16) (hname : chains.toChainName chain = some chainName)
    (bytes : Bytes) (e : EvmAction) :
    parseEvm bytes = .ok (chain, e) ↔ ∃ a, ShowsEvm chainName a e ∧
      PythGovernanceAction.decodeGovernancePayload chains bytes = .ok (some a) ∧
      a.encode chains.toChainId = some bytes := by
  have hid := Chains.toChainId_of_toChainName hname
  constructor
  · intro h
    simp only [parseEvm, bind_eq_ok, pure_eq_ok, Prod.mk.injEq] at h
    obtain ⟨gi, hgi, _, haction, rfl, rfl⟩ := h
    obtain ⟨-, rfl⟩ := parseGovernanceInstruction_iff.mp hgi
    obtain ⟨a, hshows, hactionName, hpayload⟩ := exists_shows chainName haction
    rw [← hactionName]
    refine ⟨a, hshows, ?_, ?_⟩
    · have hdecode := PythGovernanceAction.decodePayload_payload hshows.inRange hpayload
      rw [hshows.targetChainId, hshows.shown] at hdecode
      rw [PythGovernanceAction.decode_append hname, hdecode]
    · exact PythGovernanceAction.encode_eq_some.mpr
        ⟨_, _, hshows.targetChainId ▸ hid, hpayload, rfl⟩
  · rintro ⟨a, hshows, -, hencode⟩
    obtain ⟨chain', payload, hchain, hpayload, rfl⟩ :=
      PythGovernanceAction.encode_eq_some.mp hencode
    rw [hshows.targetChainId, hid] at hchain
    obtain rfl := Option.some.inj hchain
    obtain ⟨action, hactionName, haction⟩ := hshows.parses hpayload
    simp only [parseEvm, bind_eq_ok, pure_eq_ok, Prod.mk.injEq]
    exact ⟨⟨Pyth.MODULE, action, chain, payload⟩,
      parseGovernanceInstruction_iff.mpr ⟨rfl, by rw [hactionName]⟩, e, haction, rfl, rfl⟩

open PythGovernanceAction (ExChain exChains)

/-- The fee `25 * 10 ^ 2` for Ethereum. -/
def exSetFee : Bytes :=
  [0x50, 0x54, 0x47, 0x4d, 1, 3] ++ bytesBE 2 2 ++ bytesBE 8 25 ++ bytesBE 8 2

theorem evm_agreement_example :
    ∃ a, ShowsEvm ExChain.ethereum a (.setFee 2500) ∧
      PythGovernanceAction.decodeGovernancePayload exChains exSetFee = .ok (some a) ∧
      a.encode exChains.toChainId = some exSetFee := by
  have hparse : parseEvm exSetFee = .ok (2, .setFee 2500) :=
    except_toOption_eq_some.mp (by decide +kernel)
  exact (evm_agreement exChains .ethereum 2 rfl exSetFee (.setFee 2500)).mp hparse

/-! ## The CosmWasm contract -/

/-- How a data source of the contract is shown. -/
def sourceOfCosmWasm (source : CosmWasm.PythDataSource) : DataSource where
  emitterChain := source.chainId.toNat
  emitterAddress := Hex.encode source.emitter

/-- How an action of the contract is shown. -/
def ofCosmWasm {ChainName : Type} (chain : ChainName) :
    CosmWasm.GovernanceAction → PythGovernanceAction ChainName
  | .upgradeContract codeId => .cosmosUpgradeContract chain codeId.toNat
  | .authorizeGovernanceDataSourceTransfer claimVaa =>
    .authorizeGovernanceDataSourceTransfer chain claimVaa
  | .setDataSources dataSources => .setDataSources chain (dataSources.map sourceOfCosmWasm)
  | .setFee val expo => .setFee chain val.toNat expo.toNat
  | .setValidPeriod validSeconds => .setValidPeriod chain validSeconds.toNat
  | .requestGovernanceDataSourceTransfer index =>
    .requestGovernanceDataSourceTransfer chain index.toNat

/-- The name of an action of the contract. -/
def cosmWasmActionName : CosmWasm.GovernanceAction → ActionName
  | .upgradeContract _ => .upgradeContract
  | .authorizeGovernanceDataSourceTransfer _ => .authorizeGovernanceDataSourceTransfer
  | .setDataSources _ => .setDataSources
  | .setFee _ _ => .setFee
  | .setValidPeriod _ => .setValidPeriod
  | .requestGovernanceDataSourceTransfer _ => .requestGovernanceDataSourceTransfer

section

variable {ChainName : Type} {chain : ChainName} {action : CosmWasm.GovernanceAction}
  {fields : Bytes}

theorem withFields_eq (action : CosmWasm.GovernanceAction) (chain : BitVec 16) (fields : Bytes) :
    (⟨.target, action, chain⟩ : CosmWasm.GovernanceInstruction).withFields fields =
      headerOf (cosmWasmActionName action) chain ++ fields := by
  have hmagic : CosmWasm.PYTH_GOVERNANCE_MAGIC = bytesLE 4 MAGIC_NUMBER := by decide
  rw [header_split, CosmWasm.GovernanceInstruction.withFields, hmagic]
  cases action <;> rfl

theorem ofCosmWasm_targetChainId : (ofCosmWasm chain action).targetChainId = chain := by
  cases action <;> rfl

theorem ofCosmWasm_actionName :
    (ofCosmWasm chain action).actionName = cosmWasmActionName action := by
  cases action <;> rfl

theorem hexText_encode {n : ℕ} {bytes : Bytes} (h : bytes.length = n) :
    PythGovernanceAction.HexText n (Hex.encode bytes) :=
  ⟨bytes, Hex.decode_encode bytes, h⟩

theorem lowerHex_encode (bytes : Bytes) : lowerHex (Hex.encode bytes) = Hex.encode bytes := by
  rw [lowerHex, hexPairs_of_decode (Hex.decode_encode bytes)]

theorem ofCosmWasm_inRange (h : ∀ source ∈ action.dataSources, source.emitter.length = 32) :
    (ofCosmWasm chain action).InRange := by
  cases action with
  | setDataSources dataSources =>
    intro source hsource
    obtain ⟨source, hmem, rfl⟩ := List.mem_map.mp hsource
    exact hexText_encode (h source hmem)
  | upgradeContract codeId => exact codeId.isLt
  | setFee val expo => exact ⟨val.isLt, expo.isLt⟩
  | setValidPeriod validSeconds => exact validSeconds.isLt
  | authorizeGovernanceDataSourceTransfer claimVaa => trivial
  | requestGovernanceDataSourceTransfer index => trivial

theorem ofCosmWasm_shown : (ofCosmWasm chain action).shown = ofCosmWasm chain action := by
  cases action with
  | setDataSources dataSources =>
    refine congrArg (PythGovernanceAction.setDataSources chain) ?_
    rw [List.map_map]
    exact List.map_congr_left fun source _ =>
      congrArg (DataSource.mk source.chainId.toNat) (lowerHex_encode source.emitter)
  | upgradeContract => rfl
  | authorizeGovernanceDataSourceTransfer => rfl
  | setFee => rfl
  | setValidPeriod => rfl
  | requestGovernanceDataSourceTransfer => rfl

theorem encode_sourceOfCosmWasm {source : CosmWasm.PythDataSource} {bytes : Bytes} :
    CosmWasm.writeDataSource source = .ok bytes ↔ source.emitter.length = 32 ∧
      (sourceOfCosmWasm source).encode = some bytes := by
  have hchain : source.chainId.toNat < 256 ^ 2 := source.chainId.isLt
  unfold CosmWasm.writeDataSource DataSource.encode sourceOfCosmWasm Layout.encodeNumber
  rw [if_pos hchain]
  by_cases hlength : source.emitter.length = 32
  · rw [if_neg (not_not.mpr hlength),
      HexBytes.encode_of_decode (Hex.decode_encode source.emitter) hlength]
    exact ⟨fun h => ⟨hlength, congrArg some (Except.ok.inj h)⟩,
      fun h => congrArg Except.ok (Option.some.inj h.2)⟩
  · rw [if_pos hlength]
    exact ⟨nofun, fun h => absurd h.1 hlength⟩

theorem ofCosmWasm_sources {dataSources : List CosmWasm.PythDataSource} {bytes : Bytes} :
    encodeElements CosmWasm.writeDataSource dataSources = .ok bytes ↔
      (∀ source ∈ dataSources, source.emitter.length = 32) ∧ ∃ sources,
        (dataSources.map sourceOfCosmWasm).mapM DataSource.encode = some sources ∧
          bytes = sources.flatten := by
  induction dataSources generalizing bytes with
  | nil =>
    refine ⟨fun h => ⟨fun _ hmem => absurd hmem List.not_mem_nil, [], rfl,
      (Except.ok.inj h).symm⟩, ?_⟩
    rintro ⟨-, sources, hsources, rfl⟩
    cases hsources
    rfl
  | cons source dataSources ih =>
    rw [List.map_cons, List.mapM_cons, List.forall_mem_cons]
    simp only [encodeElements, except_bind_eq_ok, encode_sourceOfCosmWasm, ih,
      Option.bind_eq_bind, Option.bind_eq_some_iff, Option.pure_def, Option.some.injEq]
    constructor
    · rintro ⟨head, ⟨hhead, hencode⟩, _, ⟨htail, tail, hsources, rfl⟩, ⟨⟩⟩
      exact ⟨⟨hhead, htail⟩, head :: tail, ⟨head, hencode, tail, hsources, rfl⟩, rfl⟩
    · rintro ⟨⟨hhead, htail⟩, _, ⟨head, hencode, tail, hsources, rfl⟩, rfl⟩
      exact ⟨head, ⟨hhead, hencode⟩, _, ⟨htail, tail, hsources, rfl⟩, rfl⟩

/-- An action without data sources has the same fields on both sides. -/
theorem payload_of_plain {bytes : Bytes} (hfields : action.fields = .ok bytes)
    (hpayload : (ofCosmWasm chain action).payload = some bytes)
    (hsources : action.dataSources = []) :
    action.fields = .ok fields ↔ (∀ source ∈ action.dataSources, source.emitter.length = 32) ∧
      (ofCosmWasm chain action).payload = some fields := by
  rw [hfields, hpayload, hsources]
  exact ⟨fun h => ⟨fun _ hmem => absurd hmem List.not_mem_nil,
    congrArg some (Except.ok.inj h)⟩, fun h => congrArg Except.ok (Option.some.inj h.2)⟩

theorem ofCosmWasm_payload :
    action.fields = .ok fields ↔ (∀ source ∈ action.dataSources, source.emitter.length = 32) ∧
      (ofCosmWasm chain action).payload = some fields := by
  cases action with
  | setDataSources dataSources =>
    simp only [CosmWasm.GovernanceAction.fields, except_bind_eq_ok,
      CosmWasm.PayloadReader.u8TryFrom_eq_ok, ofCosmWasm_sources, ofCosmWasm,
      PythGovernanceAction.payload, CosmWasm.GovernanceAction.dataSources, Option.bind_eq_bind,
      Option.bind_eq_some_iff, Option.pure_def, Option.some.injEq, List.length_map,
      PythGovernanceAction.encodeNumber_eq_some]
    constructor
    · rintro ⟨count, hcount, _, ⟨hemitters, sources, hsources, rfl⟩, ⟨⟩⟩
      refine ⟨hemitters, _, ⟨hcount ▸ count.toNat_lt, rfl⟩, sources, hsources, ?_⟩
      rw [bytesBE_one hcount, List.singleton_append]
    · rintro ⟨hemitters, _, ⟨hlength, rfl⟩, sources, hsources, rfl⟩
      have hcount : dataSources.length = (UInt8.ofNat dataSources.length).toNat :=
        (UInt8.toNat_ofNat_of_lt' hlength).symm
      refine ⟨_, hcount, _, ⟨hemitters, sources, hsources, rfl⟩, ?_⟩
      rw [bytesBE_one hcount, List.singleton_append]
      rfl
  | upgradeContract codeId => exact payload_of_plain rfl rfl rfl
  | authorizeGovernanceDataSourceTransfer claimVaa => exact payload_of_plain rfl rfl rfl
  | setFee val expo => exact payload_of_plain rfl rfl rfl
  | setValidPeriod validSeconds => exact payload_of_plain rfl rfl rfl
  | requestGovernanceDataSourceTransfer index =>
    exact payload_of_plain rfl
      (PythGovernanceAction.encodeNumber_eq_some.mpr ⟨index.isLt, rfl⟩) rfl

end

/-- **Reviewers see what the CosmWasm contract executes.** -/
theorem cosmWasm_agreement {ChainName : Type} [DecidableEq ChainName] (chains : Chains ChainName)
    (chainName : ChainName) (chain : BitVec 16) (hname : chains.toChainName chain = some chainName)
    (bytes : Bytes) (action : CosmWasm.GovernanceAction) :
    CosmWasm.GovernanceInstruction.deserialize bytes = .ok ⟨.target, action, chain⟩ ↔
      (∀ source ∈ action.dataSources, source.emitter.length = 32) ∧
      PythGovernanceAction.decodeGovernancePayload chains bytes =
        .ok (some (ofCosmWasm chainName action)) ∧
      (ofCosmWasm chainName action).encode chains.toChainId = some bytes := by
  have hid := Chains.toChainId_of_toChainName hname
  rw [CosmWasm.inverse_deserialize, CosmWasm.serialize_eq_ok]
  constructor
  · rintro ⟨fields, hfields, rfl⟩
    obtain ⟨hemitters, hpayload⟩ : _ ∧ (ofCosmWasm chainName action).payload = some fields :=
      ofCosmWasm_payload.mp hfields
    refine ⟨hemitters, ?_, ?_⟩
    · have hdecode := PythGovernanceAction.decodePayload_payload (ofCosmWasm_inRange hemitters)
        hpayload
      rw [ofCosmWasm_targetChainId, ofCosmWasm_actionName, ofCosmWasm_shown] at hdecode
      rw [withFields_eq, PythGovernanceAction.decode_append hname, hdecode]
    · refine PythGovernanceAction.encode_eq_some.mpr ⟨chain, fields, ?_, hpayload, ?_⟩
      · rw [ofCosmWasm_targetChainId, hid]
      · rw [withFields_eq, ofCosmWasm_actionName]
  · rintro ⟨hemitters, -, hencode⟩
    obtain ⟨chain', payload, hchain, hpayload, rfl⟩ :=
      PythGovernanceAction.encode_eq_some.mp hencode
    rw [ofCosmWasm_targetChainId, hid] at hchain
    obtain rfl := Option.some.inj hchain
    refine ⟨payload, ofCosmWasm_payload.mpr ⟨hemitters, hpayload⟩, ?_⟩
    rw [withFields_eq, ofCosmWasm_actionName]

/-- Two data sources for Osmosis. -/
def exCosmWasmAction : CosmWasm.GovernanceAction :=
  .setDataSources [
    ⟨bytesBE 32 0xe101faedac5851e32b9b23b5f9411a8c2bac4aae3ed4dd7b811dd1a72ea4aa71, 26⟩,
    ⟨bytesBE 32 0x6bb14509a612f01fbbc4cffeebd4bbfb492a86df717ebe92eb6df432a3f00a25, 1⟩]

def exSetDataSources : Bytes :=
  [0x50, 0x54, 0x47, 0x4d, 1, 2] ++ bytesBE 2 60014 ++ [2] ++ bytesBE 2 26
    ++ bytesBE 32 0xe101faedac5851e32b9b23b5f9411a8c2bac4aae3ed4dd7b811dd1a72ea4aa71
    ++ bytesBE 2 1
    ++ bytesBE 32 0x6bb14509a612f01fbbc4cffeebd4bbfb492a86df717ebe92eb6df432a3f00a25

theorem cosmWasm_agreement_example :
    PythGovernanceAction.decodeGovernancePayload exChains exSetDataSources
        = .ok (some (ofCosmWasm .osmosis exCosmWasmAction)) ∧
      (ofCosmWasm .osmosis exCosmWasmAction).encode exChains.toChainId = some exSetDataSources := by
  have hread : CosmWasm.GovernanceInstruction.deserialize exSetDataSources
      = .ok ⟨.target, exCosmWasmAction, 60014⟩ :=
    except_toOption_eq_some.mp (by decide +kernel)
  exact ((cosmWasm_agreement exChains .osmosis 60014 rfl exSetDataSources exCosmWasmAction).mp
    hread).2

end PythCrosschain.XcAdmin
