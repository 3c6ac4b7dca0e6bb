import PythCrosschain.XcAdmin.ExecutorBatches

/-!
# The governance actions of `xc_admin_common`

The classes of `governance_payload/` with `encode` and `decode`, and `decodeGovernancePayload`, by
which a proposal is shown to the reviewers. The chains of `chains.ts` are a parameter, a table of
names and ids. A layout that reads a number beyond the end of the buffer throws; one that reads
bytes takes what is there.
-/

namespace PythCrosschain.XcAdmin

open Solana (AccountMeta Pubkey)

/-! ## `chains.ts` -/

/-- `CHAINS`. The keys of an object are distinct. -/
structure Chains (ChainName : Type) where
  entries : List (ChainName × BitVec 16)
  nodup : (entries.map Prod.fst).Nodup

namespace Chains

variable {ChainName : Type} (chains : Chains ChainName)

def toChainId [DecidableEq ChainName] (chainName : ChainName) : Option (BitVec 16) :=
  (chains.entries.find? fun entry => entry.1 = chainName).map Prod.snd

/-- `CHAIN_ID_TO_NAME`, where a later entry with the same id replaces an earlier one. -/
def toChainName (chainId : BitVec 16) : Option ChainName :=
  (chains.entries.reverse.find? fun entry => entry.2 = chainId).map Prod.fst

end Chains

/-! ## Layouts -/

inductive LayoutError where
  | outOfRange

namespace Layout

/-- `b.slice(offset, offset + span)`. -/
def bytesAt (span : ℕ) (b : Bytes) (offset : ℕ) : Bytes := (b.drop offset).take span

/-- The bytes of a number. -/
def numberAt (span : ℕ) (b : Bytes) (offset : ℕ) : Except LayoutError Bytes :=
  if offset + span ≤ b.length then .ok (bytesAt span b offset) else .error .outOfRange

def decodeU8 (b : Bytes) (offset : ℕ) : Except LayoutError ℕ := natBE <$> numberAt 1 b offset
def decodeU16be (b : Bytes) (offset : ℕ) : Except LayoutError ℕ := natBE <$> numberAt 2 b offset
def decodeU32be (b : Bytes) (offset : ℕ) : Except LayoutError ℕ := natBE <$> numberAt 4 b offset
def decodeU32 (b : Bytes) (offset : ℕ) : Except LayoutError ℕ := natLE <$> numberAt 4 b offset

/-- A number that does not fit throws. -/
def encodeNumber (span n : ℕ) : Option Bytes :=
  if n < 256 ^ span then some (bytesBE span n) else none

end Layout

def HexBytes.decode (span : ℕ) (b : Bytes) (offset : ℕ) : List Char :=
  Hex.encode (Layout.bytesAt span b offset)

def UIntBE.decode (span : ℕ) (b : Bytes) (offset : ℕ) : ℕ := natBE (Layout.bytesAt span b offset)

/-! ## `PythGovernanceAction.ts` -/

def toActionName (moduleId actionId : ℕ) : Option ActionName :=
  if moduleId = MODULE_EXECUTOR.toNat ∧ actionId = 0 then some .executePostedVaa
  else if moduleId = MODULE_TARGET.toNat then
    match actionId with
    | 0 => some .upgradeContract
    | 1 => some .authorizeGovernanceDataSourceTransfer
    | 2 => some .setDataSources
    | 3 => some .setFee
    | 4 => some .setValidPeriod
    | 5 => some .requestGovernanceDataSourceTransfer
    | 6 => some .setWormholeAddress
    | 7 => some .setFeeInToken
    | _ => none
  else if moduleId = MODULE_EVM_EXECUTOR.toNat ∧ actionId = 0 then some .execute
  else none

def PythGovernanceHeader.span : ℕ := 8

section

variable {ChainName : Type} (chains : Chains ChainName)

def PythGovernanceHeader.decode (data : Bytes) : Option (PythGovernanceHeader ChainName) := do
  let magicNumber ← (Layout.decodeU32 data 0).toOption
  let module ← (Layout.decodeU8 data 4).toOption
  let action ← (Layout.decodeU8 data 5).toOption
  let chain ← (Layout.decodeU16be data 6).toOption
  if magicNumber ≠ MAGIC_NUMBER then none
  else do
    let targetChainId ← chains.toChainName (BitVec.ofNat 16 chain)
    let action ← toActionName module action
    return ⟨targetChainId, action⟩

/-- `PythGovernanceActionImpl.decodeWithPayload`. -/
def decodeWithPayload {T : Type} (buffer : Bytes) (requiredAction : ActionName)
    (payloadLayout : Bytes → Except LayoutError T) :
    Option (PythGovernanceHeader ChainName × T) := do
  let header ← PythGovernanceHeader.decode chains buffer
  if header.action ≠ requiredAction then none
  else do
    let payload ← (payloadLayout (buffer.drop PythGovernanceHeader.span)).toOption
    return (header, payload)

end

/-! ## `ExecutePostedVaa.ts` -/

/-- A layout whose values may have different spans. -/
structure ElementLayout (T : Type) where
  decode : Bytes → ℕ → Except LayoutError T
  getSpan : Bytes → ℕ → Except LayoutError ℕ

namespace Layout

/-- `seq` with `count` elements. -/
def decodeSeq {T : Type} (element : ElementLayout T) (b : Bytes) :
    (count offset : ℕ) → Except LayoutError (List T)
  | 0, _ => .ok []
  | count + 1, offset => do
    let value ← element.decode b offset
    let span ← element.getSpan b offset
    let rest ← decodeSeq element b count (offset + span)
    return value :: rest

end Layout

def Vector.decode {T : Type} (element : ElementLayout T) (b : Bytes) (offset : ℕ) :
    Except LayoutError (List T) := do
  let length ← Layout.decodeU32 b offset
  Layout.decodeSeq element b length (offset + 4)

/-- `getSpan` of a vector whose elements all have the same span. -/
def Vector.getSpan (elementSpan : ℕ) (b : Bytes) (offset : ℕ) : Except LayoutError ℕ := do
  let length ← Layout.decodeU32 b offset
  return 4 + elementSpan * length

structure AccountMetadata where
  pubkey : Bytes
  isSigner : ℕ
  isWritable : ℕ

structure DecodedInstruction where
  programId : Bytes
  accounts : List AccountMetadata
  data : List ℕ

namespace Layout

def u8Layout : ElementLayout ℕ := ⟨decodeU8, fun _ _ => .ok 1⟩

def accountMetadataLayout : ElementLayout AccountMetadata where
  decode b offset := do
    let isSigner ← decodeU8 b (offset + 32)
    let isWritable ← decodeU8 b (offset + 33)
    return ⟨bytesAt 32 b offset, isSigner, isWritable⟩
  getSpan _ _ := .ok 34

def instructionLayout : ElementLayout DecodedInstruction where
  decode b offset := do
    let accounts ← Vector.decode accountMetadataLayout b (offset + 32)
    let accountsSpan ← Vector.getSpan 34 b (offset + 32)
    let data ← Vector.decode u8Layout b (offset + 32 + accountsSpan)
    return ⟨bytesAt 32 b offset, accounts, data⟩
  getSpan b offset := do
    let accountsSpan ← Vector.getSpan 34 b (offset + 32)
    let dataSpan ← Vector.getSpan 1 b (offset + 32 + accountsSpan)
    return 32 + accountsSpan + dataSpan

end Layout

/-- `new PublicKey(bytes)`, of at most 32 bytes: shorter ones have zeros in front. -/
def PublicKey.ofBytes (bytes : Bytes) : Pubkey :=
  ⟨(List.replicate 32 0 ++ bytes).drop bytes.length, by
    rw [List.length_drop, List.length_append, List.length_replicate, Nat.add_sub_cancel]⟩

def DecodedInstruction.toTransactionInstruction (ix : DecodedInstruction) :
    TransactionInstruction where
  programId := PublicKey.ofBytes ix.programId
  keys := ix.accounts.map fun acc =>
    ⟨PublicKey.ofBytes acc.pubkey, acc.isSigner != 0, acc.isWritable != 0⟩
  data := ix.data.map UInt8.ofNat

/-! ## The classes -/

/-- A data source is a wormhole emitter, i.e., a specific contract on a specific chain. -/
structure DataSource where
  emitterChain : ℕ
  emitterAddress : List Char

/-- The actions, one for each class. -/
inductive PythGovernanceAction (ChainName : Type) where
  | executePostedVaa (action : ExecutePostedVaa ChainName)
  | cosmosUpgradeContract (targetChainId : ChainName) (codeId : ℕ)
  | upgradeContract256Bit (targetChainId : ChainName) (hash : List Char)
  | evmUpgradeContract (targetChainId : ChainName) (address : List Char)
  | authorizeGovernanceDataSourceTransfer (targetChainId : ChainName) (claimVaa : Bytes)
  | setDataSources (targetChainId : ChainName) (dataSources : List DataSource)
  | setFee (targetChainId : ChainName) (newFeeValue newFeeExpo : ℕ)
  | setFeeInToken (targetChainId : ChainName) (newFeeValue newFeeExpo : ℕ) (token : Bytes)
  | setValidPeriod (targetChainId : ChainName) (newValidPeriod : ℕ)
  | requestGovernanceDataSourceTransfer (targetChainId : ChainName)
      (governanceDataSourceIndex : ℕ)
  | evmSetWormholeAddress (targetChainId : ChainName) (address : List Char)
  | starknetSetWormholeAddress (targetChainId : ChainName) (address : List Char)
  | evmExecute (action : EvmExecute ChainName)

namespace DataSource

/-- `DataSourceLayout.span`. -/
def span : ℕ := 34

def encode (source : DataSource) : Option Bytes := do
  let emitterChain ← Layout.encodeNumber 2 source.emitterChain
  return emitterChain ++ HexBytes.encode 32 source.emitterAddress

def decode (b : Bytes) (offset : ℕ) : Except LayoutError DataSource := do
  let emitterChain ← Layout.decodeU16be b offset
  return ⟨emitterChain, HexBytes.decode 32 b (offset + 2)⟩

end DataSource

namespace PythGovernanceAction

section

variable {ChainName : Type} (toChainId : ChainName → Option (BitVec 16))

def encode : PythGovernanceAction ChainName → Option Bytes
  | executePostedVaa action => action.encode toChainId
  | cosmosUpgradeContract targetChainId codeId =>
    encodeWithPayload toChainId ⟨targetChainId, .upgradeContract⟩ (UIntBE.encode 8 codeId)
  | upgradeContract256Bit targetChainId hash =>
    encodeWithPayload toChainId ⟨targetChainId, .upgradeContract⟩ (HexBytes.encode 32 hash)
  | evmUpgradeContract targetChainId address =>
    encodeWithPayload toChainId ⟨targetChainId, .upgradeContract⟩ (HexBytes.encode 20 address)
  | authorizeGovernanceDataSourceTransfer targetChainId claimVaa =>
    encodeWithPayload toChainId ⟨targetChainId, .authorizeGovernanceDataSourceTransfer⟩ claimVaa
  | setDataSources targetChainId dataSources => do
    let headerBuffer ← PythGovernanceHeader.encode toChainId ⟨targetChainId, .setDataSources⟩
    let numSourcesBuf ← Layout.encodeNumber 1 dataSources.length
    let dataSourceBufs ← dataSources.mapM DataSource.encode
    return headerBuffer ++ numSourcesBuf ++ dataSourceBufs.flatten
  | setFee targetChainId newFeeValue newFeeExpo =>
    encodeWithPayload toChainId ⟨targetChainId, .setFee⟩
      (UIntBE.encode 8 newFeeValue ++ UIntBE.encode 8 newFeeExpo)
  | setFeeInToken targetChainId newFeeValue newFeeExpo token => do
    let headerBuffer ← PythGovernanceHeader.encode toChainId ⟨targetChainId, .setFeeInToken⟩
    let tokenLen ← Layout.encodeNumber 1 token.length
    return headerBuffer ++ (UIntBE.encode 8 newFeeValue ++ UIntBE.encode 8 newFeeExpo ++ tokenLen)
      ++ token
  | setValidPeriod targetChainId newValidPeriod =>
    encodeWithPayload toChainId ⟨targetChainId, .setValidPeriod⟩ (UIntBE.encode 8 newValidPeriod)
  | requestGovernanceDataSourceTransfer targetChainId governanceDataSourceIndex => do
    let headerBuffer ← PythGovernanceHeader.encode toChainId
      ⟨targetChainId, .requestGovernanceDataSourceTransfer⟩
    let payloadBuffer ← Layout.encodeNumber 4 governanceDataSourceIndex
    return headerBuffer ++ payloadBuffer
  | evmSetWormholeAddress targetChainId address =>
    encodeWithPayload toChainId ⟨targetChainId, .setWormholeAddress⟩ (HexBytes.encode 20 address)
  | starknetSetWormholeAddress targetChainId address =>
    encodeWithPayload toChainId ⟨targetChainId, .setWormholeAddress⟩ (HexBytes.encode 32 address)
  | evmExecute action => action.encode toChainId

end

section

variable {ChainName : Type} (chains : Chains ChainName) (data : Bytes)

/-- A class whose payload is one layout without numbers that can throw. -/
def decodeFields {T : Type} (requiredAction : ActionName) (layout : Bytes → T)
    (build : ChainName → T → PythGovernanceAction ChainName) :
    Option (PythGovernanceAction ChainName) := do
  let decoded ← decodeWithPayload chains data requiredAction fun b => .ok (layout b)
  return build decoded.1.targetChainId decoded.2

def decodeExecutePostedVaa : Option (PythGovernanceAction ChainName) := do
  let header ← PythGovernanceHeader.decode chains data
  let deserialized ← (Vector.decode Layout.instructionLayout
    (data.drop PythGovernanceHeader.span) 0).toOption
  return executePostedVaa ⟨header.targetChainId,
    deserialized.map DecodedInstruction.toTransactionInstruction⟩

def decodeCosmosUpgradeContract : Option (PythGovernanceAction ChainName) :=
  decodeFields chains data .upgradeContract (fun b => UIntBE.decode 8 b 0) cosmosUpgradeContract

def decodeUpgradeContract256Bit : Option (PythGovernanceAction ChainName) :=
  decodeFields chains data .upgradeContract (fun b => HexBytes.decode 32 b 0)
    upgradeContract256Bit

def decodeEvmUpgradeContract : Option (PythGovernanceAction ChainName) :=
  decodeFields chains data .upgradeContract (fun b => HexBytes.decode 20 b 0) evmUpgradeContract

def decodeAuthorizeGovernanceDataSourceTransfer : Option (PythGovernanceAction ChainName) :=
  decodeFields chains data .authorizeGovernanceDataSourceTransfer id
    authorizeGovernanceDataSourceTransfer

/-- The loop over the data sources. -/
def decodeDataSources : (numSources index : ℕ) → Except LayoutError (List DataSource)
  | 0, _ => .ok []
  | numSources + 1, index => do
    let source ← DataSource.decode data index
    let rest ← decodeDataSources numSources (index + DataSource.span)
    return source :: rest

def decodeSetDataSources : Except LayoutError (Option (PythGovernanceAction ChainName)) :=
  match PythGovernanceHeader.decode chains data with
  | none => .ok none
  | some header =>
    if header.action ≠ .setDataSources then .ok none
    else do
      let numSources ← Layout.decodeU8 data PythGovernanceHeader.span
      let dataSources ← decodeDataSources data numSources (PythGovernanceHeader.span + 1)
      return some (setDataSources header.targetChainId dataSources)

def decodeSetFee : Option (PythGovernanceAction ChainName) :=
  decodeFields chains data .setFee (fun b => (UIntBE.decode 8 b 0, UIntBE.decode 8 b 8))
    fun targetChainId fee => setFee targetChainId fee.1 fee.2

def decodeSetFeeInToken : Except LayoutError (Option (PythGovernanceAction ChainName)) :=
  match PythGovernanceHeader.decode chains data with
  | none => .ok none
  | some header =>
    if header.action ≠ .setFeeInToken then .ok none
    else do
      let index := PythGovernanceHeader.span
      -- The length of the token is read, and the token is all that follows.
      let _ ← Layout.decodeU8 data (index + 16)
      return some (setFeeInToken header.targetChainId (UIntBE.decode 8 data index)
        (UIntBE.decode 8 data (index + 8)) (data.drop (index + 17)))

def decodeSetValidPeriod : Option (PythGovernanceAction ChainName) :=
  decodeFields chains data .setValidPeriod (fun b => UIntBE.decode 8 b 0) setValidPeriod

def decodeRequestGovernanceDataSourceTransfer : Option (PythGovernanceAction ChainName) := do
  let decoded ← decodeWithPayload chains data .requestGovernanceDataSourceTransfer
    fun b => Layout.decodeU32be b 0
  return requestGovernanceDataSourceTransfer decoded.1.targetChainId decoded.2

def decodeEvmSetWormholeAddress : Option (PythGovernanceAction ChainName) :=
  decodeFields chains data .setWormholeAddress (fun b => HexBytes.decode 20 b 0)
    evmSetWormholeAddress

def decodeStarknetSetWormholeAddress : Option (PythGovernanceAction ChainName) :=
  decodeFields chains data .setWormholeAddress (fun b => HexBytes.decode 32 b 0)
    starknetSetWormholeAddress

/-- `EvmExecute.decode`, where the calldata are all that follows. -/
def decodeEvmExecute : Option (PythGovernanceAction ChainName) :=
  decodeFields chains data .execute
    (fun b => (HexBytes.decode 20 b 0, HexBytes.decode 20 b 20, UIntBE.decode 32 b 40, b.drop 72))
    fun targetChainId fields =>
      evmExecute ⟨targetChainId, fields.1, fields.2.1, fields.2.2.1, fields.2.2.2⟩

/-! ## `index.ts` -/

def decodeGovernancePayload : Except LayoutError (Option (PythGovernanceAction ChainName)) :=
  match PythGovernanceHeader.decode chains data with
  | none => .ok none
  | some header =>
    let payloadLength := data.length - PythGovernanceHeader.span
    match header.action with
    | .executePostedVaa => .ok (decodeExecutePostedVaa chains data)
    | .upgradeContract => .ok <|
      if payloadLength = 8 then decodeCosmosUpgradeContract chains data
      else if payloadLength = 32 then decodeUpgradeContract256Bit chains data
      else if payloadLength = 20 then decodeEvmUpgradeContract chains data
      else none
    | .authorizeGovernanceDataSourceTransfer =>
      .ok (decodeAuthorizeGovernanceDataSourceTransfer chains data)
    | .setDataSources => decodeSetDataSources chains data
    | .setFee => .ok (decodeSetFee chains data)
    | .setFeeInToken => decodeSetFeeInToken chains data
    | .setValidPeriod => .ok (decodeSetValidPeriod chains data)
    | .requestGovernanceDataSourceTransfer =>
      .ok (decodeRequestGovernanceDataSourceTransfer chains data)
    | .setWormholeAddress => .ok <|
      if payloadLength = 20 then decodeEvmSetWormholeAddress chains data
      else if payloadLength = 32 then decodeStarknetSetWormholeAddress chains data
      else none
    | .execute => .ok (decodeEvmExecute chains data)

end

end PythGovernanceAction

end PythCrosschain.XcAdmin
