import PythCrosschain.CosmWasm.Contract
import PythCrosschain.Lib.Rust

/-!
# The CosmWasm contract: governance

`execute_governance_instruction` of `contract.rs` and what it calls, with `governance.rs`. The
contract is called after `instantiate`, so a configuration is stored. It is built with overflow
checks, and a panic aborts the transaction. The attributes of a response, which are for logs,
are left out.
-/

namespace PythCrosschain.CosmWasm

/-! ## Errors -/

/-- The errors of `PythContractError` that governance returns. -/
inductive PythGovernanceError where
  | invalidUpdateEmitter
  | invalidGovernancePayload
  | oldGovernanceMessage
  | invalidGovernanceSourceIndex
deriving DecidableEq, Repr

/-- The text of the `#[error]` attribute. -/
def PythGovernanceError.text : PythGovernanceError → String
  | .invalidUpdateEmitter => "InvalidUpdateMessageEmitter"
  | .invalidGovernancePayload => "InvalidGovernancePayload"
  | .oldGovernanceMessage => "OldGovernanceMessage"
  | .invalidGovernanceSourceIndex => "OldGovernanceMessage"

/-- `StdError::from`. -/
def PythGovernanceError.std (e : PythGovernanceError) : StdError := .genericErr e.text

/-- What a call returns, where it does not panic. -/
abbrev CallResult (α : Type) := Rust.Result StdError α

open Rust (okOr propagate)

/-! ## State -/

structure Coin where
  amount : BitVec 128
  denom : String
deriving DecidableEq, Repr

/-- All of `ConfigInfo`. The period is a `Duration` of whole seconds. -/
structure GovernedConfig extends ConfigInfo where
  governanceSource : PythDataSource
  governanceSourceIndex : BitVec 32
  governanceSequenceNumber : BitVec 64
  chainId : BitVec 16
  validTimePeriod : BitVec 64
  fee : Coin

/-- The fields of the `ParsedVAA` of the Wormhole contract that governance reads. -/
structure GovernanceVAA extends ParsedVAA where
  sequence : BitVec 64
deriving DecidableEq, Repr

def GovernanceVAA.source (vaa : GovernanceVAA) : PythDataSource where
  emitter := vaa.emitterAddress
  chainId := vaa.emitterChain

/-- What the contract is called with. `verifyVAA` is the answer of the contract at an address
to the query `VerifyVAA` with a VAA and a block time. -/
structure GovernanceEnv where
  blockTime : Nat
  contractAddress : String
  verifyVAA : String → Bytes → Nat → StdResult GovernanceVAA

/-- `WasmMsg::Migrate`, with an empty `MigrateMsg`. -/
structure Migrate where
  contractAddr : String
  newCodeId : BitVec 64
deriving DecidableEq, Repr

/-! ## Payloads -/

def PYTH_GOVERNANCE_MAGIC : Bytes := [0x50, 0x54, 0x47, 0x4d]

inductive GovernanceModule where
  | executor
  | target
deriving DecidableEq, Repr

inductive GovernanceAction where
  | upgradeContract (codeId : BitVec 64)
  | authorizeGovernanceDataSourceTransfer (claimVaa : Bytes)
  | setDataSources (dataSources : List PythDataSource)
  | setFee (val expo : BitVec 64)
  | setValidPeriod (validSeconds : BitVec 64)
  | requestGovernanceDataSourceTransfer (governanceDataSourceIndex : BitVec 32)
deriving DecidableEq, Repr

structure GovernanceInstruction where
  module : GovernanceModule
  action : GovernanceAction
  targetChainId : BitVec 16
deriving DecidableEq, Repr

/-- Why a payload is no instruction. -/
inductive DeserializeError where
  | unexpectedEof
  | invalidMagic (magic : Bytes)
  | invalidGovernanceModule (x : UInt8)
  | unknownActionType (actionType : UInt8)
  | unexpectedlyLongPayload
deriving DecidableEq, Repr

abbrev PayloadReader (α : Type) := Decoder DeserializeError α

def GovernanceModule.fromU8 (x : UInt8) : Except DeserializeError GovernanceModule :=
  match x with
  | 0 => .ok .executor
  | 1 => .ok .target
  | _ => .error (.invalidGovernanceModule x)

namespace PayloadReader

def u8 : PayloadReader UInt8 := Decoder.byte .unexpectedEof

/-- A big-endian integer of `k` bytes. -/
def uint (k : Nat) : PayloadReader (BitVec (8 * k)) :=
  (fun bytes => BitVec.ofNat (8 * k) (natBE bytes)) <$> Decoder.take .unexpectedEof k

def magic : PayloadReader Unit := do
  let magicVec ← Decoder.take .unexpectedEof PYTH_GOVERNANCE_MAGIC.length
  if magicVec = PYTH_GOVERNANCE_MAGIC then pure () else throw (.invalidMagic magicVec)

def toEnd : PayloadReader Bytes := fun bytes => .ok (bytes, [])

def dataSource : PayloadReader PythDataSource := do
  let chainId ← uint 2
  let emitterAddress ← Decoder.take .unexpectedEof 32
  return { emitter := emitterAddress, chainId }

/-- The action, or the error that is only returned after the check of the end. -/
def action (actionType : UInt8) : PayloadReader (Except DeserializeError GovernanceAction) :=
  match actionType with
  | 0 => do return .ok (.upgradeContract (← uint 8))
  | 1 => do return .ok (.authorizeGovernanceDataSourceTransfer (← toEnd))
  | 2 => do
    let numDataSources ← u8
    let dataSources ← Decoder.elements dataSource numDataSources.toNat
    return .ok (.setDataSources dataSources)
  | 3 => do
    let val ← uint 8
    let expo ← uint 8
    return .ok (.setFee val expo)
  | 4 => do return .ok (.setValidPeriod (← uint 8))
  | 5 => do return .ok (.requestGovernanceDataSourceTransfer (← uint 4))
  | _ => return .error (.unknownActionType actionType)

def atEnd : PayloadReader Unit := fun bytes =>
  if bytes = [] then .ok ((), []) else .error .unexpectedlyLongPayload

def instruction : PayloadReader GovernanceInstruction := do
  magic
  let moduleNum ← u8
  let module ← (GovernanceModule.fromU8 moduleNum : Except DeserializeError _)
  let actionType ← u8
  let targetChainId ← uint 2
  let action ← action actionType
  atEnd
  let action ← action
  return { module, action, targetChainId }

end PayloadReader

def GovernanceInstruction.deserialize (bytes : Bytes) :
    Except DeserializeError GovernanceInstruction :=
  Prod.fst <$> PayloadReader.instruction bytes

/-- The instruction is for this chain, or for all chains. -/
def GovernanceInstruction.ForChain (instruction : GovernanceInstruction) (chainId : BitVec 16) :
    Prop := instruction.targetChainId = chainId ∨ instruction.targetChainId = 0

instance (instruction : GovernanceInstruction) (chainId : BitVec 16) :
    Decidable (instruction.ForChain chainId) :=
  inferInstanceAs (Decidable (_ ∨ _))

/-! ## Execution -/

section

variable (env : GovernanceEnv)

/-- `parse_and_verify_vaa`, with `?`. -/
def GovernanceEnv.parseAndVerifyVaa (cfg : GovernedConfig) (data : Bytes) :
    CallResult GovernanceVAA :=
  propagate (env.verifyVAA cfg.wormholeContract data env.blockTime)

def verifyVaaFromGovernanceSource (state : GovernedConfig) (vaa : GovernanceVAA) :
    CallResult Unit :=
  Rust.require (state.governanceSource = vaa.source) PythGovernanceError.invalidUpdateEmitter.std

/-- The new configuration. It is saved by the caller. -/
def transferGovernance (nextConfig currentConfig : GovernedConfig)
    (parsedClaimVaa : GovernanceVAA) : CallResult GovernedConfig := do
  let claimVaaInstruction ← Rust.mapErr PythGovernanceError.invalidGovernancePayload.std
    (GovernanceInstruction.deserialize parsedClaimVaa.payload)
  Rust.require (claimVaaInstruction.ForChain currentConfig.chainId)
    PythGovernanceError.invalidGovernancePayload.std
  match claimVaaInstruction.action with
  | .requestGovernanceDataSourceTransfer governanceDataSourceIndex => do
    let previousIndex ← Rust.sub true governanceDataSourceIndex 1
    Rust.require (currentConfig.governanceSourceIndex = previousIndex)
      PythGovernanceError.invalidGovernanceSourceIndex.std
    return { nextConfig with
      governanceSourceIndex := governanceDataSourceIndex
      governanceSource := parsedClaimVaa.source
      governanceSequenceNumber := parsedClaimVaa.sequence }
  | _ => .error (.error PythGovernanceError.invalidGovernancePayload.std)

/-- `val * 10 ** expo`. -/
def newFeeAmount (val expo : BitVec 64) : CallResult (BitVec 128) := do
  let expo ← okOr PythGovernanceError.invalidGovernancePayload.std
    (Rust.toUnsigned 32 (expo.toNat : Int))
  let power ← okOr PythGovernanceError.invalidGovernancePayload.std
    (Rust.checkedPow (10 : BitVec 128) expo.toNat)
  okOr PythGovernanceError.invalidGovernancePayload.std
    (Rust.checkedMul (val.setWidth 128) power)

/-- The `match` on the action: the new configuration, and the messages of the response. -/
def executeAction (state updatedConfig : GovernedConfig) (instruction : GovernanceInstruction) :
    CallResult (GovernedConfig × List Migrate) :=
  match instruction.action with
  | .upgradeContract codeId => do
    Rust.require (instruction.targetChainId ≠ 0) PythGovernanceError.invalidGovernancePayload.std
    return (updatedConfig, [{ contractAddr := env.contractAddress, newCodeId := codeId }])
  | .authorizeGovernanceDataSourceTransfer claimVaa => do
    let parsedClaimVaa ← env.parseAndVerifyVaa state claimVaa
    let updatedConfig ← transferGovernance updatedConfig state parsedClaimVaa
    return (updatedConfig, [])
  | .setDataSources dataSources =>
    return ({ updatedConfig with dataSources := dataSources.toFinset }, [])
  | .setFee val expo => do
    let amount ← newFeeAmount val expo
    return ({ updatedConfig with fee := { updatedConfig.fee with amount := amount } }, [])
  | .setValidPeriod validSeconds =>
    return ({ updatedConfig with validTimePeriod := validSeconds }, [])
  | .requestGovernanceDataSourceTransfer _ =>
    .error (.error PythGovernanceError.invalidGovernancePayload.std)

/-- The configuration that is saved, and the messages of the response. -/
def executeGovernanceInstruction (state : GovernedConfig) (data : Bytes) :
    CallResult (GovernedConfig × List Migrate) := do
  let vaa ← env.parseAndVerifyVaa state data
  verifyVaaFromGovernanceSource state vaa
  Rust.require (state.governanceSequenceNumber < vaa.sequence)
    PythGovernanceError.oldGovernanceMessage.std
  let instruction ← Rust.mapErr PythGovernanceError.invalidGovernancePayload.std
    (GovernanceInstruction.deserialize vaa.payload)
  Rust.require (instruction.ForChain state.chainId) PythGovernanceError.invalidGovernancePayload.std
  Rust.require (instruction.module = .target) PythGovernanceError.invalidGovernancePayload.std
  executeAction env state { state with governanceSequenceNumber := vaa.sequence } instruction

end

end PythCrosschain.CosmWasm
