import PythCrosschain.Aptos.PriceFeeds

/-!
# Aptos: governance and contract upgrades

The instructions of `governance.move` and what each of them does, and `contract_upgrade.move`. A
contract upgrade is authorized by an instruction and carried out by anyone
(`do_contract_upgrade`), with the package that was authorized.
-/

namespace PythCrosschain.Aptos

open Move MovePackages
open Sui (Cursor)
open PythnetSdk (HashArray)

/-! ## Initialization -/

/-- `pyth::parse_data_sources`. -/
def parseDataSources (emitterChainIds : List U64) (emitterAddresses : List (HashArray 32)) :
    Result (List DataSource) := do
  assert (emitterChainIds.length = emitterAddresses.length)
    Error.dataSourceEmitterAddressAndChainIdsDifferentLengths
  return (emitterChainIds.zip emitterAddresses).map fun source => ⟨source.1, source.2⟩

/-- `state::init`. -/
def State.init (stalePriceThreshold updateFee : U64) (governanceDataSource : DataSource)
    (dataSources : List DataSource) : Result State := do
  let sources ← State.addDataSources [] dataSources.reverse
  return { dataSources := sources
           stalePriceThreshold
           baseUpdateFee := updateFee
           latestPriceInfo := fun _ => none
           governanceDataSource
           lastExecutedGovernanceSequence := 0
           contractUpgradeAuthorized := none }

/-- `pyth::init`, for the deployer. -/
def init (stalePriceThreshold governanceEmitterChainId : U64)
    (governanceEmitterAddress : HashArray 32) (dataSourcesEmitterChainIds : List U64)
    (dataSourcesEmitterAddresses : List (HashArray 32)) (updateFee : U64) : Result State := do
  let dataSources ← parseDataSources dataSourcesEmitterChainIds dataSourcesEmitterAddresses
  State.init stalePriceThreshold updateFee ⟨governanceEmitterChainId, governanceEmitterAddress⟩
    dataSources

/-! ## Instructions -/

inductive GovernanceAction where
  | contractUpgrade
  | setGovernanceDataSource
  | setDataSources
  | setUpdateFee
  | setStalePriceThreshold
deriving DecidableEq

def GovernanceAction.fromU8 : UInt8 → Result GovernanceAction
  | 0 => .ok .contractUpgrade
  | 1 => .ok .setGovernanceDataSource
  | 2 => .ok .setDataSources
  | 3 => .ok .setUpdateFee
  | 4 => .ok .setStalePriceThreshold
  | _ => .error (.code Error.invalidGovernanceAction)

/-- "PTGM". -/
def MAGIC : Bytes := [0x50, 0x54, 0x47, 0x4d]
def MODULE : UInt8 := 1

structure GovernanceInstruction where
  module : UInt8
  action : GovernanceAction
  targetChainId : BitVec 16
  payload : Bytes
deriving DecidableEq

namespace GovernanceInstruction

def validate (chainId : BitVec 16) (instruction : GovernanceInstruction) : Result Unit := do
  assert (instruction.module = MODULE) Error.invalidGovernanceModule
  assert (instruction.targetChainId = chainId ∨ instruction.targetChainId = 0)
    Error.invalidGovernanceTargetChainId

def fromByteVec (chainId : BitVec 16) (bytes : Bytes) : Result GovernanceInstruction := do
  let (magic, cursor) ← deserializeVector 4 bytes
  assert (magic = MAGIC) Error.invalidGovernanceMagicValue
  let (module, cursor) ← deserializeU8 cursor
  let (action, cursor) ← deserializeU8 cursor
  let action ← GovernanceAction.fromU8 action
  let (targetChainId, payload) ← deserializeU16 cursor
  let instruction : GovernanceInstruction := { module, action, targetChainId, payload }
  validate chainId instruction
  return instruction

end GovernanceInstruction

/-! ### Actions -/

/-- A chain id and an address of a source. -/
def takeDataSource : Cursor DataSource := do
  let emitterChainId ← deserializeU16
  let emitterAddress ← Sui.Cursor.takeBytes32
  return { emitterChain := emitterChainId.setWidth 64, emitterAddress }

/-- `set_governance_data_source::execute`. -/
def setGovernanceDataSource (payload : Bytes) (s : State) : Result State := do
  let (source, initialSequence) ← Sui.Cursor.all (do
    let source ← takeDataSource
    let initialSequence ← deserializeU64
    return (source, initialSequence)) payload
  return { s with
    governanceDataSource := source
    lastExecutedGovernanceSequence := initialSequence }

/-- `set_data_sources::execute`. -/
def setDataSources (payload : Bytes) (s : State) : Result State := do
  let sources ← Sui.Cursor.all (do
    let dataSourcesCount ← deserializeU8
    Decoder.elements takeDataSource dataSourcesCount.toNat) payload
  s.setDataSources sources

/-- `apply_exponent`. -/
def applyExponent (mantissa exponent : U64) : Result U64 := do
  let power ← Move.ofNat (10 ^ exponent.toNat)
  Move.ofNat (mantissa.toNat * power.toNat)

/-- `set_update_fee::execute`. -/
def setUpdateFee (payload : Bytes) (s : State) : Result State := do
  let (mantissa, exponent) ← Sui.Cursor.all (do
    let mantissa ← deserializeU64
    let exponent ← deserializeU64
    return (mantissa, exponent)) payload
  let fee ← applyExponent mantissa exponent
  return { s with baseUpdateFee := fee }

/-- `set_stale_price_threshold::execute`. -/
def setStalePriceThreshold (payload : Bytes) (s : State) : Result State := do
  let threshold ← Sui.Cursor.all deserializeU64 payload
  return { s with stalePriceThreshold := threshold }

namespace ContractUpgrade

/-- `AuthorizeContractUpgrade`. -/
def fromByteVec (bytes : Bytes) : Result Hash := Sui.Cursor.all Sui.Cursor.takeBytes32 bytes

def execute (payload : Bytes) (s : State) : Result State := do
  let hash ← fromByteVec payload
  return s.setContractUpgradeAuthorizedHash hash

end ContractUpgrade

/-- The dispatch of `execute_governance_instruction`. -/
def executeAction (instruction : GovernanceInstruction) (s : State) : Result State :=
  match instruction.action with
  | .contractUpgrade => do
    assert (instruction.targetChainId ≠ 0) Error.governanceContractUpgradeChainIdZero
    ContractUpgrade.execute instruction.payload s
  | .setGovernanceDataSource => setGovernanceDataSource instruction.payload s
  | .setDataSources => setDataSources instruction.payload s
  | .setUpdateFee => setUpdateFee instruction.payload s
  | .setStalePriceThreshold => setStalePriceThreshold instruction.payload s

section

variable (env : Env)

def parseAndVerifyGovernanceVaa (bytes : Bytes) (s : State) : Result (VAA × State) := do
  let parsedVaa ← env.parseAndVerify bytes
  assert (s.governanceDataSource = parsedVaa.source) Error.invalidGovernanceDataSource
  assert (parsedVaa.sequence > s.lastExecutedGovernanceSequence)
    Error.invalidGovernanceSequenceNumber
  return (parsedVaa, { s with lastExecutedGovernanceSequence := parsedVaa.sequence })

/-- The instruction of a VAA, and the state with the sequence number of the VAA. -/
def takeInstruction (vaaBytes : Bytes) (s : State) : Result (GovernanceInstruction × State) := do
  let (parsedVaa, s) ← parseAndVerifyGovernanceVaa env vaaBytes s
  let instruction ← GovernanceInstruction.fromByteVec env.chainId parsedVaa.payload
  return (instruction, s)

def executeGovernanceInstruction (vaaBytes : Bytes) (s : State) : Result State := do
  let (instruction, s) ← takeInstruction env vaaBytes s
  executeAction instruction s

end

/-! ## Upgrades -/

/-- What `do_contract_upgrade` publishes. -/
structure Package where
  metadataSerialized : Bytes
  code : List Bytes
deriving DecidableEq

section

variable (keccak256 : Bytes → BitVec 256)

/-- The hash of the metadata, followed by the hash of each module. -/
def Package.flattened (package : Package) : Bytes :=
  package.code.foldl (fun flattened module => flattened ++ wordBytes (keccak256 module))
    (wordBytes (keccak256 package.metadataSerialized))

def matchesHash (package : Package) (hash : Hash) : Bool :=
  wordBytes (keccak256 (package.flattened keccak256)) = hash.val

end

/-- `do_contract_upgrade`. -/
def doContractUpgrade (env : Env) (package : Package) (s : State) : Result State := do
  let (hash, s) ← s.getContractUpgradeAuthorizedHash
  assert (matchesHash env.keccak256 package hash = true) Error.invalidUpgradeHash
  env.publishPackage package.metadataSerialized package.code
  return s

end PythCrosschain.Aptos
