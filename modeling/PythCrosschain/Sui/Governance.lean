import PythCrosschain.Lib.Codec
import PythCrosschain.Lib.Move
import PythCrosschain.PythnetSdk.MerkleTree

/-!
# Sui: governance

The modules of `governance/`, with what they use of `state.move`, `data_source.move` and
`set.move`, and of the Wormhole package. Objects that other packages hold are parameters: the
chain id of the network, and whether the upgrade capability lets an upgrade be authorized.
-/

namespace PythCrosschain.Sui

open Move
open PythnetSdk (HashArray)

abbrev Bytes32 := HashArray 32

/-! ## State -/

structure DataSource where
  emitterChain : U64
  emitterAddress : Bytes32
deriving DecidableEq

/-- The fields of `State` that governance uses. `dataSources` is the registry, `latest` whether
the version is that of this build, and `authorizedDigest` the digest of the pending package. -/
structure State where
  governanceDataSource : DataSource
  stalePriceThreshold : U64
  baseUpdateFee : U64
  feeRecipientAddress : Bytes32
  lastExecutedGovernanceSequence : U64
  dataSources : List DataSource
  latest : Bool
  authorizedDigest : Bytes32

/-- The fields of a verified `VAA` that governance reads. -/
structure VAA where
  emitterChain : BitVec 16
  emitterAddress : Bytes32
  sequence : U64
  payload : Bytes
  digest : Bytes32
deriving DecidableEq

structure WormholeVAAVerificationReceipt where
  payload : Bytes
  digest : Bytes32
  sequence : U64
deriving DecidableEq

def E_NOT_CURRENT_VERSION : ℕ := 1

/-- `state::assert_latest_only`. -/
def assertLatestOnly (s : State) : Result Unit := assert (s.latest = true) E_NOT_CURRENT_VERSION

/-! ## Cursors -/

abbrev Cursor (α : Type) := Decoder Abort α

namespace Cursor

def takeVector (n : ℕ) : Cursor Bytes := Decoder.take .vectorError n

def takeU8 : Cursor UInt8 := Decoder.byte .vectorError

/-- A big-endian integer of `k` bytes. -/
def takeBE (k : ℕ) : Cursor ℕ := natBE <$> takeVector k

/-- `bytes32::take_bytes`, and `deserialize_vector` of 32 bytes. -/
def takeBytes32 : Cursor Bytes32 := fun bytes =>
  if h : 32 ≤ bytes.length then .ok (⟨bytes.take 32, PythnetSdk.length_take_32 h⟩, bytes.drop 32)
  else .error .vectorError

/-- A cursor that is destroyed at its end, `destroy_empty`. -/
def all {α : Type} (p : Cursor α) (bytes : Bytes) : Result α := do
  let (a, rest) ← p bytes
  if rest = [] then return a else .error .vectorError

end Cursor

/-! ## Instructions -/

inductive GovernanceAction where
  | contractUpgrade
  | setGovernanceDataSource
  | setDataSources
  | setUpdateFee
  | setStalePriceThreshold
  | setFeeRecipient
deriving DecidableEq

def GovernanceAction.fromU8 : UInt8 → Result GovernanceAction
  | 0 => .ok .contractUpgrade
  | 1 => .ok .setGovernanceDataSource
  | 2 => .ok .setDataSources
  | 3 => .ok .setUpdateFee
  | 4 => .ok .setStalePriceThreshold
  | 5 => .ok .setFeeRecipient
  | _ => .error (.code 6)

def MAGIC : Bytes := [0x50, 0x54, 0x47, 0x4d]
def MODULE : UInt8 := 1

structure GovernanceInstruction where
  module : UInt8
  action : GovernanceAction
  targetChainId : U64
  payload : Bytes
deriving DecidableEq

namespace GovernanceInstruction

def E_INVALID_GOVERNANCE_MODULE : ℕ := 0
def E_INVALID_GOVERNANCE_MAGIC_VALUE : ℕ := 1
def E_TARGET_CHAIN_MISMATCH : ℕ := 2

def validate (chainId : U64) (instruction : GovernanceInstruction) : Result Unit := do
  assert (instruction.module = MODULE) E_INVALID_GOVERNANCE_MODULE
  assert (instruction.targetChainId = chainId ∨ instruction.targetChainId = 0)
    E_TARGET_CHAIN_MISMATCH

def fromByteVec (chainId : U64) (bytes : Bytes) : Result GovernanceInstruction := do
  let (magic, bytes) ← Cursor.takeVector 4 bytes
  assert (magic = MAGIC) E_INVALID_GOVERNANCE_MAGIC_VALUE
  let (module, bytes) ← Cursor.takeU8 bytes
  let (action, bytes) ← Cursor.takeU8 bytes
  let action ← GovernanceAction.fromU8 action
  let (targetChainId, payload) ← Cursor.takeBE 2 bytes
  let instruction : GovernanceInstruction :=
    { module, action, targetChainId := BitVec.ofNat 64 targetChainId, payload }
  validate chainId instruction
  return instruction

end GovernanceInstruction

/-! ### Actions -/

def takeDataSource : Cursor DataSource := do
  let emitterChainId ← Cursor.takeBE 2
  let emitterAddress ← Cursor.takeBytes32
  return { emitterChain := BitVec.ofNat 64 emitterChainId, emitterAddress }

/-- `GovernanceDataSource`: the source and the initial sequence. -/
def takeGovernanceDataSource : Cursor (DataSource × U64) := do
  let source ← takeDataSource
  let initialSequence ← Cursor.takeBE 8
  return (source, BitVec.ofNat 64 initialSequence)

/-- `set_governance_data_source::execute`. -/
def setGovernanceDataSource (payload : Bytes) (s : State) : Result State := do
  let (source, initialSequence) ← Cursor.all takeGovernanceDataSource payload
  return { s with
    governanceDataSource := source
    lastExecutedGovernanceSequence := initialSequence }

def E_DATA_SOURCE_ALREADY_REGISTERED : ℕ := 1

/-- The loop of `state::set_data_sources`, over the sources from the last one on. -/
def addDataSources : List DataSource → List DataSource → Result (List DataSource)
  | registry, [] => return registry
  | registry, source :: sources => do
    assert (source ∉ registry) E_DATA_SOURCE_ALREADY_REGISTERED
    addDataSources (registry ++ [source]) sources

/-- `set_data_sources::execute`. -/
def setDataSources (payload : Bytes) (s : State) : Result State := do
  let sources ← Cursor.all (do
    let count ← Cursor.takeU8
    Decoder.elements takeDataSource count.toNat) payload
  let registry ← addDataSources [] sources.reverse
  return { s with dataSources := registry }

def E_EXPONENT_DOES_NOT_FIT_IN_U8 : ℕ := 0

/-- `set_update_fee::execute`. -/
def setUpdateFee (payload : Bytes) (s : State) : Result State := do
  let (mantissa, exponent) ← Cursor.all (do
    let mantissa ← Cursor.takeBE 8
    let exponent ← Cursor.takeBE 8
    return (mantissa, exponent)) payload
  assert (exponent ≤ 255) E_EXPONENT_DOES_NOT_FIT_IN_U8
  let power ← Move.ofNat (10 ^ exponent)
  let fee ← Move.ofNat (mantissa * power.toNat)
  return { s with baseUpdateFee := fee }

/-- `set_stale_price_threshold::execute`. -/
def setStalePriceThreshold (payload : Bytes) (s : State) : Result State := do
  let threshold ← Cursor.all (Cursor.takeBE 8) payload
  return { s with stalePriceThreshold := BitVec.ofNat 64 threshold }

/-- The bytes are not all zero. -/
def IsNonzero (bytes : Bytes32) : Prop := ∃ b ∈ bytes.val, b ≠ 0

instance (bytes : Bytes32) : Decidable (IsNonzero bytes) :=
  inferInstanceAs (Decidable (∃ b ∈ bytes.val, b ≠ 0))

def E_ZERO_ADDRESS : ℕ := 0

/-- `set_fee_recipient::execute`. -/
def setFeeRecipient (payload : Bytes) (s : State) : Result State := do
  let (recipient, rest) ← Cursor.takeBytes32 payload
  assert (IsNonzero recipient) E_ZERO_ADDRESS
  if rest = [] then return { s with feeRecipientAddress := recipient } else .error .vectorError

/-! ## Receipts -/

def E_MUST_USE_CONTRACT_UPGRADE_MODULE_TO_DO_UPGRADES : ℕ := 1
def E_CANNOT_EXECUTE_GOVERNANCE_ACTION_WITH_OBSOLETE_SEQUENCE_NUMBER : ℕ := 2
def E_INVALID_GOVERNANCE_DATA_SOURCE : ℕ := 4

def VAA.source (vaa : VAA) : DataSource where
  emitterChain := vaa.emitterChain.setWidth 64
  emitterAddress := vaa.emitterAddress

def VAA.receipt (vaa : VAA) : WormholeVAAVerificationReceipt where
  payload := vaa.payload
  digest := vaa.digest
  sequence := vaa.sequence

/-- `governance::verify_vaa`. -/
def verifyVaa (s : State) (verifiedVaa : VAA) : Result WormholeVAAVerificationReceipt := do
  assertLatestOnly s
  assert (s.governanceDataSource = verifiedVaa.source) E_INVALID_GOVERNANCE_DATA_SOURCE
  return verifiedVaa.receipt

/-- The dispatch of `execute_governance_instruction`. -/
def executeAction (instruction : GovernanceInstruction) (s : State) : Result State :=
  match instruction.action with
  | .contractUpgrade => .error (.code E_MUST_USE_CONTRACT_UPGRADE_MODULE_TO_DO_UPGRADES)
  | .setGovernanceDataSource => setGovernanceDataSource instruction.payload s
  | .setDataSources => setDataSources instruction.payload s
  | .setUpdateFee => setUpdateFee instruction.payload s
  | .setStalePriceThreshold => setStalePriceThreshold instruction.payload s
  | .setFeeRecipient => setFeeRecipient instruction.payload s

section

variable (chainId : U64)

/-- `governance::execute_governance_instruction`. -/
def executeGovernanceInstruction (receipt : WormholeVAAVerificationReceipt) (s : State) :
    Result State := do
  assertLatestOnly s
  assert (receipt.sequence > s.lastExecutedGovernanceSequence)
    E_CANNOT_EXECUTE_GOVERNANCE_ACTION_WITH_OBSOLETE_SEQUENCE_NUMBER
  let s := { s with lastExecutedGovernanceSequence := receipt.sequence }
  let instruction ← GovernanceInstruction.fromByteVec chainId receipt.payload
  executeAction instruction s

namespace ContractUpgrade

def E_DIGEST_ZERO_BYTES : ℕ := 0
def E_GOVERNANCE_ACTION_MUST_BE_CONTRACT_UPGRADE : ℕ := 1
def E_GOVERNANCE_CONTRACT_UPGRADE_CHAIN_ID_ZERO : ℕ := 2
def E_CANNOT_EXECUTE_GOVERNANCE_ACTION_WITH_OBSOLETE_SEQUENCE_NUMBER : ℕ := 3

/-- `take_digest`, which allows more bytes after the digest. -/
def takeDigest (governancePayload : Bytes) : Result Bytes32 := do
  let (digest, _) ← Cursor.takeBytes32 governancePayload
  assert (IsNonzero digest) E_DIGEST_ZERO_BYTES
  return digest

def takeUpgradeDigest (receipt : WormholeVAAVerificationReceipt) : Result Bytes32 := do
  let instruction ← GovernanceInstruction.fromByteVec chainId receipt.payload
  assert (instruction.action = .contractUpgrade) E_GOVERNANCE_ACTION_MUST_BE_CONTRACT_UPGRADE
  assert (instruction.targetChainId ≠ 0) E_GOVERNANCE_CONTRACT_UPGRADE_CHAIN_ID_ZERO
  takeDigest instruction.payload

/-- `authorize_upgrade`, where `capAuthorizes` is whether the upgrade capability allows it. The
digest is that of the ticket. -/
def authorizeUpgrade (receipt : WormholeVAAVerificationReceipt) (capAuthorizes : Bool)
    (s : State) : Result (State × Bytes32) := do
  assert (receipt.sequence > s.lastExecutedGovernanceSequence)
    E_CANNOT_EXECUTE_GOVERNANCE_ACTION_WITH_OBSOLETE_SEQUENCE_NUMBER
  let s := { s with lastExecutedGovernanceSequence := receipt.sequence }
  let digest ← takeUpgradeDigest chainId receipt
  let s := { s with authorizedDigest := digest }
  if capAuthorizes then return (s, digest) else .error .external

end ContractUpgrade

end

end PythCrosschain.Sui
