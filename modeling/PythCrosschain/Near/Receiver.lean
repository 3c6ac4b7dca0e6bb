import Mathlib.Data.Finset.Dedup
import PythCrosschain.Lib.Hex
import PythCrosschain.Lib.Rust
import PythCrosschain.PythnetSdk.MerkleTree

/-!
# The NEAR receiver: governance

`governance.rs` and the parts of `lib.rs` and `state.rs` that it uses. A method that returns an
error or panics leaves the state as it was. The parser of VAAs is a parameter, and so is the
price of storage. Whom a method transfers a refund to, and how much, is left out; whether the
deposit covers the storage is not.
-/

namespace PythCrosschain.Near

open PythnetSdk (HashArray)
export Rust (require require_eq_ok okOr okOr_eq_ok propagate propagate_eq_ok unwrap unwrap_eq_ok
  checkedAdd checkedSub checkedMul)

/-- The errors that governance and price updates return. -/
inductive Error where
  | invalidHex
  | invalidVaa
  | invalidPayload
  | invalidGovernanceModule
  | invalidGovernanceAction
  | unknownSource (emitter : HashArray 32)
  | insufficientDeposit
  | vaaVerificationFailed
  | arithmeticOverflow
  | unknown
  | invalidMerkleProof
  | invalidAccumulatorMessage
  | invalidAccumulatorMessageType
  | invalidWormholeMessage
deriving DecidableEq

abbrev Result (α : Type) := Rust.Result Error α

/-! ## State -/

/-- `Chain`, which is a `u16`. -/
abbrev Chain := BitVec 16

/-- `WormholeChain::Any`. -/
def Chain.any : Chain := 0

/-- `WormholeChain::Near`. -/
def Chain.near : Chain := 15

structure Source where
  emitter : HashArray 32
  chain : Chain
deriving DecidableEq

/-- The fields of `Vaa` that governance reads. -/
structure Vaa where
  emitterChain : Chain
  emitterAddress : HashArray 32
  sequence : BitVec 64
  payload : Bytes
deriving DecidableEq

def Vaa.source (vaa : Vaa) : Source where
  emitter := vaa.emitterAddress
  chain := vaa.emitterChain

/-- The fields of `Pyth` that governance uses. -/
structure Pyth where
  sources : Finset Source
  govSource : Source
  executedGovernanceVaa : BitVec 64
  executedGovernanceChangeVaa : BitVec 64
  codehash : HashArray 32
  staleThreshold : BitVec 64
  updateFee : BitVec 128

/-! ## Payloads -/

def GOVERNANCE_MAGIC : Bytes := [0x50, 0x54, 0x47, 0x4d]

inductive GovernanceModule where
  | executor
  | target
deriving DecidableEq

inductive GovernanceAction where
  | upgradeContract (codehash : HashArray 32)
  | authorizeGovernanceDataSourceTransfer (claimVaa : Bytes)
  | setDataSources (dataSources : List Source)
  | setFee (base expo : BitVec 64)
  | setValidPeriod (validSeconds : BitVec 64)
  | requestGovernanceDataSourceTransfer (governanceDataSourceIndex : BitVec 32)
deriving DecidableEq

/-- The discriminants of `GovernanceAction`. -/
inductive GovernanceActionId where
  | upgradeContract
  | authorizeGovernanceDataSourceTransfer
  | setDataSources
  | setFee
  | setValidPeriod
  | requestGovernanceDataSourceTransfer
deriving DecidableEq

structure GovernanceInstruction where
  module : GovernanceModule
  action : GovernanceAction
  target : Chain
deriving DecidableEq

def GovernanceModule.fromU8 : UInt8 → Option GovernanceModule
  | 0 => some .executor
  | 1 => some .target
  | _ => none

def GovernanceActionId.fromU8 : UInt8 → Option GovernanceActionId
  | 0 => some .upgradeContract
  | 1 => some .authorizeGovernanceDataSourceTransfer
  | 2 => some .setDataSources
  | 3 => some .setFee
  | 4 => some .setValidPeriod
  | 5 => some .requestGovernanceDataSourceTransfer
  | _ => none

/-- A parser of `nom`, whose errors become `InvalidPayload`. -/
abbrev Parser (α : Type) := Decoder Error α

namespace Parser

def u8 : Parser UInt8 := Decoder.byte .invalidPayload

/-- A big-endian integer of `k` bytes. -/
def uint (k : Nat) : Parser (BitVec (8 * k)) :=
  (fun bytes => BitVec.ofNat (8 * k) (natBE bytes)) <$> Decoder.take .invalidPayload k

/-- `take(32usize)`, copied to an array. -/
def array32 : Parser (HashArray 32) := fun bytes =>
  if h : 32 ≤ bytes.length then .ok (⟨bytes.take 32, List.length_take_of_le h⟩, bytes.drop 32)
  else .error .invalidPayload

def source : Parser Source := do
  let chain ← uint 2
  let emitter ← array32
  return { emitter, chain }

def allConsuming {α : Type} (p : Parser α) : Parser α := fun bytes => do
  let (a, rest) ← p bytes
  if rest = [] then return (a, []) else .error .invalidPayload

/-- `ok_or`, with `?`. -/
def orError {α : Type} (e : Error) : Option α → Parser α
  | some a => pure a
  | none => fun _ => .error e

/-- `ensure!`. -/
def ensure (p : Prop) [Decidable p] (e : Error) : Parser Unit := fun bytes =>
  if p then .ok ((), bytes) else .error e

def action : GovernanceActionId → Parser GovernanceAction
  | .upgradeContract => .upgradeContract <$> allConsuming array32
  | .authorizeGovernanceDataSourceTransfer => fun bytes =>
    .ok (.authorizeGovernanceDataSourceTransfer bytes, [])
  | .setDataSources => .setDataSources <$> allConsuming do
    let count ← u8
    Decoder.elements source count.toNat
  | .setFee => allConsuming do
    let val ← uint 8
    let expo ← uint 8
    return .setFee val expo
  | .setValidPeriod => .setValidPeriod <$> allConsuming (uint 8)
  | .requestGovernanceDataSourceTransfer =>
    .requestGovernanceDataSourceTransfer <$> allConsuming (uint 4)

def instruction : Parser GovernanceInstruction := do
  let magic ← Decoder.take .invalidPayload 4
  let module ← u8
  let actionId ← u8
  let target ← uint 2
  let module ← orError .invalidGovernanceModule (GovernanceModule.fromU8 module)
  let actionId ← orError .invalidGovernanceAction (GovernanceActionId.fromU8 actionId)
  ensure (magic = GOVERNANCE_MAGIC) .invalidGovernanceModule
  ensure (module = .target) .invalidGovernanceModule
  let action ← action actionId
  return { module, action, target }

end Parser

def GovernanceInstruction.deserialize (input : Bytes) : Except Error GovernanceInstruction :=
  Prod.fst <$> Parser.instruction input

/-- The instruction is for this chain, or for any chain. -/
def GovernanceInstruction.ForNear (instruction : GovernanceInstruction) : Prop :=
  instruction.target = Chain.near ∨ instruction.target = Chain.any

instance (instruction : GovernanceInstruction) : Decidable instruction.ForNear :=
  inferInstanceAs (Decidable (_ ∨ _))

/-! ## Methods -/

/-- What is outside of the contract: `serde_wormhole::from_slice` and
`env::storage_byte_cost()`. -/
structure Host where
  fromSlice : Bytes → Option Vaa
  storageByteCost : BitVec 128

/-- `refund_storage_usage`, without an additional fee. -/
def refundStorageUsage (host : Host) (before after : BitVec 64) (deposit : BitVec 128) :
    Result Unit :=
  match Rust.checkedSub after before with
  | some diff => do
    let cost ← unwrap (Rust.checkedMul host.storageByteCost (diff.setWidth 128))
    let _refund ← okOr .insufficientDeposit (Rust.checkedSub deposit cost)
    return ()
  | none => do
    let diff ← unwrap (Rust.checkedSub before after)
    let storageRefund ← unwrap (Rust.checkedMul host.storageByteCost (diff.setWidth 128))
    let _refund ← unwrap (Rust.checkedAdd storageRefund deposit)
    return ()

/-- The promise that the claim in the VAA of a transfer is verified, and what is passed on to
its callback. -/
structure ClaimPromise where
  claimVaa : List Char
  storage : BitVec 64

namespace Pyth

variable (host : Host) (self : Pyth)

/-- The checks before the promise that the VAA is verified. -/
def executeGovernanceInstruction (vaa : List Char) : Result Unit := do
  let vaa ← okOr .invalidHex (Hex.decode vaa)
  let vaa ← okOr .invalidVaa (host.fromSlice vaa)
  require (self.govSource = vaa.source) (.unknownSource vaa.emitterAddress)

/-- `base * 10 ** expo`. -/
def setUpdateFee (fee expo : BitVec 64) : Result Pyth := do
  let expo ← okOr .arithmeticOverflow (Rust.toUnsigned 32 (expo.toNat : Int))
  let power ← okOr .arithmeticOverflow (Rust.checkedPow (10 : BitVec 128) expo.toNat)
  let updateFee ← okOr .arithmeticOverflow (Rust.checkedMul (fee.setWidth 128) power)
  return { self with updateFee := updateFee }

/-- The `match` of the callback. An action that does not wait for another VAA is done. -/
def executeAction (instruction : GovernanceInstruction) : Result (Pyth × Option (List Char)) :=
  match instruction.action with
  | .setDataSources dataSources =>
    return ({ self with sources := dataSources.toFinset }, none)
  | .setFee base expo => do
    let self ← self.setUpdateFee base expo
    return (self, none)
  | .setValidPeriod validSeconds => return ({ self with staleThreshold := validSeconds }, none)
  | .requestGovernanceDataSourceTransfer _ => .error (.error .invalidPayload)
  | .upgradeContract codehash => do
    require (instruction.target = Chain.near) .invalidPayload
    return ({ self with codehash := codehash }, none)
  | .authorizeGovernanceDataSourceTransfer claimVaa => return (self, some (Hex.encode claimVaa))

/-- `success` is whether the VAA was verified, `before` and `after` are the storage used when
the method starts and when the action is done. -/
def verifyGovVaaCallback (vaa : List Char) (success : Bool) (before after : BitVec 64)
    (deposit : BitVec 128) : Result (Pyth × Option ClaimPromise) := do
  require (success = true) .vaaVerificationFailed
  let vaa ← okOr .invalidPayload (Hex.decode vaa)
  let vaa ← okOr .invalidPayload (host.fromSlice vaa)
  let instruction ← propagate (GovernanceInstruction.deserialize vaa.payload)
  require instruction.ForNear .invalidPayload
  require (self.executedGovernanceVaa < vaa.sequence) .vaaVerificationFailed
  let (self, claimVaa) ←
    executeAction { self with executedGovernanceVaa := vaa.sequence } instruction
  match claimVaa with
  | some claimVaa => return (self, some { claimVaa := claimVaa, storage := before })
  | none => do
    refundStorageUsage host before after deposit
    return (self, none)

/-- `storage` is the storage used when the VAA that carries the claim was executed. -/
def authorizeGovSourceTransfer (claimVaa : List Char) (storage : BitVec 64) (success : Bool)
    (after : BitVec 64) (deposit : BitVec 128) : Result Pyth := do
  require (success = true) .vaaVerificationFailed
  let vaa ← okOr .invalidPayload (Hex.decode claimVaa)
  let vaa ← unwrap (host.fromSlice vaa)
  let instruction ← unwrap (GovernanceInstruction.deserialize vaa.payload).toOption
  match instruction.action with
  | .requestGovernanceDataSourceTransfer governanceDataSourceIndex => do
    require (self.executedGovernanceChangeVaa < governanceDataSourceIndex.setWidth 64) .unknown
    require instruction.ForNear .invalidPayload
    refundStorageUsage host storage after deposit
    return { self with
      executedGovernanceChangeVaa := governanceDataSourceIndex.setWidth 64
      executedGovernanceVaa := vaa.sequence
      govSource := vaa.source }
  | _ => .error (.error .unknown)

end Pyth

end PythCrosschain.Near
