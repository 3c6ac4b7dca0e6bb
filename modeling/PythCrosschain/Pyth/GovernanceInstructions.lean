import PythCrosschain.Evm.ByteArrays
import PythCrosschain.Pyth.State

/-!
# `PythGovernanceInstructions`

The parsers of governance instructions and of their payloads. All reads are checked.
-/

namespace PythCrosschain.Pyth

open BytesLib

/-- `PTGM`, the magic of governance instructions. -/
def MAGIC : Uint32 := 0x5054474d

inductive GovernanceModule where
  | executor
  | target
  | evmExecutor
  | stacksTarget
deriving DecidableEq, Repr

def MODULE : GovernanceModule := .target

inductive GovernanceAction where
  | upgradeContract
  | authorizeGovernanceDataSourceTransfer
  | setDataSources
  | setFee
  | setValidPeriod
  | requestGovernanceDataSourceTransfer
  | setWormholeAddress
deriving DecidableEq, Repr

/-- The conversion of a number to an enumeration, given its values in order. -/
def enumOfUint8 {α : Type} (values : List α) (n : Uint8) : Result α :=
  match values[n.toNat]? with
  | none => .error (.panic 0x21)
  | some a => .ok a

def GovernanceModule.ofUint8 : Uint8 → Result GovernanceModule :=
  enumOfUint8 [.executor, .target, .evmExecutor, .stacksTarget]

def GovernanceAction.ofUint8 : Uint8 → Result GovernanceAction :=
  enumOfUint8 [.upgradeContract, .authorizeGovernanceDataSourceTransfer, .setDataSources, .setFee,
    .setValidPeriod, .requestGovernanceDataSourceTransfer, .setWormholeAddress]

structure GovernanceInstruction where
  governanceModule : GovernanceModule
  action : GovernanceAction
  targetChainId : Uint16
  payload : Bytes
deriving DecidableEq, Repr

def parseGovernanceInstruction (encodedInstruction : Bytes) : Result GovernanceInstruction := do
  let mut index := 0
  let magic ← toUint32 encodedInstruction index
  require (magic = MAGIC) (.error .invalidGovernanceMessage)
  index := index + 4
  let modNumber ← toUint8 encodedInstruction index
  let governanceModule ← GovernanceModule.ofUint8 modNumber
  index := index + 1
  require (governanceModule = MODULE) (.error .invalidGovernanceTarget)
  let actionNumber ← toUint8 encodedInstruction index
  let action ← GovernanceAction.ofUint8 actionNumber
  index := index + 1
  let targetChainId ← toUint16 encodedInstruction index
  index := index + 2
  let payload ← sliceToEnd encodedInstruction index
  return { governanceModule, action, targetChainId, payload }

/-- `if (encodedPayload.length != index) revert`, at the end of most payload parsers. -/
def requireEnd (encodedPayload : Bytes) (index : Nat) : Result Unit :=
  require (encodedPayload.length = index) (.error .invalidGovernanceMessage)

/-- The parser of a payload that is one address. -/
def parseAddressPayload (encodedPayload : Bytes) : Result Address := do
  let address ← toAddress encodedPayload 0
  requireEnd encodedPayload 20
  return address

/-- The new implementation. -/
def parseUpgradeContractPayload : Bytes → Result Address := parseAddressPayload

/-- The new Wormhole address. -/
def parseSetWormholeAddressPayload : Bytes → Result Address := parseAddressPayload

/-- The claim VAA, which is the whole payload. -/
def parseAuthorizeGovernanceDataSourceTransferPayload (encodedPayload : Bytes) : Result Bytes :=
  return encodedPayload

/-- The index of the governance data source. -/
def parseRequestGovernanceDataSourceTransferPayload (encodedPayload : Bytes) : Result Uint32 := do
  let governanceDataSourceIndex ← toUint32 encodedPayload 0
  requireEnd encodedPayload 4
  return governanceDataSourceIndex

/-- The loop of `parseSetDataSourcesPayload`, for `dataSourcesLength` more sources. -/
def parseDataSources (encodedPayload : Bytes) (index : Nat) :
    Nat → Result (List DataSource × Nat)
  | 0 => return ([], index)
  | dataSourcesLength + 1 => do
    let mut index := index
    let chainId ← toUint16 encodedPayload index
    index := index + 2
    let emitterAddress ← toBytes32 encodedPayload index
    index := index + 32
    let rest ← parseDataSources encodedPayload index dataSourcesLength
    return ({ chainId, emitterAddress } :: rest.1, rest.2)

def parseSetDataSourcesPayload (encodedPayload : Bytes) : Result (List DataSource) := do
  let dataSourcesLength ← toUint8 encodedPayload 0
  let dataSources ← parseDataSources encodedPayload 1 dataSourcesLength.toNat
  requireEnd encodedPayload dataSources.2
  return dataSources.1

/-- `uint256(10) ** uint256(expo)` in checked arithmetic: `10 ** 78` overflows. -/
def checkedPowTen (expo : Uint64) : Result Uint256 :=
  if expo.toNat < 78 then .ok (BitVec.ofNat 256 (10 ^ expo.toNat)) else .error (.panic 0x11)

/-- The new fee. -/
def parseSetFeePayload (encodedPayload : Bytes) : Result Uint256 := do
  let val ← toUint64 encodedPayload 0
  let expo ← toUint64 encodedPayload 8
  let newFee ← checkedMul (val.setWidth 256) (← checkedPowTen expo)
  requireEnd encodedPayload 16
  return newFee

/-- The new valid period. -/
def parseSetValidPeriodPayload (encodedPayload : Bytes) : Result Uint256 := do
  let newValidPeriod ← toUint64 encodedPayload 0
  requireEnd encodedPayload 8
  return newValidPeriod.setWidth 256

end PythCrosschain.Pyth
