import Mathlib.Logic.Function.Basic
import PythCrosschain.Fuel.Bytes

/-!
# The Fuel contract: VAAs and guardian sets

`wormhole_light.sw`, and `submit_new_guardian_set` and the constructor of `main.sw` with the part
of the storage that they use. A call that reverts leaves the storage as it was, so a function
that writes returns the storage.

The hash function and the recovery of the signer of a compact signature are parameters
(`WormholeHost`). A `StorageMap` is a function from its keys, and a `StorageVec` is found by the
`field_id` of its `StorageKey`: hashes that give storage slots do not collide.
-/

namespace PythCrosschain.Fuel

/-- The members of `WormholeError` that are raised. -/
inductive WormholeError where
  | consistencyLevelIrretrievable
  | governanceActionAlreadyConsumed
  | guardianIndexIrretrievable
  | guardianSetKeyIrretrievable
  | guardianSetKeysLengthNotEqual
  | guardianSetNotFound
  | invalidGovernanceAction
  | invalidGovernanceChain
  | invalidGovernanceContract
  | invalidGuardianSet
  | invalidGuardianSetKeysLength
  | invalidGuardianSetUpgradeLength
  | invalidModule
  | invalidPayloadLength
  | invalidSignatureLength
  | invalidUpdateDataSource
  | newGuardianSetIndexIsInvalid
  | noQuorum
  | notSignedByCurrentGuardianSet
  | signatureInvalid
  | signatureIndicesNotAscending
  | signatureVIrretrievable
  | signersLengthIrretrievable
  | vmVersionIncompatible
deriving DecidableEq, Repr

abbrev WormholeResult (α : Type) := Rust.Result WormholeError α

/-! ## Storage -/

/-- The `field_id` of the vector of keys of a guardian set: `ZERO_B256`, which the constructor
gives to the first one, or `sha256(("guardian_set_keys", index))`. -/
inductive KeysField where
  | zero
  | guardianSetKeys (index : BitVec 32)
deriving DecidableEq, Repr

structure StorageGuardianSet where
  expirationTime : BitVec 64
  keys : KeysField
deriving DecidableEq, Repr

structure DataSource where
  chainId : BitVec 16
  emitterAddress : Bytes32
deriving DecidableEq, Repr

/-- The storage that guardian sets and data sources are in. `guardianSetKeys` holds the vectors. -/
structure Storage where
  isValidDataSource : DataSource → Option Bool := fun _ => none
  chainId : BitVec 16 := 0
  wormholeConsumedGovernanceActions : Bytes32 → Option Bool := fun _ => none
  wormholeGuardianSets : BitVec 32 → Option StorageGuardianSet := fun _ => none
  guardianSetKeys : KeysField → List Bytes32 := fun _ => []
  wormholeGuardianSetIndex : BitVec 32 := 0
  wormholeGovernanceDataSource : DataSource := { chainId := 0, emitterAddress := 0 }

/-- `keys.push(key)`. -/
def Storage.pushKey (s : Storage) (keys : KeysField) (key : Bytes32) : Storage :=
  { s with guardianSetKeys :=
      Function.update s.guardianSetKeys keys (s.guardianSetKeys keys ++ [key]) }

/-- `B512`, by its two halves. -/
abbrev B512 := Bytes32 × Bytes32

/-- What the contract takes from the standard library: `keccak256` of bytes and
`ec_recover_evm_address`. -/
structure WormholeHost where
  keccak256 : Bytes → Bytes32
  ecRecoverEvmAddress : B512 → Bytes32 → Option Bytes32

/-! ## Signatures -/

structure GuardianSignature where
  guardianIndex : BitVec 8
  r : Bytes32
  s : Bytes32
  v : BitVec 8

/-- The compact representation: the parity is the highest bit of the second half. -/
def GuardianSignature.compact (sig : GuardianSignature) : WormholeResult B512 := do
  let yParity ← checkedSub sig.v 27
  let shiftedYParity := yParity.setWidth 256 <<< 255
  return (sig.r, shiftedYParity ||| sig.s)

section

variable (P : WormholeHost)

def GuardianSignature.verify (sig : GuardianSignature) (guardianSetKey hash : Bytes32)
    (index lastIndex : ℕ) : WormholeResult Unit := do
  require (index > 0 → sig.guardianIndex.toNat > lastIndex) .signatureIndicesNotAscending
  let compact ← sig.compact
  let recoveredSigner := P.ecRecoverEvmAddress compact hash
  require (recoveredSigner = some guardianSetKey) .signatureInvalid

/-- The loop over the `n` signatures that are left, which returns the offset behind them. -/
def verifySignatures (encodedVm : Bytes) (keys : List Bytes32) (hash : Bytes32) :
    (n i index lastIndex : ℕ) → WormholeResult ℕ
  | 0, _, index, _ => return index
  | n + 1, i, index, lastIndex => do
    let guardianIndex ← okOr .guardianIndexIrretrievable (get encodedVm index)
    let index := index + 1
    let (_, slice) ← splitAt encodedVm index
    let (slice, remainder) ← splitAt slice 32
    let r := intoB256 slice
    let index := index + 32
    let (slice, remainder) ← splitAt remainder 32
    let s := intoB256 slice
    let index := index + 32
    let v ← okOr .signatureVIrretrievable (get remainder 0)
    let v ← checkedAdd v 27
    let index := index + 1
    let guardianSetKey ← okOr .guardianSetKeyIrretrievable keys[guardianIndex.toNat]?
    GuardianSignature.verify P { guardianIndex, r, s, v } guardianSetKey hash i lastIndex
    verifySignatures encodedVm keys hash n (i + 1) index guardianIndex.toNat

end

/-! ## VAAs -/

structure WormholeVM where
  version : BitVec 8
  guardianSetIndex : BitVec 32
  governanceActionHash : Bytes32
  timestamp : BitVec 32
  nonce : BitVec 32
  emitterChainId : BitVec 16
  emitterAddress : Bytes32
  sequence : BitVec 64
  consistencyLevel : BitVec 8
  payload : Bytes
deriving DecidableEq, Repr

section

variable (P : WormholeHost) (s : Storage) (timestamp : BitVec 64)

/-- `split_at` twice, and `from_be_bytes` of the bytes of the slice. -/
def sliceUint (w n : ℕ) (encodedVm : Bytes) (index : ℕ) : WormholeResult (BitVec w) := do
  let (_, slice) ← splitAt encodedVm index
  let (slice, _) ← splitAt slice n
  let bytes ← getArray slice 0 n
  return fromBeBytes w bytes

def parseAndVerifyWormholeVm (currentGuardianSetIndex : BitVec 32) (encodedVm : Bytes) :
    WormholeResult WormholeVM := do
  let index := 0
  let version ← okOr .vmVersionIncompatible (get encodedVm index)
  require (version = 1) .vmVersionIncompatible
  let index := index + 1
  let guardianSetIndex ← sliceUint 32 4 encodedVm index
  let index := index + 4
  let guardianSet ← okOr .guardianSetNotFound (s.wormholeGuardianSets guardianSetIndex)
  let keys := s.guardianSetKeys guardianSet.keys
  require (keys.length > 0) .invalidGuardianSetKeysLength
  require (guardianSetIndex = currentGuardianSetIndex ∧
    (guardianSet.expirationTime = 0 ∨ guardianSet.expirationTime > timestamp)) .invalidGuardianSet
  let signersLength ← okOr .signersLengthIrretrievable (get encodedVm index)
  let signersLength := signersLength.toNat
  let index := index + 1
  let hashIndex := index + signersLength * 66
  require (hashIndex < encodedVm.length) .invalidSignatureLength
  let (_, slice) ← splitAt encodedVm hashIndex
  let hash := P.keccak256 (wordBytes (P.keccak256 slice))
  let index ← verifySignatures P encodedVm keys hash signersLength 0 index 0
  require (keys.length * 10 / 3 * 2 / 10 + 1 ≤ signersLength) .noQuorum
  let timestamp ← sliceUint 32 4 encodedVm index
  let index := index + 4
  let nonce ← sliceUint 32 4 encodedVm index
  let index := index + 4
  let emitterChainId ← sliceUint 16 2 encodedVm index
  let index := index + 2
  let (_, slice) ← splitAt encodedVm index
  let (slice, _) ← splitAt slice 32
  let emitterAddress := intoB256 slice
  let index := index + 32
  let sequence ← sliceUint 64 8 encodedVm index
  let index := index + 8
  let consistencyLevel ← okOr .consistencyLevelIrretrievable (get encodedVm index)
  let index := index + 1
  require (index ≤ encodedVm.length) .invalidPayloadLength
  let (_, payload) ← splitAt encodedVm index
  return {
    version, guardianSetIndex, governanceActionHash := hash, timestamp, nonce, emitterChainId,
    emitterAddress, sequence, consistencyLevel, payload }

/-- `is_valid_data_source`. -/
def Storage.dataSourceIsValid (dataSource : DataSource) : Bool :=
  (s.isValidDataSource dataSource).getD false

def parseAndVerifyPythVm (currentGuardianSetIndex : BitVec 32) (encodedVm : Bytes) :
    WormholeResult WormholeVM := do
  let vm ← parseAndVerifyWormholeVm P s timestamp currentGuardianSetIndex encodedVm
  require (s.dataSourceIsValid ⟨vm.emitterChainId, vm.emitterAddress⟩) .invalidUpdateDataSource
  return vm

end

/-! ## Upgrades of the guardian set -/

def UPGRADE_MODULE : Bytes32 := 0x436f7265

structure GuardianSetUpgrade where
  action : BitVec 8
  chain : BitVec 16
  module : Bytes32
  newGuardianSet : StorageGuardianSet
  newGuardianSetIndex : BitVec 32
deriving DecidableEq, Repr

/-- The loop that pushes the `n` keys that are left. -/
def pushKeys (encodedUpgrade : Bytes) (keys : KeysField) :
    (n index : ℕ) → Storage → WormholeResult (ℕ × Storage)
  | 0, index, s => return (index, s)
  | n + 1, index, s => do
    let (_, slice) ← splitAt encodedUpgrade index
    let (key, _) ← splitAt slice 20
    let key := intoB256 key
    pushKeys encodedUpgrade keys n (index + 20) (s.pushKey keys (key >>> 96))

def parseEncodedUpgrade (s : Storage) (currentGuardianSetIndex : BitVec 32)
    (encodedUpgrade : Bytes) : WormholeResult (GuardianSetUpgrade × Storage) := do
  let index := 0
  let (_, slice) ← splitAt encodedUpgrade index
  let (module, _) ← splitAt slice 32
  let module := intoB256 module
  require (module = UPGRADE_MODULE) .invalidModule
  let index := index + 32
  let action ← unwrap (get encodedUpgrade index)
  require (action = 2) .invalidGovernanceAction
  let index := index + 1
  let chain ← getArray encodedUpgrade index 2
  let chain := fromBeBytes 16 chain
  let index := index + 2
  let newGuardianSetIndex ← getArray encodedUpgrade index 4
  let newGuardianSetIndex := fromBeBytes 32 newGuardianSetIndex
  require (newGuardianSetIndex > currentGuardianSetIndex) .newGuardianSetIndexIsInvalid
  let index := index + 4
  let guardianLength ← unwrap (get encodedUpgrade index)
  let index := index + 1
  let newGuardianSet : StorageGuardianSet :=
    { expirationTime := 0, keys := .guardianSetKeys newGuardianSetIndex }
  let (index, s) ← pushKeys encodedUpgrade newGuardianSet.keys guardianLength.toNat index s
  require ((s.guardianSetKeys newGuardianSet.keys).length = guardianLength.toNat)
    .guardianSetKeysLengthNotEqual
  require (encodedUpgrade.length = index) .invalidGuardianSetUpgradeLength
  return ({ action, chain, module, newGuardianSet, newGuardianSetIndex }, s)

/-! ## `main.sw` -/

def GUARDIAN_SET_EXPIRATION_TIME_SECONDS : BitVec 64 := 86400

def Storage.governanceActionIsConsumed (s : Storage) (governanceActionHash : Bytes32) : Bool :=
  (s.wormholeConsumedGovernanceActions governanceActionHash).getD false

/-- The part of the constructor about guardian sets. Its loop pushes all the addresses. -/
def construct (chainId : BitVec 16) (wormholeGovernanceDataSource : DataSource)
    (wormholeGuardianSetAddresses : List Bytes32) (wormholeGuardianSetIndex : BitVec 32)
    (isValidDataSource : DataSource → Option Bool) : WormholeResult Storage := do
  let _guardianLength ← unwrap (tryAsU8 wormholeGuardianSetAddresses.length)
  let newGuardianSet : StorageGuardianSet := { expirationTime := 0, keys := .zero }
  let s : Storage := wormholeGuardianSetAddresses.foldl (·.pushKey newGuardianSet.keys) {}
  return { s with
    wormholeGuardianSetIndex
    wormholeGuardianSets :=
      Function.update s.wormholeGuardianSets wormholeGuardianSetIndex (some newGuardianSet)
    wormholeGovernanceDataSource
    isValidDataSource
    chainId }

/-- The current set expires in a day, if it is stored. -/
def Storage.expireCurrent (s : Storage) (timestamp : BitVec 64) : WormholeResult Storage :=
  match s.wormholeGuardianSets s.wormholeGuardianSetIndex with
  | none => return s
  | some currentGuardianSet => do
    let expirationTime ← checkedAdd timestamp GUARDIAN_SET_EXPIRATION_TIME_SECONDS
    return { s with
      wormholeGuardianSets := Function.update s.wormholeGuardianSets s.wormholeGuardianSetIndex
        (some { currentGuardianSet with expirationTime }) }

def submitNewGuardianSet (P : WormholeHost) (timestamp : BitVec 64) (encodedVm : Bytes)
    (s : Storage) : WormholeResult Storage := do
  let vm ← parseAndVerifyWormholeVm P s timestamp s.wormholeGuardianSetIndex encodedVm
  require (vm.guardianSetIndex = s.wormholeGuardianSetIndex) .notSignedByCurrentGuardianSet
  let currentWormholeProvider := s.wormholeGovernanceDataSource
  require (vm.emitterChainId = currentWormholeProvider.chainId) .invalidGovernanceChain
  require (vm.emitterAddress = currentWormholeProvider.emitterAddress) .invalidGovernanceContract
  require (s.governanceActionIsConsumed vm.governanceActionHash = false)
    .governanceActionAlreadyConsumed
  let (upgrade, s) ← parseEncodedUpgrade s s.wormholeGuardianSetIndex vm.payload
  let s := { s with
    wormholeConsumedGovernanceActions :=
      Function.update s.wormholeConsumedGovernanceActions vm.governanceActionHash (some true) }
  let s ← s.expireCurrent timestamp
  return { s with
    wormholeGuardianSets := Function.update s.wormholeGuardianSets upgrade.newGuardianSetIndex
      (some upgrade.newGuardianSet)
    wormholeGuardianSetIndex := upgrade.newGuardianSetIndex }

end PythCrosschain.Fuel
