import PythCrosschain.Evm.ByteArrays

/-!
# `ReceiverMessages`

Parsing and verification of VAAs by the Wormhole receiver: `parseAndVerifyVM`, which
reads the calldata without checks, and `parseVM` and `verifyVM`, which read a copy in
memory with `BytesLib`. `keccak256` and `ecrecover` are parameters.
-/

namespace PythCrosschain.WormholeReceiver

inductive ReceiverError where
  | vmVersionIncompatible
  | signatureIndexesNotAscending
deriving DecidableEq, Repr

abbrev Result (α : Type) := Exec ReceiverError α

/-- `ReceiverStructs.GuardianSet`. -/
structure GuardianSet where
  keys : List Address := []
  expirationTime : Uint32 := 0
deriving DecidableEq, Repr

/-- `ReceiverStructs.Signature`. -/
structure Signature where
  r : Bytes32
  s : Bytes32
  v : Uint8
  guardianIndex : Uint8
deriving DecidableEq, Repr

/-- `ReceiverStructs.VM`. -/
structure VM where
  version : Uint8 := 0
  timestamp : Uint32 := 0
  nonce : Uint32 := 0
  emitterChainId : Uint16 := 0
  emitterAddress : Bytes32 := 0
  sequence : Uint64 := 0
  consistencyLevel : Uint8 := 0
  payload : Bytes := []
  guardianSetIndex : Uint32 := 0
  signatures : List Signature := []
  hash : Bytes32 := 0
deriving DecidableEq, Repr

/-- The fields of `ReceiverStorage.WormholeState` that verification reads. -/
structure State where
  guardianSets : Uint32 → GuardianSet := fun _ => {}
  guardianSetIndex : Uint32 := 0

/-- The copy of a guardian set in memory, for which the compiler limits the length of
an array. -/
def State.getGuardianSet (st : State) (index : Uint32) : Result GuardianSet := do
  require ((st.guardianSets index).keys.length < 2 ^ 64) (.panic 0x41)
  return st.guardianSets index

def State.getCurrentGuardianSetIndex (st : State) : Uint32 := st.guardianSetIndex

/-- `guardianSet.keys[guardianIndex]`. -/
def GuardianSet.keyAt (guardianSet : GuardianSet) (guardianIndex : Uint8) : Result Address :=
  match guardianSet.keys[guardianIndex.toNat]? with
  | none => .error (.panic 0x32)
  | some key => .ok key

/-- `(((guardianSet.keys.length * 10) / 3) * 2) / 10 + 1` in checked arithmetic. -/
def checkedQuorum (keysLength : Uint256) : Result Uint256 := do
  let tenths ← checkedMul keysLength 10
  let twoThirds ← checkedMul (tenths / 3) 2
  checkedAdd (twoThirds / 10) 1

/-- The same in unchecked arithmetic. -/
def uncheckedQuorum (keysLength : Uint256) : Uint256 := keysLength * 10 / 3 * 2 / 10 + 1

section

variable (keccak256 : Bytes → Bytes32)
  (ecrecover : Bytes32 → Uint8 → Bytes32 → Bytes32 → Address)

/-- `keccak256(abi.encodePacked(keccak256(body)))`. -/
def bodyHash (body : Bytes) : Bytes32 := keccak256 (wordBytes (keccak256 body))

def verifySignature (i : Nat) (lastIndex : Uint8) (hash : Bytes32) (guardianIndex : Uint8)
    (r s : Bytes32) (v : Uint8) (guardianSetKey : Address) : Result (Bool × String) := do
  require (¬(i ≠ 0 ∧ guardianIndex ≤ lastIndex)) (.error .signatureIndexesNotAscending)
  if ecrecover hash v r s ≠ guardianSetKey then return (false, "VM signature invalid")
  return (true, "")

/-- The loop of `verifySignatures`, from signature `i` on. -/
def verifySignaturesFrom (hash : Bytes32) (guardianSet : GuardianSet) (i : Nat)
    (lastIndex : Uint8) : List Signature → Result (Bool × String)
  | [] => return (true, "")
  | sig :: signatures => do
    let key ← guardianSet.keyAt sig.guardianIndex
    let checked ← verifySignature ecrecover i lastIndex hash sig.guardianIndex sig.r sig.s sig.v key
    if ¬checked.1 then return (false, checked.2)
    verifySignaturesFrom hash guardianSet (i + 1) sig.guardianIndex signatures

def verifySignatures (hash : Bytes32) (signatures : List Signature) (guardianSet : GuardianSet) :
    Result (Bool × String) :=
  verifySignaturesFrom ecrecover hash guardianSet 0 0 signatures

def verifyVM (st : State) (timestamp : Uint256) (vm : VM) : Result (Bool × String) := do
  let guardianSet ← st.getGuardianSet vm.guardianSetIndex
  if guardianSet.keys.length = 0 then return (false, "invalid guardian set")
  if vm.guardianSetIndex ≠ st.getCurrentGuardianSetIndex ∧
      guardianSet.expirationTime.toNat < timestamp.toNat then
    return (false, "guardian set has expired")
  let quorum ← checkedQuorum (BitVec.ofNat 256 guardianSet.keys.length)
  if quorum.toNat > vm.signatures.length then return (false, "no quorum")
  let checked ← verifySignatures ecrecover vm.hash vm.signatures guardianSet
  if ¬checked.1 then return (false, checked.2)
  return (true, "")

section ParseVM

open BytesLib

/-- The loop of `parseVM`, for `signersLen` more signatures. -/
def parseSignatures (encodedVM : Bytes) (index : Nat) : Nat → Result (List Signature × Nat)
  | 0 => return ([], index)
  | signersLen + 1 => do
    let mut index := index
    let guardianIndex ← toUint8 encodedVM index
    index := index + 1
    let r ← toBytes32 encodedVM index
    index := index + 32
    let s ← toBytes32 encodedVM index
    index := index + 32
    let v ← checkedAdd (← toUint8 encodedVM index) 27
    index := index + 1
    let parsed ← parseSignatures encodedVM index signersLen
    return ({ r, s, v, guardianIndex } :: parsed.1, parsed.2)

def parseVM (encodedVM : Bytes) : Result VM := do
  let mut index := 0
  let version ← toUint8 encodedVM index
  index := index + 1
  require (version = 1) (.error .vmVersionIncompatible)
  let guardianSetIndex ← toUint32 encodedVM index
  index := index + 4
  let signersLen ← toUint8 encodedVM index
  index := index + 1
  let parsed ← parseSignatures encodedVM index signersLen.toNat
  let signatures := parsed.1
  index := parsed.2
  let body ← sliceToEnd encodedVM index
  let hash := bodyHash keccak256 body
  let timestamp ← toUint32 encodedVM index
  index := index + 4
  let nonce ← toUint32 encodedVM index
  index := index + 4
  let emitterChainId ← toUint16 encodedVM index
  index := index + 2
  let emitterAddress ← toBytes32 encodedVM index
  index := index + 32
  let sequence ← toUint64 encodedVM index
  index := index + 8
  let consistencyLevel ← toUint8 encodedVM index
  index := index + 1
  let payload ← sliceToEnd encodedVM index
  return { version, timestamp, nonce, emitterChainId, emitterAddress, sequence, consistencyLevel,
           payload, guardianSetIndex, signatures, hash }

end ParseVM

section ParseAndVerifyVM

open UnsafeCalldataBytesLib

variable (m : Machine)

/-- The loop of `parseAndVerifyVM`, for `signersLen` more signatures. -/
def parseAndVerifySignatures (encodedVM : CalldataBytes) (hash : Bytes32)
    (guardianSet : GuardianSet) (i : Nat) (lastIndex : Uint8) (index : Uint256) :
    Nat → Result (Bool × String × Uint256)
  | 0 => return (true, "", index)
  | signersLen + 1 => do
    let mut index := index
    let guardianIndex := toUint8 m encodedVM index
    index := index + 1
    let r := toBytes32 m encodedVM index
    index := index + 32
    let s := toBytes32 m encodedVM index
    index := index + 32
    let v := toUint8 m encodedVM index + 27
    index := index + 1
    let key ← guardianSet.keyAt guardianIndex
    let checked ← verifySignature ecrecover i lastIndex hash guardianIndex r s v key
    if ¬checked.1 then return (false, checked.2, index)
    parseAndVerifySignatures encodedVM hash guardianSet (i + 1) guardianIndex index signersLen

/-- The body of a VAA whose signatures are verified. -/
def parseBody (encodedVM : CalldataBytes) (vm : VM) (index : Uint256) :
    Result (VM × Bool × String) := do
  let mut vm := vm
  let mut index := index
  vm := { vm with signatures := [] }
  vm := { vm with timestamp := toUint32 m encodedVM index }
  index := index + 4
  vm := { vm with nonce := toUint32 m encodedVM index }
  index := index + 4
  vm := { vm with emitterChainId := toUint16 m encodedVM index }
  index := index + 2
  vm := { vm with emitterAddress := toBytes32 m encodedVM index }
  index := index + 32
  vm := { vm with sequence := toUint64 m encodedVM index }
  index := index + 8
  vm := { vm with consistencyLevel := toUint8 m encodedVM index }
  index := index + 1
  if index > encodedVM.length then return (vm, false, "invalid payload length")
  let payload ← sliceFrom m encodedVM index
  return ({ vm with payload := payload.bytes m }, true, "")

def parseAndVerifyVM (st : State) (timestamp : Uint256) (encodedVM : CalldataBytes) :
    Result (VM × Bool × String) := do
  let mut vm : VM := {}
  let mut index : Uint256 := 0
  vm := { vm with version := toUint8 m encodedVM index }
  index := index + 1
  require (vm.version = 1) (.error .vmVersionIncompatible)
  vm := { vm with guardianSetIndex := toUint32 m encodedVM index }
  index := index + 4
  let guardianSet ← st.getGuardianSet vm.guardianSetIndex
  if guardianSet.keys.length = 0 then return (vm, false, "invalid guardian set")
  if vm.guardianSetIndex ≠ st.getCurrentGuardianSetIndex ∧
      guardianSet.expirationTime.toNat < timestamp.toNat then
    return (vm, false, "guardian set has expired")
  let signersLen : Uint256 := (toUint8 m encodedVM index).setWidth 256
  index := index + 1
  let hashIndex := index + signersLen * 66
  if hashIndex ≥ encodedVM.length then return (vm, false, "invalid signature length")
  let body ← sliceFrom m encodedVM hashIndex
  vm := { vm with hash := bodyHash keccak256 (body.bytes m) }
  let checked ← parseAndVerifySignatures ecrecover m encodedVM vm.hash guardianSet 0 0 index
    signersLen.toNat
  if ¬checked.1 then return (vm, false, checked.2.1)
  index := checked.2.2
  if uncheckedQuorum (BitVec.ofNat 256 guardianSet.keys.length) > signersLen then
    return (vm, false, "no quorum")
  parseBody m encodedVM vm index

end ParseAndVerifyVM

end

end PythCrosschain.WormholeReceiver
