import PythCrosschain.Ton.Utils

/-!
# TON: `Wormhole.fc`

Verification of VAAs and the replacement of the guardian set. `keccak256` and `check_sig` are
parameters; `now` is the time of the block. What changes the storage returns the new one, and
an exception undoes the message.
-/

namespace PythCrosschain.Ton

open Tvm

abbrev Address := BitVec 160

/-- A guardian set. The dictionary has the keys under 8-bit indices from 0 on. -/
structure GuardianSet where
  expirationTime : BitVec 64
  keys : List Address
  length_keys : keys.length ≤ 256
deriving DecidableEq

/-- The part of the storage that belongs to Wormhole. -/
structure WormholeStorage where
  currentGuardianSetIndex : BitVec 32
  guardianSets : BitVec 32 → Option GuardianSet
  chainId : BitVec 16
  governanceChainId : BitVec 16
  governanceContract : Bytes32
  consumedGovernanceActions : Bytes32 → Bool

/-- The values that `parse_and_verify_wormhole_vm` returns. -/
structure VM where
  version : BitVec 8
  vmGuardianSetIndex : BitVec 32
  timestamp : BitVec 32
  nonce : BitVec 32
  emitterChainId : BitVec 16
  emitterAddress : Bytes32
  sequence : BitVec 64
  consistencyLevel : BitVec 8
  payload : Slice
  hash : Bytes32

def ERROR_INVALID_GUARDIAN_SET : ℕ := 1000
def ERROR_INVALID_VERSION : ℕ := 1001
def ERROR_GUARDIAN_SET_NOT_FOUND : ℕ := 1002
def ERROR_INVALID_SIGNATURES : ℕ := 1004
def ERROR_GOVERNANCE_ACTION_ALREADY_CONSUMED : ℕ := 1006
def ERROR_INVALID_GUARDIAN_SET_KEYS_LENGTH : ℕ := 1007
def ERROR_NO_QUORUM : ℕ := 1010
def ERROR_INVALID_MODULE : ℕ := 1011
def ERROR_INVALID_GOVERNANCE_ACTION : ℕ := 1012
def ERROR_NEW_GUARDIAN_SET_INDEX_IS_INVALID : ℕ := 1013
def ERROR_GUARDIAN_SET_KEYS_LENGTH_NOT_EQUAL : ℕ := 1014
def ERROR_INVALID_GUARDIAN_SET_UPGRADE_LENGTH : ℕ := 1015
def ERROR_INVALID_GOVERNANCE_CHAIN : ℕ := 1016
def ERROR_INVALID_GOVERNANCE_CONTRACT : ℕ := 1017
def ERROR_INVALID_GUARDIAN_ADDRESS : ℕ := 1018
def ERROR_SIGNATURE_INDEX_NOT_INCREASING : ℕ := 1019

def WORMHOLE_VM_VERSION : BitVec 8 := 1
def GUARDIAN_SET_EXPIRY : ℕ := 86400
def UPGRADE_MODULE : Bytes32 := 0x436f7265
def GUARDIAN_SET_UPGRADE_ACTION : BitVec 8 := 2

/-- A value that is there, or the exception of what reads `null`. -/
def orTypeCheck {α : Type} : Option α → Result α
  | some a => .ok a
  | none => .error .typeCheck

/-- `get_guardian_set_internal`. -/
def getGuardianSetInternal (s : WormholeStorage) (index : BitVec 32) : Result GuardianSet :=
  match s.guardianSets index with
  | some set => .ok set
  | none => .error (.code ERROR_GUARDIAN_SET_NOT_FOUND)

/-- The number of valid signatures that a set of this size needs. -/
def quorumOf (guardianSetSize : ℕ) : ℕ := guardianSetSize * 10 / 3 * 2 / 10 + 1

section

variable (keccak256 : Bytes → Bytes32)
  (checkSig : Bytes32 → BitVec 8 → Bytes32 → Bytes32 → Option (Bytes32 × Bytes32))

/-- One iteration of the loop of `verify_signatures`: the guardian, and the other signatures. -/
def verifySignature (hash : Bytes32) (guardianSetKeys : List Address) (lastSignatureIndex : ℤ)
    (cs : Slice) : Result (BitVec 8 × Slice) := do
  let (sig, cs) ← gatherBits .cellUnderflow 528 cs.bits cs.refs
  let (guardianIndex, sigSlice) ← loadInt 8 ⟨sig, []⟩
  throwIf ERROR_SIGNATURE_INDEX_NOT_INCREASING ((guardianIndex.toNat : ℤ) ≤ lastSignatureIndex)
  let (r, sigSlice) ← loadInt 256 sigSlice
  let (s, sigSlice) ← loadInt 256 sigSlice
  let (v, _) ← loadInt 8 sigSlice
  let recovered := checkSig hash (if v.toNat ≥ 27 then v - 27 else v) r s
  throwUnless ERROR_INVALID_SIGNATURES (recovered.isSome = true)
  let (x1, x2) ← orTypeCheck recovered
  let guardianAddress ← orTypeCheck guardianSetKeys[guardianIndex.toNat]?
  throwUnless ERROR_INVALID_GUARDIAN_ADDRESS (pubkeyToEthAddress keccak256 x1 x2 = guardianAddress)
  return (guardianIndex, cs)

/-- The loop of `verify_signatures`, for `n` more signatures. -/
def verifySignaturesFrom (hash : Bytes32) (guardianSetKeys : List Address) :
    ℕ → ℤ → ℕ → Slice → Result ℕ
  | 0, _, validSignatures, _ => .ok validSignatures
  | n + 1, lastSignatureIndex, validSignatures, cs => do
    let (guardianIndex, cs) ← verifySignature keccak256 checkSig hash guardianSetKeys
      lastSignatureIndex cs
    verifySignaturesFrom hash guardianSetKeys n guardianIndex.toNat (validSignatures + 1) cs

def verifySignatures (hash : Bytes32) (signatures : Cell) (signersLength : ℕ)
    (guardianSetKeys : List Address) (guardianSetSize : ℕ) : Result Unit := do
  let cs ← beginParse signatures
  let validSignatures ← verifySignaturesFrom keccak256 checkSig hash guardianSetKeys signersLength
    (-1) 0 cs
  throwUnless ERROR_NO_QUORUM (validSignatures ≥ quorumOf guardianSetSize)

/-- The loop that adds up the bits of the body. -/
def bodyLength : Bits → Cell → ℕ
  | bits, [] => bits.length
  | bits, bits' :: refs => bits.length + bodyLength bits' refs

/-- The fields of the body, from the copy of it. -/
def parseBody (version : BitVec 8) (vmGuardianSetIndex : BitVec 32) (hash : Bytes32)
    (bodySlice : Slice) : Result VM := do
  let (timestamp, bodySlice) ← loadInt 32 bodySlice
  let (nonce, bodySlice) ← loadInt 32 bodySlice
  let (emitterChainId, bodySlice) ← loadInt 16 bodySlice
  let (emitterAddress, bodySlice) ← loadInt 256 bodySlice
  let (sequence, bodySlice) ← loadInt 64 bodySlice
  let (consistencyLevel, bodySlice) ← loadInt 8 bodySlice
  return { version, vmGuardianSetIndex, timestamp, nonce, emitterChainId, emitterAddress, sequence,
           consistencyLevel, payload := bodySlice, hash }

def parseAndVerifyWormholeVm (s : WormholeStorage) (now : BitVec 32) (inMsgBody : Slice) :
    Result VM := do
  let (version, inMsgBody) ← loadInt 8 inMsgBody
  throwUnless ERROR_INVALID_VERSION (version = WORMHOLE_VM_VERSION)
  let (vmGuardianSetIndex, inMsgBody) ← loadInt 32 inMsgBody
  let set ← getGuardianSetInternal s vmGuardianSetIndex
  throwIf ERROR_INVALID_GUARDIAN_SET_KEYS_LENGTH (set.keys = [])
  throwUnless ERROR_INVALID_GUARDIAN_SET
    (s.currentGuardianSetIndex.toNat ≥ vmGuardianSetIndex.toNat ∧
      (set.expirationTime = 0 ∨ set.expirationTime.toNat > now.toNat))
  let (signersLength, inMsgBody) ← loadInt 8 inMsgBody
  let signaturesSize := signersLength.toNat * 66 * 8
  let (signatures, remainingBody) := readAndStoreLargeData inMsgBody signaturesSize
  let bodyCell := (readAndStoreLargeData remainingBody
    (bodyLength remainingBody.bits remainingBody.refs)).1
  let bodySlice ← beginParse bodyCell
  let hash ← keccak256Slice keccak256 bodySlice
  let hash := keccak256Int keccak256 hash
  verifySignatures keccak256 checkSig hash signatures signersLength.toNat set.keys set.keys.length
  parseBody version vmGuardianSetIndex hash bodySlice

/-- The loop of `parse_encoded_upgrade`, for `n` more keys. -/
def parseKeys : ℕ → Slice → List Address → Result (List Address × Slice)
  | 0, payload, newGuardianSetKeys => .ok (newGuardianSetKeys, payload)
  | n + 1, payload, newGuardianSetKeys => do
    let (key, payload) ← gatherBits (.code ERROR_INVALID_GUARDIAN_SET_UPGRADE_LENGTH) 160
      payload.bits payload.refs
    parseKeys n payload (newGuardianSetKeys ++ [BitVec.ofNat 160 (natBits key)])

/-- The values that `parse_encoded_upgrade` returns. -/
structure Upgrade where
  action : BitVec 8
  chain : BitVec 16
  module : Bytes32
  newGuardianSetKeys : List Address
  newGuardianSetIndex : BitVec 32

def parseEncodedUpgrade (guardianSetIndex : BitVec 32) (payload : Slice) : Result Upgrade := do
  let (module, payload) ← loadInt 256 payload
  throwUnless ERROR_INVALID_MODULE (module = UPGRADE_MODULE)
  let (action, payload) ← loadInt 8 payload
  throwUnless ERROR_INVALID_GOVERNANCE_ACTION (action = GUARDIAN_SET_UPGRADE_ACTION)
  let (chain, payload) ← loadInt 16 payload
  let (newGuardianSetIndex, payload) ← loadInt 32 payload
  throwUnless ERROR_NEW_GUARDIAN_SET_INDEX_IS_INVALID
    (newGuardianSetIndex.toNat = guardianSetIndex.toNat + 1)
  let (guardianLength, payload) ← loadInt 8 payload
  throwUnless ERROR_INVALID_GUARDIAN_SET_KEYS_LENGTH (guardianLength.toNat > 0)
  let (newGuardianSetKeys, payload) ← parseKeys guardianLength.toNat payload []
  throwUnless ERROR_GUARDIAN_SET_KEYS_LENGTH_NOT_EQUAL
    (newGuardianSetKeys.length = guardianLength.toNat)
  throwUnless ERROR_INVALID_GUARDIAN_SET_UPGRADE_LENGTH payload.IsEmpty
  return { action, chain, module, newGuardianSetKeys, newGuardianSetIndex }

/-- The set with another expiration time. -/
def GuardianSet.expire (set : GuardianSet) (now : BitVec 32) : GuardianSet :=
  { set with expirationTime := BitVec.ofNat 64 (now.toNat + GUARDIAN_SET_EXPIRY) }

/-- What `update_guardian_set` writes. A dictionary has no more than 256 keys of 8 bits. -/
def WormholeStorage.rotate (s : WormholeStorage) (now : BitVec 32) (hash : Bytes32)
    (newGuardianSetKeys : List Address) (h : newGuardianSetKeys.length ≤ 256)
    (newGuardianSetIndex : BitVec 32) : WormholeStorage :=
  let guardianSets := match s.guardianSets s.currentGuardianSetIndex with
    | some set => Function.update s.guardianSets s.currentGuardianSetIndex (some (set.expire now))
    | none => s.guardianSets
  { s with
    guardianSets := Function.update guardianSets newGuardianSetIndex
      (some { expirationTime := 0, keys := newGuardianSetKeys, length_keys := h })
    currentGuardianSetIndex := newGuardianSetIndex
    consumedGovernanceActions := Function.update s.consumedGovernanceActions hash true }

def updateGuardianSet (s : WormholeStorage) (now : BitVec 32) (inMsgBody : Slice) :
    Result WormholeStorage := do
  let vm ← parseAndVerifyWormholeVm keccak256 checkSig s now inMsgBody
  throwUnless ERROR_INVALID_GOVERNANCE_CHAIN (vm.emitterChainId = s.governanceChainId)
  throwUnless ERROR_INVALID_GOVERNANCE_CONTRACT (vm.emitterAddress = s.governanceContract)
  throwIf ERROR_GOVERNANCE_ACTION_ALREADY_CONSUMED (s.consumedGovernanceActions vm.hash = true)
  let upgrade ← parseEncodedUpgrade s.currentGuardianSetIndex vm.payload
  if h : upgrade.newGuardianSetKeys.length ≤ 256 then
    return s.rotate now vm.hash upgrade.newGuardianSetKeys h upgrade.newGuardianSetIndex
  else .error .rangeCheck

end

end PythCrosschain.Ton
