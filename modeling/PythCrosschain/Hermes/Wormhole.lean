import Mathlib.Data.Finset.Max
import PythCrosschain.Evm.Solidity
import PythCrosschain.PythnetSdk.WireV1

/-!
# Hermes: `wormhole.rs`

`process_message` in its three parts: up to the check of the observed sequence numbers
(`observe`), the verification of the VAA (`verify`), and `store_vaa` (`storeVaa`).
`serde_wormhole::from_slice`, Keccak-256 and the recovery of a public key are parameters.
-/

namespace PythCrosschain.Hermes

open PythnetSdk

/-! ## VAAs -/

/-- `wormhole_sdk::vaa::Signature`: the compact form and the recovery id. -/
structure VaaSignature where
  index : BitVec 8
  signature : HashArray 65
deriving DecidableEq

/-- `wormhole_sdk::Vaa<&RawMessage>`. -/
structure Vaa where
  version : BitVec 8
  guardianSetIndex : BitVec 32
  signatures : List VaaSignature
  timestamp : BitVec 32
  nonce : BitVec 32
  emitterChain : BitVec 16
  emitterAddress : Bytes32
  sequence : BitVec 64
  consistencyLevel : BitVec 8
  payload : Bytes
deriving DecidableEq

namespace VaaSignature

/-- `signature[..64]`. -/
def compact (s : VaaSignature) : Bytes := s.signature.val.take 64

/-- `signature[64]`. -/
def recoveryId (s : VaaSignature) : BitVec 8 := BitVec.ofNat 8 (natBE (s.signature.val.drop 64))

def serialize (s : VaaSignature) : Bytes := packed 1 s.index ++ s.signature.val

end VaaSignature

namespace Vaa

/-- The serialised `Body`. -/
def body (vaa : Vaa) : Bytes :=
  packed 4 vaa.timestamp ++ packed 4 vaa.nonce ++ packed 2 vaa.emitterChain
    ++ packed 32 vaa.emitterAddress ++ packed 8 vaa.sequence ++ packed 1 vaa.consistencyLevel
    ++ vaa.payload

def serialize (vaa : Vaa) : Bytes :=
  packed 1 vaa.version ++ packed 4 vaa.guardianSetIndex ++ bytesBE 1 vaa.signatures.length
    ++ vaa.signatures.flatMap VaaSignature.serialize ++ vaa.body

end Vaa

/-! ## State -/

/-- What is not in the repository. `recoverEcdsa` takes the digest, the compact form and the
recovery id of a signature, and gives the uncompressed public key. -/
structure WormholeParams where
  fromSlice : Bytes → Option Vaa
  keccak256 : Bytes → Bytes32
  recoverEcdsa : Bytes32 → Bytes → BitVec 8 → Option (HashArray 65)

/-- The length of a `Vec` fits in `usize`. -/
structure GuardianSet where
  keys : List (BitVec 160)
  length_lt : keys.length < 2 ^ 64

def OBSERVED_CACHE_SIZE : ℕ := 1000

structure WormholeState where
  observedVaaSeqs : Finset ℕ := ∅
  guardianSet : BitVec 32 → Option GuardianSet := fun _ => none

inductive WormholeError where
  | deserialize
  | wormholeMessage
  | previouslyObserved (sequence : BitVec 64)
  | nonPythnetChain
  | nonPythnetEmitter (emitterAddress : Bytes32)
  | unknownGuardianSet (guardianSetIndex : BitVec 32)
  | signerIdOutOfRange (signerId guardianSetSize : ℕ)
  | notSorted (lastSignerId : Option ℕ) (signerId : ℕ)
  | invalidRecoveryId
  | recovery
  | notEnoughSignatures (quorum signatures : ℕ)
deriving DecidableEq, Repr

def ensure (p : Prop) [Decidable p] (e : WormholeError) : Except WormholeError Unit :=
  if p then .ok () else .error e

/-- `Chain::Pythnet`. -/
def CHAIN_PYTHNET : BitVec 16 := 26

def ACCUMULATOR_EMITTER_ADDRESS : Bytes32 :=
  0xe101faedac5851e32b9b23b5f9411a8c2bac4aae3ed4dd7b811dd1a72ea4aa71

/-! ## Verification -/

def validateVaaSource (vaa : Vaa) : Except WormholeError Unit := do
  ensure (vaa.emitterChain = CHAIN_PYTHNET) .nonPythnetChain
  ensure (vaa.emitterAddress = ACCUMULATOR_EMITTER_ADDRESS) (.nonPythnetEmitter vaa.emitterAddress)

namespace WormholeParams

variable (P : WormholeParams)

/-- `secp256k_hash` of the digest of the body. -/
def secp256kHash (vaa : Vaa) : Bytes32 := P.keccak256 (wordBytes (P.keccak256 vaa.body))

/-- The last 20 bytes of the hash of a public key. -/
def address (pubkey : HashArray 65) : BitVec 160 :=
  (P.keccak256 (pubkey.val.drop 1)).setWidth 160

/-- The address that made a signature. -/
def signer (digest : Bytes32) (signature : VaaSignature) : Except WormholeError (BitVec 160) := do
  ensure (signature.recoveryId.toNat < 4) .invalidRecoveryId
  match P.recoverEcdsa digest signature.compact signature.recoveryId with
  | none => .error .recovery
  | some pubkey => .ok (P.address pubkey)

/-- The loop over the signatures, with the ones that were collected. -/
def collectSignatures (guardianSet : GuardianSet) (quorum : ℕ) (digest : Bytes32) :
    Option ℕ → List VaaSignature → List VaaSignature → Except WormholeError (List VaaSignature)
  | _, signatures, [] => .ok signatures
  | lastSignerId, signatures, signature :: rest =>
    if signatures.length ≥ quorum then .ok signatures
    else do
      let signerId := signature.index.toNat
      ensure (¬signerId ≥ guardianSet.keys.length)
        (.signerIdOutOfRange signerId guardianSet.keys.length)
      ensure (¬∃ v ∈ lastSignerId, v ≥ signerId) (.notSorted lastSignerId signerId)
      let address ← P.signer digest signature
      collectSignatures guardianSet quorum digest (some signerId)
        (if guardianSet.keys[signerId]? = some address then signatures ++ [signature]
          else signatures) rest

def verifyVaa (guardianSet : GuardianSet) (vaa : Vaa) : Except WormholeError Vaa := do
  let quorum := guardianSet.keys.length * 2 / 3 + 1
  let signatures ← P.collectSignatures guardianSet quorum (P.secp256kHash vaa) none []
    vaa.signatures
  ensure (¬signatures.length < quorum) (.notEnoughSignatures quorum signatures.length)
  return { vaa with signatures }

/-! ## `process_message` -/

/-- Up to the check of the observed sequence numbers. -/
def observe (state : WormholeState) (vaaBytes : Bytes) : Except WormholeError Vaa :=
  match P.fromSlice vaaBytes with
  | none => .error .deserialize
  | some vaa =>
    match WormholeMessage.tryFromBytes vaa.payload with
    | .error _ => .error .wormholeMessage
    | .ok _ => do
      ensure (vaa.sequence.toNat ∉ state.observedVaaSeqs) (.previouslyObserved vaa.sequence)
      return vaa

/-- The checks of the source and of the signatures. -/
def verify (state : WormholeState) (vaa : Vaa) : Except WormholeError Vaa := do
  validateVaaSource vaa
  match state.guardianSet vaa.guardianSetIndex with
  | none => .error (.unknownGuardianSet vaa.guardianSetIndex)
  | some guardianSet => P.verifyVaa guardianSet vaa

end WormholeParams

/-- `pop_first`. -/
def popFirst (seqs : Finset ℕ) : Finset ℕ :=
  if h : seqs.Nonempty then seqs.erase (seqs.min' h) else seqs

/-- `while observed_vaa_seqs.len() > OBSERVED_CACHE_SIZE`, for `n` rounds at most. -/
def clearOld : ℕ → Finset ℕ → Finset ℕ
  | 0, seqs => seqs
  | n + 1, seqs => if OBSERVED_CACHE_SIZE < seqs.card then clearOld n (popFirst seqs) else seqs

/-- `store_vaa`: the state, and the VAA that is handed to the aggregate store. -/
def storeVaa (state : WormholeState) (sequence : BitVec 64) (vaaBytes : Bytes) :
    WormholeState × Option Bytes :=
  if sequence.toNat ∈ state.observedVaaSeqs then (state, none)
  else ({ state with observedVaaSeqs := clearOld state.observedVaaSeqs.card state.observedVaaSeqs },
    some vaaBytes)

/-- `process_message`, when nothing else runs in between. -/
def WormholeParams.processMessage (P : WormholeParams) (state : WormholeState) (vaaBytes : Bytes) :
    Except WormholeError (WormholeState × Option Bytes) := do
  let vaa ← P.observe state vaaBytes
  let vaa ← P.verify state vaa
  return storeVaa state vaa.sequence vaaBytes

/-- `update_guardian_set`. -/
def updateGuardianSet (state : WormholeState) (id : BitVec 32) (guardianSet : GuardianSet) :
    WormholeState :=
  { state with guardianSet := Function.update state.guardianSet id (some guardianSet) }

end PythCrosschain.Hermes
