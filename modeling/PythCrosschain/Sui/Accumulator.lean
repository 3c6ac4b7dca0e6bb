import PythCrosschain.MovePackages.Accumulator

/-!
# Sui: `pyth_accumulator.move`

Accumulator updates on Sui, where the VAA is verified before and passed in. They are read as by
the grammar of the EVM contract (`reads_accumulatorMessage`).
-/

namespace PythCrosschain.Sui

open Move MovePackages
open Decoder (ReadsAs)

/-- The codes of `i64`, `price_status` and `batch_price_attestation`. -/
def errors : Errors where
  magnitudeTooLarge := 0
  invalidPriceStatus := 0
  invalidAttestationMagicValue := 0
  invalidBatchAttestationHeaderSize := 1

namespace Accumulator

def E_INVALID_UPDATE_DATA : ℕ := 245
def E_INVALID_PROOF : ℕ := 345
def E_INVALID_WORMHOLE_MESSAGE : ℕ := 454
def E_INVALID_ACCUMULATOR_PAYLOAD : ℕ := 554
def E_INVALID_ACCUMULATOR_HEADER : ℕ := 657

def codes : AccumulatorErrors where
  invalidAccumulatorPayload := E_INVALID_ACCUMULATOR_PAYLOAD
  invalidAccumulatorMessage := E_INVALID_UPDATE_DATA
  invalidWormholeMessage := E_INVALID_WORMHOLE_MESSAGE
  invalidProof := E_INVALID_PROOF

def MINIMUM_SUPPORTED_MINOR_VERSION : UInt8 := 0
def MAJOR_VERSION : UInt8 := 1

section

variable (keccak256 : Bytes → BitVec 256)

/-- A round of the loop of `parse_and_verify_accumulator_updates`. -/
def takeUpdate (merkleRoot : MerkleTree.Bytes20) (now : U64) : Cursor PriceInfo := do
  let messageSize ← deserializeU16
  let message ← deserializeVector messageSize.toNat
  let priceInfo ← liftM (parseAccumulatorUpdateMessage errors codes now message)
  let valid ← MerkleTree.isProofValid keccak256 merkleRoot message
  assert (valid = true) E_INVALID_PROOF
  return priceInfo

def parseAndVerifyAccumulatorUpdates (merkleRoot : MerkleTree.Bytes20) (now : U64) :
    Cursor (List PriceInfo) := do
  let updateSize ← deserializeU8
  Decoder.elements (takeUpdate keccak256 merkleRoot now) updateSize.toNat

def parseAndVerifyAccumulatorMessage (vaaPayload : Bytes) (now : U64) :
    Cursor (List PriceInfo) := do
  let header ← deserializeU32
  assert (header = PYTHNET_ACCUMULATOR_UPDATE_MAGIC) E_INVALID_ACCUMULATOR_HEADER
  let major ← deserializeU8
  assert (major = MAJOR_VERSION) E_INVALID_ACCUMULATOR_PAYLOAD
  let minor ← deserializeU8
  assert (minor ≥ MINIMUM_SUPPORTED_MINOR_VERSION) E_INVALID_ACCUMULATOR_PAYLOAD
  let trailingSize ← deserializeU8
  let _ ← deserializeVector trailingSize.toNat
  let proofType ← deserializeU8
  assert (proofType = 0) E_INVALID_ACCUMULATOR_PAYLOAD
  -- the VAA in the message is ignored
  let vaaSize ← deserializeU16
  let _ ← deserializeVector vaaSize.toNat
  let merkleRootHash ← liftM (parseAccumulatorMerkleRootFromVaaPayload codes vaaPayload)
  parseAndVerifyAccumulatorUpdates keccak256 merkleRootHash now

end

/-! ## What is read -/

variable {keccak256 : Bytes → BitVec 256}

open Pyth (siblingDigest)

theorem nodeHash_siblingDigest (a b : MerkleTree.Bytes20) :
    siblingDigest (MerkleTree.nodeHash keccak256 a b)
      = Pyth.MerkleTree.nodeHash keccak256 (siblingDigest a) (siblingDigest b) := by
  rw [MerkleTree.nodeHash_eq, Pyth.siblingDigest_hashNode]

theorem reads_climb (n : ℕ) (digest : MerkleTree.Bytes20) :
    ReadsAs (fun a v => siblingDigest a = v) (MerkleTree.climb keccak256 n digest)
      (Pyth.Strict.climb keccak256 (siblingDigest digest) n) := by
  induction n generalizing digest with
  | zero => exact .ret rfl
  | succ n ih =>
    show ReadsAs _ (MerkleTree.takeBytes20 >>= fun sibling =>
      (MerkleTree.climb keccak256 n (MerkleTree.nodeHash keccak256 digest sibling) : Cursor _)) _
    refine reads_bytes20.bind fun sibling word hword => ?_
    rw [← hword, ← nodeHash_siblingDigest]
    exact ih _

theorem reads_proof {root leaf : BitVec 160} {merkleRoot : MerkleTree.Bytes20} {message : Bytes}
    (hroot : siblingDigest merkleRoot = root)
    (hleaf : siblingDigest (MerkleTree.leafHash keccak256 message) = leaf) :
    ReadsAs Eq (MerkleTree.isProofValid keccak256 merkleRoot message : Cursor Bool)
      (Pyth.Strict.proof keccak256 root leaf) := by
  show ReadsAs Eq (deserializeU8 >>= fun size =>
    (MerkleTree.climb keccak256 size.toNat (MerkleTree.leafHash keccak256 message) : Cursor _)
      >>= fun digest => pure (decide (digest.val = merkleRoot.val))) _
  refine reads_u8.bind fun size size' hsize => ?_
  have hcount : size'.toNat = size.toNat := by
    rw [← hsize]
    rfl
  rw [hcount, ← hleaf]
  refine (reads_climb _ _).bind fun digest digest' hdigest => .ret ?_
  rw [← hdigest, ← hroot]
  refine decide_eq_decide.mpr ?_
  rw [Pyth.siblingDigest_injective.eq_iff, Subtype.val_inj]

theorem reads_takeUpdate {root : BitVec 160} {merkleRoot : MerkleTree.Bytes20}
    (hroot : siblingDigest merkleRoot = root) (now : U64) :
    ReadsAs (fun info r => SameInfo info (r.2.1, r.1)) (takeUpdate keccak256 merkleRoot now)
      (Pyth.Strict.update keccak256 root) := by
  have hleaf (message : Bytes) : siblingDigest (MerkleTree.leafHash keccak256 message)
      = Pyth.MerkleTree.leafHash keccak256 message := by
    rw [MerkleTree.leafHash_eq, Pyth.siblingDigest_hashLeaf]
  rw [strictUpdate_eq]
  unfold takeUpdate
  refine (reads_word 16 2).bind fun messageSize size hsize => ?_
  rw [← hsize]
  refine (reads_vector _).bind fun message message' hmessage => ?_
  subst hmessage
  have hparse : Agree (fun info r => SameInfo info (r.2.1, r.1))
      (parseAccumulatorUpdateMessage errors codes now message)
      (Pyth.Strict.message.parsePrefix message) :=
    (reads_updateMessage now).dropRest message
  refine (ReadsAs.lift hparse).bind fun info r hinfo => ?_
  refine (reads_proof hroot (hleaf message)).bind fun valid valid' hvalid => ?_
  refine (reads_assert (by rw [hvalid])).bind fun _ _ _ => ?_
  exact .ret hinfo

theorem reads_updates {root : BitVec 160} {merkleRoot : MerkleTree.Bytes20}
    (hroot : siblingDigest merkleRoot = root) (now : U64) (n : ℕ) :
    ReadsAs (fun infos updates => List.Forall₂ SameInfo infos updates ∧ infos.length = n)
      (Decoder.elements (takeUpdate keccak256 merkleRoot now) n)
      (Pyth.Strict.updates keccak256 root n) := by
  induction n with
  | zero => exact .ret ⟨.nil, rfl⟩
  | succ n ih =>
    refine (reads_takeUpdate hroot now).bind fun info r hinfo => ?_
    exact ih.bind fun infos updates hinfos =>
      .ret ⟨.cons hinfo hinfos.1, congrArg Nat.succ hinfos.2⟩

/-- Everything behind the header. -/
theorem reads_body {vm : Pyth.VM} {vaaPayload : Bytes} (hpayload : vaaPayload = vm.payload)
    (now : U64) :
    ReadsAs (fun infos r => List.Forall₂ SameInfo infos r.2 ∧ r.1.toNat = infos.length) (do
        let vaaSize ← deserializeU16
        let _ ← deserializeVector vaaSize.toNat
        let merkleRootHash ← liftM (parseAccumulatorMerkleRootFromVaaPayload codes vaaPayload)
        parseAndVerifyAccumulatorUpdates keccak256 merkleRootHash now)
      (Pyth.Strict.wormholeMerkleUpdates keccak256 fun _ => .ok vm) := by
  subst hpayload
  unfold Pyth.Strict.wormholeMerkleUpdates Pyth.Strict.wormholeMerkle
  simp only [bind_assoc, pure_bind]
  refine (reads_word 16 2).bind fun vaaSize size hsize => ?_
  rw [← hsize]
  refine (reads_vector _).bind fun _ encodedVm _ => ?_
  rw [Except.toOption, Parser.assert_some_bind]
  have hroot : Agree (fun a v => siblingDigest a = v)
      (parseAccumulatorMerkleRootFromVaaPayload codes vm.payload)
      (Pyth.Strict.payload.parsePrefix vm.payload) :=
    reads_merkleRoot.dropRest vm.payload
  refine (ReadsAs.lift hroot).bind fun merkleRoot root hdigest => ?_
  refine reads_u8.bind fun updateSize numUpdates hcount => ?_
  have hn : numUpdates.toNat = updateSize.toNat := by
    rw [← hcount]
    rfl
  rw [hn]
  exact (reads_updates hdigest now _).parsePure fun infos updates hinfos =>
    ⟨hinfos.1, hn.trans hinfos.2.symm⟩

/-- The VAA of the grammar is the one that is passed in. -/
theorem reads_accumulatorMessage {vm : Pyth.VM} {vaaPayload : Bytes}
    (hpayload : vaaPayload = vm.payload) (now : U64) :
    ReadsAs (fun infos r => List.Forall₂ SameInfo infos r.2 ∧ r.1.toNat = infos.length)
      (parseAndVerifyAccumulatorMessage keccak256 vaaPayload now)
      (Pyth.Strict.accumulatorUpdate keccak256 fun _ => .ok vm) := by
  rw [accumulatorUpdate_eq]
  unfold parseAndVerifyAccumulatorMessage afterMagic
  refine (reads_word 32 4).bind fun header magic hmagic => ?_
  refine (reads_assert (by rw [hmagic]; exact Iff.rfl)).bind fun _ _ _ => ?_
  refine reads_u8.bind fun major major' hmajor => ?_
  refine (reads_assert (by rw [← hmajor]; exact UInt8.toBitVec_inj.symm)).bind fun _ _ _ => ?_
  refine reads_u8.bind fun minor minor' hminor => ?_
  refine (reads_assert (by rw [← hminor]; exact Iff.rfl)).bind fun _ _ _ => ?_
  refine reads_u8.bind fun trailing trailing' htrailing => ?_
  rw [← htrailing]
  refine (reads_skipVector _).bind fun _ _ _ => ?_
  refine reads_u8.bind fun proofType updateType htype => ?_
  refine (reads_tag (fun _ => rfl) htype).bind fun _ updateType hfirst => ?_
  rw [assert_guard_bind hfirst]
  exact reads_body hpayload now

end Accumulator

end PythCrosschain.Sui
