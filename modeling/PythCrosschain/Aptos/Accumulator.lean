import PythCrosschain.Aptos.PriceFeeds

/-!
# Aptos: what is read of an accumulator update

The siblings of a proof are collected before they are hashed, and two siblings are compared byte
by byte. An update is read as by the grammar of the EVM contract (`reads_accumulatorMessage`).
-/

namespace PythCrosschain.Aptos

open MovePackages
open Decoder (ReadsAs)
open PythnetSdk (HashArray Keccak160)
open Pyth (siblingDigest)

/-! ## The Merkle proof -/

theorem isSmaller_iff {as bs : Bytes} (h : as.length = bs.length) :
    Keccak160.isSmaller as bs = true ↔ as < bs := by
  induction as generalizing bs with
  | nil =>
    obtain rfl := List.length_eq_zero_iff.mp h.symm
    exact iff_of_false nofun (List.not_lt_nil _)
  | cons a as ih =>
    cases bs with
    | nil => cases h
    | cons b bs =>
      have hlength : as.length = bs.length := Nat.succ.inj h
      rw [List.cons_lt_cons_iff, Keccak160.isSmaller]
      by_cases hne : a ≠ b
      · rw [if_pos hne, decide_eq_true_iff]
        exact ⟨.inl, fun h' => h'.resolve_right fun h'' => hne h''.1⟩
      · rw [if_neg hne, ih hlength]
        have heq : a = b := not_not.mp hne
        subst heq
        exact ⟨fun h' => .inr ⟨rfl, h'⟩, fun h' => (h'.resolve_left (UInt8.lt_irrefl _)).2⟩

variable {keccak256 : Bytes → BitVec 256}

theorem siblingDigest_hashLeaf (leaf : Bytes) :
    siblingDigest (Merkle.hashLeaf keccak256 leaf) = Pyth.MerkleTree.leafHash keccak256 leaf := by
  have hleaf : Merkle.hashLeaf keccak256 leaf = Sui.MerkleTree.leafHash keccak256 leaf := rfl
  rw [hleaf, Sui.MerkleTree.leafHash_eq, Pyth.siblingDigest_hashLeaf]

theorem siblingDigest_hashNode (a b : HashArray 20) :
    siblingDigest (Merkle.hashNode keccak256 a b)
      = Pyth.MerkleTree.nodeHash keccak256 (siblingDigest a) (siblingDigest b) := by
  have hsmaller := isSmaller_iff (b.property.trans a.property.symm)
  have hnode : Merkle.hashNode keccak256 a b = Sui.MerkleTree.nodeHash keccak256 a b := by
    have hgreater := Sui.MerkleTree.greaterThan_iff (a.property.trans b.property.symm)
    rw [List.not_le] at hgreater
    unfold Merkle.hashNode Sui.MerkleTree.nodeHash
    by_cases hlt : b.val < a.val
    · rw [if_pos (hsmaller.mpr hlt), if_pos (hgreater.mpr hlt)]
      rfl
    · rw [if_neg (mt hsmaller.mp hlt), if_neg (mt hgreater.mp hlt)]
      rfl
  rw [hnode, Sui.MerkleTree.nodeHash_eq, Pyth.siblingDigest_hashNode]

theorem reads_path (n : ℕ) (digest : HashArray 20) :
    ReadsAs (fun path v => siblingDigest (path.foldl (Merkle.hashNode keccak256) digest) = v)
      (Decoder.elements Sui.MerkleTree.takeBytes20 n)
      (Pyth.Strict.climb keccak256 (siblingDigest digest) n) := by
  induction n generalizing digest with
  | zero => exact .ret rfl
  | succ n ih =>
    refine reads_bytes20.bind fun sibling word hword => ?_
    rw [← hword, ← siblingDigest_hashNode]
    exact (ih _).last fun path v hpath => .ret hpath

/-! ## Updates -/

variable {env : Env}

theorem reads_takeUpdate {root : BitVec 160} {merkleRoot : HashArray 20}
    (hroot : siblingDigest merkleRoot = root) :
    ReadsAs (fun info r => SameInfo info (r.2.1, r.1)) (takeUpdate env merkleRoot)
      (Pyth.Strict.update env.keccak256 root) := by
  rw [strictUpdate_eq]
  unfold takeUpdate Pyth.Strict.proof
  simp only [bind_assoc, pure_bind]
  refine (reads_word 16 2).bind fun messageSize size hsize => ?_
  rw [← hsize]
  refine (reads_vector _).bind fun message message' hmessage => ?_
  subst hmessage
  have hparse : Agree (fun info r => SameInfo info (r.2.1, r.1))
      (parseAccumulatorUpdateMessage errors codes env.now message)
      (Pyth.Strict.message.parsePrefix message) :=
    (reads_updateMessage env.now).dropRest message
  refine (ReadsAs.lift hparse).bind fun info r hinfo => ?_
  refine reads_u8.bind fun pathSize proofSize hsize => ?_
  have hcount : proofSize.toNat = pathSize.toNat := by
    rw [← hsize]
    rfl
  rw [hcount, ← siblingDigest_hashLeaf]
  refine (reads_path _ _).bind fun path digest hpath => ?_
  have hcheck : Merkle.check env.keccak256 path merkleRoot message = true
      ↔ decide (digest = root) = true := by
    rw [Merkle.check, decide_eq_true_iff, decide_eq_true_iff, ← hpath, ← hroot,
      Pyth.siblingDigest_injective.eq_iff]
  refine (reads_assert hcheck).bind fun _ _ _ => ?_
  exact .ret hinfo

theorem reads_updates {root : BitVec 160} {merkleRoot : HashArray 20}
    (hroot : siblingDigest merkleRoot = root) (n : ℕ) :
    ReadsAs (fun infos updates => List.Forall₂ SameInfo infos updates ∧ infos.length = n)
      (Decoder.elements (takeUpdate env merkleRoot) n)
      (Pyth.Strict.updates env.keccak256 root n) := by
  induction n with
  | zero => exact .ret ⟨.nil, rfl⟩
  | succ n ih =>
    refine (reads_takeUpdate hroot).bind fun info r hinfo => ?_
    exact ih.bind fun infos updates hinfos =>
      .ret ⟨.cons hinfo hinfos.1, congrArg Nat.succ hinfos.2⟩

/-- The verified VAA of an update, which comes from a data source. -/
def acceptVaa (env : Env) (s : State) (vaa : Bytes) : Move.Result VAA := do
  let msgVaa ← env.parseAndVerify vaa
  verifyDataSource s msgVaa
  return msgVaa

/-- What follows the magic number, where the two contracts accept the same VAAs. -/
theorem reads_accumulatorMessage {s : State} {P : Bytes → Pyth.Result Pyth.VM}
    (haccept : ∀ vaa, Agree (fun a b => a.payload = b.payload) (acceptVaa env s vaa)
      (P vaa).toOption) :
    ReadsAs (fun infos r => List.Forall₂ SameInfo infos r.2 ∧ r.1.toNat = infos.length)
      (parseAndVerifyAccumulatorMessage env s) (afterMagic env.keccak256 P) := by
  have hmessage : parseAndVerifyAccumulatorMessage env s = (do
      let major ← deserializeU8
      Move.assert (major = 1) Error.invalidAccumulatorPayload
      let _minor ← deserializeU8
      let trailingSize ← deserializeU8
      let _ ← deserializeVector trailingSize.toNat
      let proofType ← deserializeU8
      Move.assert (proofType = 0) Error.invalidAccumulatorPayload
      let vaaSize ← deserializeU16
      let vaa ← deserializeVector vaaSize.toNat
      let msgVaa ← liftM (acceptVaa env s vaa)
      let merkleRootHash ← liftM (parseAccumulatorMerkleRootFromVaaPayload codes msgVaa.payload)
      parseAndVerifyAccumulatorUpdates env merkleRootHash) := by
    simp only [parseAndVerifyAccumulatorMessage, acceptVaa, liftM_bind, bind_assoc, liftM_pure,
      pure_bind]
  rw [hmessage]
  unfold afterMagic Pyth.Strict.wormholeMerkleUpdates Pyth.Strict.wormholeMerkle
  simp only [bind_assoc, pure_bind]
  refine reads_u8.bind fun major major' hmajor => ?_
  refine (reads_assert (by rw [← hmajor]; exact UInt8.toBitVec_inj.symm)).bind fun _ _ _ => ?_
  refine reads_u8.bind fun minor minor' hminor => ?_
  have hall : minor' ≥ Pyth.MINIMUM_ALLOWED_MINOR_VERSION := Nat.zero_le minor'.toNat
  rw [assert_guard_bind hall]
  refine reads_u8.bind fun trailing trailing' htrailing => ?_
  rw [← htrailing]
  refine (reads_skipVector _).bind fun _ _ _ => ?_
  refine reads_u8.bind fun proofType updateType htype => ?_
  refine (reads_tag (fun _ => rfl) htype).bind fun _ updateType _ => ?_
  rw [assert_guard_bind trivial]
  refine (reads_word 16 2).bind fun vaaSize size hsize => ?_
  rw [← hsize]
  refine (reads_vector _).bind fun vaa encodedVm hvaa => ?_
  rw [← hvaa]
  refine (ReadsAs.lift (haccept vaa)).bind fun msgVaa vm hpayload => ?_
  have hroot : Agree (fun a v => siblingDigest a = v)
      (parseAccumulatorMerkleRootFromVaaPayload codes msgVaa.payload)
      (Pyth.Strict.payload.parsePrefix vm.payload) := by
    rw [hpayload]
    exact reads_merkleRoot.dropRest vm.payload
  refine (ReadsAs.lift hroot).bind fun merkleRoot root hdigest => ?_
  refine reads_u8.bind fun updateSize numUpdates hcount => ?_
  have hn : numUpdates.toNat = updateSize.toNat := by
    rw [← hcount]
    rfl
  rw [hn]
  exact (reads_updates hdigest _).parsePure fun infos updates hinfos =>
    ⟨hinfos.1, hn.trans hinfos.2.symm⟩

end PythCrosschain.Aptos
