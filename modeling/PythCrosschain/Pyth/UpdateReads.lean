import PythCrosschain.Evm.ByteArrays
import PythCrosschain.PythnetSdk.Layout
import PythCrosschain.Pyth.StrictAccumulator

/-!
# What `PythAccumulator` reads of a serialized update

`Visits` says that the contract, on an array in the calldata, takes one VAA and a list
of messages with their proofs: each of its functions is, from the offset at which it is
called, the check of the next of them, and the loop ends at the length of the encoded
part. The result is `visits_of_layout`: it visits what the layout was made of.
-/

namespace PythCrosschain.Pyth

open PythnetSdk

/-! ## Checks of a message that lies in the calldata -/

def siblingDigest (sibling : HashArray 20) : Bytes20 := BitVec.ofNat 160 (natBE sibling.val)

/-- The digest that a path leads to. -/
def climbPath (keccak256 : Bytes → Bytes32) (leaf : Bytes20) (path : MerklePath 20) : Bytes20 :=
  path.foldl (fun digest sibling => MerkleTree.nodeHash keccak256 digest (siblingDigest sibling))
    leaf

/-- A message as an array in the calldata, with its proof. -/
structure Visited where
  encodedMessage : CalldataBytes
  proof : MerklePath 20

def Visited.update (m : Machine) (visited : Visited) : MerklePriceUpdate :=
  ⟨visited.encodedMessage.bytes m, visited.proof⟩

section

variable (keccak256 : Bytes → Bytes32) (m : Machine)

/-- The path leads to the digest, and the message is one of a price feed. -/
def checkVisited (digest : Bytes20) (visited : Visited) :
    Result (PriceInfo × Bytes32 × Uint64) := do
  let leaf := MerkleTree.leafHash keccak256 (visited.encodedMessage.bytes m)
  let valid : Bool := climbPath keccak256 leaf visited.proof = digest
  require (valid = true) (.error .invalidUpdateData)
  extractMessage m visited.encodedMessage

/-- Every message is checked and stored. -/
def storeVisited (digest : Bytes20) : World → List Visited → Result World
  | w, [] => return w
  | w, visited :: rest => do
    let (priceInfo, priceId, _) ← checkVisited keccak256 m digest visited
    storeVisited digest (updateLatestPriceIfNecessary w priceId priceInfo) rest

end

/-- On the array `b` the contract visits the VAA and then the updates, and nothing
else, and ends where the encoded part ends. -/
structure Visits (m : Machine) (b : CalldataBytes) (vaa : Bytes)
    (updates : List MerklePriceUpdate) : Prop where
  header : extractUpdateTypeFromAccumulatorHeader m b = .ok (8, .wormholeMerkle)
  body : ∃ (encoded : CalldataBytes) (offset : Uint256) (visited : List Visited),
    visited.map (Visited.update m) = updates ∧
    (∀ parseAndVerifyPythVM,
      extractWormholeMerkleHeaderDigestAndNumUpdatesAndEncodedFromAccumulatorUpdate m
        parseAndVerifyPythVM b 8 = (do
          let vm ← parseAndVerifyPythVM vaa
          let digest ← extractDigestFromPayload (m.returned vm.payload)
          return (offset, digest, BitVec.ofNat 8 updates.length, encoded))) ∧
    (∀ keccak256 digest w,
      updatePriceInfos keccak256 m digest encoded w offset updates.length = (do
        let w ← storeVisited keccak256 m digest w visited
        return (w, encoded.length))) ∧
    ∀ keccak256 parseAndVerifyPythVM w,
      updatePriceInfosFromAccumulatorUpdate keccak256 m parseAndVerifyPythVM b w = (do
        let vm ← parseAndVerifyPythVM vaa
        let digest ← extractDigestFromPayload (m.returned vm.payload)
        let w ← storeVisited keccak256 m digest w visited
        return (BitVec.ofNat 8 updates.length, w))

/-! ## The functions at an offset -/

section

open UnsafeCalldataBytesLib CalldataBytes

variable {m : Machine} {b : CalldataBytes} {start : Nat}

theorem require_of {ε : Type} {p : Prop} [Decidable p] (hp : p) (r : Revert ε) :
    require p r = pure () :=
  if_pos hp

theorem ok_bind {ε α β : Type} (a : α) (f : α → Exec ε β) : (Except.ok a >>= f) = f a := rfl

theorem setWidth_ofNat {w n : Nat} (hw : w ≤ 256) (hn : n < 2 ^ w) :
    (BitVec.ofNat w n).setWidth 256 = BitVec.ofNat 256 n := by
  apply BitVec.eq_of_toNat_eq
  rw [TracksAt.toNat_setWidth_256 hw, BitVec.toNat_ofNat, BitVec.toNat_ofNat, Nat.mod_eq_of_lt hn,
    Nat.mod_eq_of_lt (hn.trans_le (Nat.pow_le_pow_right (by decide) hw))]

theorem climb_eq {path : MerklePath 20} (h : b.Holds m start (path.flatMap Subtype.val))
    (keccak256 : Bytes → Bytes32) (digest : Bytes20) :
    MerkleTree.climb keccak256 m b digest (BitVec.ofNat 256 start) path.length
      = (climbPath keccak256 digest path,
          BitVec.ofNat 256 (start + (path.flatMap Subtype.val).length)) := by
  induction path generalizing start digest with
  | nil => rfl
  | cons sibling path ih =>
    rw [List.flatMap_cons] at h
    have hnext := h.right
    rw [sibling.property] at hnext
    have hoffset : BitVec.ofNat 256 start + 20 = BitVec.ofNat 256 (start + 20) :=
      (BitVec.ofNat_add ..).symm
    rw [List.length_cons, MerkleTree.climb, h.left.toAddress_eq sibling.property, hoffset,
      ih hnext, List.flatMap_cons, List.length_append, sibling.property, Nat.add_assoc]
    rfl

theorem isProofValid_eq {path : MerklePath 20} (hlength : path.length ≤ 255)
    (h : b.Holds m start (UInt8.ofNat path.length :: path.flatMap Subtype.val))
    (keccak256 : Bytes → Bytes32) (root : Bytes20) (leafData : CalldataBytes) :
    MerkleTree.isProofValid keccak256 m b (BitVec.ofNat 256 start) root leafData
      = (decide
            (climbPath keccak256 (MerkleTree.leafHash keccak256 (leafData.bytes m)) path = root),
          BitVec.ofNat 256 (start + 1 + (path.flatMap Subtype.val).length)) := by
  have hsize : (toUint8 m b (BitVec.ofNat 256 start)).toNat = path.length := by
    rw [h.toUint8_eq, UInt8.toNat_ofNat_of_lt' (Nat.lt_succ_of_le hlength), BitVec.toNat_ofNat,
      Nat.mod_eq_of_lt (Nat.lt_succ_of_le hlength)]
  have hoffset : BitVec.ofNat 256 start + 1 = BitVec.ofNat 256 (start + 1) :=
    (BitVec.ofNat_add ..).symm
  rw [MerkleTree.isProofValid, hsize, hoffset, climb_eq h.tail]

theorem extractPriceInfoFromMerkleProof_eq {update : MerklePriceUpdate} (hfits : update.Fits)
    (h : b.Holds m start update.layout) :
    ∃ visited : Visited, visited.update m = update ∧ ∀ keccak256 digest,
      extractPriceInfoFromMerkleProof keccak256 m digest b (BitVec.ofNat 256 start) = (do
        let r ← checkVisited keccak256 m digest visited
        return (BitVec.ofNat 256 (start + update.layout.length), r.1, r.2.1, r.2.2)) := by
  have hsize : (toUint16 m b (BitVec.ofNat 256 start)).setWidth 256
      = BitVec.ofNat 256 update.message.length := by
    have hlt : update.message.length < 2 ^ 16 := hfits.message.trans_lt (by decide)
    rw [h.left.left.toUint16_eq hfits.message, setWidth_ofNat (by decide) hlt]
  have hmessage : b.Holds m (start + 2) update.message := h.left.right
  have hproof := h.right
  rw [List.length_append, length_bytesBE] at hproof
  obtain ⟨encodedMessage, hslice, hbytes⟩ := @Holds.slice_eq m b _ _ PythError hmessage
  refine ⟨⟨encodedMessage, update.proof⟩, ?_, fun keccak256 digest => ?_⟩
  · exact congrArg (MerklePriceUpdate.mk · update.proof) hbytes
  · have hstart : BitVec.ofNat 256 start + 2 = BitVec.ofNat 256 (start + 2) :=
      (BitVec.ofNat_add ..).symm
    have hnext : BitVec.ofNat 256 (start + 2) + BitVec.ofNat 256 update.message.length
        = BitVec.ofNat 256 (start + (2 + update.message.length)) := by
      rw [← BitVec.ofNat_add, Nat.add_assoc]
    have hend : start + (2 + update.message.length) + 1 + (update.proof.flatMap Subtype.val).length
        = start + update.layout.length := by
      simp only [MerklePriceUpdate.layout, List.length_append, length_bytesBE, List.length_cons]
      omega
    unfold extractPriceInfoFromMerkleProof
    dsimp only
    rw [hsize, hstart, hslice, hnext]
    rw [ok_bind, isProofValid_eq hfits.proof hproof, hend]
    simp only [checkVisited, extractMessage, bind_assoc]

/-! ## The loop and the whole update -/

theorem updatePriceInfos_eq {updates : List MerklePriceUpdate}
    (hfits : ∀ update ∈ updates, update.Fits)
    (h : b.Holds m start (updates.flatMap MerklePriceUpdate.layout)) :
    ∃ visited : List Visited, visited.map (Visited.update m) = updates ∧ ∀ keccak256 digest w,
      updatePriceInfos keccak256 m digest b w (BitVec.ofNat 256 start) updates.length = (do
        let w ← storeVisited keccak256 m digest w visited
        return (w,
          BitVec.ofNat 256 (start + (updates.flatMap MerklePriceUpdate.layout).length))) := by
  induction updates generalizing start with
  | nil => exact ⟨[], rfl, fun _ _ _ => rfl⟩
  | cons update updates ih =>
    rw [List.flatMap_cons] at h
    obtain ⟨first, hfirst, hread⟩ :=
      extractPriceInfoFromMerkleProof_eq (hfits update List.mem_cons_self) h.left
    obtain ⟨visited, hvisited, hloop⟩ :=
      ih (fun u hu => hfits u (List.mem_cons_of_mem update hu)) h.right
    refine ⟨first :: visited, ?_, fun keccak256 digest w => ?_⟩
    · rw [List.map_cons, hfirst, hvisited]
    · rw [List.length_cons, updatePriceInfos, hread, List.flatMap_cons, List.length_append,
        ← Nat.add_assoc]
      simp only [bind_assoc, pure_bind, hloop, storeVisited]

/-- The VAA lies between its size and the number of updates. -/
theorem extractWormholeMerkle_eq {vaa : Bytes} {updates : List MerklePriceUpdate}
    (hvaa : vaa.length ≤ 65535) (hlength : updates.length ≤ 255)
    (h : b.Holds m 0 (bodyLayout vaa updates)) (parseAndVerifyPythVM : Bytes → Result VM) :
    extractWormholeMerkle m parseAndVerifyPythVM b = (do
      let vm ← parseAndVerifyPythVM vaa
      let digest ← extractDigestFromPayload (m.returned vm.payload)
      return (BitVec.ofNat 256 (vaa.length + 3), digest, BitVec.ofNat 8 updates.length)) := by
  have hlt : vaa.length < 2 ^ 16 := hvaa.trans_lt (by decide)
  have hsize : (toUint16 m b 0).setWidth 256 = BitVec.ofNat 256 vaa.length := by
    have hread : toUint16 m b 0 = BitVec.ofNat 16 vaa.length := h.left.left.toUint16_eq hvaa
    rw [hread, setWidth_ofNat (by decide) hlt]
  have hproof : b.Holds m 2 vaa := h.left.right
  have hrest := h.right
  rw [List.length_append, length_bytesBE] at hrest
  obtain ⟨encodedVm, hslice, hbytes⟩ := @Holds.slice_eq m b _ _ PythError hproof
  change slice m b 2 _ = _ at hslice
  have hoffset : 2 + BitVec.ofNat 256 vaa.length = BitVec.ofNat 256 (0 + (2 + vaa.length)) := by
    rw [Nat.zero_add, BitVec.ofNat_add]
    rfl
  have hend : BitVec.ofNat 256 (0 + (2 + vaa.length)) + 1 = BitVec.ofNat 256 (vaa.length + 3) := by
    rw [show vaa.length + 3 = 0 + (2 + vaa.length) + 1 by omega]
    exact (BitVec.ofNat_add ..).symm
  have hcount : toUint8 m b (BitVec.ofNat 256 (0 + (2 + vaa.length)))
      = BitVec.ofNat 8 updates.length := by
    rw [hrest.toUint8_eq, UInt8.toNat_ofNat_of_lt' (Nat.lt_succ_of_le hlength)]
  rw [extractWormholeMerkle, hsize, hslice, ok_bind, hbytes, hoffset, hcount, hend]

theorem extractWormholeMerkleHeader_eq (parseAndVerifyPythVM : Bytes → Result VM)
    (encodedOffset : Uint256) :
    extractWormholeMerkleHeaderDigestAndNumUpdatesAndEncodedFromAccumulatorUpdate m
      parseAndVerifyPythVM b encodedOffset = (do
        let encoded ← slice m b encodedOffset (b.length - encodedOffset)
        let r ← extractWormholeMerkle m parseAndVerifyPythVM encoded
        return (r.1, r.2.1, r.2.2, encoded)) := by
  simp only [extractWormholeMerkleHeaderDigestAndNumUpdatesAndEncodedFromAccumulatorUpdate,
    extractWormholeMerkle, bind_assoc, pure_bind]
  rfl

theorem header_eq (h : b.Holds m 0 headerLayout) :
    extractUpdateTypeFromAccumulatorHeader m b = .ok (8, .wormholeMerkle) := by
  have hsplit : b.Holds m 0 (PYTHNET_ACCUMULATOR_UPDATE_MAGIC.val ++ [1, 0, 0, 0]) := h
  have hmagic : toUint32 m b 0 = ACCUMULATOR_MAGIC := hsplit.left.toUint32_eq rfl
  have hversions : b.Holds m 4 [1, 0, 0, 0] := hsplit.right
  have hmajor : toUint8 m b (0 + 4) = MAJOR_VERSION := hversions.toUint8_eq
  have hminor : toUint8 m b (0 + 4 + 1) = 0 := hversions.tail.toUint8_eq
  have htrailing : toUint8 m b (0 + 4 + 1 + 1) = 0 := hversions.tail.tail.toUint8_eq
  have htype : toUint8 m b (0 + 4 + 1 + 1 + 1 + BitVec.setWidth 256 (0 : Uint8)) = 0 :=
    hversions.tail.tail.tail.toUint8_eq
  have hend : b.length ≥ 0 + 4 + 1 + 1 + 1 + BitVec.setWidth 256 (0 : Uint8) + 1 := h.end_le
  unfold extractUpdateTypeFromAccumulatorHeader
  dsimp only
  rw [hmagic, hmajor, hminor, htrailing, htype]
  refine bind_eq_ok.mpr ⟨(), require_eq_ok.mpr rfl, bind_eq_ok.mpr ⟨(), require_eq_ok.mpr rfl, ?_⟩⟩
  refine bind_eq_ok.mpr ⟨(), require_eq_ok.mpr (by decide), bind_eq_ok.mpr ⟨_, rfl, ?_⟩⟩
  exact bind_eq_ok.mpr ⟨(), require_eq_ok.mpr hend, rfl⟩

/-- The contract visits what the layout was made of. -/
theorem visits_of_layout {vaa : Bytes} {updates : List MerklePriceUpdate}
    (hvaa : vaa.length ≤ 65535) (hlength : updates.length ≤ 255)
    (hfits : ∀ update ∈ updates, update.Fits)
    (h : b.bytes m = headerLayout ++ bodyLayout vaa updates) : Visits m b vaa updates := by
  have hheader := header_eq (Holds.all h).left
  obtain ⟨encoded, hslice, hbytes⟩ := slice_behind (header_end hheader)
  have hbody : encoded.bytes m = bodyLayout vaa updates := by
    rw [hbytes, h]
    rfl
  have hholds := Holds.all hbody
  have hupdates : encoded.Holds m (vaa.length + 3) (updates.flatMap MerklePriceUpdate.layout) := by
    have hrest := hholds.right.tail
    rw [List.length_append, length_bytesBE] at hrest
    rwa [show vaa.length + 3 = 0 + (2 + vaa.length) + 1 by omega]
  obtain ⟨visited, hvisited, hloop⟩ := updatePriceInfos_eq hfits hupdates
  have hend : BitVec.ofNat 256 (vaa.length + 3
      + (updates.flatMap MerklePriceUpdate.layout).length) = encoded.length := by
    have htotal := congrArg List.length hbody
    rw [CalldataBytes.length_bytes, bodyLayout, List.length_append, List.length_append,
      length_bytesBE, List.length_cons] at htotal
    rw [show vaa.length + 3 + (updates.flatMap MerklePriceUpdate.layout).length
      = encoded.length.toNat by omega, BitVec.ofNat_toNat, BitVec.setWidth_eq]
  rw [hend] at hloop
  have hmerkle := extractWormholeMerkle_eq hvaa hlength hholds
  have hcount : (BitVec.ofNat 8 updates.length).toNat = updates.length :=
    Nat.mod_eq_of_lt (Nat.lt_succ_of_le hlength)
  refine ⟨hheader, encoded, BitVec.ofNat 256 (vaa.length + 3), visited, hvisited, fun parse => ?_,
    hloop, fun keccak256 parse w => ?_⟩
  · rw [extractWormholeMerkleHeader_eq, hslice, ok_bind, hmerkle]
    simp only [bind_assoc, pure_bind]
  · rw [updatePriceInfosFromAccumulatorUpdate_eq, hheader, ok_bind]
    dsimp only
    rw [require_of rfl, pure_bind, hslice, ok_bind, hmerkle]
    simp only [bind_assoc, pure_bind, hcount, hloop, require_of]

end

end PythCrosschain.Pyth
