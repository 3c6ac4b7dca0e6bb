import PythCrosschain.Pyth.UpdateReads

/-!
# The two Merkle libraries

The contract computes digests as words of 160 bits and orders two siblings as numbers,
the SDK computes arrays of 20 bytes and orders them as arrays. With the same Keccak-256
below, a path is accepted by one exactly when it is accepted by the other
(`climbPath_eq_iff_check`).
-/

namespace PythCrosschain

/-- `Keccak160`: the first 20 bytes of the hash. -/
def PythnetSdk.Keccak160 (keccak256 : Bytes → Bytes32) : PythnetSdk.Hasher 20 where
  digest data := ⟨(wordBytes (keccak256 data)).take 20, by simp [wordBytes]⟩

namespace Pyth

open PythnetSdk (HashArray MerklePath Keccak160)

variable {keccak256 : Bytes → Bytes32}

theorem natBE_hashArray_lt (a : HashArray 20) : natBE a.val < 2 ^ 160 := by
  have hlt := natBE_lt a.val
  rw [a.property] at hlt
  exact hlt

theorem toNat_siblingDigest (a : HashArray 20) : (siblingDigest a).toNat = natBE a.val := by
  rw [siblingDigest, BitVec.toNat_ofNat, Nat.mod_eq_of_lt (natBE_hashArray_lt a)]

theorem packed_siblingDigest (a : HashArray 20) : packed 20 (siblingDigest a) = a.val := by
  have hbytes := bytesBE_natBE a.val
  rw [a.property] at hbytes
  rw [packed, toNat_siblingDigest, hbytes]

theorem siblingDigest_injective : Function.Injective siblingDigest := by
  intro a b h
  apply Subtype.ext
  rw [← packed_siblingDigest a, ← packed_siblingDigest b, h]

theorem siblingDigest_le (a b : HashArray 20) :
    siblingDigest a ≤ siblingDigest b ↔ a.val ≤ b.val := by
  rw [BitVec.le_def, toNat_siblingDigest, toNat_siblingDigest,
    natBE_le_natBE (a.property.trans b.property.symm)]

/-- The first 20 bytes of a hash are its highest 160 bits. -/
theorem siblingDigest_digest (data : Bytes) :
    siblingDigest ((Keccak160 keccak256).digest data) = MerkleTree.hash keccak256 data := by
  apply BitVec.eq_of_toNat_eq
  rw [toNat_siblingDigest, MerkleTree.hash, BitVec.toNat_setWidth, BitVec.toNat_ushiftRight,
    Nat.shiftRight_eq_div_pow]
  show natBE ((wordBytes (keccak256 data)).take 20) = _
  have hlt : (keccak256 data).toNat < 256 ^ 32 := (keccak256 data).isLt
  rw [natBE_take, wordBytes, length_packed, packed, natBE_bytesBE, Nat.mod_eq_of_lt hlt]
  have hhigh : (keccak256 data).toNat / 2 ^ 96 < 2 ^ 160 :=
    (Nat.div_lt_iff_lt_mul (by decide)).mpr hlt
  exact (Nat.mod_eq_of_lt hhigh).symm

theorem siblingDigest_hashLeaf (message : Bytes) :
    siblingDigest (PythnetSdk.MerkleTree.hashLeaf (Keccak160 keccak256) message)
      = MerkleTree.leafHash keccak256 message := by
  have hinput : [PythnetSdk.LEAF_PREFIX, message].flatten
      = packed 1 MerkleTree.MERKLE_LEAF_PREFIX ++ message := by
    rw [List.flatten_cons, List.flatten_singleton]
    rfl
  rw [MerkleTree.leafHash, ← hinput]
  exact siblingDigest_digest _

theorem siblingDigest_hashNode (a b : HashArray 20) :
    siblingDigest (PythnetSdk.MerkleTree.hashNode (Keccak160 keccak256) a b)
      = MerkleTree.nodeHash keccak256 (siblingDigest a) (siblingDigest b) := by
  have hswap : (siblingDigest a > siblingDigest b) ↔ ¬ a.val ≤ b.val := by
    rw [← siblingDigest_le]
    exact BitVec.not_le.symm
  have hinput (l r : HashArray 20) : [PythnetSdk.NODE_PREFIX, l.val, r.val].flatten
      = packed 1 MerkleTree.MERKLE_NODE_PREFIX ++ packed 20 (siblingDigest l)
        ++ packed 20 (siblingDigest r) := by
    rw [packed_siblingDigest, packed_siblingDigest, List.flatten_cons, List.flatten_cons,
      List.flatten_singleton, List.append_assoc]
    rfl
  unfold PythnetSdk.MerkleTree.hashNode MerkleTree.nodeHash PythnetSdk.Hasher.hashv
  rw [siblingDigest_digest, hinput]
  by_cases h : a.val ≤ b.val
  · rw [if_pos h, if_pos h, if_neg (fun hgt => hswap.mp hgt h)]
  · rw [if_neg h, if_neg h, if_pos (hswap.mpr h)]

theorem climbPath_eq_foldl (path : MerklePath 20) (leaf : HashArray 20) :
    climbPath keccak256 (siblingDigest leaf) path
      = siblingDigest (path.foldl (PythnetSdk.MerkleTree.hashNode (Keccak160 keccak256)) leaf) := by
  induction path generalizing leaf with
  | nil => rfl
  | cons sibling path ih =>
    rw [List.foldl_cons, ← ih, siblingDigest_hashNode]
    rfl

/-- **One proof, two checks.** -/
theorem climbPath_eq_iff_check (root : HashArray 20) (path : MerklePath 20) (message : Bytes) :
    climbPath keccak256 (MerkleTree.leafHash keccak256 message) path = siblingDigest root ↔
      PythnetSdk.MerkleTree.check (Keccak160 keccak256) root path message = true := by
  rw [← siblingDigest_hashLeaf, climbPath_eq_foldl, siblingDigest_injective.eq_iff,
    PythnetSdk.MerkleTree.check, decide_eq_true_iff]

end Pyth

end PythCrosschain
