import PythCrosschain.Pyth.MerkleAgreement
import PythCrosschain.Starknet.Hash

/-!
# Starknet: `merkle_tree.cairo`

The check of a proof. Hashes are `u256` below `2 ^ 160`, and siblings are ordered by minimum
and maximum. `readAndVerifyProof_eq` says that it passes exactly when the path leads to the
root, and that the reader is left behind the proof.
-/

namespace PythCrosschain.Starknet

open PythnetSdk (HashArray MerklePath)
open Pyth (siblingDigest climbPath toNat_siblingDigest)

namespace MerkleTree

def MERKLE_LEAF_PREFIX : ℕ := 0
def MERKLE_NODE_PREFIX : ℕ := 1

def ONE_SHIFT_96 : ℕ := 0x1000000000000000000000000

section

variable (keccak256 : Bytes → BitVec 256)

def leafHash (reader : Reader) : Result ℕ := do
  let hasher ← Hasher.new.pushU8 MERKLE_LEAF_PREFIX
  let hasher ← hasher.pushReader reader
  let hash ← hasher.finalize keccak256
  return hash / ONE_SHIFT_96

def nodeHash (a b : ℕ) : Result ℕ := do
  let hasher ← Hasher.new.pushU8 MERKLE_NODE_PREFIX
  let hasher ← hasher.pushU160 (min a b)
  let hasher ← hasher.pushU160 (max a b)
  let hash ← hasher.finalize keccak256
  return hash / ONE_SHIFT_96

/-- The loop of `read_and_verify_proof`, for `proofSize` more siblings. -/
def climb : ℕ → ℕ → Reader → Result (ℕ × Reader)
  | 0, currentHash, reader => .ok (currentHash, reader)
  | proofSize + 1, currentHash, reader => do
    let (siblingDigest, reader) ← reader.readU160
    let currentHash ← nodeHash keccak256 currentHash siblingDigest
    climb proofSize currentHash reader

def readAndVerifyProof (rootDigest : ℕ) (message : ByteBuffer) (reader : Reader) :
    Result Reader := do
  let currentHash ← leafHash keccak256 (Reader.new message)
  let (proofSize, reader) ← reader.readU8
  let (currentHash, reader) ← climb keccak256 proofSize currentHash reader
  if rootDigest ≠ currentHash then .error .digestMismatch else return reader

end

/-! ## Hashes -/

variable {keccak256 : Bytes → BitVec 256}

theorem div_shift96 (input : Bytes) :
    (keccak256 input).toNat / ONE_SHIFT_96 = (Pyth.MerkleTree.hash keccak256 input).toNat := by
  have hlt : (keccak256 input).toNat / 2 ^ 96 < 2 ^ 160 :=
    (Nat.div_lt_iff_lt_mul (by decide)).mpr (keccak256 input).isLt
  rw [Pyth.MerkleTree.hash, BitVec.toNat_setWidth, BitVec.toNat_ushiftRight,
    Nat.shiftRight_eq_div_pow, Nat.mod_eq_of_lt hlt]
  rfl

theorem leafHash_eq {reader : Reader} {message : Bytes} (h : reader.Holds message) :
    leafHash keccak256 reader = .ok (Pyth.MerkleTree.leafHash keccak256 message).toNat := by
  obtain ⟨hasher₁, hpush₁, h₁⟩ := Hasher.pushU8_eq Hasher.holds_new 0
  obtain ⟨hasher₂, hpush₂, h₂⟩ := Hasher.pushReader_eq h₁ h
  have hprefix : Hasher.new.pushU8 MERKLE_LEAF_PREFIX = .ok hasher₁ := hpush₁
  rw [leafHash, hprefix, except_ok_bind, hpush₂, except_ok_bind, Hasher.finalize_eq h₂,
    except_ok_bind, div_shift96]
  rfl

theorem pushU160_packed {hasher : Hasher} {bytes : Bytes} (h : hasher.Holds bytes)
    (digest : BitVec 160) :
    ∃ hasher', hasher.pushU160 digest.toNat = .ok hasher' ∧
      hasher'.Holds (bytes ++ packed 20 digest) := by
  have hvalue : natBE (packed 20 digest) = digest.toNat := by
    rw [packed, natBE_bytesBE]
    exact Nat.mod_eq_of_lt digest.isLt
  have hpush := Hasher.pushU160_eq (packed 20 digest) h (length_packed 20 digest)
  rwa [hvalue] at hpush

theorem nodeHash_eq (a b : BitVec 160) :
    nodeHash keccak256 a.toNat b.toNat
      = .ok (Pyth.MerkleTree.nodeHash keccak256 a b).toNat := by
  have hordered (l r : BitVec 160) : ∃ hasher₁ hasher₂ hasher₃,
      Hasher.new.pushU8 MERKLE_NODE_PREFIX = .ok hasher₁ ∧
      hasher₁.pushU160 l.toNat = .ok hasher₂ ∧ hasher₂.pushU160 r.toNat = .ok hasher₃ ∧
      hasher₃.finalize keccak256 = .ok (keccak256 (packed 1 Pyth.MerkleTree.MERKLE_NODE_PREFIX
        ++ packed 20 l ++ packed 20 r)).toNat := by
    obtain ⟨hasher₁, hpush₁, h₁⟩ := Hasher.pushU8_eq Hasher.holds_new 1
    obtain ⟨hasher₂, hpush₂, h₂⟩ := pushU160_packed h₁ l
    obtain ⟨hasher₃, hpush₃, h₃⟩ := pushU160_packed h₂ r
    exact ⟨hasher₁, hasher₂, hasher₃, hpush₁, hpush₂, hpush₃, Hasher.finalize_eq h₃⟩
  unfold nodeHash Pyth.MerkleTree.nodeHash
  by_cases hgt : a > b
  · have hle : b.toNat ≤ a.toNat := (BitVec.lt_def.mp hgt).le
    obtain ⟨hasher₁, hasher₂, hasher₃, hpush₁, hpush₂, hpush₃, hfinal⟩ := hordered b a
    rw [min_eq_right hle, max_eq_left hle, if_pos hgt, hpush₁, except_ok_bind, hpush₂,
      except_ok_bind, hpush₃, except_ok_bind, hfinal, except_ok_bind, div_shift96]
    rfl
  · have hle : a.toNat ≤ b.toNat := BitVec.le_def.mp (BitVec.not_lt.mp hgt)
    obtain ⟨hasher₁, hasher₂, hasher₃, hpush₁, hpush₂, hpush₃, hfinal⟩ := hordered a b
    rw [min_eq_left hle, max_eq_right hle, if_neg hgt, hpush₁, except_ok_bind, hpush₂,
      except_ok_bind, hpush₃, except_ok_bind, hfinal, except_ok_bind, div_shift96]
    rfl

/-! ## The verdict -/

theorem climb_eq (path : MerklePath 20) (digest : BitVec 160) {reader : Reader} {rest : Bytes}
    (h : reader.Holds (path.flatMap Subtype.val ++ rest)) :
    ∃ reader', climb keccak256 path.length digest.toNat reader
        = .ok ((climbPath keccak256 digest path).toNat, reader') ∧ reader'.Holds rest := by
  induction path generalizing digest reader with
  | nil => exact ⟨reader, rfl, h⟩
  | cons sibling path ih =>
    rw [List.flatMap_cons, List.append_assoc] at h
    have hlen := sibling.property
    obtain ⟨reader₁, hread, h₁⟩ := (Reader.readU160_reads h).ok
      (by rw [List.length_append]; omega)
    rw [List.take_left' hlen] at hread
    rw [List.drop_left' hlen] at h₁
    obtain ⟨reader', hclimb, h'⟩ :=
      ih (Pyth.MerkleTree.nodeHash keccak256 digest (siblingDigest sibling)) h₁
    refine ⟨reader', ?_, h'⟩
    rw [List.length_cons, climb, hread, except_ok_bind]
    dsimp only
    rw [← toNat_siblingDigest, nodeHash_eq, except_ok_bind, hclimb]
    rfl

/-- **The check on Starknet.** -/
theorem readAndVerifyProof_eq {path : MerklePath 20} (hlength : path.length ≤ 255)
    (root : HashArray 20) {message rest : Bytes} {buffer : ByteBuffer} {reader : Reader}
    (hbuffer : buffer.Holds message)
    (hreader : reader.Holds (UInt8.ofNat path.length :: (path.flatMap Subtype.val ++ rest))) :
    ∃ reader', reader'.Holds rest ∧
      readAndVerifyProof keccak256 (natBE root.val) buffer reader =
        if climbPath keccak256 (Pyth.MerkleTree.leafHash keccak256 message) path
            = siblingDigest root then .ok reader'
        else .error .digestMismatch := by
  obtain ⟨reader₁, hread, h₁⟩ := (Reader.readUint_reads hreader (k := 1) (by decide)).ok
    (Nat.le_add_left 1 _)
  have hsize : natBE ([UInt8.ofNat path.length] : Bytes) = path.length := by
    show (UInt8.ofNat path.length).toNat * 256 ^ 0 + 0 = path.length
    rw [UInt8.toNat_ofNat', Nat.pow_zero, Nat.mul_one, Nat.add_zero, Nat.mod_eq_of_lt (by omega)]
  obtain ⟨reader', hclimb, h'⟩ := climb_eq path
    (Pyth.MerkleTree.leafHash keccak256 message) h₁
  refine ⟨reader', h', ?_⟩
  have hread' : reader.readU8 = .ok (path.length, reader₁) := by
    rw [Reader.readU8, hread]
    exact congrArg (fun n => Except.ok (n, reader₁)) hsize
  rw [readAndVerifyProof, leafHash_eq (Reader.holds_new hbuffer), except_ok_bind, hread',
    except_ok_bind]
  dsimp only
  rw [hclimb, except_ok_bind, ← toNat_siblingDigest]
  dsimp only
  by_cases hroot : climbPath keccak256 (Pyth.MerkleTree.leafHash keccak256 message) path
      = siblingDigest root
  · rw [if_pos hroot, hroot, if_neg (fun hne => hne rfl)]
    rfl
  · rw [if_neg hroot, if_pos]
    exact fun heq => hroot (BitVec.eq_of_toNat_eq heq.symm)

end MerkleTree

end PythCrosschain.Starknet
