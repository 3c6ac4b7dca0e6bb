import PythCrosschain.Pyth.MerkleAgreement
import PythCrosschain.Sui.Governance

/-!
# Sui: `merkle_tree.move`

The check of a proof. Hashes are byte vectors that a loop compares byte by byte
(`greaterThan_iff`). `isProofValid_eq` says that the verdict is that of the SDK and that the
cursor is left behind the proof.
-/

namespace PythCrosschain.Sui

open PythnetSdk (HashArray MerklePath Keccak160)

namespace MerkleTree

abbrev Bytes20 := HashArray 20

def MERKLE_LEAF_PREFIX : UInt8 := 0
def MERKLE_NODE_PREFIX : UInt8 := 1

/-- The loop of `greater_than`, from one byte on. -/
def greaterThan : Bytes → Bytes → Bool
  | aValue :: a, bValue :: b =>
    if aValue > bValue then true
    else if bValue > aValue then false
    else greaterThan a b
  | _, _ => false

section

variable (keccak256 : Bytes → BitVec 256)

/-- The 20 leftmost bytes of the hash. -/
def hash (bytes : Bytes) : Bytes20 := ⟨(wordBytes (keccak256 bytes)).take 20, by simp [wordBytes]⟩

def leafHash (data : Bytes) : Bytes20 := hash keccak256 (MERKLE_LEAF_PREFIX :: data)

def nodeHash (childA childB : Bytes20) : Bytes20 :=
  let (childA, childB) :=
    if greaterThan childA.val childB.val then (childB, childA) else (childA, childB)
  hash keccak256 (MERKLE_NODE_PREFIX :: childA.val ++ childB.val)

/-- `bytes20::new` of the next 20 bytes. -/
def takeBytes20 : Cursor Bytes20 := fun bytes =>
  if h : 20 ≤ bytes.length then .ok (⟨bytes.take 20, List.length_take_of_le h⟩, bytes.drop 20)
  else .error .vectorError

/-- The loop of `is_proof_valid`, for `proofSize` more siblings. -/
def climb : ℕ → Bytes20 → Bytes → Move.Result (Bytes20 × Bytes)
  | 0, currentDigest, encodedProof => .ok (currentDigest, encodedProof)
  | proofSize + 1, currentDigest, encodedProof => do
    let (siblingDigest, encodedProof) ← takeBytes20 encodedProof
    climb proofSize (nodeHash keccak256 currentDigest siblingDigest) encodedProof

def isProofValid (root : Bytes20) (leafData encodedProof : Bytes) :
    Move.Result (Bool × Bytes) := do
  let currentDigest := leafHash keccak256 leafData
  let (proofSize, encodedProof) ← Cursor.takeU8 encodedProof
  let (currentDigest, encodedProof) ← climb keccak256 proofSize.toNat currentDigest encodedProof
  return (currentDigest.val = root.val, encodedProof)

end

/-! ## The verdict -/

theorem greaterThan_iff {as bs : Bytes} (h : as.length = bs.length) :
    greaterThan as bs = true ↔ ¬as ≤ bs := by
  induction as generalizing bs with
  | nil =>
    obtain rfl := List.length_eq_zero_iff.mp h.symm
    exact iff_of_false nofun fun hlt => hlt (List.le_refl _)
  | cons a as ih =>
    cases bs with
    | nil => cases h
    | cons b bs =>
      have hlength : as.length = bs.length := Nat.succ.inj h
      rw [List.not_le, List.cons_lt_cons_iff, greaterThan]
      by_cases hgt : b < a
      · rw [if_pos hgt]
        exact iff_of_true rfl (.inl hgt)
      · by_cases hlt : a < b
        · rw [if_neg hgt, if_pos hlt]
          refine iff_of_false nofun ?_
          rintro (h' | ⟨rfl, -⟩)
          · exact hgt h'
          · exact hgt hlt
        · obtain rfl : a = b := UInt8.le_antisymm (UInt8.not_lt.mp hgt) (UInt8.not_lt.mp hlt)
          rw [if_neg hgt, if_neg hgt, ih hlength, List.not_le]
          exact ⟨fun h' => .inr ⟨rfl, h'⟩, fun h' => (h'.resolve_left hgt).2⟩

variable {keccak256 : Bytes → BitVec 256}

theorem leafHash_eq (data : Bytes) :
    leafHash keccak256 data = PythnetSdk.MerkleTree.hashLeaf (Keccak160 keccak256) data := by
  rw [PythnetSdk.MerkleTree.hashLeaf, PythnetSdk.Hasher.hashv, List.flatten_cons,
    List.flatten_singleton]
  rfl

theorem nodeHash_eq (a b : Bytes20) :
    nodeHash keccak256 a b = PythnetSdk.MerkleTree.hashNode (Keccak160 keccak256) a b := by
  have hinput (l r : Bytes20) : [PythnetSdk.NODE_PREFIX, l.val, r.val].flatten
      = MERKLE_NODE_PREFIX :: l.val ++ r.val := by
    rw [List.flatten_cons, List.flatten_cons, List.flatten_singleton]
    rfl
  have hgreater := greaterThan_iff (a.property.trans b.property.symm)
  unfold nodeHash PythnetSdk.MerkleTree.hashNode PythnetSdk.Hasher.hashv
  rw [hinput]
  by_cases hle : a.val ≤ b.val
  · rw [if_neg fun h => hgreater.mp h hle, if_pos hle, if_pos hle]
    rfl
  · rw [if_pos (hgreater.mpr hle), if_neg hle, if_neg hle]
    rfl

theorem climb_eq (path : MerklePath 20) (digest : Bytes20) (rest : Bytes) :
    climb keccak256 path.length digest (path.flatMap Subtype.val ++ rest)
      = .ok (path.foldl (PythnetSdk.MerkleTree.hashNode (Keccak160 keccak256)) digest, rest) := by
  induction path generalizing digest with
  | nil => rfl
  | cons sibling path ih =>
    have hlen := sibling.property
    have htake : takeBytes20 (sibling.val ++ (path.flatMap Subtype.val ++ rest))
        = .ok (sibling, path.flatMap Subtype.val ++ rest) := by
      rw [takeBytes20, dif_pos (by rw [List.length_append]; omega)]
      congr 2
      · exact Subtype.ext (List.take_left' hlen)
      · exact List.drop_left' hlen
    rw [List.flatMap_cons, List.append_assoc, List.length_cons, climb, htake, except_ok_bind]
    dsimp only
    rw [ih, nodeHash_eq, List.foldl_cons]

/-- **The check on Sui.** -/
theorem isProofValid_eq {path : MerklePath 20} (hlength : path.length ≤ 255) (root : Bytes20)
    (message rest : Bytes) :
    isProofValid keccak256 root message
        (UInt8.ofNat path.length :: (path.flatMap Subtype.val ++ rest))
      = .ok (PythnetSdk.MerkleTree.check (Keccak160 keccak256) root path message, rest) := by
  have hsize : (UInt8.ofNat path.length).toNat = path.length := by
    rw [UInt8.toNat_ofNat', Nat.mod_eq_of_lt (by omega)]
  show (climb keccak256 (UInt8.ofNat path.length).toNat _ _ >>= _) = _
  rw [hsize, climb_eq, except_ok_bind, leafHash_eq]
  dsimp only
  rw [PythnetSdk.MerkleTree.check]
  simp only [Subtype.val_inj]
  rfl

end MerkleTree

end PythCrosschain.Sui
