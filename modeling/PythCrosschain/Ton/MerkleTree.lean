import PythCrosschain.Pyth.MerkleAgreement
import PythCrosschain.Ton.Utils

/-!
# TON: `merkle_tree.fc`

The check of a Merkle proof. Hashes are integers of 160 bits and siblings are ordered by
minimum and maximum. `readAndVerifyProof_eq` says that for a message of at most 126 bytes the
check passes exactly when the path leads to the root.
-/

namespace PythCrosschain.Ton

open Tvm
open Pyth (siblingDigest climbPath)
open PythnetSdk (HashArray MerklePath)
open BytesLib (field)

def MERKLE_LEAF_PREFIX : ℕ := 0
def MERKLE_NODE_PREFIX : ℕ := 1

def ERROR_DIGEST_MISMATCH : ℕ := 2007

/-- `store_slice` behind `bits`. A cell has at most 1023 bits. -/
def storeSlice (bits : Bits) (s : Slice) : Result Slice :=
  if bits.length + s.bits.length ≤ 1023 then .ok ⟨bits ++ s.bits, s.refs⟩ else .error .cellOverflow

section

variable (keccak256 : Bytes → Bytes32)

/-- `hash >> 96`. -/
def shift96 (hash : Bytes32) : BitVec 160 := (hash >>> 96).setWidth 160

def leafHash (message : Slice) : Result (BitVec 160) := do
  let s ← storeSlice (bitsBE 8 MERKLE_LEAF_PREFIX) message
  let hash ← keccak256Slice keccak256 s
  return shift96 hash

def nodeHash (a b : BitVec 160) : Result (BitVec 160) := do
  let minValue := min a.toNat b.toNat
  let maxValue := max a.toNat b.toNat
  let hash ← keccak256Slice keccak256
    ⟨bitsBE 8 MERKLE_NODE_PREFIX ++ bitsBE 160 minValue ++ bitsBE 160 maxValue, []⟩
  return shift96 hash

/-- The loop of `read_and_verify_proof`, for `proofSize` more siblings. -/
def climb : ℕ → BitVec 160 → Slice → Result (BitVec 160 × Slice)
  | 0, currentHash, cs => .ok (currentHash, cs)
  | proofSize + 1, currentHash, cs => do
    let (digestCell, cs) := readAndStoreLargeData cs 160
    let digestSlice ← beginParse digestCell
    let siblingDigest ← storeSlice [] digestSlice
    let (siblingDigestInt, _) ← loadInt 160 siblingDigest
    let currentHash ← nodeHash keccak256 currentHash siblingDigestInt
    climb proofSize currentHash cs

def readAndVerifyProof (rootDigest : BitVec 160) (message cs : Slice) : Result Slice := do
  let currentHash ← leafHash keccak256 message
  let (proofSize, cs) ← loadInt 8 cs
  let (currentHash, cs) ← climb keccak256 proofSize.toNat currentHash cs
  throwUnless ERROR_DIGEST_MISMATCH (rootDigest = currentHash)
  return cs

end

/-! ## Hashes -/

section

variable {keccak256 : Bytes → Bytes32}

theorem keccak256Slice_single {bits : Bits} {bytes : Bytes} (h : bits = bitsOf bytes) :
    keccak256Slice keccak256 ⟨bits, []⟩ = .ok (keccak256 bytes) := by
  refine keccak256Slice_eq_ok.mpr ⟨?_, ?_, ?_⟩
  · unfold pushedSlices
    split <;> simp
  · rw [Slice.all, List.flatten_nil, List.append_nil, h, length_bitsOf]
    omega
  · rw [Slice.all, List.flatten_nil, List.append_nil, h, bytesOf_bitsOf]

theorem nodeHash_eq (a b : BitVec 160) :
    nodeHash keccak256 a b = .ok (Pyth.MerkleTree.nodeHash keccak256 a b) := by
  have hbits (l r : BitVec 160) :
      bitsBE 8 MERKLE_NODE_PREFIX ++ bitsBE 160 l.toNat ++ bitsBE 160 r.toNat
        = bitsOf (packed 1 Pyth.MerkleTree.MERKLE_NODE_PREFIX ++ packed 20 l ++ packed 20 r) := by
    rw [bitsOf_append, bitsOf_append, packed, packed, packed, ← bitsBE_eq_bitsOf,
      ← bitsBE_eq_bitsOf, ← bitsBE_eq_bitsOf]
    rfl
  unfold nodeHash Pyth.MerkleTree.nodeHash
  by_cases hgt : a > b
  · have hle : b.toNat ≤ a.toNat := (BitVec.lt_def.mp hgt).le
    rw [min_eq_right hle, max_eq_left hle, if_pos hgt]
    dsimp only
    rw [keccak256Slice_single (hbits b a)]
    rfl
  · have hle : a.toNat ≤ b.toNat := BitVec.le_def.mp (BitVec.not_lt.mp hgt)
    rw [min_eq_left hle, max_eq_right hle, if_neg hgt]
    dsimp only
    rw [keccak256Slice_single (hbits a b)]
    rfl

/-- A message that fits into one cell behind the prefix is hashed as on EVM chains. -/
theorem leafHash_eq {message : Bytes} (h : message.length ≤ 126) :
    leafHash keccak256 ⟨bitsOf message, []⟩
      = .ok (Pyth.MerkleTree.leafHash keccak256 message) := by
  have hbits : bitsBE 8 MERKLE_LEAF_PREFIX ++ bitsOf message
      = bitsOf (packed 1 Pyth.MerkleTree.MERKLE_LEAF_PREFIX ++ message) := by
    rw [bitsOf_append, packed, ← bitsBE_eq_bitsOf]
    rfl
  have hfits : (bitsBE 8 MERKLE_LEAF_PREFIX).length + (bitsOf message).length ≤ 1023 := by
    rw [length_bitsBE, length_bitsOf]
    omega
  rw [leafHash, storeSlice, if_pos hfits]
  show (keccak256Slice keccak256 ⟨_, []⟩ >>= fun hash => _) = _
  rw [keccak256Slice_single hbits]
  rfl

/-- A full cell does not fit into a cell behind the prefix. -/
theorem leafHash_overflow {message : Slice} (h : message.bits.length = MAX_BITS) :
    leafHash keccak256 message = .error .cellOverflow := by
  have hlong : ¬(bitsBE 8 MERKLE_LEAF_PREFIX).length + message.bits.length ≤ 1023 := by
    rw [h, length_bitsBE, MAX_BITS]
    decide
  rw [leafHash, storeSlice, if_neg hlong]
  rfl

/-! ## The loop -/

/-- One sibling, if there are 20 more bytes. -/
theorem climb_succ {bytes : Bytes} {cs : Slice} (hcs : cs.all = bitsOf bytes) (n : ℕ)
    (current : BitVec 160) :
    climb keccak256 (n + 1) current cs =
      if 20 ≤ bytes.length then
        climb keccak256 n (Pyth.MerkleTree.nodeHash keccak256 current (field bytes 0 160 20))
          (readAndStoreLargeData cs 160).2
      else .error .typeCheck := by
  have hlength : cs.all.length = 8 * bytes.length := by rw [hcs, length_bitsOf]
  rw [climb]
  by_cases hlong : 20 ≤ bytes.length
  · have hpacked := readAndStoreLargeData_packed (show 160 ≤ cs.all.length by omega)
    have htake : cs.all.take 160 = bitsOf (bytes.take 20) := by rw [hcs, bitsOf_take]
    have hcell : (readAndStoreLargeData cs 160).1 = [bitsOf (bytes.take 20)] := by
      refine (htake ▸ hpacked).single ?_ ?_
      · refine List.ne_nil_of_length_pos ?_
        rw [length_bitsOf, List.length_take]
        omega
      · rw [length_bitsOf, List.length_take, MAX_BITS]
        omega
    have hload : loadInt 160 ⟨bitsOf (bytes.take 20), []⟩
        = .ok (field bytes 0 160 20, ⟨[], []⟩) := by
      have hlen : (bitsOf (bytes.take 20)).length = 160 := by
        rw [length_bitsOf, List.length_take_of_le hlong]
      rw [loadInt_eq_ok]
      refine ⟨hlen.ge, ?_, ?_⟩
      · rw [List.take_of_length_le hlen.le, natBits_bitsOf, field, List.drop_zero]
      · rw [List.drop_of_length_le hlen.le]
    have hstore : storeSlice [] ⟨bitsOf (bytes.take 20), []⟩
        = .ok ⟨bitsOf (bytes.take 20), []⟩ := by
      rw [storeSlice, if_pos]
      · rfl
      · rw [length_bitsOf, List.length_take, List.length_nil]
        omega
    rw [if_pos hlong]
    generalize readAndStoreLargeData cs 160 = read at hcell
    obtain ⟨digestCell, rest⟩ := read
    obtain rfl : digestCell = [bitsOf (bytes.take 20)] := hcell
    show (storeSlice [] ⟨bitsOf (bytes.take 20), []⟩ >>= fun siblingDigest => _) = _
    rw [hstore, except_ok_bind, hload, except_ok_bind]
    dsimp only
    rw [nodeHash_eq]
    rfl
  · have hcell := readAndStoreLargeData_short (show cs.all.length < 160 by omega)
      (by rw [MAX_BITS]; omega)
    rw [if_neg hlong]
    generalize readAndStoreLargeData cs 160 = read at hcell
    obtain ⟨digestCell, rest⟩ := read
    obtain rfl : digestCell = [] := hcell
    rfl

/-! ## The verdict -/

theorem climb_path (path : MerklePath 20) (digest : BitVec 160) {cs : Slice} {rest : Bytes}
    (hcs : cs.all = bitsOf (path.flatMap Subtype.val ++ rest)) :
    ∃ cs', climb keccak256 path.length digest cs = .ok (climbPath keccak256 digest path, cs') ∧
      cs'.all = bitsOf rest := by
  induction path generalizing digest cs with
  | nil => exact ⟨cs, rfl, hcs⟩
  | cons sibling path ih =>
    rw [List.flatMap_cons, List.append_assoc] at hcs
    have hlen := sibling.property
    have hnext : (readAndStoreLargeData cs 160).2.all
        = bitsOf (path.flatMap Subtype.val ++ rest) := by
      rw [all_readAndStoreLargeData, hcs, ← bitsOf_drop 20, List.drop_left' hlen]
    have hfield : field (sibling.val ++ (path.flatMap Subtype.val ++ rest)) 0 160 20
        = siblingDigest sibling := by
      rw [field, List.drop_zero, List.take_left' hlen, siblingDigest]
    obtain ⟨cs', hclimb, hcs'⟩ :=
      ih (Pyth.MerkleTree.nodeHash keccak256 digest (siblingDigest sibling)) hnext
    refine ⟨cs', ?_, hcs'⟩
    rw [List.length_cons, climb_succ hcs, if_pos (by rw [List.length_append]; omega), hfield,
      hclimb]
    rfl

/-- **The check on TON**, for a message that fits behind the prefix and a proof whose first byte
is in the current cell. -/
theorem readAndVerifyProof_eq (keccak256 : Bytes → Bytes32) {path : MerklePath 20}
    (hlength : path.length ≤ 255) (root : HashArray 20) {message rest : Bytes} (hmessage : message.length ≤ 126) {cs : Slice}
    (hcs : cs.all = bitsOf (UInt8.ofNat path.length :: (path.flatMap Subtype.val ++ rest)))
    (hbyte : 8 ≤ cs.bits.length) :
    ∃ cs', cs'.all = bitsOf rest ∧
      readAndVerifyProof keccak256 (siblingDigest root) ⟨bitsOf message, []⟩ cs =
        if climbPath keccak256 (Pyth.MerkleTree.leafHash keccak256 message) path
            = siblingDigest root then .ok cs'
        else .error (.code ERROR_DIGEST_MISMATCH) := by
  obtain ⟨bits, refs⟩ := cs
  have hhead : bits.take 8 = bitsBE 8 (UInt8.ofNat path.length).toNat := by
    have h := congrArg (List.take 8) hcs
    rwa [Slice.all, List.take_append_of_le_length hbyte, bitsOf_cons,
      List.take_left' (length_bitsBE 8 _)] at h
  have hsize : (UInt8.ofNat path.length).toNat = path.length := by
    rw [UInt8.toNat_ofNat', Nat.mod_eq_of_lt (by omega)]
  have hload : loadInt 8 ⟨bits, refs⟩
      = .ok (BitVec.ofNat 8 path.length, ⟨bits.drop 8, refs⟩) := by
    refine loadInt_eq_ok.mpr ⟨hbyte, ?_, rfl⟩
    show BitVec.ofNat 8 path.length = BitVec.ofNat 8 (natBits (bits.take 8))
    rw [hhead, hsize, natBits_bitsBE]
    apply BitVec.eq_of_toNat_eq
    rw [BitVec.toNat_ofNat, BitVec.toNat_ofNat, Nat.mod_mod]
  have hrest : (⟨bits.drop 8, refs⟩ : Slice).all
      = bitsOf (path.flatMap Subtype.val ++ rest) := by
    have h := congrArg (List.drop 8) hcs
    rwa [Slice.all, List.drop_append_of_le_length hbyte, bitsOf_cons,
      List.drop_left' (length_bitsBE 8 _)] at h
  have hnat : (BitVec.ofNat 8 path.length).toNat = path.length := by
    rw [BitVec.toNat_ofNat, Nat.mod_eq_of_lt (by omega)]
  obtain ⟨cs', hclimb, hcs'⟩ :=
    climb_path path (Pyth.MerkleTree.leafHash keccak256 message) hrest
  refine ⟨cs', hcs', ?_⟩
  rw [readAndVerifyProof, leafHash_eq hmessage, except_ok_bind, hload, except_ok_bind]
  dsimp only
  rw [hnat, hclimb, except_ok_bind]
  dsimp only
  by_cases hroot : climbPath keccak256 (Pyth.MerkleTree.leafHash keccak256 message) path
      = siblingDigest root
  · rw [if_pos hroot, throwUnless, if_pos hroot.symm]
    rfl
  · rw [if_neg hroot, throwUnless, if_neg (fun heq => hroot heq.symm)]
    rfl

end

end PythCrosschain.Ton
