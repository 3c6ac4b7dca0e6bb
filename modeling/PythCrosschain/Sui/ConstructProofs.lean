import PythCrosschain.PythnetSdk.Membership
import PythCrosschain.Sui.MerkleTree

/-!
# Sui: `construct_proofs`

The tree that `merkle_tree.move` builds for a list of messages, and the encoded proofs that it
returns. The array of nodes is written in place by `set_element`, level by level. The results are:

- `constructProofs_eq`: every depth up to 62 that has room for the messages gives the root and the
  siblings of a complete tree whose unused leaves are empty;
- `construct_proofs_agree`: `is_proof_valid` accepts the proofs one after the other, and the
  smallest depth gives the root of the SDK and its paths from the places of the messages;
- `repeated_message_proofs`: `prove` of the SDK looks for the first leaf of a message, so that a
  repeated message has another proof there.
-/

namespace PythCrosschain.Sui.MerkleTree

open PythnetSdk (HashArray MerklePath Keccak160 nextPowerOfTwo)

def MERKLE_EMPTY_LEAF_PREFIX : UInt8 := 2

def E_DEPTH_NOT_LARGE_ENOUGH_FOR_MESSAGES : ℕ := 1212121

/-- `1 << shift` in `u64`, which aborts where the shift is not below the width. -/
def oneShl (shift : ℕ) : Move.Result ℕ :=
  if shift < 64 then .ok (2 ^ shift) else .error .arithmeticError

/-- The new value is pushed behind the others and then takes the place of the old one. -/
def setElement (a : List Bytes20) (value : Bytes20) (index : ℕ) : Move.Result (List Bytes20) := do
  let (_, a) ← Move.swapRemove (a ++ [value]) index
  return a

section

variable (keccak256 : Bytes → BitVec 256)

def emptyLeafHash : Bytes20 := hash keccak256 [MERKLE_EMPTY_LEAF_PREFIX]

/-- Fill in bottom row with leaf hashes. -/
def fillLeaves (messages : List Bytes) (leaves : ℕ) (tree : List Bytes20) :
    Move.Result (List Bytes20) :=
  (List.range messages.length).foldlM (fun tree j => do
    let message ← Move.borrow messages j
    setElement tree (leafHash keccak256 message) (leaves + j)) tree

/-- Fill in the node hashes of one level. -/
def fillLevel (level : ℕ) (tree : List Bytes20) : Move.Result (List Bytes20) := do
  let levelNumNodes ← oneShl level
  (List.range levelNumNodes).foldlM (fun tree i => do
    let id := levelNumNodes + i
    let left ← Move.borrow tree (id * 2)
    let right ← Move.borrow tree (id * 2 + 1)
    setElement tree (nodeHash keccak256 left right) id) tree

/-- Filling the node hashes from bottom to top. -/
def fillNodes : ℕ → List Bytes20 → Move.Result (List Bytes20)
  | 0, tree => .ok tree
  | k + 1, tree => do
    let tree ← fillLevel keccak256 k tree
    fillNodes k tree

/-- The siblings on the way from `idx` to the root, behind `curProof`. -/
def appendSiblings (tree : List Bytes20) (curProof : Bytes) (idx : ℕ) : Move.Result Bytes :=
  if 1 < idx then do
    let sibling ← Move.borrow tree (idx ^^^ 1)
    -- Jump to parent
    appendSiblings tree (curProof ++ sibling.val) (idx / 2)
  else
    .ok curProof
termination_by idx

/-- After the two shifts the depth is at most 62, so that no index leaves `u64`. -/
def constructProofs (messages : List Bytes) (depth : UInt8) : Move.Result (Bytes20 × Bytes) := do
  let leaves ← oneShl depth.toNat
  Move.assert (¬leaves < messages.length) E_DEPTH_NOT_LARGE_ENOUGH_FOR_MESSAGES
  -- A full tree, and an entry at the end for swapping.
  let nodes ← oneShl (depth.toNat + 1)
  let tree := List.replicate (nodes + 1) (emptyLeafHash keccak256)
  let tree ← fillLeaves keccak256 messages leaves tree
  let tree ← fillNodes keccak256 depth.toNat tree
  let root ← Move.borrow tree 1
  let proofs ← (List.range messages.length).foldlM (fun proofs i => do
    let curProof ← appendSiblings tree [depth] (leaves + i)
    return proofs ++ curProof) []
  return (root, proofs)

/-- Calls of `is_proof_valid` on one cursor, for the messages in order. -/
def checkProofs (root : Bytes20) : List Bytes → Bytes → Move.Result (List Bool × Bytes)
  | [], encodedProof => .ok ([], encodedProof)
  | message :: messages, encodedProof => do
    let (valid, encodedProof) ← isProofValid keccak256 root message encodedProof
    let (valids, encodedProof) ← checkProofs root messages encodedProof
    return (valid :: valids, encodedProof)

end

/-- A path as the proofs hold it. -/
def encodePath (path : MerklePath 20) : Bytes :=
  UInt8.ofNat path.length :: path.flatMap Subtype.val

/-! ## The loops write a tree -/

variable {keccak256 : Bytes → BitVec 256}

theorem oneShl_of_lt {shift : ℕ} (h : shift < 64) : oneShl shift = .ok (2 ^ shift) := if_pos h

theorem setElement_eq {a : List Bytes20} {index : ℕ} (h : index < a.length) (value : Bytes20) :
    setElement a value index = .ok (a.set index value) := by
  unfold setElement
  rw [Move.swapRemove_concat h, except_ok_bind]
  rfl

theorem emptyLeafHash_eq :
    emptyLeafHash keccak256 = PythnetSdk.MerkleTree.hashNull (Keccak160 keccak256) := rfl

theorem fillLeaves_eq {messages : List Bytes} {leaves : ℕ} {tree : List Bytes20}
    (hlength : leaves + messages.length ≤ tree.length) :
    fillLeaves keccak256 messages leaves tree = .ok (HeapTree.fillRange
      (fun _ j => leafHash keccak256 (messages.getD j [])) leaves messages.length tree) := by
  refine HeapTree.foldlM_eq_fillRange fun tree' hsame j hj => ?_
  rw [Move.borrow_getD hj [], except_ok_bind]
  exact setElement_eq (by omega) _

theorem fillLevel_eq {level : ℕ} (hlevel : level < 64) {tree : List Bytes20}
    (hlength : 2 ^ (level + 2) ≤ tree.length) :
    fillLevel keccak256 level tree = .ok (HeapTree.fillRange (fun tree i =>
      nodeHash keccak256 (tree.getD (2 * (2 ^ level + i)) (emptyLeafHash keccak256))
        (tree.getD (2 * (2 ^ level + i) + 1) (emptyLeafHash keccak256)))
      (2 ^ level) (2 ^ level) tree) := by
  have hpower : 2 ^ (level + 2) = 4 * 2 ^ level := by ring
  unfold fillLevel
  rw [oneShl_of_lt hlevel, except_ok_bind]
  refine HeapTree.foldlM_eq_fillRange fun tree' hsame i hi => ?_
  dsimp only
  rw [Nat.mul_comm _ 2, Move.borrow_getD (by omega) (emptyLeafHash keccak256), except_ok_bind,
    Move.borrow_getD (by omega) (emptyLeafHash keccak256), except_ok_bind]
  exact setElement_eq (by omega) _

theorem fillNodes_eq {depth : ℕ} (hdepth : depth < 64) {tree : List Bytes20}
    (hlength : 2 ^ (depth + 1) ≤ tree.length) :
    fillNodes keccak256 depth tree =
      .ok (HeapTree.fillLevels (emptyLeafHash keccak256) (nodeHash keccak256) depth tree) := by
  induction depth generalizing tree with
  | zero => rfl
  | succ level ih =>
    have hpower : 2 ^ (level + 2) = 2 ^ (level + 1) + 2 ^ (level + 1) := by ring
    rw [fillNodes, fillLevel_eq (Nat.lt_of_succ_lt hdepth) hlength, except_ok_bind,
      HeapTree.fillLevels]
    exact ih (Nat.lt_of_succ_lt hdepth) (by rw [HeapTree.length_fillRange]; omega)

theorem appendSiblings_eq {depth : ℕ} {tree : List Bytes20} (default : Bytes20)
    (hlength : 2 ^ (depth + 1) ≤ tree.length) {idx : ℕ} (hidx : idx < 2 ^ (depth + 1))
    (curProof : Bytes) :
    appendSiblings tree curProof idx =
      .ok (curProof ++ (HeapTree.siblings (tree.getD · default) idx).flatMap Subtype.val) := by
  induction idx using Nat.strong_induction_on generalizing curProof with
  | _ idx ih =>
    by_cases hdeep : 1 < idx
    · obtain ⟨-, hsibling⟩ := HeapTree.sibling_bounds hdeep hidx
      rw [appendSiblings, if_pos hdeep, Move.borrow_getD (by omega) default, except_ok_bind,
        ih (idx / 2) (Nat.div_lt_self (by omega) (by omega)) (by omega),
        HeapTree.siblings_of_lt hdeep, List.flatMap_cons, List.append_assoc]
    · rw [appendSiblings, if_neg hdeep, HeapTree.siblings_of_le (Nat.le_of_not_lt hdeep),
        List.flatMap_nil, List.append_nil]

/-! ## What is returned -/

/-- A complete tree over the messages, with empty leaves behind them. -/
structure TreeOver (keccak256 : Bytes → BitVec 256) (messages : List Bytes) (depth : ℕ)
    (nodes : ℕ → Bytes20) : Prop where
  leaf : ∀ i (h : i < messages.length), nodes (2 ^ depth + i) = leafHash keccak256 messages[i]
  padding : ∀ i, messages.length ≤ i → i < 2 ^ depth →
    nodes (2 ^ depth + i) = emptyLeafHash keccak256
  inner : HeapTree.IsTree (nodeHash keccak256) depth nodes

/-- The encoded path from the place of every message. -/
def proofsOf (messages : List Bytes) (depth : ℕ) (nodes : ℕ → Bytes20) : Bytes :=
  (List.range messages.length).flatMap fun i =>
    encodePath (HeapTree.siblings nodes (2 ^ depth + i))

theorem length_siblings_leaf (nodes : ℕ → Bytes20) {depth i : ℕ} (hi : i < 2 ^ depth) :
    (HeapTree.siblings nodes (2 ^ depth + i)).length = depth := by
  have hpower : 2 ^ (depth + 1) = 2 ^ depth + 2 ^ depth := by ring
  rw [HeapTree.length_siblings]
  exact (Nat.log2_eq_iff (by have := Nat.two_pow_pos depth; omega)).mpr ⟨by omega, by omega⟩

theorem foldlM_append {f : ℕ → Move.Result Bytes} {g : ℕ → Bytes} {n : ℕ}
    (hf : ∀ i < n, f i = .ok (g i)) :
    ((List.range n).foldlM (fun proofs i => do
      let curProof ← f i
      return proofs ++ curProof) [] : Move.Result Bytes) = .ok ((List.range n).flatMap g) := by
  induction n with
  | zero => rfl
  | succ n ih =>
    rw [List.range_succ, List.foldlM_append, ih fun i hi => hf i (Nat.lt_succ_of_lt hi),
      List.flatMap_append, List.flatMap_singleton]
    rw [except_ok_bind, List.foldlM_cons, hf n (Nat.lt_succ_self n)]
    rfl

/-- **The code builds a tree.** -/
theorem constructProofs_eq {messages : List Bytes} {depth : UInt8} (hdepth : depth.toNat ≤ 62)
    (hfits : messages.length ≤ 2 ^ depth.toNat) :
    ∃ nodes, TreeOver keccak256 messages depth.toNat nodes ∧
      constructProofs keccak256 messages depth
        = .ok (nodes 1, proofsOf messages depth.toNat nodes) := by
  have hpower : 2 ^ (depth.toNat + 1) = 2 ^ depth.toNat + 2 ^ depth.toNat := by ring
  have hpos := Nat.two_pow_pos depth.toNat
  set empty := emptyLeafHash keccak256 with hempty
  set blank := List.replicate (2 ^ (depth.toNat + 1) + 1) empty with hblank
  have hblankLength : blank.length = 2 ^ (depth.toNat + 1) + 1 := List.length_replicate
  set row := HeapTree.fillRange (fun _ j => leafHash keccak256 (messages.getD j []))
    (2 ^ depth.toNat) messages.length blank with hrow
  have hrowLength : row.length = 2 ^ (depth.toNat + 1) + 1 :=
    (HeapTree.length_fillRange blank).trans hblankLength
  set tree := HeapTree.fillLevels empty (nodeHash keccak256) depth.toNat row with htree
  have htreeLength : tree.length = 2 ^ (depth.toNat + 1) + 1 :=
    (HeapTree.length_fillLevels _ row).trans hrowLength
  have hbottom (i : ℕ) : tree.getD (2 ^ depth.toNat + i) empty
      = row.getD (2 ^ depth.toNat + i) empty :=
    HeapTree.fillLevels_leaf row (Nat.le_add_right _ _)
  refine ⟨(tree.getD · empty), ⟨fun i hi => ?_, fun i hbeyond hi => ?_, ?_⟩, ?_⟩
  · have hentry : (HeapTree.fillRange (fun _ j => leafHash keccak256 (messages.getD j []))
          (2 ^ depth.toNat) messages.length blank).getD (2 ^ depth.toNat + i) empty
        = leafHash keccak256 (messages.getD i []) :=
      HeapTree.fillRange_entry (fun _ _ _ _ => rfl) (by omega) hi
    show tree.getD _ empty = _
    rw [hbottom, hrow, hentry, List.getD_eq_getElem?_getD, List.getElem?_eq_getElem hi]
    rfl
  · show tree.getD _ empty = _
    rw [hbottom, hrow, HeapTree.fillRange_frame _ (Or.inr (by omega)), hblank,
      List.getD_replicate _ (by omega)]
  · exact HeapTree.fillLevels_isTree (by omega)
  · have hproofs := foldlM_append (n := messages.length)
      (f := fun i => appendSiblings tree [depth] (2 ^ depth.toNat + i))
      (g := fun i => encodePath (HeapTree.siblings (tree.getD · empty) (2 ^ depth.toNat + i)))
      fun i hi => by
        have hlength : 2 ^ (depth.toNat + 1) ≤ tree.length := by omega
        rw [appendSiblings_eq empty hlength (by omega), encodePath,
          length_siblings_leaf _ (by omega), UInt8.ofNat_toNat]
        rfl
    unfold constructProofs
    rw [oneShl_of_lt (by omega), except_ok_bind,
      Move.assert_eq_ok (u := ()) |>.mpr (Nat.not_lt.mpr hfits), except_ok_bind,
      oneShl_of_lt (by omega), except_ok_bind]
    dsimp only
    rw [fillLeaves_eq (by rw [List.length_replicate]; omega), except_ok_bind, ← hempty, ← hblank,
      ← hrow, fillNodes_eq (by omega) (by omega), except_ok_bind, ← hempty, ← htree,
      Move.borrow_getD (by omega) empty, except_ok_bind]
    show (_ >>= _) = _
    rw [hproofs, except_ok_bind]
    rfl

/-! ## The proofs are accepted -/

theorem nodeHash_funext :
    nodeHash keccak256 = PythnetSdk.MerkleTree.hashNode (Keccak160 keccak256) :=
  funext fun a => funext fun b => nodeHash_eq a b

variable {messages : List Bytes}

/-- The path of a message leads to the root. -/
theorem TreeOver.check_siblings {depth : ℕ} {nodes : ℕ → Bytes20}
    (h : TreeOver keccak256 messages depth nodes) (hfits : messages.length ≤ 2 ^ depth) {i : ℕ}
    (hi : i < messages.length) :
    PythnetSdk.MerkleTree.check (Keccak160 keccak256) (nodes 1)
      (HeapTree.siblings nodes (2 ^ depth + i)) messages[i] = true := by
  have hpower : 2 ^ (depth + 1) = 2 ^ depth + 2 ^ depth := by ring
  have hpos := Nat.two_pow_pos depth
  have hid : 1 ≤ 2 ^ depth + i := by omega
  have hfold := HeapTree.fold_siblings (PythnetSdk.MerkleTree.hashNode_comm _)
    (nodeHash_funext ▸ h.inner) hid (by omega)
  rw [h.leaf i hi, leafHash_eq] at hfold
  rw [PythnetSdk.MerkleTree.check, hfold]
  exact decide_eq_true rfl

theorem checkProofs_eq {root : Bytes20} {paths : List (MerklePath 20)}
    (hpaths : List.Forall₂ (fun path message => path.length ≤ 255 ∧
      PythnetSdk.MerkleTree.check (Keccak160 keccak256) root path message = true) paths messages)
    (rest : Bytes) :
    checkProofs keccak256 root messages (paths.flatMap encodePath ++ rest)
      = .ok (List.replicate messages.length true, rest) := by
  induction hpaths with
  | nil => rfl
  | @cons path message paths messages hpath _ ih =>
    obtain ⟨hlength, hcheck⟩ := hpath
    rw [List.flatMap_cons, List.append_assoc, encodePath, List.cons_append,
      checkProofs, isProofValid_eq hlength, hcheck, except_ok_bind]
    dsimp only
    rw [ih, except_ok_bind]
    rfl

theorem TreeOver.checkProofs {depth : ℕ} {nodes : ℕ → Bytes20}
    (h : TreeOver keccak256 messages depth nodes) (hdepth : depth ≤ 255)
    (hfits : messages.length ≤ 2 ^ depth) (rest : Bytes) :
    MerkleTree.checkProofs keccak256 (nodes 1) messages (proofsOf messages depth nodes ++ rest)
      = .ok (List.replicate messages.length true, rest) := by
  have hproofs : proofsOf messages depth nodes = ((List.range messages.length).map fun i =>
      HeapTree.siblings nodes (2 ^ depth + i)).flatMap encodePath := by
    rw [List.flatMap_map]
    rfl
  rw [hproofs]
  refine checkProofs_eq (List.forall₂_iff_get.mpr ⟨by simp, fun i hi hi' => ?_⟩) rest
  simp only [List.get_eq_getElem, List.getElem_map, List.getElem_range]
  exact ⟨by rw [length_siblings_leaf nodes (Nat.lt_of_lt_of_le hi' hfits)]; exact hdepth,
    h.check_siblings hfits hi'⟩

/-! ## Against the SDK -/

/-- The nodes of the smallest tree are those of the SDK. -/
theorem TreeOver.eq_sdk {depth : ℕ} {nodes : ℕ → Bytes20} {t : PythnetSdk.MerkleTree 20}
    (h : TreeOver keccak256 messages depth nodes)
    (hbuilt : PythnetSdk.MerkleTree.BuiltFrom (Keccak160 keccak256) messages t)
    (hdepth : Nat.clog 2 messages.length = depth) {id : ℕ} (hpos : 0 < id)
    (hid : id < 2 ^ (depth + 1)) : nodes id = t.nodes.getD id default := by
  have hpower : 2 ^ (depth + 1) = 2 ^ depth + 2 ^ depth := by ring
  subst hdepth
  refine HeapTree.IsTree.eq_of_leaves (nodeHash_funext ▸ h.inner) hbuilt.inner
    (fun id hleaf hid => ?_) hpos hid
  obtain ⟨i, rfl⟩ := Nat.exists_eq_add_of_le hleaf
  by_cases hi : i < messages.length
  · rw [h.leaf i hi, leafHash_eq]
    exact (hbuilt.leaf i hi).symm
  · rw [h.padding i (Nat.le_of_not_lt hi) (by omega), emptyLeafHash_eq]
    exact (hbuilt.padding i (Nat.le_of_not_lt hi) (by omega)).symm

theorem proofsOf_sdk {depth : ℕ} {nodes : ℕ → Bytes20} {t : PythnetSdk.MerkleTree 20}
    (hfits : messages.length ≤ 2 ^ depth)
    (hnodes : ∀ id, 0 < id → id < 2 ^ (depth + 1) → nodes id = t.nodes.getD id default) :
    proofsOf messages depth nodes = (List.range messages.length).flatMap fun i =>
      encodePath (t.findPath (2 ^ depth + i)) := by
  have hpower : 2 ^ (depth + 1) = 2 ^ depth + 2 ^ depth := by ring
  refine List.flatMap_congr fun i hi => ?_
  have hi := List.mem_range.mp hi
  rw [PythnetSdk.MerkleTree.findPath_eq, HeapTree.siblings_congr hnodes (by omega)]

/-- **The proofs of Sui.** They are accepted one after the other. In the smallest tree the root
is that of the SDK and the proofs are its paths from the places of the messages. `prove` takes the
path from the first place of a message, unless the hash of the leaf is the default hash or two of
the hashed strings collide. -/
theorem construct_proofs_agree (keccak256 : Bytes → BitVec 256) (messages : List Bytes)
    (depth : UInt8) (hdepth : depth.toNat ≤ 62) (hfits : messages.length ≤ 2 ^ depth.toNat) :
    ∃ root proofs, constructProofs keccak256 messages depth = .ok (root, proofs) ∧
      (∀ rest, checkProofs keccak256 root messages (proofs ++ rest)
        = .ok (List.replicate messages.length true, rest)) ∧
      (messages ≠ [] → 2 ^ depth.toNat = nextPowerOfTwo messages.length →
        ∃ t, PythnetSdk.MerkleTree.new (Keccak160 keccak256) messages = some t ∧ root = t.root ∧
          proofs = (List.range messages.length).flatMap (fun i =>
            encodePath (t.findPath (2 ^ depth.toNat + i))) ∧
          ∀ message ∈ messages,
            PythnetSdk.MerkleTree.prove (Keccak160 keccak256) t message
                = some (t.findPath (2 ^ depth.toNat + messages.idxOf message)) ∨
              PythnetSdk.MerkleTree.hashLeaf (Keccak160 keccak256) message = default ∨
              PythnetSdk.MerkleTree.Collision (Keccak160 keccak256)
                (PythnetSdk.MerkleTree.hashedByNew messages t)) := by
  obtain ⟨nodes, htree, hresult⟩ := @constructProofs_eq keccak256 _ _ hdepth hfits
  refine ⟨_, _, hresult, htree.checkProofs (by omega) hfits, fun hne hsmallest => ?_⟩
  obtain ⟨t, hnew⟩ := Option.ne_none_iff_exists'.mp
    (mt (PythnetSdk.MerkleTree.new_eq_none (Keccak160 keccak256) messages).mp hne)
  have hbuilt := PythnetSdk.MerkleTree.new_builtFrom hnew
  have hclog : Nat.clog 2 messages.length = depth.toNat :=
    (Nat.pow_right_injective (le_refl 2) hsmallest).symm
  have hnodes : ∀ id, 0 < id → id < 2 ^ (depth.toNat + 1) →
      nodes id = t.nodes.getD id default := fun id hpos hid =>
    htree.eq_sdk hbuilt hclog hpos hid
  refine ⟨t, hnew, ?_, proofsOf_sdk hfits hnodes, fun message hmem => ?_⟩
  · exact (hnodes 1 Nat.one_pos (Nat.one_lt_two_pow (Nat.succ_ne_zero _))).trans hbuilt.root.symm
  · exact hclog ▸ PythnetSdk.MerkleTree.prove_idxOf hbuilt hmem

/-- The first and the third message are equal. -/
def exRepeated : List Bytes := [[1], [2], [1]]

theorem construct_proofs_agree_exRepeated :
    ∃ root proofs, constructProofs exKeccak exRepeated 2 = .ok (root, proofs) ∧
      (∀ rest, checkProofs exKeccak root exRepeated (proofs ++ rest)
        = .ok (List.replicate 3 true, rest)) ∧
      ∃ t, PythnetSdk.MerkleTree.new (Keccak160 exKeccak) exRepeated = some t ∧ root = t.root ∧
        proofs = (List.range 3).flatMap fun i => encodePath (t.findPath (4 + i)) := by
  obtain ⟨root, proofs, hresult, hcheck, hsdk⟩ :=
    construct_proofs_agree exKeccak exRepeated 2 (by decide) (by decide)
  obtain ⟨t, hnew, hroot, hproofs, -⟩ := hsdk (List.cons_ne_nil _ _) (by decide)
  exact ⟨root, proofs, hresult, hcheck, t, hnew, hroot, hproofs⟩

/-- For the third message of `exRepeated`, `prove` returns the path of the first one. -/
theorem repeated_message_proofs :
    ¬∃ root proofs t paths, constructProofs exKeccak exRepeated 2 = .ok (root, proofs) ∧
      PythnetSdk.MerkleTree.new (Keccak160 exKeccak) exRepeated = some t ∧
      exRepeated.mapM (PythnetSdk.MerkleTree.prove (Keccak160 exKeccak) t) = some paths ∧
      proofs = paths.flatMap encodePath := by
  rintro ⟨root, proofs, t, paths, hresult, hnew, hpaths, hproofs⟩
  have hdifferent : (constructProofs exKeccak exRepeated 2).toOption.map Prod.snd ≠
      (PythnetSdk.MerkleTree.new (Keccak160 exKeccak) exRepeated).bind fun t =>
        (exRepeated.mapM (PythnetSdk.MerkleTree.prove (Keccak160 exKeccak) t)).map
          (·.flatMap encodePath) := by
    decide +kernel
  rw [hresult, hnew, Option.bind_some, hpaths] at hdifferent
  exact hdifferent (congrArg some hproofs)

end PythCrosschain.Sui.MerkleTree
