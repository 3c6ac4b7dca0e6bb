import Mathlib.Data.Nat.Log
import PythCrosschain.Lib.Bytes
import PythCrosschain.Lib.HeapTree

/-!
# `MerkleTree`

The Merkle accumulator of the Pythnet SDK, for any hasher. The nodes are a list
in heap order. `new` pads the leaves to a power of two, and `prove` looks for
the hash of an item from the front of that list. `BuiltFrom` is what `new` says
about its result.
-/

namespace PythCrosschain.PythnetSdk

/-- `[u8; N]`, the `Hash` of every hasher. -/
abbrev HashArray (N : Nat) := {bytes : Bytes // bytes.length = N}

/-- An array of equal bytes. -/
def HashArray.filled (N : Nat) (byte : UInt8) : HashArray N :=
  ⟨List.replicate N byte, List.length_replicate⟩

/-- The big-endian bytes of a number. -/
def HashArray.ofNat (N n : Nat) : HashArray N := ⟨bytesBE N n, length_bytesBE N n⟩

theorem length_take_32 {bytes : Bytes} (h : 32 ≤ bytes.length) : (bytes.take 32).length = 32 :=
  List.length_take_of_le h

instance {N : Nat} : Inhabited (HashArray N) := ⟨List.replicate N 0, List.length_replicate⟩

/-- The trait `Hasher`: a hash of the concatenated slices. -/
structure Hasher (N : Nat) where
  digest : Bytes → HashArray N

def Hasher.hashv {N : Nat} (H : Hasher N) (data : List Bytes) : HashArray N :=
  H.digest data.flatten

/-- `usize::next_power_of_two`: the smallest power of two that is at least `n`. -/
def nextPowerOfTwo (n : Nat) : Nat := 2 ^ Nat.clog 2 n

/-- `usize::trailing_zeros` of a number that is not zero. -/
def trailingZeros (n : Nat) : Nat :=
  if 0 < n ∧ n % 2 = 0 then trailingZeros (n / 2) + 1 else 0
termination_by n
decreasing_by omega

theorem trailingZeros_two_pow (k : Nat) : trailingZeros (2 ^ k) = k := by
  induction k with
  | zero => rw [trailingZeros, if_neg (by decide)]
  | succ k ih =>
    have even : 0 < 2 ^ (k + 1) ∧ 2 ^ (k + 1) % 2 = 0 := ⟨Nat.two_pow_pos _, by omega⟩
    have half : 2 ^ (k + 1) / 2 = 2 ^ k := by omega
    rw [trailingZeros, if_pos even, half, ih]

def LEAF_PREFIX : Bytes := [0]
def NODE_PREFIX : Bytes := [1]
def NULL_PREFIX : Bytes := [2]

abbrev MerklePath (N : Nat) := List (HashArray N)

structure MerkleTree (N : Nat) where
  root : HashArray N
  nodes : List (HashArray N)

namespace MerkleTree

variable {N : Nat} (H : Hasher N)

def hashLeaf (leaf : Bytes) : HashArray N :=
  H.hashv [LEAF_PREFIX, leaf]

def hashNode (l r : HashArray N) : HashArray N :=
  H.hashv [
    NODE_PREFIX,
    (if l.val ≤ r.val then l else r).val,
    (if l.val ≤ r.val then r else l).val]

def hashNull : HashArray N :=
  H.hashv [NULL_PREFIX]

/-- `MerkleRoot::check`. -/
def check (root : HashArray N) (proof : MerklePath N) (item : Bytes) : Bool :=
  proof.foldl (hashNode H) (hashLeaf H item) = root

/-- Filling the leaf hashes. -/
def fillLeaves (items : List Bytes) (depth : Nat) (tree : List (HashArray N)) :
    List (HashArray N) :=
  (List.range (2 ^ depth)).foldl (fun tree i =>
    tree.set (2 ^ depth + i)
      (if h : i < items.length then hashLeaf H items[i] else hashNull H)) tree

/-- Filling the node hashes of one level. -/
def fillLevel (level : Nat) (tree : List (HashArray N)) : List (HashArray N) :=
  (List.range (2 ^ level)).foldl (fun tree i =>
    let id := 2 ^ level + i
    tree.set id (hashNode H (tree.getD (id * 2) default) (tree.getD (id * 2 + 1) default))) tree

/-- Filling the node hashes from bottom to top. -/
def fillNodes : Nat → List (HashArray N) → List (HashArray N)
  | 0, tree => tree
  | level + 1, tree => fillNodes level (fillLevel H level tree)

def new (items : List Bytes) : Option (MerkleTree N) :=
  if items.isEmpty then
    none
  else
    let depth := trailingZeros (nextPowerOfTwo items.length)
    let tree := List.replicate (2 ^ (depth + 1)) default
    let tree := fillLeaves H items depth tree
    let tree := fillNodes H depth tree
    some { root := tree.getD 1 default, nodes := tree }

def findPath (t : MerkleTree N) (index : Nat) : MerklePath N :=
  if index > 1 then t.nodes.getD (index ^^^ 1) default :: findPath t (index / 2) else []
termination_by index

def prove (t : MerkleTree N) (item : Bytes) : Option (MerklePath N) := do
  let item := hashLeaf H item
  let index ← t.nodes.findIdx? (· = item)
  some (findPath t index)

/-! ## The strings that are hashed -/

def leafString (leaf : Bytes) : Bytes := [LEAF_PREFIX, leaf].flatten

def nodeString (l r : HashArray N) : Bytes :=
  [NODE_PREFIX, (if l.val ≤ r.val then l else r).val,
    (if l.val ≤ r.val then r else l).val].flatten

def nullString : Bytes := [NULL_PREFIX].flatten

theorem nodeString_comm (l r : HashArray N) : nodeString l r = nodeString r l := by
  unfold nodeString
  by_cases below : l.val ≤ r.val <;> by_cases above : r.val ≤ l.val
  · rw [Subtype.ext (List.le_antisymm below above)]
  · rw [if_pos below, if_pos below, if_neg above, if_neg above]
  · rw [if_neg below, if_neg below, if_pos above, if_pos above]
  · exact absurd (List.le_total l.val r.val) (fun either => either.elim below above)

theorem hashNode_comm (l r : HashArray N) : hashNode H l r = hashNode H r l := by
  show H.digest (nodeString l r) = H.digest (nodeString r l)
  rw [nodeString_comm]

/-- The string of a node tells its two children, not which one is left. -/
theorem nodeString_children {a b c d : HashArray N} (same : nodeString a b = nodeString c d) :
    a = c ∨ a = d := by
  simp only [nodeString, List.flatten_cons, List.flatten_nil, List.append_nil] at same
  have lengths : (if a.val ≤ b.val then a else b).val.length =
      (if c.val ≤ d.val then c else d).val.length :=
    (if a.val ≤ b.val then a else b).2.trans (if c.val ≤ d.val then c else d).2.symm
  obtain ⟨low, high⟩ := List.append_inj (List.append_cancel_left same) lengths
  by_cases ab : a.val ≤ b.val <;> by_cases cd : c.val ≤ d.val
  · rw [if_pos ab, if_pos cd] at low
    exact Or.inl (Subtype.ext low)
  · rw [if_pos ab, if_neg cd] at low
    exact Or.inr (Subtype.ext low)
  · rw [if_neg ab, if_pos cd] at high
    exact Or.inr (Subtype.ext high)
  · rw [if_neg ab, if_neg cd] at high
    exact Or.inl (Subtype.ext high)

theorem leafString_injective : Function.Injective leafString := by
  intro a b same
  simpa [leafString] using same

theorem nodeString_ne_leafString (l r : HashArray N) (leaf : Bytes) :
    nodeString l r ≠ leafString leaf := by
  simp [nodeString, leafString, NODE_PREFIX, LEAF_PREFIX]

theorem nodeString_ne_nullString (l r : HashArray N) : nodeString l r ≠ nullString := by
  simp [nodeString, nullString, NODE_PREFIX, NULL_PREFIX]

theorem leafString_ne_nullString (leaf : Bytes) : leafString leaf ≠ nullString := by
  simp [leafString, nullString, LEAF_PREFIX, NULL_PREFIX]

/-! ## What `new` builds -/

theorem fillLeaves_eq (items : List Bytes) (depth : Nat) (tree : List (HashArray N)) :
    fillLeaves H items depth tree =
      HeapTree.fillRange
        (fun _ i => if h : i < items.length then hashLeaf H items[i] else hashNull H)
        (2 ^ depth) (2 ^ depth) tree :=
  rfl

theorem fillNodes_eq (depth : Nat) (tree : List (HashArray N)) :
    fillNodes H depth tree = HeapTree.fillLevels default (hashNode H) depth tree := by
  induction depth generalizing tree with
  | zero => rfl
  | succ level ih =>
    rw [fillNodes, HeapTree.fillLevels, ih]
    simp only [fillLevel, HeapTree.fillRange, Nat.mul_comm 2]

theorem findPath_eq (t : MerkleTree N) (index : Nat) :
    findPath t index = HeapTree.siblings (t.nodes.getD · default) index := by
  fun_induction findPath t index with
  | case1 index deep ih => rw [HeapTree.siblings_of_lt deep, ih]
  | case2 index top => rw [HeapTree.siblings_of_le (Nat.le_of_not_lt top)]

/-- The tree that `new` builds for `items`: padded leaves under inner nodes, and
the default hash in the unused entry 0. -/
structure BuiltFrom (items : List Bytes) (t : MerkleTree N) : Prop where
  root : t.root = t.nodes.getD 1 default
  length : t.nodes.length = 2 ^ (Nat.clog 2 items.length + 1)
  unused : t.nodes.getD 0 default = default
  leaf : ∀ i (h : i < items.length),
    t.nodes.getD (2 ^ Nat.clog 2 items.length + i) default = hashLeaf H items[i]
  padding : ∀ i, items.length ≤ i → i < 2 ^ Nat.clog 2 items.length →
    t.nodes.getD (2 ^ Nat.clog 2 items.length + i) default = hashNull H
  inner : HeapTree.IsTree (hashNode H) (Nat.clog 2 items.length) (t.nodes.getD · default)

theorem length_le_leaves (items : List Bytes) : items.length ≤ 2 ^ Nat.clog 2 items.length :=
  Nat.le_pow_clog (by decide) _

theorem new_eq_none (items : List Bytes) : new H items = none ↔ items = [] := by
  cases items with
  | nil => simp [new]
  | cons item items => simp [new]

variable {H} {items : List Bytes} {t : MerkleTree N}

theorem new_builtFrom (built : new H items = some t) : BuiltFrom H items t := by
  unfold new at built
  split at built
  · cases built
  have depth_eq : trailingZeros (nextPowerOfTwo items.length) = Nat.clog 2 items.length :=
    trailingZeros_two_pow _
  simp only [depth_eq, fillLeaves_eq, fillNodes_eq, Option.some.injEq] at built
  set depth := Nat.clog 2 items.length
  have power : 2 ^ (depth + 1) = 2 ^ depth + 2 ^ depth := by omega
  have leaf_at : ∀ i < 2 ^ depth, t.nodes.getD (2 ^ depth + i) default =
      if h : i < items.length then hashLeaf H items[i] else hashNull H := by
    intro i below
    rw [← built]
    show (HeapTree.fillLevels _ _ _ _).getD _ _ = _
    rw [HeapTree.fillLevels_leaf _ (Nat.le_add_right _ _)]
    exact HeapTree.fillRange_entry (fun _ _ _ _ => rfl)
      (by rw [List.length_replicate, power]) below
  constructor
  case root => rw [← built]
  case length => rw [← built, HeapTree.length_fillLevels, HeapTree.length_fillRange,
    List.length_replicate]
  case unused =>
    rw [← built, HeapTree.fillLevels_zero, HeapTree.fillRange_frame _ (Or.inl (Nat.two_pow_pos _)),
      List.getD_replicate _ (Nat.two_pow_pos _)]
  case leaf =>
    intro i bound
    rw [leaf_at i (Nat.lt_of_lt_of_le bound (length_le_leaves items)), dif_pos bound]
  case padding =>
    intro i beyond below
    rw [leaf_at i below, dif_neg (Nat.not_lt.mpr beyond)]
  case inner =>
    rw [← built]
    refine HeapTree.fillLevels_isTree ?_
    rw [HeapTree.length_fillRange, List.length_replicate, power]
    exact Nat.le_add_right _ _

end MerkleTree

end PythCrosschain.PythnetSdk
