import PythCrosschain.PythnetSdk.MerkleTree

/-!
# Membership proofs

What a `MerkleTree` proves. The results are:

- `prove` returns a path for every item, and `check` accepts that path, except
  where the leaf hash of the item is the default hash, which `new` leaves in the
  unused first node and `prove` finds there;
- the path is as long as the tree is deep, and is that of the first place of the item, or two
  hashed strings collide;
- `check` accepts nothing but items, whatever the path is, or two hashed strings
  collide.
-/

namespace PythCrosschain.PythnetSdk.MerkleTree

variable {N : Nat}

/-! ## Collisions -/

/-- Two different strings of `S` have the same hash. -/
def Collision (H : Hasher N) (S : Set Bytes) : Prop :=
  ∃ a ∈ S, ∃ b ∈ S, a ≠ b ∧ H.digest a = H.digest b

/-- The strings that `new` hashes for the leaves of `items`. -/
def leafStrings (items : List Bytes) : Set Bytes :=
  {s | (∃ item ∈ items, s = leafString item) ∨
    (items.length < 2 ^ Nat.clog 2 items.length ∧ s = nullString)}

/-- The strings that `new` hashes to build `t` for `items`. -/
def hashedByNew (items : List Bytes) (t : MerkleTree N) : Set Bytes :=
  HeapTree.treeStrings nodeString (leafStrings items) (Nat.clog 2 items.length)
    (t.nodes.getD · default)

/-- The strings that `check` hashes. -/
def hashedByCheck (H : Hasher N) (proof : MerklePath N) (item : Bytes) : Set Bytes :=
  {s | s ∈ HeapTree.foldStrings H.digest nodeString (leafString item) proof}

variable {H : Hasher N} {items : List Bytes} {t : MerkleTree N} {item : Bytes}

theorem injOn_of_no_collision {S : Set Bytes} (none : ¬ Collision H S) :
    Set.InjOn H.digest S := by
  intro a inA b inB same
  by_contra different
  exact none ⟨a, inA, b, inB, different, same⟩

theorem nodeString_notMem_leafStrings (l r : HashArray N) : nodeString l r ∉ leafStrings items := by
  rintro (⟨item, _, same⟩ | ⟨_, same⟩)
  · exact nodeString_ne_leafString l r item same
  · exact nodeString_ne_nullString l r same

theorem mem_of_leafString_mem (member : leafString item ∈ hashedByNew items t) :
    item ∈ items := by
  rcases member with (⟨item', inItems, same⟩ | ⟨_, same⟩) | ⟨id, _, _, same⟩
  · exact leafString_injective same ▸ inItems
  · exact absurd same (leafString_ne_nullString item)
  · exact absurd same.symm (nodeString_ne_leafString _ _ item)

/-! ## The position that `prove` finds -/

/-- The leaf of an item is among the nodes. -/
theorem leaf_node (built : BuiltFrom H items t) (member : item ∈ items) :
    ∃ id, id < t.nodes.length ∧ t.nodes.getD id default = hashLeaf H item := by
  obtain ⟨i, bound, rfl⟩ := List.getElem_of_mem member
  refine ⟨2 ^ Nat.clog 2 items.length + i, ?_, built.leaf i bound⟩
  have below := length_le_leaves items
  rw [built.length]
  omega

/-- `prove` finds the first node with the hash of the item. -/
theorem prove_first (built : BuiltFrom H items t) (member : item ∈ items) :
    ∃ index, index < t.nodes.length ∧ t.nodes.getD index default = hashLeaf H item ∧
      (∀ j < index, t.nodes.getD j default ≠ hashLeaf H item) ∧
      prove H t item = some (findPath t index) := by
  obtain ⟨id, bound, value⟩ := leaf_node built member
  have present : (t.nodes.findIdx? (· = hashLeaf H item)).isSome := by
    rw [List.findIdx?_isSome, List.any_eq_true]
    exact ⟨t.nodes[id], List.getElem_mem bound, by
      rw [← value, List.getD_eq_getElem _ _ bound]; exact decide_eq_true rfl⟩
  obtain ⟨index, found⟩ := Option.isSome_iff_exists.mp present
  obtain ⟨within, equal, first⟩ := List.findIdx?_eq_some_iff_getElem.mp found
  refine ⟨index, within, ?_, fun j before same => ?_, ?_⟩
  · rw [List.getD_eq_getElem _ _ within]
    exact of_decide_eq_true equal
  · rw [List.getD_eq_getElem _ _ (Nat.lt_trans before within)] at same
    exact first j before (decide_eq_true same)
  · rw [prove]
    show (t.nodes.findIdx? (· = hashLeaf H item)).bind (fun index => some (findPath t index)) = _
    rw [found, Option.bind_some]

/-! ## Completeness -/

/-- The path of a node is accepted for every item that hashes to the node. -/
theorem check_findPath (built : BuiltFrom H items t) {index : Nat} (positive : 0 < index)
    (bound : index < t.nodes.length) (value : t.nodes.getD index default = hashLeaf H item) :
    check H t.root (findPath t index) item = true := by
  have folded := HeapTree.fold_siblings (hashNode_comm H) built.inner positive
    (built.length ▸ bound)
  rw [check, decide_eq_true_iff, findPath_eq, ← value, built.root]
  exact folded

/-- The path that `prove` returns is accepted, unless it is the path of the
unused node. -/
theorem check_prove (built : BuiltFrom H items t) (member : item ∈ items) {path : MerklePath N}
    (proved : prove H t item = some path) :
    check H t.root path item = true ↔ (hashLeaf H item = default → t.root = default) := by
  obtain ⟨index, bound, value, first, found⟩ := prove_first built member
  cases Option.some.inj (found.symm.trans proved)
  rcases Nat.eq_zero_or_pos index with rfl | positive
  · have unused : hashLeaf H item = default := value.symm.trans built.unused
    rw [check, decide_eq_true_iff, findPath_eq, HeapTree.siblings_of_le (Nat.zero_le 1),
      List.foldl_nil, unused]
    exact ⟨fun same _ => same.symm, fun same => (same rfl).symm⟩
  · have used : hashLeaf H item ≠ default := by
      rw [← built.unused]
      exact (first 0 positive).symm
    exact ⟨fun _ unused => absurd unused used,
      fun _ => check_findPath built positive bound value⟩

/-- The path that `prove` returns is as long as the tree is deep, unless it is
the path of the unused node or of an inner node that collides with the leaf. -/
theorem length_prove (built : BuiltFrom H items t) (member : item ∈ items) {path : MerklePath N}
    (proved : prove H t item = some path) :
    path.length = Nat.clog 2 items.length ∨ hashLeaf H item = default ∨
      Collision H (hashedByNew items t) := by
  obtain ⟨index, bound, value, _, found⟩ := prove_first built member
  cases Option.some.inj (found.symm.trans proved)
  rcases Nat.eq_zero_or_pos index with rfl | positive
  · exact Or.inr (Or.inl (value.symm.trans built.unused))
  by_cases inner : index < 2 ^ Nat.clog 2 items.length
  · refine Or.inr (Or.inr ⟨leafString item, Or.inl (Or.inl ⟨item, member, rfl⟩), _,
      Or.inr ⟨index, positive, inner, rfl⟩, (nodeString_ne_leafString _ _ item).symm, ?_⟩)
    exact value.symm.trans (built.inner index positive inner)
  · left
    rw [findPath_eq, HeapTree.length_siblings]
    exact (Nat.log2_eq_iff (Nat.ne_of_gt positive)).mpr
      ⟨Nat.le_of_not_lt inner, built.length ▸ bound⟩

/-- The leaf of an item collides with what else has its hash. -/
theorem collision_of_leaf (member : item ∈ items) {s : Bytes} (hashed : s ∈ hashedByNew items t)
    (different : s ≠ leafString item) (same : H.digest s = hashLeaf H item) :
    Collision H (hashedByNew items t) :=
  ⟨s, hashed, leafString item, Or.inl (Or.inl ⟨item, member, rfl⟩), different, same⟩

/-- The path that `prove` returns is that of the first item equal to the given one, with the same
exceptions. -/
theorem prove_idxOf (built : BuiltFrom H items t) (member : item ∈ items) :
    prove H t item = some (findPath t (2 ^ Nat.clog 2 items.length + items.idxOf item)) ∨
      hashLeaf H item = default ∨ Collision H (hashedByNew items t) := by
  obtain ⟨index, bound, value, first, found⟩ := prove_first built member
  rcases Nat.eq_zero_or_pos index with rfl | positive
  · exact Or.inr (Or.inl (value.symm.trans built.unused))
  by_cases inner : index < 2 ^ Nat.clog 2 items.length
  · refine Or.inr (Or.inr (collision_of_leaf member (Or.inr ⟨index, positive, inner, rfl⟩)
      (nodeString_ne_leafString _ _ item) ?_))
    exact (built.inner index positive inner).symm.trans value
  obtain ⟨i, rfl⟩ := Nat.exists_eq_add_of_le (Nat.le_of_not_lt inner)
  rw [built.length] at bound
  by_cases used : i < items.length
  · have leaf : hashLeaf H items[i] = hashLeaf H item := (built.leaf i used).symm.trans value
    by_cases same : items[i] = item
    · -- No earlier item has the hash, so `i` is the first place of the item.
      have below : items.idxOf item ≤ i := by
        by_contra above
        have hne : (items[i] == item) = false :=
          List.not_of_lt_findIdx (p := (· == item)) (Nat.lt_of_not_le above)
        exact beq_eq_false_iff_ne.mp hne same
      have earliest : ¬ items.idxOf item < i := by
        intro earlier
        refine first _ (Nat.add_lt_add_left earlier _) ?_
        rw [built.leaf _ (Nat.lt_trans earlier used), List.getElem_idxOf]
      rw [found, Nat.le_antisymm below (Nat.le_of_not_lt earliest)]
      exact Or.inl rfl
    · exact Or.inr (Or.inr (collision_of_leaf member
        (Or.inl (Or.inl ⟨_, List.getElem_mem used, rfl⟩)) (fun h => same (leafString_injective h))
        leaf))
  · have null : hashNull H = hashLeaf H item :=
      (built.padding i (Nat.le_of_not_lt used) (by omega)).symm.trans value
    exact Or.inr (Or.inr (collision_of_leaf member (Or.inl (Or.inr ⟨by omega, rfl⟩))
      (leafString_ne_nullString item).symm null))

/-! ## Soundness -/

/-- The leaves of a tree are the hashes of its leaf strings. -/
theorem bottom_eq_hash (built : BuiltFrom H items t) {id : Nat}
    (leaf : 2 ^ Nat.clog 2 items.length ≤ id) (bound : id < 2 ^ (Nat.clog 2 items.length + 1)) :
    ∃ s ∈ leafStrings items, t.nodes.getD id default = H.digest s := by
  obtain ⟨i, rfl⟩ := Nat.exists_eq_add_of_le leaf
  by_cases used : i < items.length
  · exact ⟨leafString items[i], Or.inl ⟨_, List.getElem_mem used, rfl⟩, built.leaf i used⟩
  · have below : i < 2 ^ Nat.clog 2 items.length := by omega
    have padded : items.length < 2 ^ Nat.clog 2 items.length := by omega
    exact ⟨nullString, Or.inr ⟨padded, rfl⟩, built.padding i (Nat.le_of_not_lt used) below⟩

/-- Only items are accepted, whatever the path is, or two hashed strings collide. -/
theorem check_sound (built : BuiltFrom H items t) {path : MerklePath N}
    (accepted : check H t.root path item = true) (absent : item ∉ items) :
    Collision H (hashedByNew items t ∪ hashedByCheck H path item) := by
  by_contra none
  have ends : path.foldl (hashNode H) (H.digest (leafString item)) = t.nodes.getD 1 default := by
    rw [← built.root]
    exact of_decide_eq_true accepted
  have inner : HeapTree.IsTree (fun l r => H.digest (nodeString l r)) _ _ := built.inner
  have start := HeapTree.fold_start_mem inner (fun id => bottom_eq_hash built)
    nodeString_notMem_leafStrings (fun _ _ _ _ => nodeString_children)
    (injOn_of_no_collision none) Nat.one_pos (Nat.one_lt_two_pow (Nat.succ_ne_zero _)) ends
  exact absent (mem_of_leafString_mem start)

/-! ## Main results -/

/-- A tree proves its items and nothing else, up to collisions of the hashed
strings and to a leaf hash that is the default hash. -/
theorem membership_proofs (H : Hasher N) (items : List Bytes) (nonempty : items ≠ []) :
    ∃ t, new H items = some t ∧
      (∀ item ∈ items, ∃ path, prove H t item = some path ∧
        (check H t.root path item = true ↔ (hashLeaf H item = default → t.root = default)) ∧
        (path.length = Nat.clog 2 items.length ∨ hashLeaf H item = default ∨
          Collision H (hashedByNew items t))) ∧
      ∀ (x : Bytes) (path : MerklePath N), check H t.root path x = true → x ∉ items →
        Collision H (hashedByNew items t ∪ hashedByCheck H path x) := by
  obtain ⟨t, created⟩ := Option.ne_none_iff_exists'.mp (mt (new_eq_none H items).mp nonempty)
  have built := new_builtFrom created
  refine ⟨t, created, fun item member => ?_, fun x path accepted absent =>
    check_sound built accepted absent⟩
  obtain ⟨index, _, _, _, proved⟩ := prove_first built member
  exact ⟨_, proved, check_prove built member proved, length_prove built member proved⟩

/-- A hasher that gives the default hash to the leaf `[7]` and to nothing else. -/
def exHasher : Hasher 32 where
  digest s := if s = leafString [7] then default else ⟨List.replicate 32 1, rfl⟩

def exItems : List Bytes := [[7], [8]]

theorem exHasher_leaf : hashLeaf exHasher [7] = default := by
  show exHasher.digest (leafString [7]) = default
  simp only [exHasher, if_true]

theorem exHasher_node (l r : HashArray 32) :
    hashNode exHasher l r = ⟨List.replicate 32 1, rfl⟩ := by
  show exHasher.digest (nodeString l r) = _
  simp only [exHasher, if_neg (nodeString_ne_leafString l r [7])]

theorem membership_proofs_exItems :
    ∃ t, new exHasher exItems = some t ∧
      (∀ item ∈ exItems, ∃ path, prove exHasher t item = some path ∧
        (check exHasher t.root path item = true ↔
          (hashLeaf exHasher item = default → t.root = default)) ∧
        (path.length = Nat.clog 2 exItems.length ∨ hashLeaf exHasher item = default ∨
          Collision exHasher (hashedByNew exItems t))) ∧
      ∀ (x : Bytes) (path : MerklePath 32), check exHasher t.root path x = true → x ∉ exItems →
        Collision exHasher (hashedByNew exItems t ∪ hashedByCheck exHasher path x) :=
  membership_proofs exHasher exItems (List.cons_ne_nil _ _)

/-- `prove` finds the leaf `[7]` of `exItems` in the unused node, and the root
does not accept the empty path from there. -/
theorem unused_node_not_accepted :
    ¬ ∃ t, new exHasher exItems = some t ∧
      ∀ item ∈ exItems, ∃ path, prove exHasher t item = some path ∧
        path.length = Nat.clog 2 exItems.length ∧ check exHasher t.root path item = true := by
  rintro ⟨t, created, complete⟩
  have built := new_builtFrom created
  have member : [7] ∈ exItems := List.mem_cons_self
  obtain ⟨path, proved, _, accepted⟩ := complete [7] member
  have root : t.root = default := (check_prove built member proved).mp accepted exHasher_leaf
  -- The root is an inner node, and only the leaf `[7]` has the default hash.
  have inner := built.inner 1 Nat.one_pos (by decide)
  have ones : t.root = ⟨List.replicate 32 1, rfl⟩ :=
    (built.root.trans inner).trans (exHasher_node _ _)
  exact absurd (ones.symm.trans root) (by decide)

end PythCrosschain.PythnetSdk.MerkleTree
