import Mathlib.Data.Nat.Bitwise
import Mathlib.Data.Set.Function

/-!
# Implicit binary trees

A complete binary tree of depth `d` in heap order is a list of nodes with the
root at 1, the children of `id` at `2 * id` and `2 * id + 1` and the leaves from
`2 ^ d` on. The results are:

- filling the levels from the bottom to the top makes every inner node the
  combination of its children and leaves the leaves alone;
- for a commutative combination, folding the siblings of a node from the node
  itself ends at the root;
- two trees with the same leaves have the same nodes and siblings;
- where nodes are hashes of separated leaf and node strings, a fold that ends at
  the root starts at a leaf, whatever the siblings are, or two of the hashed
  strings collide.
-/

namespace PythCrosschain.HeapTree

variable {α : Type}

/-- Every inner node of a tree of depth `depth` is the combination of its children. -/
def IsTree (combine : α → α → α) (depth : Nat) (nodes : Nat → α) : Prop :=
  ∀ id, 0 < id → id < 2 ^ depth → nodes id = combine (nodes (2 * id)) (nodes (2 * id + 1))

/-! ## Filling a list of nodes -/

section

variable (default : α)

/-- A loop that writes `count` consecutive entries from `base` on. -/
def fillRange (entry : List α → Nat → α) (base count : Nat) (tree : List α) : List α :=
  (List.range count).foldl (fun tree i => tree.set (base + i) (entry tree i)) tree

/-- The loop over the inner levels, from the bottom to the top. -/
def fillLevels (combine : α → α → α) : Nat → List α → List α
  | 0, tree => tree
  | level + 1, tree =>
    fillLevels combine level (fillRange (fun tree i =>
      combine (tree.getD (2 * (2 ^ level + i)) default)
        (tree.getD (2 * (2 ^ level + i) + 1) default)) (2 ^ level) (2 ^ level) tree)

variable {default : α} {entry : List α → Nat → α} {base count : Nat}

theorem fillRange_succ (tree : List α) :
    fillRange entry base (count + 1) tree =
      (fillRange entry base count tree).set (base + count)
        (entry (fillRange entry base count tree) count) := by
  simp only [fillRange, List.range_succ, List.foldl_append, List.foldl_cons, List.foldl_nil]

@[simp] theorem length_fillRange (tree : List α) :
    (fillRange entry base count tree).length = tree.length := by
  induction count with
  | zero => rfl
  | succ count ih => rw [fillRange_succ, List.length_set, ih]

theorem getD_set_ne {tree : List α} {i j : Nat} {value : α} (different : i ≠ j) :
    (tree.set i value).getD j default = tree.getD j default := by
  rw [List.getD_eq_getElem?_getD, List.getD_eq_getElem?_getD, List.getElem?_set_ne different]

theorem getD_set_self {tree : List α} {i : Nat} {value : α} (bound : i < tree.length) :
    (tree.set i value).getD i default = value := by
  rw [List.getD_eq_getElem?_getD, List.getElem?_set_self bound, Option.getD_some]

/-- The loop writes nothing outside of its range. -/
theorem fillRange_frame (tree : List α) {j : Nat} (outside : j < base ∨ base + count ≤ j) :
    (fillRange entry base count tree).getD j default = tree.getD j default := by
  induction count with
  | zero => rfl
  | succ count ih =>
    have other : base + count ≠ j := by omega
    rw [fillRange_succ, getD_set_ne other]
    exact ih (by omega)

/-- Where `entry` only reads behind the range, the loop writes what `entry` says
of the list before the loop. -/
theorem fillRange_entry {tree : List α}
    (reads : ∀ tree' : List α,
      (∀ j, base + count ≤ j → tree'.getD j default = tree.getD j default) →
      ∀ i < count, entry tree' i = entry tree i)
    (bound : base + count ≤ tree.length) {i : Nat} (inside : i < count) :
    (fillRange entry base count tree).getD (base + i) default = entry tree i := by
  -- The induction is on how far the loop has come, not on the length of the range.
  have progress : ∀ done ≤ count, i < done →
      (fillRange entry base done tree).getD (base + i) default = entry tree i := by
    intro done
    induction done with
    | zero => intro _ none; exact absurd none (Nat.not_lt_zero i)
    | succ done ih =>
      intro within earlier
      rw [fillRange_succ]
      rcases Nat.lt_succ_iff_lt_or_eq.mp earlier with before | rfl
      · have other : base + done ≠ base + i := by omega
        rw [getD_set_ne other]
        exact ih (Nat.le_of_succ_le within) before
      · rw [getD_set_self (by rw [length_fillRange]; omega)]
        exact reads _ (fun j behind => fillRange_frame tree (Or.inr (by omega))) i inside
  exact progress count le_rfl inside

/-- A loop whose steps can fail and do not, in every list of the length of the first. -/
theorem foldlM_eq_fillRange {ε : Type} {step : List α → Nat → Except ε (List α)} {tree : List α}
    (writes : ∀ tree' : List α, tree'.length = tree.length → ∀ i < count,
      step tree' i = .ok (tree'.set (base + i) (entry tree' i))) :
    (List.range count).foldlM step tree = .ok (fillRange entry base count tree) := by
  induction count with
  | zero => rfl
  | succ count ih =>
    have before := ih fun tree' same i inside => writes tree' same i (Nat.lt_succ_of_lt inside)
    rw [List.range_succ, List.foldlM_append, before, fillRange_succ]
    show (List.foldlM step (fillRange entry base count tree) [count] : Except ε (List α)) = _
    rw [List.foldlM_cons, writes _ (length_fillRange tree) count (Nat.lt_succ_self count)]
    rfl

variable {combine : α → α → α}

@[simp] theorem length_fillLevels (depth : Nat) (tree : List α) :
    (fillLevels default combine depth tree).length = tree.length := by
  induction depth generalizing tree with
  | zero => rfl
  | succ level ih => rw [fillLevels, ih, length_fillRange]

/-- Filling the inner levels leaves the leaves alone. -/
theorem fillLevels_leaf {depth : Nat} (tree : List α) {j : Nat} (leaf : 2 ^ depth ≤ j) :
    (fillLevels default combine depth tree).getD j default = tree.getD j default := by
  induction depth generalizing tree with
  | zero => rfl
  | succ level ih =>
    have power : 2 ^ (level + 1) = 2 ^ level + 2 ^ level := by omega
    rw [fillLevels, ih _ (by omega)]
    exact fillRange_frame tree (Or.inr (by omega))

/-- Filling does not touch the entry below the root. -/
theorem fillLevels_zero {depth : Nat} (tree : List α) :
    (fillLevels default combine depth tree).getD 0 default = tree.getD 0 default := by
  induction depth generalizing tree with
  | zero => rfl
  | succ level ih =>
    rw [fillLevels, ih]
    exact fillRange_frame tree (Or.inl (Nat.two_pow_pos level))

/-- Filling the inner levels makes a tree. -/
theorem fillLevels_isTree {depth : Nat} {tree : List α} (bound : 2 ^ depth ≤ tree.length) :
    IsTree combine depth ((fillLevels default combine depth tree).getD · default) := by
  induction depth generalizing tree with
  | zero => intro id positive below; omega
  | succ level ih =>
    have power : 2 ^ (level + 1) = 2 ^ level + 2 ^ level := by omega
    intro id positive below
    by_cases upper : id < 2 ^ level
    · exact ih (by rw [length_fillRange]; omega) id positive upper
    -- A node of this level: the levels above it change neither it nor its children.
    · obtain ⟨i, rfl⟩ := Nat.exists_eq_add_of_le (Nat.le_of_not_lt upper)
      have child : ∀ j, 2 ^ (level + 1) ≤ j →
          (fillLevels default combine (level + 1) tree).getD j default = tree.getD j default :=
        fun j leaf => fillLevels_leaf tree leaf
      show (fillLevels _ _ _ _).getD _ _ = combine ((fillLevels _ _ _ _).getD _ _)
        ((fillLevels _ _ _ _).getD _ _)
      rw [child (2 * (2 ^ level + i)) (by omega), child (2 * (2 ^ level + i) + 1) (by omega),
        fillLevels, fillLevels_leaf _ (Nat.le_add_right _ _)]
      refine fillRange_entry (fun tree' same j inside => ?_) (by omega) (by omega)
      rw [same _ (by omega), same _ (by omega)]

end

/-! ## The way to the root -/

/-- The siblings of a node and of its ancestors, up to the root. -/
def siblings (nodes : Nat → α) (id : Nat) : List α :=
  if 1 < id then nodes (id ^^^ 1) :: siblings nodes (id / 2) else []
termination_by id

variable {combine : α → α → α} {depth : Nat} {nodes : Nat → α}

theorem siblings_of_le {id : Nat} (top : id ≤ 1) : siblings nodes id = [] := by
  rw [siblings, if_neg (Nat.not_lt.mpr top)]

theorem siblings_of_lt {id : Nat} (deep : 1 < id) :
    siblings nodes id = nodes (id ^^^ 1) :: siblings nodes (id / 2) := by
  rw [siblings, if_pos deep]

theorem length_siblings (id : Nat) : (siblings nodes id).length = id.log2 := by
  induction id using Nat.strong_induction_on with
  | _ id ih =>
    by_cases deep : 1 < id
    · rw [siblings_of_lt deep, List.length_cons, ih _ (Nat.div_lt_self (by omega) (by omega)),
        Nat.log2_def id, if_pos (Nat.succ_le_of_lt deep)]
    · rw [siblings_of_le (Nat.le_of_not_lt deep), Nat.log2_def,
        if_neg (show ¬ 2 ≤ id from deep), List.length_nil]

/-- A node and its sibling combine to their parent. -/
theorem combine_sibling (commutes : ∀ a b, combine a b = combine b a)
    (tree : IsTree combine depth nodes) {id : Nat} (deep : 1 < id) (bound : id < 2 ^ (depth + 1)) :
    combine (nodes id) (nodes (id ^^^ 1)) = nodes (id / 2) := by
  have parent := tree (id / 2) (by omega) (by omega)
  rcases Nat.even_or_odd id with even | odd
  · obtain ⟨half, rfl⟩ := even
    have halved : (half + half) / 2 = half := by omega
    have left : 2 * half = half + half := by omega
    rw [parent, Nat.xor_one_of_even ⟨half, rfl⟩, halved, left]
  · obtain ⟨half, rfl⟩ := odd
    have halved : (2 * half + 1) / 2 = half := by omega
    rw [parent, Nat.xor_one_of_odd ⟨half, rfl⟩, halved, Nat.add_sub_cancel, commutes]

/-- Folding the siblings of a node from the node itself ends at the root. -/
theorem fold_siblings (commutes : ∀ a b, combine a b = combine b a)
    (tree : IsTree combine depth nodes) {id : Nat} (positive : 0 < id)
    (bound : id < 2 ^ (depth + 1)) :
    (siblings nodes id).foldl combine (nodes id) = nodes 1 := by
  induction id using Nat.strong_induction_on with
  | _ id ih =>
    by_cases deep : 1 < id
    · rw [siblings_of_lt deep, List.foldl_cons, combine_sibling commutes tree deep bound]
      exact ih (id / 2) (Nat.div_lt_self positive (by omega)) (by omega) (by omega)
    · obtain rfl : id = 1 := by omega
      rw [siblings_of_le le_rfl, List.foldl_nil]

/-! ## Two trees with the same leaves -/

section

variable {other : Nat → α}

/-- The leaves determine the nodes above them. -/
theorem IsTree.eq_of_leaves (tree : IsTree combine depth nodes)
    (otherTree : IsTree combine depth other)
    (leaves : ∀ id, 2 ^ depth ≤ id → id < 2 ^ (depth + 1) → nodes id = other id) {id : Nat}
    (positive : 0 < id) (bound : id < 2 ^ (depth + 1)) : nodes id = other id := by
  -- The induction goes down from the last leaf to the root.
  induction h : 2 ^ (depth + 1) - id using Nat.strong_induction_on generalizing id with
  | _ distance ih =>
    by_cases inner : id < 2 ^ depth
    · have left : nodes (2 * id) = other (2 * id) :=
        ih (2 ^ (depth + 1) - 2 * id) (by omega) (by omega) (by omega) rfl
      have right : nodes (2 * id + 1) = other (2 * id + 1) :=
        ih (2 ^ (depth + 1) - (2 * id + 1)) (by omega) (by omega) (by omega) rfl
      rw [tree id positive inner, otherTree id positive inner, left, right]
    · exact leaves id (Nat.le_of_not_lt inner) bound

/-- The sibling of a node below the root is one. -/
theorem sibling_bounds {id : Nat} (deep : 1 < id) (bound : id < 2 ^ (depth + 1)) :
    0 < id ^^^ 1 ∧ id ^^^ 1 < 2 ^ (depth + 1) := by
  rcases Nat.even_or_odd id with even | odd
  · have sibling := Nat.xor_one_of_even even
    obtain ⟨half, rfl⟩ := even
    omega
  · have sibling := Nat.xor_one_of_odd odd
    omega

theorem siblings_congr (same : ∀ id, 0 < id → id < 2 ^ (depth + 1) → nodes id = other id)
    {id : Nat} (bound : id < 2 ^ (depth + 1)) : siblings nodes id = siblings other id := by
  induction id using Nat.strong_induction_on with
  | _ id ih =>
    by_cases deep : 1 < id
    · obtain ⟨positive, below⟩ := sibling_bounds deep bound
      rw [siblings_of_lt deep, siblings_of_lt deep, same _ positive below,
        ih (id / 2) (Nat.div_lt_self (by omega) (by omega)) (by omega)]
    · rw [siblings_of_le (Nat.le_of_not_lt deep), siblings_of_le (Nat.le_of_not_lt deep)]

end

/-! ## Folds that end at a node -/

section

variable {β : Type} {hash : β → α} {join : α → α → β} {leaves : Set β}

/-- The strings whose hashes are the nodes of a tree: those of its leaves and
those that join two children. -/
def treeStrings (join : α → α → β) (leaves : Set β) (depth : Nat) (nodes : Nat → α) : Set β :=
  leaves ∪ {s | ∃ id, 0 < id ∧ id < 2 ^ depth ∧ s = join (nodes (2 * id)) (nodes (2 * id + 1))}

/-- The strings that a fold over `path` hashes, from the string `start`. -/
def foldStrings (hash : β → α) (join : α → α → β) : β → List α → List β
  | start, [] => [start]
  | start, sibling :: path => start :: foldStrings hash join (join (hash start) sibling) path

theorem start_mem_foldStrings (start : β) (path : List α) :
    start ∈ foldStrings hash join start path := by
  cases path with
  | nil => exact List.mem_singleton_self start
  | cons sibling path => exact List.mem_cons_self

/-- Every node is the hash of one of the strings of its tree. -/
theorem node_eq_hash (tree : IsTree (fun a b => hash (join a b)) depth nodes)
    (bottom : ∀ id, 2 ^ depth ≤ id → id < 2 ^ (depth + 1) → ∃ s ∈ leaves, nodes id = hash s)
    {id : Nat} (positive : 0 < id) (bound : id < 2 ^ (depth + 1)) :
    ∃ s ∈ treeStrings join leaves depth nodes, nodes id = hash s := by
  by_cases inner : id < 2 ^ depth
  · exact ⟨_, Or.inr ⟨id, positive, inner, rfl⟩, tree id positive inner⟩
  · obtain ⟨s, leaf, value⟩ := bottom id (Nat.le_of_not_lt inner) bound
    exact ⟨s, Or.inl leaf, value⟩

/-- Where nothing collides, a string whose hash is a node is the string of that node. -/
theorem mem_of_hash_eq_node (tree : IsTree (fun a b => hash (join a b)) depth nodes)
    (bottom : ∀ id, 2 ^ depth ≤ id → id < 2 ^ (depth + 1) → ∃ s ∈ leaves, nodes id = hash s)
    {S : Set β} (noCollision : Set.InjOn hash (treeStrings join leaves depth nodes ∪ S))
    {s : β} (hashed : s ∈ S) {id : Nat} (positive : 0 < id) (bound : id < 2 ^ (depth + 1))
    (same : hash s = nodes id) : s ∈ treeStrings join leaves depth nodes := by
  obtain ⟨s', member, value⟩ := node_eq_hash tree bottom positive bound
  have equal : s = s' := noCollision (Or.inr hashed) (Or.inl member) (same.trans value)
  exact equal ▸ member

/-- A fold that ends at a node of the tree starts at one of the strings of the
tree, whatever the siblings are. -/
theorem fold_start_mem (tree : IsTree (fun a b => hash (join a b)) depth nodes)
    (bottom : ∀ id, 2 ^ depth ≤ id → id < 2 ^ (depth + 1) → ∃ s ∈ leaves, nodes id = hash s)
    (separated : ∀ a b, join a b ∉ leaves)
    (children : ∀ a b c d, join a b = join c d → a = c ∨ a = d) {start : β} {path : List α}
    (noCollision : Set.InjOn hash
      (treeStrings join leaves depth nodes ∪ {s | s ∈ foldStrings hash join start path}))
    {id : Nat} (positive : 0 < id) (bound : id < 2 ^ (depth + 1))
    (ends : path.foldl (fun a b => hash (join a b)) (hash start) = nodes id) :
    start ∈ treeStrings join leaves depth nodes := by
  induction path generalizing start with
  | nil =>
    exact mem_of_hash_eq_node tree bottom noCollision (start_mem_foldStrings start [])
      positive bound ends
  | cons sibling path ih =>
    -- The first step of the fold is the start of the rest, so it joins two children.
    have above : join (hash start) sibling ∈ treeStrings join leaves depth nodes :=
      ih (noCollision.mono (Set.union_subset_union_right _ fun s => List.mem_cons_of_mem start))
        ends
    rcases above with leaf | ⟨parent, above, inner, joined⟩
    · exact absurd leaf (separated _ _)
    · have member : start ∈ foldStrings hash join start (sibling :: path) :=
        start_mem_foldStrings start (sibling :: path)
      rcases children _ _ _ _ joined with left | right
      · exact mem_of_hash_eq_node tree bottom noCollision member (by omega) (by omega) left
      · exact mem_of_hash_eq_node tree bottom noCollision member (by omega) (by omega) right

end

end PythCrosschain.HeapTree
