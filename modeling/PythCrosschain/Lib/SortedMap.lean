import Mathlib.Order.Defs.LinearOrder
import Mathlib.Data.List.Sort

/-!
# Sorted maps of bounded size

A `SortedMap` is a list of entries with strictly ascending keys, so every key has
at most one entry. `truncate size` removes first entries until `size` are left.
A map that is truncated after every insertion holds the `size` greatest keys of
its history (`Newest.insert`): a key that is gone lies below all keys that are
still there. So an entry that nobody overwrites stays until `size` greater ones
displace it (`mem_insert_truncate`, `Displaced.insert`).
-/

namespace PythCrosschain

/-- A map as the list of its entries in the order of their keys. -/
structure SortedMap (K V : Type) [LinearOrder K] where
  entries : List (K × V)
  sorted : entries.Pairwise fun a b => a.1 < b.1

namespace SortedMap

variable {K V : Type} [LinearOrder K]

def empty : SortedMap K V := ⟨[], .nil⟩

def len (m : SortedMap K V) : ℕ := m.entries.length

def keys (m : SortedMap K V) : List K := m.entries.map (·.1)

/-- Put an entry in its place, instead of an entry with the same key. -/
def insert (m : SortedMap K V) (k : K) (v : V) : SortedMap K V where
  entries := m.entries.filter (·.1 < k) ++ (k, v) :: m.entries.filter (k < ·.1)
  sorted := by
    refine List.pairwise_append.mpr ⟨m.sorted.filter _, ?_, ?_⟩
    · refine List.pairwise_cons.mpr ⟨fun e he => ?_, m.sorted.filter _⟩
      exact of_decide_eq_true (List.mem_filter.mp he).2
    · intro a ha b hb
      have hak : a.1 < k := of_decide_eq_true (List.mem_filter.mp ha).2
      rcases List.mem_cons.mp hb with rfl | hb
      · exact hak
      · exact hak.trans (of_decide_eq_true (List.mem_filter.mp hb).2)

/-- Remove the first entry. -/
def popFirst (m : SortedMap K V) : SortedMap K V := ⟨m.entries.tail, m.sorted.tail⟩

/-- Remove the first entry while there are more than `size`. -/
def truncate (size : ℕ) (m : SortedMap K V) : SortedMap K V := popFirst^[m.len - size] m

def first? (m : SortedMap K V) : Option (K × V) := m.entries.head?

def last? (m : SortedMap K V) : Option (K × V) := m.entries.getLast?

/-- The value of a key. -/
def get? (m : SortedMap K V) (k : K) : Option V := (m.entries.find? (·.1 = k)).map (·.2)

/-- The first entry whose key is at least `k`. -/
def firstFrom (m : SortedMap K V) (k : K) : Option (K × V) := m.entries.find? (k ≤ ·.1)

theorem mem_keys {m : SortedMap K V} {k : K} : k ∈ m.keys ↔ ∃ v, (k, v) ∈ m.entries := by
  simp [keys]

theorem mem_insert {m : SortedMap K V} {k : K} {v : V} {e : K × V} :
    e ∈ (m.insert k v).entries ↔ e = (k, v) ∨ e ∈ m.entries ∧ e.1 ≠ k := by
  simp only [insert, List.mem_append, List.mem_cons, List.mem_filter, decide_eq_true_eq]
  constructor
  · rintro (⟨he, hlt⟩ | rfl | ⟨he, hlt⟩)
    · exact .inr ⟨he, hlt.ne⟩
    · exact .inl rfl
    · exact .inr ⟨he, hlt.ne'⟩
  · rintro (rfl | ⟨he, hne⟩)
    · exact .inr (.inl rfl)
    · rcases lt_or_gt_of_ne hne with hlt | hlt
      · exact .inl ⟨he, hlt⟩
      · exact .inr (.inr ⟨he, hlt⟩)

theorem mem_keys_insert {m : SortedMap K V} {k j : K} {v : V} :
    j ∈ (m.insert k v).keys ↔ j = k ∨ j ∈ m.keys := by
  simp only [mem_keys, mem_insert, Prod.mk.injEq]
  constructor
  · rintro ⟨w, ⟨rfl, rfl⟩ | ⟨hw, hne⟩⟩
    · exact .inl rfl
    · exact .inr ⟨w, hw⟩
  · rintro (rfl | ⟨w, hw⟩)
    · exact ⟨v, .inl ⟨rfl, rfl⟩⟩
    · rcases eq_or_ne j k with rfl | hne
      · exact ⟨v, .inl ⟨rfl, rfl⟩⟩
      · exact ⟨w, .inr ⟨hw, hne⟩⟩

theorem nodup_keys (m : SortedMap K V) : m.keys.Nodup :=
  List.pairwise_map.mpr (m.sorted.imp fun h => h.ne)

@[simp] theorem length_keys (m : SortedMap K V) : m.keys.length = m.len := List.length_map _

/-- A new key makes the map longer by one, a key of the map does not. -/
theorem len_insert (m : SortedMap K V) (k : K) (v : V) :
    (m.insert k v).len = if k ∈ m.keys then m.len else m.len + 1 := by
  have hperm : (m.insert k v).keys.Perm (k :: m.keys.erase k) := by
    refine (List.perm_ext_iff_of_nodup (nodup_keys _) ?_).mpr fun j => ?_
    · refine List.nodup_cons.mpr ⟨?_, m.nodup_keys.erase k⟩
      exact fun h => absurd rfl ((m.nodup_keys.mem_erase_iff).mp h).1
    · rw [mem_keys_insert, List.mem_cons, m.nodup_keys.mem_erase_iff]
      rcases eq_or_ne j k with rfl | hne
      · simp
      · simp [hne]
  have hlen := hperm.length_eq
  rw [length_keys, List.length_cons] at hlen
  split
  · next h =>
    have hpos := List.length_pos_of_mem h
    rw [List.length_erase_of_mem h, length_keys] at hlen
    rw [length_keys] at hpos
    omega
  · next h => rw [hlen, List.erase_of_not_mem h, length_keys]

theorem entries_truncate (size : ℕ) (m : SortedMap K V) :
    (m.truncate size).entries = m.entries.drop (m.len - size) := by
  have hiterate : ∀ n (m : SortedMap K V), (popFirst^[n] m).entries = m.entries.drop n := by
    intro n
    induction n with
    | zero => exact fun m => rfl
    | succ n ih =>
      intro m
      rw [Function.iterate_succ_apply, ih, popFirst, List.drop_tail]
  exact hiterate _ m

/-- Truncating a map that is too long by one drops its first entry. -/
theorem truncate_over {size : ℕ} {m : SortedMap K V} (h : m.len = size + 1) :
    ∃ e₀ rest, m.entries = e₀ :: rest ∧ (m.truncate size).entries = rest ∧
      rest.length = size := by
  obtain ⟨e₀, rest, hentries⟩ : ∃ e₀ rest, m.entries = e₀ :: rest :=
    List.exists_cons_of_length_eq_add_one h
  have hcons : rest.length + 1 = size + 1 := (congrArg List.length hentries).symm.trans h
  refine ⟨e₀, rest, hentries, ?_, Nat.succ.inj hcons⟩
  rw [entries_truncate, hentries, h, Nat.add_sub_cancel_left, List.drop_one, List.tail_cons]

/-- Truncating a map that fits does nothing. -/
theorem truncate_of_le {size : ℕ} {m : SortedMap K V} (h : m.len ≤ size) :
    m.truncate size = m := by
  rw [truncate, Nat.sub_eq_zero_of_le h]
  rfl

/-- A key has one entry. -/
theorem entry_unique {m : SortedMap K V} {e e' : K × V} (he : e ∈ m.entries)
    (he' : e' ∈ m.entries) (hkey : e.1 = e'.1) : e = e' :=
  List.inj_on_of_nodup_map m.nodup_keys he he' hkey

/-- The last entry that satisfies `p` is the greatest one that does. -/
theorem findLast_greatest {m : SortedMap K V} {p : K × V → Bool} {e : K × V}
    (h : m.entries.reverse.find? p = some e) :
    e ∈ m.entries ∧ p e = true ∧ ∀ e' ∈ m.entries, p e' = true → e'.1 ≤ e.1 := by
  obtain ⟨hp, newer, older, hentries, hnewer⟩ := List.find?_eq_some_iff_append.mp h
  have hsorted := List.pairwise_reverse.mpr m.sorted
  have hmem : ∀ e', e' ∈ m.entries ↔ e' ∈ newer ++ e :: older := fun e' => by
    rw [← hentries, List.mem_reverse]
  rw [hentries] at hsorted
  refine ⟨(hmem e).mpr (List.mem_append_right _ List.mem_cons_self), hp, fun e' he' hp' => ?_⟩
  rcases List.mem_append.mp ((hmem e').mp he') with hin | hin
  · have hnot := hnewer e' hin
    rw [hp'] at hnot
    cases hnot
  · rcases List.mem_cons.mp hin with rfl | hin
    · exact le_rfl
    · exact ((List.pairwise_cons.mp (List.pairwise_append.mp hsorted).2.1).1 e' hin).le

/-- The last entry of all has the greatest key. -/
theorem last_greatest {m : SortedMap K V} {e : K × V} (h : m.last? = some e) :
    e ∈ m.entries ∧ ∀ e' ∈ m.entries, e'.1 ≤ e.1 := by
  have hlast : m.entries.getLast? = some e := h
  obtain ⟨rest, hentries⟩ := List.getLast?_eq_some_iff.mp hlast
  have hsorted := m.sorted
  rw [hentries] at hsorted
  refine ⟨hentries ▸ List.mem_append_right _ List.mem_cons_self, fun e' he' => ?_⟩
  rw [hentries] at he'
  rcases List.mem_append.mp he' with hin | hin
  · exact ((List.pairwise_append.mp hsorted).2.2 e' hin e List.mem_cons_self).le
  · rw [List.mem_singleton.mp hin]

/-- The first entry from `k` on is the least one that is at least `k`. -/
theorem firstFrom_least {m : SortedMap K V} {k : K} {e : K × V} (h : m.firstFrom k = some e) :
    e ∈ m.entries ∧ k ≤ e.1 ∧ ∀ e' ∈ m.entries, k ≤ e'.1 → e.1 ≤ e'.1 := by
  obtain ⟨hk, before, after, hentries, hbefore⟩ := List.find?_eq_some_iff_append.mp h
  have hk : k ≤ e.1 := of_decide_eq_true hk
  refine ⟨hentries ▸ List.mem_append_right _ List.mem_cons_self, hk, fun e' he' hke' => ?_⟩
  have hsorted := m.sorted
  rw [hentries] at he' hsorted
  rcases List.mem_append.mp he' with he' | he'
  · have hlt := hbefore e' he'
    simp only [Bool.not_eq_true', decide_eq_false_iff_not] at hlt
    exact absurd hke' hlt
  · rcases List.mem_cons.mp he' with rfl | he'
    · exact le_rfl
    · exact (List.pairwise_cons.mp (List.pairwise_append.mp hsorted).2.1).1 e' he' |>.le

/-- The first entry of all has the least key. -/
theorem first_least {m : SortedMap K V} {e : K × V} (h : m.first? = some e) :
    e ∈ m.entries ∧ ∀ e' ∈ m.entries, e.1 ≤ e'.1 := by
  have hhead : m.entries.head? = some e := h
  refine ⟨List.mem_of_mem_head? hhead, fun e' he' => ?_⟩
  obtain ⟨rest, hentries⟩ := List.head?_eq_some_iff.mp hhead
  have hsorted := m.sorted
  rw [hentries] at he' hsorted
  rcases List.mem_cons.mp he' with rfl | he'
  · exact le_rfl
  · exact ((List.pairwise_cons.mp hsorted).1 e' he').le

/-! ## Maps of bounded size -/

/-- The map holds the greatest keys of a history of insertions: `size` of them,
or all if there are fewer. Its entries are from the history. -/
structure Newest (size : ℕ) (history : List (K × V)) (m : SortedMap K V) : Prop where
  stored : ∀ e ∈ m.entries, e ∈ history
  bounded : m.len ≤ size
  evicted : ∀ e ∈ history, e.1 ∉ m.keys → m.len = size ∧ ∀ k ∈ m.keys, e.1 < k

theorem Newest.empty (size : ℕ) : Newest size [] (empty : SortedMap K V) :=
  ⟨fun _ he => he, Nat.zero_le _, fun _ he => absurd he List.not_mem_nil⟩

/-- Inserting into a full map under a new key and dropping the first entry. -/
theorem Newest.insert_full {size : ℕ} {history : List (K × V)} {m : SortedMap K V} {k : K} {v : V}
    (h : Newest size history m)
    {e₀ : K × V} {rest : List (K × V)} (hentries : (m.insert k v).entries = e₀ :: rest)
    {e : K × V} (he : e = (k, v) ∨ e ∈ history) (hgone : e.1 ∉ rest.map (·.1)) :
    ∀ j ∈ rest.map (·.1), e.1 < j := by
  have hsorted := (m.insert k v).sorted
  rw [hentries] at hsorted
  have hmin : ∀ j ∈ rest.map (·.1), e₀.1 < j := by
    intro j hj
    obtain ⟨e', he', rfl⟩ := List.mem_map.mp hj
    exact (List.pairwise_cons.mp hsorted).1 e' he'
  have hkeys : ∀ j, (j = e₀.1 ∨ j ∈ rest.map (·.1)) ↔ j = k ∨ j ∈ m.keys := by
    intro j
    rw [← mem_keys_insert (v := v), keys, hentries, List.map_cons, List.mem_cons]
  -- Either the key is the one that was dropped, or it was below all others before.
  rcases Decidable.em (e.1 = k ∨ e.1 ∈ m.keys) with hin | hout
  · have hfirst : e.1 = e₀.1 := ((hkeys e.1).mpr hin).resolve_right hgone
    rw [hfirst]
    exact hmin
  · have hne : ¬ e.1 = k := fun heq => hout (.inl heq)
    have hmem : e ∈ history := he.resolve_left fun heq => hne (congrArg Prod.fst heq)
    have hbelow := (h.evicted e hmem fun hin => hout (.inr hin)).2
    intro j hj
    rcases (hkeys j).mp (.inr hj) with rfl | hjm
    · -- The new key is not the first one, so an old key lies below it.
      have hold : e₀.1 ∈ m.keys := by
        rcases (hkeys e₀.1).mp (.inl rfl) with heq | hold
        · exact absurd (hmin _ hj) (heq ▸ lt_irrefl _)
        · exact hold
      exact (hbelow _ hold).trans (hmin _ hj)
    · exact hbelow j hjm

/-- Insertion and truncation keep the greatest keys of the longer history. -/
theorem Newest.insert {size : ℕ} {history : List (K × V)} {m : SortedMap K V}
    (h : Newest size history m) (k : K) (v : V) :
    Newest size ((k, v) :: history) ((m.insert k v).truncate size) := by
  have hlen := len_insert m k v
  have hstored : ∀ e ∈ (m.insert k v).entries, e ∈ (k, v) :: history := by
    intro e he
    rcases mem_insert.mp he with rfl | ⟨he, -⟩
    · exact List.mem_cons_self
    · exact List.mem_cons_of_mem _ (h.stored e he)
  rcases Nat.lt_or_ge size (m.insert k v).len with hover | hfits
  · -- The map was full and the key is new: one entry is dropped.
    have hnew : k ∉ m.keys := by
      intro hk
      rw [if_pos hk] at hlen
      exact absurd (hlen ▸ hover) (Nat.not_lt.mpr h.bounded)
    rw [if_neg hnew] at hlen
    have hfull : m.len = size := Nat.le_antisymm h.bounded (by omega)
    obtain ⟨e₀, rest, hentries, htruncated, hrest⟩ := truncate_over (hfull ▸ hlen)
    refine ⟨fun e he => ?_, ?_, fun e he hgone => ?_⟩
    · rw [htruncated] at he
      exact hstored e (hentries ▸ List.mem_cons_of_mem _ he)
    · rw [len, htruncated, hrest]
    · rw [len, htruncated]
      rw [keys, htruncated] at hgone ⊢
      exact ⟨hrest, h.insert_full hentries (List.mem_cons.mp he) hgone⟩
  · rw [truncate_of_le hfits]
    refine ⟨hstored, hfits, fun e he hgone => ?_⟩
    have hnot : e.1 ≠ k ∧ e.1 ∉ m.keys :=
      ⟨fun heq => hgone (mem_keys_insert.mpr (.inl heq)),
        fun hin => hgone (mem_keys_insert.mpr (.inr hin))⟩
    have hmem : e ∈ history := by
      rcases List.mem_cons.mp he with rfl | he
      · exact absurd rfl hnot.1
      · exact he
    obtain ⟨hfull, hbelow⟩ := h.evicted e hmem hnot.2
    -- A full map only takes a key that it has.
    have hk : k ∈ m.keys := by
      refine Decidable.byContradiction fun hk => ?_
      rw [if_neg hk] at hlen
      omega
    rw [if_pos hk] at hlen
    refine ⟨hlen.trans hfull, fun j hj => ?_⟩
    rcases mem_keys_insert.mp hj with rfl | hj
    · exact hbelow j hk
    · exact hbelow j hj

/-! ## One entry of a map of bounded size -/

theorem mem_of_mem_truncate {size : ℕ} {m : SortedMap K V} {e : K × V}
    (h : e ∈ (m.truncate size).entries) : e ∈ m.entries := by
  rw [entries_truncate] at h
  exact List.mem_of_mem_drop h

/-- Storing an entry with a property keeps a map of entries with that property. -/
theorem forall_insert_truncate {m : SortedMap K V} {p : K × V → Prop}
    (h : ∀ e ∈ m.entries, p e) {k : K} {v : V} (hp : p (k, v)) (size : ℕ) :
    ∀ e ∈ ((m.insert k v).truncate size).entries, p e := by
  intro e he
  rcases mem_insert.mp (mem_of_mem_truncate he) with rfl | ⟨hmem, -⟩
  · exact hp
  · exact h e hmem

theorem mem_of_get? {m : SortedMap K V} {k : K} {v : V} (h : m.get? k = some v) :
    (k, v) ∈ m.entries := by
  obtain ⟨⟨j, w⟩, hfound, rfl⟩ := Option.map_eq_some_iff.mp h
  have hkey := List.find?_some hfound
  obtain rfl : j = k := of_decide_eq_true hkey
  exact List.mem_of_find?_eq_some hfound

/-- The map is full of keys greater than `k`. -/
def Displaced (size : ℕ) (m : SortedMap K V) (k : K) : Prop :=
  m.len = size ∧ ∀ j ∈ m.keys, k < j

/-- An entry that truncation removes is displaced. -/
theorem mem_truncate_or_displaced {m : SortedMap K V} {e : K × V} (h : e ∈ m.entries)
    (size : ℕ) : e ∈ (m.truncate size).entries ∨ (m.truncate size).Displaced size e.1 := by
  have hsorted := m.sorted
  rw [← List.take_append_drop (m.len - size) m.entries] at h hsorted
  rcases List.mem_append.mp h with htake | hdrop
  · refine .inr ⟨?_, fun j hj => ?_⟩
    · have hpos : 0 < m.len - size := by
        refine Nat.pos_of_ne_zero fun hzero => ?_
        rw [hzero, List.take_zero] at htake
        cases htake
      rw [len, entries_truncate, List.length_drop]
      show m.len - (m.len - size) = size
      omega
    · obtain ⟨e', he', rfl⟩ := List.mem_map.mp hj
      rw [entries_truncate] at he'
      exact (List.pairwise_append.mp hsorted).2.2 e htake e' he'
  · rw [entries_truncate]
    exact .inl hdrop

/-- An entry stays through an insertion that does not overwrite it, or is displaced. -/
theorem mem_insert_truncate {m : SortedMap K V} {e : K × V} (h : e ∈ m.entries) {k : K} {v : V}
    (hsame : k = e.1 → v = e.2) (size : ℕ) :
    e ∈ ((m.insert k v).truncate size).entries ∨
      ((m.insert k v).truncate size).Displaced size e.1 := by
  refine mem_truncate_or_displaced (mem_insert.mpr ?_) size
  rcases eq_or_ne k e.1 with heq | hne
  · exact .inl (Prod.ext heq.symm (hsame heq).symm)
  · exact .inr ⟨h, hne.symm⟩

/-- What is displaced stays displaced. -/
theorem Displaced.insert {size : ℕ} {m : SortedMap K V} {k₀ : K} (h : m.Displaced size k₀)
    (k : K) (v : V) : ((m.insert k v).truncate size).Displaced size k₀ := by
  obtain ⟨hfull, hbelow⟩ := h
  have hlen := len_insert m k v
  split at hlen
  · next hk =>
    rw [truncate_of_le (hlen.trans hfull).le]
    refine ⟨hlen.trans hfull, fun j hj => ?_⟩
    rcases mem_keys_insert.mp hj with rfl | hj
    · exact hbelow j hk
    · exact hbelow j hj
  · next hk =>
    obtain ⟨e₀, rest, hentries, htruncated, hrest⟩ := truncate_over (hfull ▸ hlen)
    have hsorted := (m.insert k v).sorted
    rw [hentries, List.pairwise_cons] at hsorted
    have hfirst : e₀.1 = k ∨ e₀.1 ∈ m.keys :=
      mem_keys_insert.mp (List.mem_map.mpr ⟨e₀, hentries ▸ List.mem_cons_self, rfl⟩)
    refine ⟨?_, fun j hj => ?_⟩
    · rw [len, htruncated, hrest]
    · rw [keys, htruncated] at hj
      obtain ⟨e, he, rfl⟩ := List.mem_map.mp hj
      have hmem : e ∈ (m.insert k v).entries := hentries ▸ List.mem_cons_of_mem _ he
      rcases mem_keys_insert.mp (List.mem_map.mpr ⟨e, hmem, rfl⟩) with hnew | hold
      · -- The new key is not the first one, so an old key lies below it.
        rcases hfirst with hk₀ | hold
        · exact absurd (hsorted.1 e he) (by rw [hk₀, hnew]; exact lt_irrefl k)
        · exact (hbelow _ hold).trans (hsorted.1 e he)
      · exact hbelow _ hold

end SortedMap

end PythCrosschain
