import Mathlib.Data.Finset.Insert
import Mathlib.Data.List.Basic
import Mathlib.Data.List.Induction
import Mathlib.Data.List.Perm.Subperm
import Mathlib.Data.List.Sort

/-!
# What comes first

Slots, lists and filters that keep the first of the values that belong together.
-/

/-!
## Slots that keep what is first

A list of slots. Each value goes to one slot by its index, and makes an offer there: a slot that is
filled keeps what it has. The results are:

- `getElem?_foldl_fill`: a slot ends with the first offer for its index;
- `findSome?_guard`: the first offer of a value is the value of the first match.
-/

namespace PythCrosschain.FirstMatch

variable {α β : Type} (index : α → ℕ) (offer : α → Option β)

/-- Offers a value to the slot of its index. -/
def fill (slots : List (Option β)) (a : α) : List (Option β) :=
  slots.modify (index a) fun slot => slot.or (offer a)

variable {index offer}

@[simp] theorem length_fill (slots : List (Option β)) (a : α) :
    (fill index offer slots a).length = slots.length :=
  List.length_modify ..

theorem getElem?_fill (slots : List (Option β)) (a : α) (k : ℕ) :
    (fill index offer slots a)[k]?
      = slots[k]?.map fun slot => slot.or (if index a = k then offer a else none) := by
  rw [fill, List.getElem?_modify]
  by_cases h : index a = k
  · simp only [if_pos h]
    rfl
  · simp only [if_neg h, Option.or_none]
    rfl

/-- **The first offer.** A slot ends with what it had, or else with the first offer for it. -/
theorem getElem?_foldl_fill (as : List α) (slots : List (Option β)) (k : ℕ) :
    (as.foldl (fill index offer) slots)[k]?
      = slots[k]?.map fun slot =>
        slot.or (as.findSome? fun a => if index a = k then offer a else none) := by
  induction as generalizing slots with
  | nil =>
    simp only [List.foldl_nil, List.findSome?_nil, Option.or_none, Option.map_id']
  | cons a as ih =>
    rw [List.foldl_cons, ih, getElem?_fill, Option.map_map]
    refine congrArg (fun f => Option.map f slots[k]?) (funext fun slot => ?_)
    show (slot.or _).or _ = _
    rw [List.findSome?_cons, Option.or_assoc]
    cases (if index a = k then offer a else none) with
    | none => rfl
    | some b => rfl

@[simp] theorem length_foldl_fill (as : List α) (slots : List (Option β)) :
    (as.foldl (fill index offer) slots).length = slots.length := by
  induction as generalizing slots with
  | nil => rfl
  | cons a as ih => rw [List.foldl_cons, ih, length_fill]

/-- Where every match makes an offer, the first offer is that of the first match. -/
theorem findSome?_guard (p : α → Bool) (f : α → β) (as : List α) :
    (as.findSome? fun a => if p a then some (f a) else none) = (as.find? p).map f := by
  induction as with
  | nil => rfl
  | cons a as ih =>
    rw [List.findSome?_cons, List.find?_cons]
    cases h : p a with
    | true => rfl
    | false => exact ih

end PythCrosschain.FirstMatch

/-!
## The first value of each key

A list that grows by the values whose keys it does not have yet. The results are:

- `find?_of_mem`: what is kept is the first value of its key;
- `keys_eq_iff`: the keys come in a given order exactly when their first values do;
- `length_eq_iff`: how many are kept, of values with given keys.
-/

namespace PythCrosschain.KeepFirst

variable {α K : Type} [DecidableEq K] (key : α → K)

def keep (kept : List α) (a : α) : List α := if key a ∈ kept.map key then kept else kept ++ [a]

def keepFirst (as : List α) : List α := as.foldl (keep key) []

/-- Where the first value of a key stands. -/
def firstIdx (as : List α) (k : K) : ℕ := as.findIdx fun a => key a = k

variable {key} {as : List α}

theorem keepFirst_concat (as : List α) (a : α) :
    keepFirst key (as ++ [a]) = keep key (keepFirst key as) a := by
  rw [keepFirst, List.foldl_concat, keepFirst]

theorem mem_keys {k : K} : k ∈ (keepFirst key as).map key ↔ k ∈ as.map key := by
  induction as using List.reverseRecOn with
  | nil => exact Iff.rfl
  | append_singleton as a ih =>
    rw [keepFirst_concat, keep, List.map_append, List.mem_append, ← ih]
    split
    · next hmem =>
      refine ⟨.inl, ?_⟩
      rintro (hk | hk)
      · exact hk
      · rwa [List.mem_singleton.mp hk]
    · rw [List.map_append, List.mem_append]

theorem nodup_keys : ((keepFirst key as).map key).Nodup := by
  induction as using List.reverseRecOn with
  | nil => exact List.nodup_nil
  | append_singleton as a ih =>
    rw [keepFirst_concat, keep]
    split
    · exact ih
    · next hmem =>
      rw [List.map_append, List.map_singleton, ← List.concat_eq_append]
      exact ih.concat hmem

/-- What is kept is the first value of its key. -/
theorem find?_of_mem {a : α} (h : a ∈ keepFirst key as) :
    as.find? (fun b => key b = key a) = some a := by
  induction as using List.reverseRecOn with
  | nil => cases h
  | append_singleton as b ih =>
    rw [keepFirst_concat, keep] at h
    rw [List.find?_append]
    split at h
    · rw [ih h]
      rfl
    · next hmem =>
      rcases List.mem_append.mp h with hmem' | hmem'
      · rw [ih hmem']
        rfl
      · obtain rfl := List.mem_singleton.mp hmem'
        have hnone : as.find? (fun b => key b = key a) = none := by
          refine List.find?_eq_none.mpr fun b hb hkey => hmem (mem_keys.mpr ?_)
          exact List.mem_map.mpr ⟨b, hb, of_decide_eq_true hkey⟩
        rw [hnone]
        simp

theorem firstIdx_lt {k : K} (h : k ∈ as.map key) : firstIdx key as k < as.length := by
  obtain ⟨a, ha, rfl⟩ := List.mem_map.mp h
  exact List.findIdx_lt_length.mpr ⟨a, ha, decide_eq_true rfl⟩

theorem firstIdx_append {k : K} (h : k ∈ as.map key) (bs : List α) :
    firstIdx key (as ++ bs) k = firstIdx key as k := by
  rw [firstIdx, List.findIdx_append]
  exact if_pos (firstIdx_lt h)

/-- What is kept stands in the order of its first occurrence. -/
theorem pairwise_firstIdx :
    (keepFirst key as).Pairwise fun a b => firstIdx key as (key a) < firstIdx key as (key b) := by
  induction as using List.reverseRecOn with
  | nil => exact .nil
  | append_singleton as a ih =>
    have hkey {b : α} (hb : b ∈ keepFirst key as) : key b ∈ as.map key :=
      mem_keys.mp (List.mem_map_of_mem hb)
    have hold : (keepFirst key as).Pairwise fun b c =>
        firstIdx key (as ++ [a]) (key b) < firstIdx key (as ++ [a]) (key c) := by
      refine ih.imp_of_mem fun hb hc hlt => ?_
      rwa [firstIdx_append (hkey hb), firstIdx_append (hkey hc)]
    rw [keepFirst_concat, keep]
    split
    · exact hold
    · next hmem =>
      refine List.pairwise_append.mpr ⟨hold, List.pairwise_singleton .., fun b hb c hc => ?_⟩
      obtain rfl := List.mem_singleton.mp hc
      rw [firstIdx_append (hkey hb)]
      refine (firstIdx_lt (hkey hb)).trans_le ?_
      -- the key of the last value is new
      rw [firstIdx, List.findIdx_append, if_neg]
      · exact Nat.le_add_left _ _
      · intro hlt
        obtain ⟨b, hb, hkeyb⟩ := List.findIdx_lt_length.mp hlt
        exact hmem (mem_keys.mpr (List.mem_map.mpr ⟨b, hb, of_decide_eq_true hkeyb⟩))

/-- The keys that are kept come in a given order exactly when their first values do. -/
theorem keys_eq_iff {ks : List K} (hks : ks.Nodup) :
    (keepFirst key as).map key = ks ↔
      (∀ k, k ∈ ks ↔ k ∈ as.map key) ∧
        ks.Pairwise fun k l => firstIdx key as k < firstIdx key as l := by
  constructor
  · rintro rfl
    exact ⟨fun k => mem_keys, List.pairwise_map.mpr pairwise_firstIdx⟩
  · rintro ⟨hmem, hpairwise⟩
    have hperm : ((keepFirst key as).map key).Perm ks :=
      (List.perm_ext_iff_of_nodup nodup_keys hks).mpr fun k => mem_keys.trans (hmem k).symm
    refine hperm.eq_of_pairwise ?_ (List.pairwise_map.mpr pairwise_firstIdx) hpairwise
    intro k l _ _ hkl hlk
    exact absurd hkl (Nat.lt_asymm hlk)

/-- Of values with these keys, there are as many as keys exactly when every key has a value. -/
theorem length_eq_iff {ks : List K} (hks : ks.Nodup) (hall : ∀ k ∈ as.map key, k ∈ ks) :
    (keepFirst key as).length = ks.length ↔ ∀ k ∈ ks, k ∈ as.map key := by
  have hsub : ((keepFirst key as).map key).Subperm ks :=
    nodup_keys.subperm fun k hk => hall k (mem_keys.mp hk)
  constructor
  · intro hlength k hk
    have hperm := hsub.perm_of_length_le (by rw [List.length_map, hlength])
    exact mem_keys.mp (hperm.mem_iff.mpr hk)
  · intro hfound
    have hperm : ((keepFirst key as).map key).Perm ks :=
      (List.perm_ext_iff_of_nodup nodup_keys hks).mpr fun k =>
        mem_keys.trans ⟨hall k, hfound k⟩
    rw [← hperm.length_eq, List.length_map]

end PythCrosschain.KeepFirst

/-!
## Deduplication by a key

A filter that lets an item pass when its key was not seen before. `Tracks` relates the
filter to all items that were offered to it: exactly the first item with each key has
passed (`Tracks.offer`).
-/

namespace PythCrosschain

variable {κ α : Type} [DecidableEq κ]

/-- The keys seen so far, and the items that passed, in order. -/
structure Dedup (κ α : Type) where
  seen : Finset κ := ∅
  passed : List α := []

namespace Dedup

/-- Offers an item to the filter. -/
def offer (key : α → κ) (d : Dedup κ α) (a : α) : Dedup κ α :=
  if key a ∈ d.seen then d else { seen := insert (key a) d.seen, passed := d.passed ++ [a] }

/-- The first item with a key. -/
def firstWith (key : α → κ) (offered : List α) (k : κ) : Option α :=
  offered.find? fun a => key a = k

/-- The filter has seen the keys of the offered items and let the first item with each key
pass. -/
structure Tracks (key : α → κ) (d : Dedup κ α) (offered : List α) : Prop where
  seen : ∀ k, k ∈ d.seen ↔ ∃ a ∈ offered, key a = k
  passed : ∀ k, d.passed.filter (fun a => key a = k) = (firstWith key offered k).toList

variable {key : α → κ} {d : Dedup κ α} {offered : List α} {a : α}

theorem tracks_empty : Tracks key ({} : Dedup κ α) [] where
  seen k := by simp
  passed k := rfl

theorem firstWith_append (k : κ) :
    firstWith key (offered ++ [a]) k =
      (firstWith key offered k).or (if key a = k then some a else none) := by
  unfold firstWith
  rw [List.find?_append, List.find?_singleton]
  simp only [decide_eq_true_eq]

theorem firstWith_eq_none {k : κ} : firstWith key offered k = none ↔ ¬∃ a ∈ offered, key a = k := by
  simp [firstWith]

theorem exists_firstWith (offeredOnce : a ∈ offered) :
    ∃ first, firstWith key offered (key a) = some first :=
  Option.ne_none_iff_exists'.mp fun none => firstWith_eq_none.mp none ⟨a, offeredOnce, rfl⟩

theorem Tracks.offer (tracks : Tracks key d offered) (a : α) :
    Tracks key (d.offer key a) (offered ++ [a]) := by
  have seen : ∀ k, (∃ b ∈ offered ++ [a], key b = k) ↔ k = key a ∨ k ∈ d.seen := by
    intro k
    rw [tracks.seen]
    constructor
    · rintro ⟨b, member, rfl⟩
      rcases List.mem_append.mp member with old | new
      · exact Or.inr ⟨b, old, rfl⟩
      · exact Or.inl (by rw [List.mem_singleton.mp new])
    · rintro (rfl | ⟨b, old, rfl⟩)
      · exact ⟨a, List.mem_append_right _ (List.mem_singleton_self a), rfl⟩
      · exact ⟨b, List.mem_append_left _ old, rfl⟩
  unfold Dedup.offer
  split
  · next known =>
    refine ⟨fun k => ?_, fun k => ?_⟩
    · rw [seen]
      exact ⟨Or.inr, fun either => either.elim (fun same => same ▸ known) id⟩
    · -- An item that does not pass is not the first one with its key.
      rw [tracks.passed, firstWith_append]
      by_cases same : key a = k
      · obtain ⟨b, found⟩ := Option.ne_none_iff_exists'.mp
          (mt firstWith_eq_none.mp (not_not.mpr ((tracks.seen k).mp (same ▸ known))))
        rw [found, Option.some_or]
      · rw [if_neg same, Option.or_none]
  · next fresh =>
    refine ⟨fun k => ?_, fun k => ?_⟩
    · rw [seen, Finset.mem_insert]
    · rw [List.filter_append, tracks.passed, firstWith_append]
      by_cases same : key a = k
      · have unseen : firstWith key offered k = none :=
          firstWith_eq_none.mpr (mt (tracks.seen k).mpr (same ▸ fresh))
        simp [unseen, same]
      · simp [same]

end Dedup

end PythCrosschain
