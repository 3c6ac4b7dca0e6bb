import Mathlib.Logic.Function.Basic

/-!
# A slot array with an overflow mapping refines a finite map

Records live in a small array, at the slot that a short key selects. A new
record takes its slot; a live record that was there before moves to an overflow
mapping under its long key. `Table.lookup` is the partial map from keys to
records that such a table stands for. On a well-formed table, with injective
long keys, inserting a record under a fresh key and clearing a key are the
updates of that map (`Table.lookup_insert`, `Table.lookup_clear`), so no record
is lost, duplicated or brought back: where every record has a key of its own, the
table holds the records that were made and not cleared (`Table.Ledger`).

A record is live when its key is (`live`). Clearing a slot of the array only
has to make the key of its record dead; the other fields may stay.
-/

namespace PythCrosschain

/-- How records of type `R` are keyed. `long` and `short` are the keys of the
overflow mapping and of the array. `deactivate` is what clearing does to a
record of the array, `empty` is the record of a deleted overflow entry. -/
structure SlotScheme (R K L I : Type) where
  key : R → K
  live : K → Bool
  long : K → L
  short : K → I
  deactivate : R → R
  empty : R
  live_deactivate : ∀ r, live (key (deactivate r)) = false
  live_empty : live (key empty) = false

/-- A place where a record is stored. -/
inductive SlotRef (L I : Type) where
  | slot (i : I)
  | overflow (l : L)
deriving DecidableEq

/-- The two storage levels. -/
structure Table (R L I : Type) where
  slots : I → R
  overflow : L → R

namespace Table

variable {R K L I : Type}

/-- The record at a place. -/
def load (t : Table R L I) : SlotRef L I → R
  | .slot i => t.slots i
  | .overflow l => t.overflow l

section Operations

variable (S : SlotScheme R K L I)

/-- The place where the record of `k` is, if there is one. -/
def find [DecidableEq K] (t : Table R L I) (k : K) : SlotRef L I :=
  if S.key (t.slots (S.short k)) = k then .slot (S.short k) else .overflow (S.long k)

/-- The live record of `k`. -/
def lookup [DecidableEq K] (t : Table R L I) (k : K) : Option R :=
  if S.live k ∧ S.key (t.load (t.find S k)) = k then some (t.load (t.find S k)) else none

/-- Store `r` in its slot and move a live record that was there to the overflow
mapping. -/
def insert [DecidableEq L] [DecidableEq I] (t : Table R L I) (r : R) : Table R L I where
  slots := Function.update t.slots (S.short (S.key r)) r
  overflow :=
    let old := t.slots (S.short (S.key r))
    if S.live (S.key old) then Function.update t.overflow (S.long (S.key old)) old
    else t.overflow

/-- Remove the record of `k`. -/
def clear [DecidableEq K] [DecidableEq L] [DecidableEq I] (t : Table R L I) (k : K) : Table R L I :=
  if S.key (t.slots (S.short k)) = k then
    { t with slots := Function.update t.slots (S.short k) (S.deactivate (t.slots (S.short k))) }
  else { t with overflow := Function.update t.overflow (S.long k) S.empty }

end Operations

/-- Live records are at the places their keys select, and none is at both
levels. -/
structure WellFormed (S : SlotScheme R K L I) (t : Table R L I) : Prop where
  slot_home : ∀ i, S.live (S.key (t.slots i)) → S.short (S.key (t.slots i)) = i
  overflow_home : ∀ l, S.live (S.key (t.overflow l)) → S.long (S.key (t.overflow l)) = l
  apart : ∀ i, S.live (S.key (t.slots i)) →
    S.key (t.overflow (S.long (S.key (t.slots i)))) ≠ S.key (t.slots i)

/-- Every live record of the table satisfies `P`. -/
def AllLive (S : SlotScheme R K L I) (P : R → Prop) (t : Table R L I) : Prop :=
  (∀ i, S.live (S.key (t.slots i)) → P (t.slots i)) ∧
  (∀ l, S.live (S.key (t.overflow l)) → P (t.overflow l))

/-! ## Records of any table -/

section Records

variable {S : SlotScheme R K L I} {t : Table R L I}

section Lookup

variable [DecidableEq K]

theorem lookup_eq_some {k : K} {r : R} :
    t.lookup S k = some r ↔ S.live k ∧ S.key r = k ∧ t.load (t.find S k) = r := by
  unfold lookup
  split
  · next h =>
    constructor
    · intro hr
      cases hr
      exact ⟨h.1, h.2, rfl⟩
    · rintro ⟨_, _, rfl⟩
      rfl
  · next h =>
    constructor
    · intro hr
      cases hr
    · rintro ⟨hl, hk, rfl⟩
      exact absurd ⟨hl, hk⟩ h

theorem lookup_dead {k : K} (h : S.live k = false) : t.lookup S k = none := by
  simp [lookup, h]

/-- A live key is in its slot or, failing that, in its overflow entry. -/
theorem lookup_live {k : K} (hl : S.live k = true) :
    t.lookup S k =
      if S.key (t.slots (S.short k)) = k then some (t.slots (S.short k))
      else if S.key (t.overflow (S.long k)) = k then some (t.overflow (S.long k)) else none := by
  unfold lookup find
  by_cases hs : S.key (t.slots (S.short k)) = k
  · simp [hl, hs, load]
  · simp [hl, hs, load]

theorem AllLive.lookup {P : R → Prop} (h : AllLive S P t) {k : K} {r : R}
    (hr : t.lookup S k = some r) : P r := by
  obtain ⟨hl, hk, rfl⟩ := lookup_eq_some.mp hr
  cases hf : t.find S k with
  | slot i =>
    rw [hf] at hk
    exact h.1 i (by rw [show S.key (t.slots i) = k from hk]; exact hl)
  | overflow l =>
    rw [hf] at hk
    exact h.2 l (by rw [show S.key (t.overflow l) = k from hk]; exact hl)

end Lookup

theorem AllLive.mono {P Q : R → Prop} (h : AllLive S P t) (hPQ : ∀ r, P r → Q r) :
    AllLive S Q t :=
  ⟨fun i hi => hPQ _ (h.1 i hi), fun l hl => hPQ _ (h.2 l hl)⟩

theorem AllLive.insert [DecidableEq L] [DecidableEq I] {P : R → Prop} (h : AllLive S P t)
    {r : R} (hr : P r) : AllLive S P (t.insert S r) := by
  constructor
  · intro i hi
    by_cases hir : i = S.short (S.key r)
    · subst hir
      simpa [Table.insert] using hr
    · simp only [Table.insert, Function.update_of_ne hir] at hi ⊢
      exact h.1 i hi
  · intro l hl
    simp only [Table.insert] at hl ⊢
    split at hl
    · next hold =>
      rw [if_pos hold]
      by_cases hlo : l = S.long (S.key (t.slots (S.short (S.key r))))
      · subst hlo
        rw [Function.update_self]
        exact h.1 _ hold
      · rw [Function.update_of_ne hlo] at hl ⊢
        exact h.2 l hl
    · next hold =>
      rw [if_neg hold]
      exact h.2 l hl

theorem AllLive.clear [DecidableEq K] [DecidableEq L] [DecidableEq I] {P : R → Prop}
    (h : AllLive S P t) (k : K) : AllLive S P (t.clear S k) := by
  unfold Table.clear
  split
  · refine ⟨fun i hi => ?_, h.2⟩
    by_cases hik : i = S.short k
    · subst hik
      simp [S.live_deactivate] at hi
    · simp only [Function.update_of_ne hik] at hi ⊢
      exact h.1 i hi
  · refine ⟨h.1, fun l hl => ?_⟩
    by_cases hlk : l = S.long k
    · subst hlk
      simp [S.live_empty] at hl
    · simp only [Function.update_of_ne hlk] at hl ⊢
      exact h.2 l hl

end Records

/-! ## The table as a map -/

section Map

variable [DecidableEq K] [DecidableEq L] [DecidableEq I] {S : SlotScheme R K L I}
  {t : Table R L I}

theorem WellFormed.insert (hlong : Function.Injective S.long) (h : WellFormed S t) {r : R}
    (hl : S.live (S.key r) = true) (hfresh : t.lookup S (S.key r) = none) :
    WellFormed S (t.insert S r) := by
  rw [lookup_live hl] at hfresh
  have hslot : S.key (t.slots (S.short (S.key r))) ≠ S.key r := by
    intro he
    simp [he] at hfresh
  have hover : S.key (t.overflow (S.long (S.key r))) ≠ S.key r := by
    intro he
    simp [hslot, he] at hfresh
  constructor
  · intro i hi
    by_cases hir : i = S.short (S.key r)
    · subst hir
      simp [Table.insert]
    · simp only [Table.insert, Function.update_of_ne hir] at hi ⊢
      exact h.slot_home i hi
  · intro l hi
    simp only [Table.insert] at hi ⊢
    split at hi
    · next hold =>
      rw [if_pos hold]
      by_cases hlo : l = S.long (S.key (t.slots (S.short (S.key r))))
      · subst hlo
        rw [Function.update_self]
      · rw [Function.update_of_ne hlo] at hi ⊢
        exact h.overflow_home l hi
    · next hold =>
      rw [if_neg hold]
      exact h.overflow_home l hi
  · intro i hi
    by_cases hir : i = S.short (S.key r)
    · subst hir
      simp only [Table.insert, Function.update_self]
      split
      · rw [Function.update_of_ne (fun he => hslot (hlong he).symm)]
        exact hover
      · exact hover
    · simp only [Table.insert, Function.update_of_ne hir] at hi ⊢
      split
      · next hold =>
        -- The evicted record keeps its own slot, so it is not the one at `i`.
        have hne : S.key (t.slots i) ≠ S.key (t.slots (S.short (S.key r))) := by
          intro he
          exact hir ((h.slot_home i hi).symm.trans
            ((congrArg S.short he).trans (h.slot_home _ hold)))
        rw [Function.update_of_ne (fun he => hne (hlong he))]
        exact h.apart i hi
      · exact h.apart i hi

omit [DecidableEq L] [DecidableEq I] in
/-- A live record at the place of a key is the record of that key. -/
theorem lookup_of_live (hlong : Function.Injective S.long) (h : WellFormed S t) {k : K}
    (hl : S.live (S.key (t.load (t.find S k))) = true) :
    t.lookup S k = some (t.load (t.find S k)) := by
  have hkey : S.key (t.load (t.find S k)) = k := by
    by_cases hs : S.key (t.slots (S.short k)) = k
    · simp [find, hs, load]
    · rw [show t.find S k = .overflow (S.long k) from if_neg hs] at hl ⊢
      exact hlong (h.overflow_home _ hl)
  exact lookup_eq_some.mpr ⟨hkey ▸ hl, hkey, rfl⟩

/-- Inserting a record under a fresh key adds exactly that record to the map. -/
theorem lookup_insert (hlong : Function.Injective S.long) (h : WellFormed S t) {r : R}
    (hl : S.live (S.key r) = true) :
    (t.insert S r).lookup S = Function.update (t.lookup S) (S.key r) (some r) := by
  funext k
  by_cases hk : k = S.key r
  · subst hk
    rw [Function.update_self, lookup_live hl]
    simp [Table.insert]
  rw [Function.update_of_ne hk]
  cases hlk : S.live k with
  | false => rw [lookup_dead hlk, lookup_dead hlk]
  | true =>
    rw [lookup_live hlk, lookup_live hlk]
    by_cases hs : S.short k = S.short (S.key r)
    · -- `k` shares the slot of the new record: it is, or now moves, in the overflow.
      simp only [Table.insert, hs, Function.update_self, if_neg (Ne.symm hk)]
      by_cases hold : S.key (t.slots (S.short (S.key r))) = k
      · simp [hold, hlk]
      · rw [if_neg hold]
        split
        · rw [Function.update_of_ne (fun he => hold (hlong he).symm)]
        · rfl
    · have hover : (t.insert S r).overflow (S.long k) = t.overflow (S.long k) := by
        simp only [Table.insert]
        split
        · next hold =>
          refine Function.update_of_ne (fun he => hs ?_) _ _
          rw [hlong he]
          exact h.slot_home _ hold
        · rfl
      rw [hover]
      simp only [Table.insert, Function.update_of_ne hs]

theorem WellFormed.clear (h : WellFormed S t) (k : K) : WellFormed S (t.clear S k) := by
  unfold Table.clear
  split
  · constructor
    · intro i hi
      by_cases hik : i = S.short k
      · subst hik
        simp [S.live_deactivate] at hi
      · simp only [Function.update_of_ne hik] at hi ⊢
        exact h.slot_home i hi
    · exact h.overflow_home
    · intro i hi
      by_cases hik : i = S.short k
      · subst hik
        simp [S.live_deactivate] at hi
      · simp only [Function.update_of_ne hik] at hi ⊢
        exact h.apart i hi
  · refine ⟨h.slot_home, fun l hl => ?_, fun i hi => ?_⟩
    · by_cases hlk : l = S.long k
      · subst hlk
        simp [S.live_empty] at hl
      · simp only [Function.update_of_ne hlk] at hl ⊢
        exact h.overflow_home l hl
    · by_cases hik : S.long (S.key (t.slots i)) = S.long k
      · simp only [hik, Function.update_self]
        intro he
        rw [← he, S.live_empty] at hi
        cases hi
      · simp only [Function.update_of_ne hik]
        exact h.apart i hi

/-- Clearing a key removes exactly its record from the map. -/
theorem lookup_clear (hlong : Function.Injective S.long) (h : WellFormed S t) (k : K) :
    (t.clear S k).lookup S = Function.update (t.lookup S) k none := by
  funext k'
  cases hlk : S.live k' with
  | false =>
    rw [lookup_dead hlk]
    by_cases hk : k' = k
    · subst hk; rw [Function.update_self]
    · rw [Function.update_of_ne hk, lookup_dead hlk]
  | true =>
    rw [lookup_live hlk]
    unfold Table.clear
    split
    · next hs =>
      have hdead : ∀ r, S.key (S.deactivate r) ≠ k' := by
        intro r he
        have := S.live_deactivate r
        rw [he, hlk] at this
        cases this
      by_cases hk : k' = k
      · subst hk
        have hap := h.apart (S.short k') (by rw [hs]; exact hlk)
        rw [hs] at hap
        simp [hdead, hap]
      · rw [Function.update_of_ne hk, lookup_live hlk]
        by_cases hik : S.short k' = S.short k
        · have hold : S.key (t.slots (S.short k)) ≠ k' := fun he => hk (he.symm.trans hs)
          simp [hik, hdead, hold]
        · simp only [Function.update_of_ne hik]
    · next hs =>
      have hempty : S.key S.empty ≠ k' := by
        intro he
        have := S.live_empty
        rw [he, hlk] at this
        cases this
      by_cases hk : k' = k
      · subst hk
        simp [hs, hempty]
      · rw [Function.update_of_ne hk, lookup_live hlk]
        simp only [Function.update_of_ne (fun he => hk (hlong he))]

/-- The table holds exactly the records that were `made` and are not `gone`. -/
structure Ledger (S : SlotScheme R K L I) (t : Table R L I) (made : List R) (gone : List K) :
    Prop where
  wellFormed : WellFormed S t
  lookup : ∀ k r, t.lookup S k = some r ↔ r ∈ made ∧ S.key r = k ∧ k ∉ gone
  distinct : gone.Nodup
  gone_made : ∀ k ∈ gone, k ∈ made.map S.key

omit [DecidableEq L] [DecidableEq I] in
/-- An empty table is the ledger of nothing. -/
theorem Ledger.empty (h : AllLive S (fun _ => False) t) : Ledger S t [] [] := by
  refine ⟨⟨fun i hi => ?_, fun l hl => ?_, fun i hi => ?_⟩, fun k r => ?_, List.nodup_nil, ?_⟩
  · exact (h.1 i hi).elim
  · exact (h.2 l hl).elim
  · exact (h.1 i hi).elim
  · constructor
    · intro hr
      exact (h.lookup hr).elim
    · rintro ⟨hr, -⟩
      exact absurd hr List.not_mem_nil
  · intro k hk
    exact absurd hk List.not_mem_nil

/-- Inserting a record whose key was never used makes that record. -/
theorem Ledger.insert (hlong : Function.Injective S.long) {made : List R} {gone : List K}
    (h : Ledger S t made gone) {r : R} (hl : S.live (S.key r) = true)
    (hfresh : S.key r ∉ made.map S.key) : Ledger S (t.insert S r) (r :: made) gone := by
  have hnone : t.lookup S (S.key r) = none := by
    rw [Option.eq_none_iff_forall_ne_some]
    intro old hold
    obtain ⟨hmem, hkey, -⟩ := (h.lookup _ _).mp hold
    exact hfresh (hkey ▸ List.mem_map_of_mem hmem)
  have hgone : S.key r ∉ gone := fun hk => hfresh (h.gone_made _ hk)
  refine ⟨h.wellFormed.insert hlong hl hnone, fun k r' => ?_, h.distinct, fun k hk => ?_⟩
  · rw [lookup_insert hlong h.wellFormed hl]
    rcases eq_or_ne k (S.key r) with rfl | hk
    · have hold : ∀ r' ∈ made, S.key r' ≠ S.key r :=
        fun r' hr' he => hfresh (he ▸ List.mem_map_of_mem hr')
      rw [Function.update_self]
      constructor
      · rintro ⟨⟩
        exact ⟨List.mem_cons_self, rfl, hgone⟩
      · rintro ⟨hr', hkey, -⟩
        rcases List.mem_cons.mp hr' with rfl | hr'
        · rfl
        · exact absurd hkey (hold r' hr')
    · rw [Function.update_of_ne hk, h.lookup]
      constructor
      · rintro ⟨hr', hkey, hk'⟩
        exact ⟨List.mem_cons_of_mem _ hr', hkey, hk'⟩
      · rintro ⟨hr', hkey, hk'⟩
        rcases List.mem_cons.mp hr' with rfl | hr'
        · exact absurd hkey.symm hk
        · exact ⟨hr', hkey, hk'⟩
  · exact List.mem_cons_of_mem _ (h.gone_made k hk)

/-- Clearing the key of a record that is held makes it gone. -/
theorem Ledger.clear (hlong : Function.Injective S.long) {made : List R} {gone : List K}
    (h : Ledger S t made gone) {k : K} {r : R} (hr : t.lookup S k = some r) :
    Ledger S (t.clear S k) made (k :: gone) := by
  obtain ⟨hmade, hkey, hgone⟩ := (h.lookup k r).mp hr
  refine ⟨h.wellFormed.clear k, fun k' r' => ?_, List.nodup_cons.mpr ⟨hgone, h.distinct⟩, ?_⟩
  · rw [lookup_clear hlong h.wellFormed]
    rcases eq_or_ne k' k with rfl | hk
    · simp
    · rw [Function.update_of_ne hk, h.lookup]
      simp [hk]
  · intro k' hk'
    rcases List.mem_cons.mp hk' with rfl | hk'
    · exact hkey ▸ List.mem_map_of_mem hmade
    · exact h.gone_made k' hk'

end Map

end Table

end PythCrosschain
