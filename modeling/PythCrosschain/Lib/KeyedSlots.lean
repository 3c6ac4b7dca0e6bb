import Mathlib.Data.List.Nodup

/-!
# Slots with keys

A list of slots, each with a key and a value, is read by the first slot with a key. Where no
key has two slots, replacing a stretch of slots that only has slots of one key (or of keys that
do not matter) changes what is read under this key, and nothing else (`Splice`).
-/

namespace PythCrosschain.KeyedSlots

/-! ## A list around the first element with a property -/

theorem findIdx?_split {α : Type} {p : α → Bool} {l : List α} {i : ℕ}
    (h : l.findIdx? p = some i) :
    ∃ front s back, l = front ++ s :: back ∧ front.length = i ∧ p s = true ∧
      ∀ x ∈ front, p x = false := by
  obtain ⟨hi, hp, hfront⟩ := List.findIdx?_eq_some_iff_getElem.mp h
  refine ⟨l.take i, l[i], l.drop (i + 1), ?_, ?_, hp, fun x hx => ?_⟩
  · rw [List.getElem_cons_drop, List.take_append_drop]
  · exact List.length_take_of_le (Nat.le_of_lt hi)
  · obtain ⟨j, hj, rfl⟩ := List.mem_take_iff_getElem.mp hx
    exact eq_false_of_ne_true (hfront j (Nat.lt_of_lt_of_le hj (Nat.min_le_left _ _)))

theorem eraseIdx_front {α : Type} {front back : List α} {s : α} :
    (front ++ s :: back).eraseIdx front.length = front ++ back := by
  rw [List.eraseIdx_append_of_length_le (Nat.le_refl _), Nat.sub_self]
  rfl

theorem set_front {α : Type} {front back : List α} {s s' : α} :
    (front ++ s :: back).set front.length s' = front ++ s' :: back := by
  rw [List.set_append_right _ _ (Nat.le_refl _), Nat.sub_self]
  rfl

theorem modify_front {α : Type} {front back : List α} {s : α} {f : α → α} :
    (front ++ s :: back).modify front.length f = front ++ f s :: back := by
  induction front with
  | nil => rfl
  | cons x front ih => exact congrArg (x :: ·) ih

/-! ## Reading -/

section

variable {α κ ν : Type} [DecidableEq κ] (key : α → κ) (value : α → ν)

/-- The value in the first slot with a key. -/
def lookup (slots : List α) (k : κ) : Option ν := (slots.find? fun s => key s = k).map value

/-- No key that matters has two slots. -/
def Distinct (valid : κ → Prop) (slots : List α) : Prop :=
  ∀ k, valid k → (slots.map key).count k ≤ 1

/-- A stretch of slots is replaced, with `v` under `k` afterwards, if `k` matters. -/
inductive Splice (valid : κ → Prop) (k : κ) (v : Option ν) : List α → List α → Prop
  | mk (front removed added back : List α) (front_other : valid k → ∀ s ∈ front, key s ≠ k)
      (back_other : valid k → ∀ s ∈ back, key s ≠ k)
      (removed_own : ∀ s ∈ removed, key s = k ∨ ¬valid (key s))
      (added_own : ∀ s ∈ added, key s = k ∨ ¬valid (key s))
      (added_value : valid k → lookup key value added k = v) (added_once : added.length ≤ 1) :
      Splice valid k v (front ++ removed ++ back) (front ++ added ++ back)

variable {key value} {valid : κ → Prop} {k : κ} {v : Option ν} {slots slots' : List α}

theorem lookup_append (a b : List α) :
    lookup key value (a ++ b) k = (lookup key value a k).or (lookup key value b k) := by
  simp only [lookup, List.find?_append, Option.map_or]

theorem lookup_eq_none : lookup key value slots k = none ↔ ∀ s ∈ slots, key s ≠ k := by
  simp [lookup, List.find?_eq_none]

theorem findIdx?_none (h : (slots.findIdx? fun s => key s = k) = none) :
    ∀ s ∈ slots, key s ≠ k := by
  simpa [List.findIdx?_eq_none_iff] using h

/-- Slots of `k` and of keys that do not matter say nothing about another key. -/
theorem lookup_own_eq_none {k' : κ} (hown : ∀ s ∈ slots, key s = k ∨ ¬valid (key s))
    (hvalid : valid k') (hne : k' ≠ k) : lookup key value slots k' = none := by
  refine lookup_eq_none.mpr fun s hs h => ?_
  rcases hown s hs with hk | hinvalid
  · exact hne (h.symm.trans hk)
  · exact hinvalid (h ▸ hvalid)

theorem count_eq_zero {k' : κ} (hnone : ∀ s ∈ slots, key s ≠ k') :
    (slots.map key).count k' = 0 :=
  List.count_eq_zero.mpr fun hmem => by
    obtain ⟨s, hs, rfl⟩ := List.mem_map.mp hmem
    exact hnone s hs rfl

theorem Splice.lookup_self (h : Splice key value valid k v slots slots') (hvalid : valid k) :
    lookup key value slots' k = v := by
  cases h with
  | mk front removed added back hfront hback _ _ hvalue _ =>
    rw [lookup_append, lookup_append, lookup_eq_none.mpr (hfront hvalid),
      lookup_eq_none.mpr (hback hvalid), hvalue hvalid, Option.none_or, Option.or_none]

theorem Splice.lookup_other (h : Splice key value valid k v slots slots') {k' : κ}
    (hvalid : valid k') (hne : k' ≠ k) :
    lookup key value slots' k' = lookup key value slots k' := by
  cases h with
  | mk front removed added back _ _ hremoved hadded _ _ =>
    simp only [lookup_append]
    rw [lookup_own_eq_none hadded hvalid hne, lookup_own_eq_none hremoved hvalid hne]

theorem Splice.distinct (h : Splice key value valid k v slots slots')
    (hslots : Distinct key valid slots) : Distinct key valid slots' := by
  cases h with
  | mk front removed added back hfront hback hremoved hadded _ honce =>
    intro k' hvalid
    have hbefore := hslots k' hvalid
    simp only [List.map_append, List.count_append] at hbefore ⊢
    by_cases hk : k' = k
    · subst hk
      rw [count_eq_zero (hfront hvalid), count_eq_zero (hback hvalid), Nat.zero_add, Nat.add_zero]
      exact Nat.le_trans List.count_le_length (by rwa [List.length_map])
    · have hzero : ∀ mid : List α, (∀ s ∈ mid, key s = k ∨ ¬valid (key s)) →
          (mid.map key).count k' = 0 := fun mid hown =>
        count_eq_zero ((@lookup_eq_none _ _ _ _ key id _ _).mp
          (lookup_own_eq_none hown hvalid hk))
      rw [hzero removed hremoved] at hbefore
      rw [hzero added hadded]
      exact hbefore

/-- The keys that matter have one slot each. -/
theorem Distinct.nodup (h : Distinct key valid slots) {keys : List κ}
    (hkeys : keys.Sublist (slots.map key)) (hvalid : ∀ k ∈ keys, valid k) : keys.Nodup := by
  refine List.nodup_iff_count_le_one.mpr fun k => ?_
  by_cases hk : k ∈ keys
  · exact Nat.le_trans (hkeys.count_le k) (h k (hvalid k hk))
  · rw [List.count_eq_zero.mpr hk]
    exact Nat.zero_le _

/-! ## Changing a slot -/

/-- The first slot of a key is its only one. -/
theorem split_own (hslots : Distinct key valid slots) (hk : valid k) {i : ℕ}
    (hfind : (slots.findIdx? fun s => key s = k) = some i) :
    ∃ front s back, slots = front ++ s :: back ∧ front.length = i ∧ key s = k ∧
      (∀ x ∈ front, key x ≠ k) ∧ ∀ x ∈ back, key x ≠ k := by
  obtain ⟨front, s, back, rfl, hlen, hs, hfront⟩ := findIdx?_split hfind
  have hs : key s = k := of_decide_eq_true hs
  refine ⟨front, s, back, rfl, hlen, hs, fun x hx => of_decide_eq_false (hfront x hx),
    fun x hx hxk => ?_⟩
  have hcount := hslots k hk
  rw [List.map_append, List.count_append, List.map_cons, hs, List.count_cons_self] at hcount
  have hpos : 0 < (back.map key).count k :=
    List.count_pos_iff.mpr (List.mem_map.mpr ⟨x, hx, hxk⟩)
  omega

/-- The only slot of a key is the one that is read. -/
theorem lookup_of_mem (hslots : Distinct key valid slots) {s : α} (hvalid : valid (key s))
    (hs : s ∈ slots) : lookup key value slots (key s) = some (value s) := by
  cases hfind : slots.findIdx? fun x => key x = key s with
  | none => exact absurd rfl (findIdx?_none hfind s hs)
  | some i =>
    obtain ⟨front, x, back, rfl, -, hx, hfront, hback⟩ := split_own hslots hvalid hfind
    have hsx : s = x := by
      rcases List.mem_append.mp hs with hs | hs
      · exact absurd rfl (hfront s hs)
      · rcases List.mem_cons.mp hs with rfl | hs
        · rfl
        · exact absurd rfl (hback s hs)
    rw [lookup_append, lookup_eq_none.mpr hfront, Option.none_or]
    simp [lookup, hx, hsx]

theorem splice_eraseIdx (hslots : Distinct key valid slots) (hk : valid k) {i : ℕ}
    (hfind : (slots.findIdx? fun s => key s = k) = some i) :
    Splice key value valid k none slots (slots.eraseIdx i) := by
  obtain ⟨front, s, back, rfl, rfl, hs, hfront, hback⟩ := split_own hslots hk hfind
  have h := @Splice.mk _ _ _ _ key value valid k none front [s] [] back
    (fun _ => hfront) (fun _ => hback) (by simp [hs]) (by simp) (fun _ => rfl) (by simp)
  rw [eraseIdx_front]
  simpa using h

/-- The slot of a key gets another value, or the slot is emptied. -/
theorem splice_set (hslots : Distinct key valid slots) (hk : valid k) {i : ℕ}
    (hfind : (slots.findIdx? fun s => key s = k) = some i) {s' : α}
    (hown : key s' = k ∨ ¬valid (key s')) :
    Splice key value valid k (lookup key value [s'] k) slots (slots.set i s') := by
  obtain ⟨front, s, back, rfl, rfl, hs, hfront, hback⟩ := split_own hslots hk hfind
  have h := @Splice.mk _ _ _ _ key value valid k _ front [s] [s'] back
    (fun _ => hfront) (fun _ => hback) (by simp [hs]) (by simpa using hown) (fun _ => rfl)
    (Nat.le_refl _)
  rw [set_front]
  simpa using h

theorem splice_modify (hslots : Distinct key valid slots) (hk : valid k) {i : ℕ}
    (hfind : (slots.findIdx? fun s => key s = k) = some i) {f : α → α} {v : ν}
    (hkey : ∀ s, key (f s) = key s) (hvalue : ∀ s, value (f s) = v) :
    Splice key value valid k (some v) slots (slots.modify i f) := by
  obtain ⟨front, s, back, rfl, rfl, hs, hfront, hback⟩ := split_own hslots hk hfind
  have hown : key (f s) = k := (hkey s).trans hs
  have h := @Splice.mk _ _ _ _ key value valid k (some v) front [s] [f s] back
    (fun _ => hfront) (fun _ => hback) (by simp [hs]) (by simp [hown])
    (by simp [lookup, hown, hvalue]) (Nat.le_refl _)
  rw [modify_front]
  simpa using h

theorem splice_append (habsent : ∀ s ∈ slots, key s ≠ k) {s' : α} {v : ν} (hs' : key s' = k)
    (hvalue : value s' = v) : Splice key value valid k (some v) slots (slots ++ [s']) := by
  have h := @Splice.mk _ _ _ _ key value valid k (some v) slots [] [s'] []
    (fun _ => habsent) (by simp) (by simp) (by simp [hs']) (by simp [lookup, hs', hvalue])
    (Nat.le_refl _)
  simpa using h

/-- A slot with a key that does not matter is taken for a key that has none. -/
theorem splice_take (habsent : ∀ s ∈ slots, key s ≠ k) {free : κ} (hfree : ¬valid free) {i : ℕ}
    (hfind : (slots.findIdx? fun s => key s = free) = some i) {s' : α} {v : ν} (hs' : key s' = k)
    (hvalue : value s' = v) : Splice key value valid k (some v) slots (slots.set i s') := by
  obtain ⟨front, s, back, rfl, rfl, hs, -⟩ := findIdx?_split hfind
  have hs : key s = free := of_decide_eq_true hs
  have h := @Splice.mk _ _ _ _ key value valid k (some v) front [s] [s'] back
    (fun _ x hx => habsent x (by simp [hx])) (fun _ x hx => habsent x (by simp [hx]))
    (by simp [hs, hfree]) (by simp [hs']) (by simp [lookup, hs', hvalue]) (Nat.le_refl _)
  rw [set_front]
  simpa using h

/-- A slot with a key that does not matter keeps its key. -/
theorem splice_invalid {free : κ} (hfree : ¬valid free) {i : ℕ}
    (hfind : (slots.findIdx? fun s => key s = free) = some i) {s' : α} (hs' : key s' = free) :
    Splice key value valid free v slots (slots.set i s') := by
  obtain ⟨front, s, back, rfl, rfl, hs, -⟩ := findIdx?_split hfind
  have hs : key s = free := of_decide_eq_true hs
  have h := @Splice.mk _ _ _ _ key value valid free v front [s] [s'] back
    (fun hvalid => absurd hvalid hfree) (fun hvalid => absurd hvalid hfree) (by simp [hs])
    (by simp [hs']) (fun hvalid => absurd hvalid hfree) (Nat.le_refl _)
  rw [set_front]
  simpa using h

end

end PythCrosschain.KeyedSlots
