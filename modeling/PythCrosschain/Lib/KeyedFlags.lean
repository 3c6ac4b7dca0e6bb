import Mathlib.Data.Set.Function
import Mathlib.Logic.Function.Basic

/-!
# A set kept as a list and as flags

The members of a set are kept in a list, and once more as a flag under the key of each member.
The two agree (`Agree`) on the elements whose keys are distinct. To put other members in place
of all members, one clears the flag of every old member and then sets the flag of every new
one, in this order, so members that are old and new keep their flags (`Agree.replace`).
-/

namespace PythCrosschain.KeyedFlags

variable {α K : Type} [DecidableEq K] {key : α → K} {S : Set α} {members : List α}
  {flags : K → Bool}

/-- Set the flag of every element of a list. -/
def assign (key : α → K) (flag : Bool) (flags : K → Bool) (elements : List α) : K → Bool :=
  elements.foldl (fun flags a => Function.update flags (key a) flag) flags

theorem assign_apply (flag : Bool) (elements : List α) (k : K) :
    assign key flag flags elements k = if k ∈ elements.map key then flag else flags k := by
  induction elements generalizing flags with
  | nil => rfl
  | cons a elements ih =>
    show assign key flag (Function.update flags (key a) flag) elements k = _
    rw [ih, List.map_cons]
    by_cases htail : k ∈ elements.map key
    · rw [if_pos htail, if_pos (List.mem_cons_of_mem _ htail)]
    · rw [if_neg htail]
      by_cases hhead : k = key a
      · rw [hhead, Function.update_self, if_pos List.mem_cons_self]
      · rw [Function.update_of_ne hhead, if_neg]
        exact fun hmem => (List.mem_cons.mp hmem).elim hhead htail

omit [DecidableEq K] in
/-- Among elements with distinct keys, only members share their key with a member. -/
theorem key_mem_map (hkeys : Set.InjOn key S) (hmembers : ∀ a ∈ members, a ∈ S) {a : α}
    (ha : a ∈ S) : key a ∈ members.map key ↔ a ∈ members := by
  refine ⟨fun h => ?_, List.mem_map_of_mem⟩
  obtain ⟨b, hb, heq⟩ := List.mem_map.mp h
  exact hkeys (hmembers b hb) ha heq ▸ hb

/-- On the elements of `S`, the flags are those of the members. -/
def Agree (key : α → K) (S : Set α) (members : List α) (flags : K → Bool) : Prop :=
  ∀ a ∈ S, flags (key a) = true ↔ a ∈ members

omit [DecidableEq K] in
theorem agree_empty : Agree key S [] fun _ => false := fun _ _ => ⟨nofun, nofun⟩

/-- One more member. -/
theorem Agree.push (hkeys : Set.InjOn key S) (h : Agree key S members flags) {b : α} (hb : b ∈ S) :
    Agree key S (members ++ [b]) (Function.update flags (key b) true) := by
  intro a ha
  rw [List.mem_append, List.mem_singleton]
  by_cases hab : a = b
  · rw [hab, Function.update_self]
    exact iff_of_true rfl (.inr rfl)
  · rw [Function.update_of_ne fun heq => hab (hkeys ha hb heq), h a ha]
    exact (or_iff_left hab).symm

/-- Other members in place of all members. -/
theorem Agree.replace (hkeys : Set.InjOn key S) (h : Agree key S members flags)
    (hold : ∀ a ∈ members, a ∈ S) {members' : List α} (hnew : ∀ a ∈ members', a ∈ S) :
    Agree key S members' (assign key true (assign key false flags members) members') := by
  intro a ha
  have hcleared : assign key false flags members (key a) = false := by
    rw [assign_apply]
    split
    · rfl
    · next hmem =>
      rw [key_mem_map hkeys hold ha, ← h a ha] at hmem
      exact eq_false_of_ne_true hmem
  rw [assign_apply, hcleared, ← key_mem_map hkeys hnew ha]
  split
  · next hmem => exact iff_of_true rfl hmem
  · next hmem => exact iff_of_false nofun hmem

end PythCrosschain.KeyedFlags
