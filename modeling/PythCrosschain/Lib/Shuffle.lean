import Mathlib.Data.Fintype.BigOperators
import Mathlib.Data.List.FinRange
import Mathlib.Data.Nat.Factorial.BigOperators
import Mathlib.Logic.Equiv.Fintype
import Mathlib.Order.Interval.Finset.Fin
import Mathlib.Probability.Distributions.Uniform

/-!
# Shuffling by exchanges

Each position is exchanged with a chosen one that is not before it. The results are:

- `shuffle_bijective`: every permutation comes from exactly one sequence of choices;
- `arrange_bijOn`: the same for the rearrangements of a list without duplicates;
- `set_set_ofFn`: an exchange in a list.
-/

namespace PythCrosschain.Shuffle

open Equiv (Perm)

variable {n : ℕ}

/-- For each position one that is not before it. -/
abbrev Choices (n : ℕ) : Type := (i : Fin n) → {j : Fin n // i ≤ j}

instance : Nonempty (Choices n) := ⟨fun i => ⟨i, le_refl i⟩⟩

/-- The exchanges of the first `k` positions, one after the other. -/
def exchanges (c : Choices n) : ℕ → Perm (Fin n)
  | 0 => 1
  | k + 1 => if h : k < n then exchanges c k * Equiv.swap ⟨k, h⟩ (c ⟨k, h⟩).1 else exchanges c k

def shuffle (c : Choices n) : Perm (Fin n) := exchanges c n

theorem exchanges_succ (c : Choices n) (i : Fin n) :
    exchanges c (i + 1) = exchanges c i * Equiv.swap i (c i) := dif_pos i.isLt

/-- After its exchange a position stays as it is. -/
theorem exchanges_apply_of_lt (c : Choices n) {i : Fin n} {k : ℕ} (hik : i < k) (hk : k ≤ n) :
    exchanges c k i = exchanges c i (c i) := by
  induction k with
  | zero => exact absurd hik (Nat.not_lt_zero _)
  | succ k ih =>
    have hstep := exchanges_succ c ⟨k, hk⟩
    rw [hstep, Perm.mul_apply]
    rcases Nat.lt_succ_iff_lt_or_eq.mp hik with hlt | rfl
    · have hchosen : (⟨k, hk⟩ : Fin n) ≤ c ⟨k, hk⟩ := (c ⟨k, hk⟩).2
      have hlt' : i < ⟨k, hk⟩ := hlt
      rw [Equiv.swap_apply_of_ne_of_ne hlt'.ne (hlt'.trans_le hchosen).ne]
      exact ih hlt (Nat.le_of_succ_le hk)
    · exact congrArg _ (Equiv.swap_apply_left i _)

theorem shuffle_apply (c : Choices n) (i : Fin n) : shuffle c i = exchanges c i (c i) :=
  exchanges_apply_of_lt c i.isLt le_rfl

/-- The permutation tells the choices, from the first position on. -/
theorem shuffle_injective : Function.Injective (shuffle : Choices n → Perm (Fin n)) := by
  intro c c' h
  have hsame : ∀ k ≤ n, exchanges c k = exchanges c' k ∧ ∀ i : Fin n, i < k → c i = c' i := by
    intro k
    induction k with
    | zero => exact fun _ => ⟨rfl, fun i hi => absurd hi (Nat.not_lt_zero _)⟩
    | succ k ih =>
      intro hk
      obtain ⟨hexchanges, hchoices⟩ := ih (Nat.le_of_succ_le hk)
      have hchoice : c ⟨k, hk⟩ = c' ⟨k, hk⟩ := by
        have hposition := congrArg (fun σ : Perm (Fin n) => σ ⟨k, hk⟩) h
        simp only [shuffle_apply, hexchanges] at hposition
        exact Subtype.ext ((exchanges c' k).injective hposition)
      refine ⟨?_, fun i hi => ?_⟩
      · rw [exchanges_succ c ⟨k, hk⟩, exchanges_succ c' ⟨k, hk⟩, hchoice]
        exact congrArg (· * _) hexchanges
      · rcases Nat.lt_succ_iff_lt_or_eq.mp hi with hlt | heq
        · exact hchoices i hlt
        · obtain rfl : i = ⟨k, hk⟩ := Fin.ext heq
          exact hchoice
  exact funext fun i => (hsame n le_rfl).2 i i.isLt

theorem card_choices (n : ℕ) : Fintype.card (Choices n) = n.factorial := by
  have hcard (i : Fin n) : Fintype.card {j : Fin n // i ≤ j} = n - i := by
    rw [Fintype.card_subtype, ← Fin.card_Ici i]
    exact congrArg _ (Finset.ext fun j => by simp)
  rw [Fintype.card_pi, Finset.prod_congr rfl fun i _ => hcard i,
    Fin.prod_univ_eq_prod_range (fun i => n - i) n, ← Finset.prod_range_add_one_eq_factorial,
    ← Finset.prod_range_reflect]
  refine Finset.prod_congr rfl fun i hi => ?_
  have hlt := Finset.mem_range.mp hi
  omega

/-- **Every permutation** comes from exactly one sequence of choices. -/
theorem shuffle_bijective : Function.Bijective (shuffle : Choices n → Perm (Fin n)) := by
  refine (Fintype.bijective_iff_injective_and_card _).mpr ⟨shuffle_injective, ?_⟩
  rw [card_choices, Fintype.card_perm, Fintype.card_fin]

/-! ## Lists -/

section List

variable {α : Type} {f : Fin n → α}

/-- An exchange in a list. -/
theorem set_set_ofFn (f : Fin n → α) (i j : Fin n) :
    ((List.ofFn f).set i (f j)).set j (f i) = List.ofFn (f ∘ Equiv.swap i j) := by
  refine List.ext_getElem (by simp) fun k hk _ => ?_
  simp only [List.length_set, List.length_ofFn] at hk
  rw [List.getElem_set, List.getElem_set, List.getElem_ofFn, List.getElem_ofFn, Function.comp_apply,
    Equiv.swap_apply_def]
  by_cases hj : (j : ℕ) = k
  · by_cases hi : (i : ℕ) = k
    · obtain rfl : i = j := Fin.ext (hi.trans hj.symm)
      simp [← hi]
    · have hne : (⟨k, hk⟩ : Fin n) ≠ i := fun h => hi (congrArg Fin.val h).symm
      have heq : (⟨k, hk⟩ : Fin n) = j := Fin.ext hj.symm
      rw [if_pos hj, if_neg hne, if_pos heq]
  · have hne : (⟨k, hk⟩ : Fin n) ≠ j := fun h => hj (congrArg Fin.val h).symm
    rw [if_neg hj, if_neg hne]
    by_cases hi : (i : ℕ) = k
    · rw [if_pos hi, if_pos (Fin.ext hi.symm)]
    · rw [if_neg hi, if_neg fun h => hi (congrArg Fin.val h).symm]

/-- A list, rearranged. -/
def arrange (f : Fin n → α) (c : Choices n) : List α := List.ofFn (f ∘ shuffle c)

theorem arrange_perm (f : Fin n → α) (c : Choices n) : (arrange f c).Perm (List.ofFn f) :=
  (shuffle c).ofFn_comp_perm f

/-- A rearrangement of a list without duplicates is a permutation of its positions. -/
theorem exists_perm_of_perm (hf : Function.Injective f) {l : List α} (h : l.Perm (List.ofFn f)) :
    ∃ σ : Perm (Fin n), List.ofFn (f ∘ σ) = l := by
  have hlength : l.length = n := by rw [h.length_eq, List.length_ofFn]
  have hnodup : l.Nodup := h.nodup_iff.mpr (List.nodup_ofFn.mpr hf)
  have hfrom : ∀ k : Fin n, ∃ i : Fin n, f i = l[k] := by
    intro k
    have hmem : l[k] ∈ List.ofFn f := h.mem_iff.mp (List.getElem_mem _)
    exact (List.mem_ofFn' f _).mp hmem
  choose from' hfrom' using hfrom
  have hinjective : Function.Injective from' := by
    intro a b hab
    have helements : l[a] = l[b] := by rw [← hfrom' a, ← hfrom' b, hab]
    exact Fin.ext (hnodup.getElem_inj_iff.mp helements)
  refine ⟨Equiv.ofBijective from' (Finite.injective_iff_bijective.mp hinjective), ?_⟩
  refine List.ext_getElem (by simp [hlength]) fun k hk hk' => ?_
  rw [List.getElem_ofFn]
  exact hfrom' ⟨k, hlength ▸ hk'⟩

/-- **Every rearrangement** of a list without duplicates comes from exactly one sequence of
choices. -/
theorem arrange_bijOn (hf : Function.Injective f) :
    Set.BijOn (arrange f) Set.univ {l | l.Perm (List.ofFn f)} := by
  refine ⟨fun c _ => arrange_perm f c, fun c _ c' _ h => ?_, fun l hl => ?_⟩
  · have heq := List.ofFn_injective h
    refine shuffle_injective (Equiv.ext fun i => hf ?_)
    exact congrFun heq i
  · obtain ⟨σ, rfl⟩ := exists_perm_of_perm hf hl
    obtain ⟨c, rfl⟩ := shuffle_bijective.2 σ
    exact ⟨c, trivial, rfl⟩

end List

end PythCrosschain.Shuffle
