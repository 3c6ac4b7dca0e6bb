import Mathlib.Data.List.Basic
import Mathlib.Order.Lattice

/-!
# Sorting by a key, and runs of a sorted list

`StablySorted` says that a list is another one in the order of a key, where elements
with one key stand in the order in which they came. `takeRun` takes elements from the
front of a list as long as they satisfy a predicate, up to a number of them.
-/

namespace PythCrosschain

/-! ## Stable sorting -/

section StableSort

variable {α κ : Type} [LinearOrder κ]

structure StablySorted (key : α → κ) (list sorted : List α) : Prop where
  /-- Every element is there exactly once. -/
  perm : sorted.Perm list
  ordered : sorted.Pairwise fun a b => key a ≤ key b
  stable : ∀ k, sorted.filter (fun a => key a = k) = list.filter (fun a => key a = k)

def sortByKey (key : α → κ) (list : List α) : List α :=
  list.mergeSort fun a b => key a ≤ key b

theorem sortByKey_stablySorted (key : α → κ) (list : List α) :
    StablySorted key list (sortByKey key list) := by
  have htrans : ∀ a b c : α, decide (key a ≤ key b) = true → decide (key b ≤ key c) = true →
      decide (key a ≤ key c) = true := by
    intro a b c hab hbc
    simp only [decide_eq_true_eq] at hab hbc ⊢
    exact le_trans hab hbc
  have htotal : ∀ a b : α, (decide (key a ≤ key b) || decide (key b ≤ key a)) = true := by
    intro a b
    simpa using le_total (key a) (key b)
  have hperm : (sortByKey key list).Perm list := List.mergeSort_perm _ _
  refine ⟨hperm, ?_, fun k => ?_⟩
  · exact (List.pairwise_mergeSort htrans htotal list).imp of_decide_eq_true
  · have hequal : (list.filter fun a => key a = k).Pairwise fun a b =>
        decide (key a ≤ key b) = true := by
      refine List.pairwise_of_forall_mem_list fun a ha b hb => decide_eq_true ?_
      rw [of_decide_eq_true (List.mem_filter.mp ha).2, of_decide_eq_true (List.mem_filter.mp hb).2]
    have hsublist := (List.sublist_mergeSort htrans htotal hequal List.filter_sublist).filter
      fun a => key a = k
    rw [List.filter_filter] at hsublist
    simp only [Bool.and_self] at hsublist
    exact (hsublist.eq_of_length (hperm.filter _).length_eq.symm).symm

/-- Elements with one key stay as they are. -/
theorem StablySorted.eq_of_forall {key : α → κ} {list sorted : List α} {k : κ}
    (h : StablySorted key list sorted) (hkey : ∀ a ∈ list, key a = k) : sorted = list := by
  have hstable := h.stable k
  rwa [List.filter_eq_self.mpr fun a ha => decide_eq_true (hkey a (h.perm.mem_iff.mp ha)),
    List.filter_eq_self.mpr fun a ha => decide_eq_true (hkey a ha)] at hstable

end StableSort

/-! ## Runs -/

section Runs

variable {α : Type} (p : α → Bool)

/-- At most `n` elements that satisfy `p`, and the rest. -/
def takeRun : Nat → List α → List α × List α
  | 0, rest => ([], rest)
  | _ + 1, [] => ([], [])
  | n + 1, a :: rest =>
    if p a then (a :: (takeRun n rest).1, (takeRun n rest).2) else ([], a :: rest)

theorem takeRun_append (n : Nat) (list : List α) :
    (takeRun p n list).1 ++ (takeRun p n list).2 = list := by
  induction n generalizing list with
  | zero => rfl
  | succ n ih =>
    cases list with
    | nil => rfl
    | cons a rest =>
      unfold takeRun
      split
      · exact congrArg (a :: ·) (ih rest)
      · rfl

theorem length_takeRun_le (n : Nat) (list : List α) : (takeRun p n list).1.length ≤ n := by
  induction n generalizing list with
  | zero => exact Nat.le_refl 0
  | succ n ih =>
    cases list with
    | nil => exact Nat.zero_le _
    | cons a rest =>
      unfold takeRun
      split
      · exact Nat.succ_le_succ (ih rest)
      · exact Nat.zero_le _

theorem of_mem_takeRun {n : Nat} {list : List α} {a : α} (ha : a ∈ (takeRun p n list).1) :
    p a = true := by
  induction n generalizing list with
  | zero => cases ha
  | succ n ih =>
    cases list with
    | nil => cases ha
    | cons b rest =>
      unfold takeRun at ha
      split at ha
      · next hb =>
        rcases List.mem_cons.mp ha with rfl | ha
        · exact hb
        · exact ih ha
      · cases ha

theorem length_takeRun_rest_le (n : Nat) (list : List α) :
    (takeRun p n list).2.length ≤ list.length := by
  have happend := congrArg List.length (takeRun_append p n list)
  rw [List.length_append] at happend
  exact happend ▸ Nat.le_add_left _ _

end Runs

end PythCrosschain
