import Mathlib.Data.Set.Function
import Mathlib.Logic.Function.Iterate

/-!
# Hash chains

A hash chain is a sequence `x 0, x 1, …` in which every value is the image of
the next one. Its head `x 0` commits to all of it. `chain_value` finds the value
at a position from its distance to the head, and `iterate_inj` peels equal ends
of two walks back to equal starts. `iterate_inj` needs `f` to be injective only
on the values that the two walks go through.
-/

namespace PythCrosschain.HashChain

variable {α : Type} {f : α → α}

/-- Walks of the same length with the same end have the same start. -/
theorem iterate_inj {S : Set α} (hf : Set.InjOn f S) {k : Nat} {a b : α}
    (ha : ∀ i < k, f^[i] a ∈ S) (hb : ∀ i < k, f^[i] b ∈ S) (h : f^[k] a = f^[k] b) :
    a = b := by
  induction k with
  | zero => exact h
  | succ k ih =>
    rw [Function.iterate_succ_apply', Function.iterate_succ_apply'] at h
    have hend : f^[k] a = f^[k] b := hf (ha k (Nat.lt_succ_self k)) (hb k (Nat.lt_succ_self k)) h
    exact ih (fun i hi => ha i (Nat.lt_succ_of_lt hi)) (fun i hi => hb i (Nat.lt_succ_of_lt hi))
      hend

/-- Two walks one after the other. -/
theorem iterate_sub {a b c : α} {i j k : Nat} (hij : i ≤ j) (hjk : j ≤ k)
    (hab : f^[k - j] a = b) (hbc : f^[j - i] b = c) : f^[k - i] a = c := by
  have hsplit : k - i = (j - i) + (k - j) := by omega
  rw [hsplit, Function.iterate_add_apply, hab, hbc]

/-- Walking `j` steps from a value of a chain ends at the value `j` before it. -/
theorem walk_back {x : Nat → α} {n : Nat} (hx : ∀ i, i + 1 < n → x i = f (x (i + 1)))
    {i j : Nat} (h : i + j < n) : f^[j] (x (i + j)) = x i := by
  induction j with
  | zero => rfl
  | succ j ih =>
    rw [Function.iterate_succ_apply, ← Nat.add_assoc, ← hx (i + j) h]
    exact ih (Nat.lt_of_succ_lt h)

/-- Walking `k` steps from the `k`-th value of a chain ends at its head. -/
theorem walk_to_head {x : Nat → α} {n : Nat} (hx : ∀ i, i + 1 < n → x i = f (x (i + 1)))
    {k : Nat} (hk : k < n) : f^[k] (x k) = x 0 := by
  have hback := walk_back hx ((Nat.zero_add k).symm ▸ hk)
  rwa [Nat.zero_add] at hback

/-- A value that is `k` steps from the head of a chain is its `k`-th value. -/
theorem chain_value (hf : Function.Injective f) {x : Nat → α} {n : Nat}
    (hx : ∀ i, i + 1 < n → x i = f (x (i + 1))) {k : Nat} (hk : k < n) {y : α}
    (hy : f^[k] y = x 0) : y = x k :=
  hf.iterate k (hy.trans (walk_to_head hx hk).symm)

end PythCrosschain.HashChain
