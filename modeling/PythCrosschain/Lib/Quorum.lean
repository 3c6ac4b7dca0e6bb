import Mathlib.Data.Finset.Card
import Mathlib.Data.Finset.Range

/-!
# Quorums

A quorum of `n` members has more than two thirds of them. The results are:

- `card_inter_ge`: two quorums of the same members overlap by what is left of
  both together;
- `third_lt_overlap`: for two thirds, that is more than a third of the members;
- `quorum_of_nodup`: members that are listed once are as many as they are
  listed.
-/

namespace PythCrosschain.Quorum

/-- The least number of members that is more than two thirds of `n`. -/
def twoThirds (n : Nat) : Nat := 2 * n / 3 + 1

variable {α : Type} [DecidableEq α]

theorem card_inter_ge {U A B : Finset α} {q : Nat} (inA : A ⊆ U) (inB : B ⊆ U)
    (hA : q ≤ A.card) (hB : q ≤ B.card) : 2 * q - U.card ≤ (A ∩ B).card := by
  have union : (A ∪ B).card ≤ U.card := Finset.card_le_card (Finset.union_subset inA inB)
  have both := Finset.card_union_add_card_inter A B
  omega

theorem third_lt_overlap (n : Nat) : n < 3 * (2 * twoThirds n - n) := by
  unfold twoThirds
  omega

/-- The members of a list without repetitions that all lie in `S`. -/
theorem quorum_of_nodup {S : Finset α} {members : List α} (distinct : members.Nodup)
    (inside : ∀ a ∈ members, a ∈ S) : members.length ≤ S.card := by
  rw [← List.toFinset_card_of_nodup distinct]
  exact Finset.card_le_card fun a listed => inside a (List.mem_toFinset.mp listed)

end PythCrosschain.Quorum
