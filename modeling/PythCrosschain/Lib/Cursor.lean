import Mathlib.Data.List.Sort

/-!
# A cursor over numbered records

Records get the numbers below `limit`, and some of them are gone. `skip` is the
loop that moves a cursor past the numbers without a record, `gather` the one that
collects the first `count` records from a cursor on. The cursor only passes
numbers without a record (`skip_passed`), and what is collected is a prefix of
the records from the cursor on, in the order of their numbers (`gather_eq`).
-/

namespace PythCrosschain.Cursor

variable {R : Type} {get : ℕ → Option R} {limit : ℕ}

/-- Move past the numbers below `limit` that have no record, in `fuel` rounds. -/
def skip (get : ℕ → Option R) (limit : ℕ) : ℕ → ℕ → ℕ
  | 0, n => n
  | fuel + 1, n => if n < limit ∧ (get n).isNone then skip get limit fuel (n + 1) else n

/-- Collect records from `n` on until there are `count` of them. -/
def gather (get : ℕ → Option R) (limit count : ℕ) : ℕ → ℕ → List R → List R
  | 0, _, found => found
  | fuel + 1, n, found =>
    if found.length < count ∧ n < limit then
      gather get limit count fuel (n + 1) (found ++ (get n).toList)
    else found

/-- The records with a number from `n` up to `limit`, in order. -/
def records (get : ℕ → Option R) (limit n : ℕ) : List R :=
  (List.range' n (limit - n)).filterMap get

theorem skip_le {n : ℕ} (hn : n ≤ limit) (fuel : ℕ) : skip get limit fuel n ≤ limit := by
  induction fuel generalizing n with
  | zero => exact hn
  | succ fuel ih =>
    unfold skip
    split
    · next h => exact ih h.1
    · exact hn

theorem skip_passed {n m : ℕ} (fuel : ℕ) (hnm : n ≤ m) (hm : m < skip get limit fuel n) :
    get m = none := by
  induction fuel generalizing n with
  | zero => exact absurd hm (Nat.not_lt.mpr hnm)
  | succ fuel ih =>
    unfold skip at hm
    split at hm
    · next h =>
      rcases Nat.eq_or_lt_of_le hnm with rfl | hlt
      · exact Option.isNone_iff_eq_none.mp h.2
      · exact ih hlt hm
    · exact absurd hm (Nat.not_lt.mpr hnm)

theorem records_of_le {n : ℕ} (h : limit ≤ n) : records get limit n = [] := by
  rw [records, Nat.sub_eq_zero_of_le h]
  rfl

theorem records_of_lt {n : ℕ} (h : n < limit) :
    records get limit n = (get n).toList ++ records get limit (n + 1) := by
  obtain ⟨k, hk⟩ : ∃ k, limit - n = k + 1 := ⟨limit - n - 1, by omega⟩
  have hk' : limit - (n + 1) = k := by omega
  rw [records, records, hk, hk', List.range'_succ, List.filterMap_cons]
  cases get n <;> rfl

theorem mem_records {n : ℕ} {r : R} :
    r ∈ records get limit n ↔ ∃ m, n ≤ m ∧ m < limit ∧ get m = some r := by
  simp only [records, List.mem_filterMap, List.mem_range'_1]
  constructor
  · rintro ⟨m, ⟨hnm, hm⟩, hr⟩
    exact ⟨m, hnm, by omega, hr⟩
  · rintro ⟨m, hnm, hm, hr⟩
    exact ⟨m, ⟨hnm, by omega⟩, hr⟩

/-- Records that carry their number are in ascending order. -/
theorem records_ascending {number : R → ℕ}
    (hnumber : ∀ m < limit, ∀ r, get m = some r → number r = m) (n : ℕ) :
    (records get limit n).Pairwise fun a b => number a < number b := by
  have hrange : (List.range' n (limit - n)).Pairwise (· < ·) := List.pairwise_lt_range'
  have hbound : ∀ m ∈ List.range' n (limit - n), m < limit := by
    intro m hm
    rw [List.mem_range'_1] at hm
    omega
  refine List.pairwise_filterMap.mpr (hrange.imp_of_mem ?_)
  intro i j hi hj hij a ha b hb
  rwa [hnumber i (hbound i hi) a ha, hnumber j (hbound j hj) b hb]

/-- The collecting loop returns the first `count` records, if it may run to the limit. -/
theorem gather_eq {count fuel n : ℕ} {found : List R} (hfuel : limit ≤ n + fuel)
    (hfound : found.length ≤ count) :
    gather get limit count fuel n found = (found ++ records get limit n).take count := by
  induction fuel generalizing n found with
  | zero =>
    have hend : limit ≤ n := hfuel
    rw [gather, records_of_le hend, List.append_nil, List.take_of_length_le hfound]
  | succ fuel ih =>
    unfold gather
    split
    · next h =>
      have hone : (get n).toList.length ≤ 1 := by
        cases get n <;> simp
      have hgrown : (found ++ (get n).toList).length ≤ count := by
        rw [List.length_append]
        omega
      rw [ih (by omega) hgrown, records_of_lt h.2, List.append_assoc]
    · next h =>
      rcases Nat.lt_or_ge found.length count with hlt | hge
      · have hend : limit ≤ n := Nat.not_lt.mp fun hn => h ⟨hlt, hn⟩
        rw [records_of_le hend, List.append_nil, List.take_of_length_le hfound]
      · rw [List.take_append_of_le_length hge, List.take_of_length_le hfound]

/-- A prefix of an ascending list holds everything below its members. -/
theorem mem_take_of_lt {number : R → ℕ} {l : List R} {count : ℕ} {a b : R}
    (hl : l.Pairwise fun a b => number a < number b) (ha : a ∈ l.take count) (hb : b ∈ l)
    (hlt : number b < number a) : b ∈ l.take count := by
  rw [← List.take_append_drop count l] at hb hl
  rcases List.mem_append.mp hb with hb | hb
  · exact hb
  · have hba := (List.pairwise_append.mp hl).2.2 a ha b hb
    exact absurd hlt (Nat.lt_asymm hba)

end PythCrosschain.Cursor
