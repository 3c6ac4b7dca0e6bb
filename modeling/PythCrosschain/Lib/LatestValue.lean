import Mathlib.Data.List.Perm.Basic
import Mathlib.Logic.Function.Basic
import Mathlib.Order.BoundedOrder.Basic
import Mathlib.Order.Lattice

/-!
# The latest of a list of values

A register that is overwritten by values with a greater time only. It holds the first
value whose time is the greatest (`IsLatest`), and a value at the bottom time is never
stored. The results are:

- `IsLatest.keepNewer` and `isLatest_foldl`: one value, and a whole list of values;
- `IsLatest.time_eq_of_perm` and `storedTime_foldl_perm`: the time does not depend on the order
  of the values;
- `foldl_keepNewer_perm`: neither does the value, if no two have the same time;
- `foldl_offerAt`: registers with keys are registers of the values with their key.
-/

namespace PythCrosschain.LatestValue

variable {α τ : Type} [LinearOrder τ] [OrderBot τ] {time : α → τ}

/-- The time of what is stored. -/
def storedTime (time : α → τ) (stored : Option α) : τ := stored.elim ⊥ time

/-- Offers a value to the register. -/
def keepNewer (time : α → τ) (stored : Option α) (a : α) : Option α :=
  if storedTime time stored < time a then some a else stored

/-- The first value whose time is the greatest, if a time is above the bottom. -/
def IsLatest (time : α → τ) (offered : List α) : Option α → Prop
  | none => ∀ a ∈ offered, time a = ⊥
  | some b => ⊥ < time b ∧ ∃ before after, offered = before ++ b :: after ∧
      (∀ a ∈ before, time a < time b) ∧ ∀ a ∈ after, time a ≤ time b

variable {offered offered' : List α} {stored stored' : Option α}

/-- No value that was offered is later than what is stored. -/
theorem IsLatest.le_storedTime (latest : IsLatest time offered stored) {a : α}
    (member : a ∈ offered) : time a ≤ storedTime time stored := by
  cases stored with
  | none => exact le_of_eq (latest a member)
  | some b =>
    obtain ⟨_, before, after, rfl, earlier, later⟩ := latest
    rcases List.mem_append.mp member with old | old
    · exact le_of_lt (earlier a old)
    · rcases List.mem_cons.mp old with rfl | new
      · exact le_rfl
      · exact later a new

theorem IsLatest.keepNewer (latest : IsLatest time offered stored) (a : α) :
    IsLatest time (offered ++ [a]) (keepNewer time stored a) := by
  unfold LatestValue.keepNewer
  split
  · next newer =>
    refine ⟨lt_of_le_of_lt bot_le newer, offered, [], rfl, fun b member => ?_,
      fun b none => absurd none List.not_mem_nil⟩
    exact lt_of_le_of_lt (latest.le_storedTime member) newer
  · next older =>
    have notLater := not_lt.mp older
    cases stored with
    | none =>
      intro b member
      rcases List.mem_append.mp member with old | new
      · exact latest b old
      · rw [List.mem_singleton.mp new]
        exact le_bot_iff.mp notLater
    | some b =>
      obtain ⟨positive, before, after, rfl, earlier, later⟩ := latest
      refine ⟨positive, before, after ++ [a], by rw [List.append_assoc, List.cons_append], earlier,
        fun c member => ?_⟩
      rcases List.mem_append.mp member with old | new
      · exact later c old
      · rw [List.mem_singleton.mp new]
        exact notLater

theorem isLatest_nil : IsLatest time ([] : List α) none :=
  fun _ none => absurd none List.not_mem_nil

theorem isLatest_foldl (latest : IsLatest time offered stored) (more : List α) :
    IsLatest time (offered ++ more) (more.foldl (LatestValue.keepNewer time) stored) := by
  induction more generalizing offered stored with
  | nil => rwa [List.append_nil]
  | cons a more ih =>
    rw [List.foldl_cons, ← List.singleton_append, ← List.append_assoc]
    exact ih (latest.keepNewer a)

theorem storedTime_le_keepNewer (a : α) :
    storedTime time stored ≤ storedTime time (LatestValue.keepNewer time stored a) := by
  unfold LatestValue.keepNewer
  split
  · next newer => exact le_of_lt newer
  · exact le_rfl

/-- The latest value is one of those that were offered. -/
theorem IsLatest.storedTime_le (latest : IsLatest time offered stored)
    (latest' : IsLatest time offered' stored') (subset : ∀ a ∈ offered, a ∈ offered') :
    storedTime time stored ≤ storedTime time stored' := by
  cases stored with
  | none => exact bot_le
  | some b =>
    obtain ⟨_, before, after, rfl, _⟩ := latest
    exact latest'.le_storedTime (subset b (List.mem_append_right _ List.mem_cons_self))

/-- The greatest time does not depend on the order of the values. -/
theorem IsLatest.time_eq_of_perm (latest : IsLatest time offered stored)
    (latest' : IsLatest time offered' stored') (perm : offered.Perm offered') :
    storedTime time stored = storedTime time stored' :=
  le_antisymm (latest.storedTime_le latest' fun _ => perm.mem_iff.mp)
    (latest'.storedTime_le latest fun _ => perm.mem_iff.mpr)

theorem storedTime_keepNewer (a : α) :
    storedTime time (LatestValue.keepNewer time stored a)
      = max (storedTime time stored) (time a) := by
  unfold LatestValue.keepNewer
  split
  · next newer => exact (max_eq_right (le_of_lt newer)).symm
  · next older => exact (max_eq_left (not_lt.mp older)).symm

theorem storedTime_foldl (as : List α) (stored : Option α) :
    storedTime time (as.foldl (LatestValue.keepNewer time) stored)
      = as.foldl (fun t a => max t (time a)) (storedTime time stored) := by
  induction as generalizing stored with
  | nil => rfl
  | cons a as ih => rw [List.foldl_cons, List.foldl_cons, ih, storedTime_keepNewer]

theorem storedTime_foldl_perm {as bs : List α} (perm : as.Perm bs) (stored : Option α) :
    storedTime time (as.foldl (LatestValue.keepNewer time) stored)
      = storedTime time (bs.foldl (LatestValue.keepNewer time) stored) := by
  rw [storedTime_foldl, storedTime_foldl]
  exact perm.foldl_eq' (fun a _ b _ t => sup_right_comm t (time a) (time b)) _

/-- An earlier value before a later one makes no difference. -/
theorem keepNewer_earlier_first {a b : α} (earlier : time a < time b) :
    LatestValue.keepNewer time (LatestValue.keepNewer time stored a) b
      = LatestValue.keepNewer time stored b := by
  have timeA := @storedTime_keepNewer _ _ _ _ time stored a
  by_cases newer : storedTime time stored < time b
  · have newer' : storedTime time (LatestValue.keepNewer time stored a) < time b := by
      rw [timeA]
      exact max_lt newer earlier
    rw [LatestValue.keepNewer, if_pos newer', LatestValue.keepNewer, if_pos newer]
  · have older : ¬storedTime time stored < time a := fun h =>
      newer (lt_trans h earlier)
    have same : LatestValue.keepNewer time stored a = stored := if_neg older
    rw [same]

/-- An earlier value after a later one makes no difference. -/
theorem keepNewer_earlier_last {a b : α} (earlier : time a < time b) :
    LatestValue.keepNewer time (LatestValue.keepNewer time stored b) a
      = LatestValue.keepNewer time stored b := by
  have timeB := @storedTime_keepNewer _ _ _ _ time stored b
  have older : ¬storedTime time (LatestValue.keepNewer time stored b) < time a := by
    rw [timeB]
    exact not_lt.mpr (le_trans (le_of_lt earlier) (le_max_right _ _))
  rw [LatestValue.keepNewer, if_neg older]

/-- Two values with different times may be offered in either order. -/
theorem keepNewer_comm {a b : α} (different : time a ≠ time b) :
    LatestValue.keepNewer time (LatestValue.keepNewer time stored a) b
      = LatestValue.keepNewer time (LatestValue.keepNewer time stored b) a := by
  rcases lt_or_gt_of_ne different with before | after
  · rw [keepNewer_earlier_first before, keepNewer_earlier_last before]
  · rw [keepNewer_earlier_last after, keepNewer_earlier_first after]

theorem foldl_keepNewer_perm {as bs : List α} (perm : as.Perm bs)
    (distinct : ∀ a ∈ as, ∀ b ∈ as, time a = time b → a = b) (stored : Option α) :
    as.foldl (LatestValue.keepNewer time) stored = bs.foldl (LatestValue.keepNewer time) stored := by
  refine perm.foldl_eq' (fun a memberA b memberB t => ?_) stored
  by_cases same : time a = time b
  · rw [distinct a memberA b memberB same]
  · exact keepNewer_comm same

/-! ## Registers with keys -/

variable {κ : Type} [DecidableEq κ] {key : α → κ}

/-- Offers a value to the register of its key. -/
def offerAt (key : α → κ) (time : α → τ) (registers : κ → Option α) (a : α) : κ → Option α :=
  Function.update registers (key a) (keepNewer time (registers (key a)) a)

theorem offerAt_eq (registers : κ → Option α) (a : α) (k : κ) :
    offerAt key time registers a k =
      if key a = k then LatestValue.keepNewer time (registers k) a else registers k := by
  unfold offerAt
  by_cases same : key a = k
  · subst same
    rw [Function.update_self, if_pos rfl]
  · rw [Function.update_of_ne (fun h => same h.symm), if_neg same]

theorem foldl_offerAt (registers : κ → Option α) (as : List α) (k : κ) :
    as.foldl (offerAt key time) registers k =
      (as.filter fun a => key a = k).foldl (LatestValue.keepNewer time) (registers k) := by
  induction as generalizing registers with
  | nil => rfl
  | cons a as ih =>
    rw [List.foldl_cons, ih, offerAt_eq]
    by_cases same : key a = k
    · simp [same]
    · simp [same]

end PythCrosschain.LatestValue
