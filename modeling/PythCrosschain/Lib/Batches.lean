import Mathlib.Data.List.Infix
import Mathlib.Data.List.Induction

/-!
# Batches

A builder puts an item into its last batch where it may join it, and into a batch of its own where
it may not (`addToLast`). What is sent of a list is its longest beginning that fits (`takeFitting`).
-/

namespace PythCrosschain

variable {α : Type}

/-! ## Adding to the last batch -/

section

variable (joins : List α → α → Prop)

def addToLast [∀ batch item, Decidable (joins batch item)] (batches : List (List α)) (item : α) :
    List (List α) :=
  match batches.getLast? with
  | none => batches ++ [[item]]
  | some last =>
    if joins last item then batches.dropLast ++ [last ++ [item]] else batches ++ [[item]]

/-- The batches of a list: together they are the list, and the last item of each has joined the
ones before it. -/
structure Packed (items : List α) (batches : List (List α)) : Prop where
  flatten : batches.flatten = items
  ne_nil : ∀ batch ∈ batches, batch ≠ []
  joined : ∀ batch ∈ batches, ∀ before item, batch = before ++ [item] → before ≠ [] →
    joins before item

variable {joins} {items : List α} {batches : List (List α)}

theorem Packed.nil : Packed joins [] [] :=
  ⟨rfl, fun _ hbatch => absurd hbatch List.not_mem_nil,
    fun _ hbatch => absurd hbatch List.not_mem_nil⟩

theorem Packed.push (h : Packed joins items batches) (item : α) :
    Packed joins (items ++ [item]) (batches ++ [[item]]) := by
  refine ⟨?_, fun batch hbatch => ?_, fun batch hbatch before last hsplit hne => ?_⟩
  · rw [List.flatten_append, h.flatten, List.flatten_singleton]
  · rcases List.mem_append.mp hbatch with hbatch | hbatch
    · exact h.ne_nil batch hbatch
    · rw [List.mem_singleton.mp hbatch]
      exact List.cons_ne_nil _ _
  · rcases List.mem_append.mp hbatch with hbatch | hbatch
    · exact h.joined batch hbatch before last hsplit hne
    · rw [List.mem_singleton.mp hbatch] at hsplit
      have hlengths := congrArg List.length hsplit
      rw [List.length_append, List.length_singleton, List.length_singleton] at hlengths
      exact absurd (List.length_eq_zero_iff.mp (Nat.add_right_cancel hlengths.symm)) hne

theorem Packed.join {last : List α} {item : α} (h : Packed joins items (batches ++ [last]))
    (hjoins : joins last item) :
    Packed joins (items ++ [item]) (batches ++ [last ++ [item]]) := by
  refine ⟨?_, fun batch hbatch => ?_, fun batch hbatch before next hsplit hne => ?_⟩
  · rw [← h.flatten]
    simp only [List.flatten_append, List.flatten_singleton, List.append_assoc]
  · rcases List.mem_append.mp hbatch with hbatch | hbatch
    · exact h.ne_nil batch (List.mem_append_left _ hbatch)
    · rw [List.mem_singleton.mp hbatch]
      exact List.concat_ne_nil item last
  · rcases List.mem_append.mp hbatch with hbatch | hbatch
    · exact h.joined batch (List.mem_append_left _ hbatch) before next hsplit hne
    · rw [List.mem_singleton.mp hbatch] at hsplit
      obtain ⟨rfl, hitem⟩ := List.append_inj' hsplit rfl
      rw [← List.cons.inj hitem |>.1]
      exact hjoins

variable [∀ batch item, Decidable (joins batch item)]

theorem Packed.addToLast (h : Packed joins items batches) (item : α) :
    Packed joins (items ++ [item]) (addToLast joins batches item) := by
  unfold PythCrosschain.addToLast
  cases hlast : batches.getLast? with
  | none => exact h.push item
  | some last =>
    obtain ⟨before, rfl⟩ := List.getLast?_eq_some_iff.mp hlast
    dsimp only
    split
    · next hjoins =>
      rw [List.dropLast_concat]
      exact h.join hjoins
    · exact h.push item

theorem packed_foldl (items : List α) : Packed joins items (items.foldl (addToLast joins) []) := by
  induction items using List.reverseRecOn with
  | nil => exact .nil
  | append_singleton items item ih =>
    rw [List.foldl_concat]
    exact ih.addToLast item

end

/-! ## The longest beginning that fits -/

section

variable (fits : List α → Prop)

/-- `sent` is what was taken so far. -/
def takeFitting [DecidablePred fits] : List α → List α → List α
  | sent, [] => sent
  | sent, item :: rest =>
    if fits (sent ++ [item]) then takeFitting (sent ++ [item]) rest else sent

/-- What is taken of a list fits, and not together with the next item. -/
structure LongestFit (whole sent : List α) : Prop where
  isPrefix : sent <+: whole
  isFit : sent ≠ [] → fits sent
  full : ∀ item rest, whole = sent ++ item :: rest → ¬ fits (sent ++ [item])

variable {fits} {whole sent : List α}

theorem longestFit_takeFitting_append [DecidablePred fits] (rest : List α)
    (hsent : sent ≠ [] → fits sent) :
    LongestFit fits (sent ++ rest) (takeFitting fits sent rest) := by
  induction rest generalizing sent with
  | nil =>
    refine ⟨List.prefix_append _ _, hsent, fun item rest hrest => ?_⟩
    exact absurd (List.append_cancel_left hrest) (List.cons_ne_nil item rest).symm
  | cons item rest ih =>
    rw [takeFitting]
    split
    · next hfits =>
      have htail := ih fun _ => hfits
      rw [List.append_assoc, List.singleton_append] at htail
      exact htail
    · next hfits =>
      refine ⟨List.prefix_append _ _, hsent, fun next rest' hrest => ?_⟩
      rw [← (List.cons.inj (List.append_cancel_left hrest)).1]
      exact hfits

theorem longestFit_takeFitting (fits : List α → Prop) [DecidablePred fits] (whole : List α) :
    LongestFit fits whole (takeFitting fits [] whole) :=
  longestFit_takeFitting_append whole fun h => absurd rfl h

/-- Where the beginnings of a list that fits fit, nothing that fits is longer. -/
theorem LongestFit.of_fits (h : LongestFit fits whole sent)
    (hmono : ∀ l m, l <+: m → fits m → fits l) {start : List α} (hstart : start <+: whole)
    (hfits : fits start) : start <+: sent := by
  rcases List.prefix_or_prefix_of_prefix hstart h.isPrefix with hle | hle
  · exact hle
  · obtain ⟨more, rfl⟩ := hle
    cases more with
    | nil => rw [List.append_nil]
    | cons item more =>
      obtain ⟨rest, hrest⟩ := hstart
      rw [List.append_assoc, List.cons_append] at hrest
      refine absurd (hmono _ _ ?_ hfits) (h.full item (more ++ rest) hrest.symm)
      exact ⟨more, by rw [List.append_assoc, List.singleton_append]⟩

end

end PythCrosschain
