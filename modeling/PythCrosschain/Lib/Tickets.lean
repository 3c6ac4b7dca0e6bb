import Mathlib.Data.List.Pairwise
import Mathlib.Logic.Function.Basic
import Mathlib.Logic.Relation

/-!
# Numbers from a counter that may be set

A dispenser hands out the value of a counter and increments it. Holders spend the numbers that they
hold, or drop them. The counter may also be set, and rounds may be begun, which forget what was
spent before. A number is in use while it is held, and when it was spent in the present round
(`Dispenser.InUse`).

The results are:

- `Move.sound`: every move keeps the numbers that are in use apart, when the counter is only set
  above them;
- `sound_of_run`: so a number is only spent twice when a round begins between the first time and
  the hand-out of the second one.
-/

namespace PythCrosschain.Tickets

open Relation (ReflTransGen)

/-- A number, and the round in which it was handed out. -/
structure Ticket where
  number : ℕ
  round : ℕ
deriving DecidableEq, Repr

/-- A ticket, and the round in which it was spent. -/
structure Spent extends Ticket where
  spentIn : ℕ
deriving DecidableEq, Repr

/-- The tickets that were spent stand in front of the ones that were spent before. -/
structure Dispenser (ι : Type) where
  next : ℕ
  round : ℕ
  held : ι → Option Ticket
  spent : List Spent

/-- A round began behind the first use and before the second number was handed out. -/
def Renewed (later earlier : Spent) : Prop :=
  later.number = earlier.number → earlier.spentIn < later.round

variable {ι : Type}

namespace Dispenser

/-- The number is held, or it was spent in this round. -/
def InUse (d : Dispenser ι) (n : ℕ) : Prop :=
  (∃ i t, d.held i = some t ∧ t.number = n) ∨ ∃ t ∈ d.spent, t.number = n ∧ t.spentIn = d.round

structure Sound (d : Dispenser ι) : Prop where
  below : ∀ n, d.InUse n → n < d.next
  distinct : ∀ i j t u, d.held i = some t → d.held j = some u → t.number = u.number → i = j
  heldRound : ∀ i t, d.held i = some t → t.round ≤ d.round
  spentRound : ∀ t ∈ d.spent, t.spentIn ≤ d.round
  apart : ∀ i t, d.held i = some t → ∀ u ∈ d.spent, t.number = u.number → u.spentIn < t.round
  renewed : d.spent.Pairwise Renewed

end Dispenser

variable {d d' : Dispenser ι}

/-- What was spent before is no longer in use. -/
theorem Dispenser.Sound.begin (hd : d.Sound) : Dispenser.Sound { d with round := d.round + 1 } := by
  refine ⟨?_, hd.distinct, ?_, ?_, hd.apart, hd.renewed⟩
  · rintro n (hheld | ⟨t, ht, -, hround⟩)
    · exact hd.below n (.inl hheld)
    · exact absurd (hd.spentRound t ht) (Nat.not_le_of_lt (hround ▸ Nat.lt_succ_self d.round))
  · intro i t hi
    exact Nat.le_succ_of_le (hd.heldRound i t hi)
  · intro t ht
    exact Nat.le_succ_of_le (hd.spentRound t ht)

section

variable [DecidableEq ι]

inductive Move (d : Dispenser ι) : Dispenser ι → Prop
  | take (i : ι) : Move d { d with
      next := d.next + 1
      held := Function.update d.held i (some ⟨d.next, d.round⟩) }
  | set (n : ℕ) : (∀ m, d.InUse m → m < n) → Move d { d with next := n }
  | drop (i : ι) : Move d { d with held := Function.update d.held i none }
  | spend (i : ι) (t : Ticket) : d.held i = some t → Move d { d with
      held := Function.update d.held i none
      spent := { t with spentIn := d.round } :: d.spent }
  | begin : Move d { d with round := d.round + 1 }

theorem held_of_update {held : ι → Option Ticket} {i j : ι} {t : Ticket}
    (h : Function.update held i none j = some t) : j ≠ i ∧ held j = some t := by
  by_cases hj : j = i
  · subst hj
    rw [Function.update_self] at h
    cases h
  · rw [Function.update_of_ne hj] at h
    exact ⟨hj, h⟩

theorem Dispenser.Sound.drop (hd : d.Sound) (i : ι) :
    Dispenser.Sound { d with held := Function.update d.held i none } := by
  refine ⟨?_, ?_, ?_, hd.spentRound, ?_, hd.renewed⟩
  · rintro n (⟨j, t, hj, hn⟩ | hspent)
    · exact hd.below n (.inl ⟨j, t, (held_of_update hj).2, hn⟩)
    · exact hd.below n (.inr hspent)
  · intro j k t u hj hk
    exact hd.distinct j k t u (held_of_update hj).2 (held_of_update hk).2
  · intro j t hj
    exact hd.heldRound j t (held_of_update hj).2
  · intro j t hj
    exact hd.apart j t (held_of_update hj).2

/-- A number that is handed out is above all that are in use. -/
theorem Dispenser.Sound.take (hd : d.Sound) (i : ι) : Dispenser.Sound { d with
    next := d.next + 1
    held := Function.update d.held i (some ⟨d.next, d.round⟩) } := by
  have hheld : ∀ j t, Function.update d.held i (some ⟨d.next, d.round⟩) j = some t →
      j = i ∧ t = ⟨d.next, d.round⟩ ∨ j ≠ i ∧ d.held j = some t := by
    intro j t hj
    by_cases hji : j = i
    · subst hji
      rw [Function.update_self] at hj
      exact .inl ⟨rfl, (Option.some.inj hj).symm⟩
    · rw [Function.update_of_ne hji] at hj
      exact .inr ⟨hji, hj⟩
  have hbelow : ∀ j t, d.held j = some t → t.number < d.next :=
    fun j t hj => hd.below t.number (.inl ⟨j, t, hj, rfl⟩)
  refine ⟨?_, ?_, ?_, hd.spentRound, ?_, hd.renewed⟩
  · rintro n (⟨j, t, hj, rfl⟩ | hspent)
    · rcases hheld j t hj with ⟨-, rfl⟩ | ⟨-, hj⟩
      · exact Nat.lt_succ_self _
      · exact Nat.lt_succ_of_lt (hbelow j t hj)
    · exact Nat.lt_succ_of_lt (hd.below n (.inr hspent))
  · intro j k t u hj hk htu
    rcases hheld j t hj with ⟨hji, ht⟩ | ⟨-, hj'⟩
    · rcases hheld k u hk with ⟨hki, -⟩ | ⟨-, hk'⟩
      · exact hji.trans hki.symm
      · rw [ht] at htu
        exact absurd htu (Nat.ne_of_gt (hbelow k u hk'))
    · rcases hheld k u hk with ⟨-, hu⟩ | ⟨-, hk'⟩
      · rw [hu] at htu
        exact absurd htu (Nat.ne_of_lt (hbelow j t hj'))
      · exact hd.distinct j k t u hj' hk' htu
  · intro j t hj
    rcases hheld j t hj with ⟨-, rfl⟩ | ⟨-, hj⟩
    · exact Nat.le_refl _
    · exact hd.heldRound j t hj
  · intro j t hj u hu htu
    rcases hheld j t hj with ⟨-, rfl⟩ | ⟨-, hj⟩
    · -- a number of this round that is not below the counter was not spent in it
      refine Nat.lt_of_le_of_ne (hd.spentRound u hu) fun hround => ?_
      exact absurd htu (Nat.ne_of_gt (hd.below u.number (.inr ⟨u, hu, rfl, hround⟩)))
    · exact hd.apart j t hj u hu htu

theorem Dispenser.Sound.spend (hd : d.Sound) {i : ι} {t : Ticket} (hi : d.held i = some t) :
    Dispenser.Sound { d with
      held := Function.update d.held i none
      spent := { t with spentIn := d.round } :: d.spent } := by
  have hdrop := hd.drop i
  refine ⟨?_, hdrop.distinct, hdrop.heldRound, ?_, ?_, ?_⟩
  · rintro n (hheld | ⟨u, hu, hn, hround⟩)
    · exact hdrop.below n (.inl hheld)
    · rcases List.mem_cons.mp hu with rfl | hu
      · exact hd.below n (.inl ⟨i, t, hi, hn⟩)
      · exact hd.below n (.inr ⟨u, hu, hn, hround⟩)
  · intro u hu
    rcases List.mem_cons.mp hu with rfl | hu
    · exact Nat.le_refl _
    · exact hd.spentRound u hu
  · intro j u hj v hv huv
    obtain ⟨hji, hj⟩ := held_of_update hj
    rcases List.mem_cons.mp hv with rfl | hv
    · exact absurd (hd.distinct j i u t hj hi huv) hji
    · exact hd.apart j u hj v hv huv
  · refine List.pairwise_cons.mpr ⟨fun u hu htu => ?_, hd.renewed⟩
    exact hd.apart i t hi u hu htu

theorem Move.sound (h : Move d d') (hd : d.Sound) : d'.Sound := by
  cases h with
  | take i => exact hd.take i
  | set n hn => exact ⟨hn, hd.distinct, hd.heldRound, hd.spentRound, hd.apart, hd.renewed⟩
  | drop i => exact hd.drop i
  | spend i t hi => exact hd.spend hi
  | begin => exact hd.begin

theorem sound_of_run (h : ReflTransGen Move d d') (hd : d.Sound) : d'.Sound := by
  induction h with
  | refl => exact hd
  | tail _ hmove ih => exact hmove.sound ih

end

/-- A dispenser that has handed out nothing. -/
theorem sound_empty (next round : ℕ) :
    Dispenser.Sound ({ next, round, held := fun _ => none, spent := [] } : Dispenser ι) := by
  refine ⟨?_, ?_, ?_, ?_, ?_, .nil⟩
  · rintro n (⟨i, t, hi, -⟩ | ⟨t, ht, -⟩)
    · cases hi
    · cases ht
  · intro i j t u hi
    cases hi
  · intro i t hi
    cases hi
  · intro t ht
    cases ht
  · intro i t hi
    cases hi

end PythCrosschain.Tickets
