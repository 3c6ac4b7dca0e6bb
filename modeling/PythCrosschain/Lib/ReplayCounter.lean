import Mathlib.Data.List.Basic
import Mathlib.Data.List.Nodup
import Mathlib.Data.Set.Basic
import Mathlib.Logic.Function.Basic
import Mathlib.Logic.Relation
import Mathlib.Order.Nat

/-!
# Replay protection

Four ways to see that work is done once: by one counter, by counters that are written late, by
a counter that held messages are compared with, and by grants that are used up.
-/

/-!
## Replay protection by one counter

A component executes numbered messages of one source at a time and keeps the number of
the last one. A message may also hand the component over to another source, with a new
value of the counter. Messages are executed at most once as long as no hand-over sets
the counter below a message of the new source that was executed before.

The results are:

- `Counter.FreshMove.sound`: what one such move preserves;
- `Counter.nodup_of_run`: over a run of such moves no message is executed twice.
-/

namespace PythCrosschain

/-- The source that governs, the number of its last message, and all messages that were
executed so far. -/
structure Counter (S : Type) where
  source : S
  last : Nat
  executed : List (S × Nat)

namespace Counter

variable {S : Type} {c d : Counter S}

/-- A move that does not forget an executed message. -/
inductive FreshMove (c : Counter S) : Counter S → Prop
  | execute {n : Nat} : c.last < n →
      FreshMove c { c with last := n, executed := c.executed ++ [(c.source, n)] }
  | handOver {n : Nat} {source : S} {claim : Nat} : c.last < n →
      (∀ k, (source, k) ∈ c.executed ++ [(c.source, n)] → k ≤ claim) →
      FreshMove c { source := source, last := claim, executed := c.executed ++ [(c.source, n)] }

/-- No message was executed twice, and the counter is ahead of all messages of the
source that governs. -/
structure Sound (c : Counter S) : Prop where
  nodup : c.executed.Nodup
  behind : ∀ n, (c.source, n) ∈ c.executed → n ≤ c.last

/-- A message ahead of the counter is new. -/
theorem Sound.nodup_append (h : c.Sound) {n : Nat} (hn : c.last < n) :
    (c.executed ++ [(c.source, n)]).Nodup := by
  have hnew : (c.source, n) ∉ c.executed := fun hmem => absurd (h.behind n hmem) (not_le.mpr hn)
  rw [List.nodup_append]
  refine ⟨h.nodup, List.nodup_singleton _, ?_⟩
  rintro a ha b hb rfl
  rw [List.mem_singleton.mp hb] at ha
  exact hnew ha

theorem FreshMove.sound (h : FreshMove c d) (hc : c.Sound) : d.Sound := by
  cases h with
  | @execute n hn =>
    refine ⟨hc.nodup_append hn, fun k hk => ?_⟩
    rcases List.mem_append.mp hk with hold | hnew
    · exact (hc.behind k hold).trans hn.le
    · exact (Prod.mk.inj (List.mem_singleton.mp hnew)).2.le
  | handOver hn hclaim => exact ⟨hc.nodup_append hn, hclaim⟩

theorem sound_of_run (h : Relation.ReflTransGen FreshMove c d) (hc : c.Sound) : d.Sound := by
  induction h with
  | refl => exact hc
  | tail _ hmove ih => exact hmove.sound ih

/-- Over a run of moves that forget nothing, no message is executed twice. -/
theorem nodup_of_run (h : Relation.ReflTransGen FreshMove c d) (hc : c.executed = []) :
    d.executed.Nodup := by
  have hsound : c.Sound := ⟨hc ▸ List.nodup_nil, fun n hn => absurd (hc ▸ hn) List.not_mem_nil⟩
  exact (sound_of_run h hsound).nodup

end Counter

end PythCrosschain

/-!
## Counters that are written late

Work is numbered, by numbers of its own for each key. Work `n` for a key may start where
the counter of the key is below `n`, but the counter becomes `n` only when the work ends.
Until then other work may start inside of it.

The counters are `Sound` when no work started twice and no counter was ever set to a
smaller number. Work that starts keeps them sound when it has a smaller number than the
open work of its key (`Sound.start`); the end of work always does (`Sound.finish`).
-/

namespace PythCrosschain

/-- The counters, the work that is open, the innermost first, and what has happened: the
work that started, and the numbers that were written, newest first. -/
structure LateCounter (ι : Type) where
  value : ι → Nat
  pending : List (ι × Nat)
  started : List (ι × Nat)
  written : List (ι × Nat)

namespace LateCounter

variable {ι : Type} [DecidableEq ι]

def start (c : LateCounter ι) (k : ι) (n : Nat) : LateCounter ι :=
  { c with
    pending := (k, n) :: c.pending
    started := (k, n) :: c.started }

/-- The end of the innermost work. -/
def finish (c : LateCounter ι) : LateCounter ι :=
  match c.pending with
  | [] => c
  | (k, n) :: pending =>
    { c with
      value := Function.update c.value k n
      pending
      written := (k, n) :: c.written }

/-- No later number is smaller than an earlier one of its key. -/
def Increasing (written : List (ι × Nat)) : Prop :=
  written.Pairwise fun new old => new.1 = old.1 → old.2 ≤ new.2

structure Sound (c : LateCounter ι) : Prop where
  started_le : ∀ x ∈ c.started, x.2 ≤ c.value x.1 ∨ x ∈ c.pending
  started_nodup : c.started.Nodup
  written_le : ∀ x ∈ c.written, x.2 ≤ c.value x.1
  written_increasing : Increasing c.written
  pending_nested : c.pending.Pairwise fun inner outer => inner.1 = outer.1 → inner.2 < outer.2
  value_lt : ∀ x ∈ c.pending, c.value x.1 < x.2

variable {c : LateCounter ι}

omit [DecidableEq ι] in
/-- Work that starts inside of larger work of its key. -/
theorem Sound.start (h : c.Sound) {k : ι} {n : Nat} (hvalue : c.value k < n)
    (hpending : ∀ x ∈ c.pending, x.1 = k → n < x.2) : (c.start k n).Sound where
  started_le x hx := by
    cases List.mem_cons.mp hx with
    | inl heq => exact .inr (heq ▸ List.mem_cons_self)
    | inr hmem =>
      cases h.started_le x hmem with
      | inl hle => exact .inl hle
      | inr hopen => exact .inr (List.mem_cons_of_mem _ hopen)
  started_nodup := by
    refine List.nodup_cons.mpr ⟨fun hmem => ?_, h.started_nodup⟩
    cases h.started_le _ hmem with
    | inl hle => exact absurd hvalue (Nat.not_lt.mpr hle)
    | inr hopen => exact absurd (hpending _ hopen rfl) (Nat.lt_irrefl n)
  written_le := h.written_le
  written_increasing := h.written_increasing
  pending_nested :=
    List.pairwise_cons.mpr ⟨fun x hx hk => hpending x hx hk.symm, h.pending_nested⟩
  value_lt := List.forall_mem_cons.mpr ⟨hvalue, h.value_lt⟩

theorem Sound.finish (h : c.Sound) : c.finish.Sound := by
  obtain ⟨value, pending, started, written⟩ := c
  cases pending with
  | nil => exact h
  | cons x pending =>
    obtain ⟨k, n⟩ := x
    have hlt : value k < n := h.value_lt (k, n) List.mem_cons_self
    have hnested := List.pairwise_cons.mp h.pending_nested
    have hself : Function.update value k n k = n := Function.update_self k n value
    have hmono (k' : ι) : value k' ≤ Function.update value k n k' := by
      by_cases hk : k' = k
      · subst hk
        rw [hself]
        exact hlt.le
      · rw [Function.update_of_ne hk]
    constructor
    · intro x hx
      cases h.started_le x hx with
      | inl hle => exact .inl (hle.trans (hmono x.1))
      | inr hopen =>
        cases List.mem_cons.mp hopen with
        | inl heq =>
          subst heq
          exact .inl hself.ge
        | inr hrest => exact .inr hrest
    · exact h.started_nodup
    · exact List.forall_mem_cons.mpr ⟨hself.ge, fun x hx => (h.written_le x hx).trans (hmono x.1)⟩
    · refine List.pairwise_cons.mpr ⟨fun x hx hk => ?_, h.written_increasing⟩
      have hle : x.2 ≤ value x.1 := h.written_le x hx
      rw [← show k = x.1 from hk] at hle
      exact hle.trans hlt.le
    · exact hnested.2
    · intro x hx
      show Function.update value k n x.1 < x.2
      by_cases hk : x.1 = k
      · rw [hk, hself]
        exact hnested.1 x hx hk.symm
      · rw [Function.update_of_ne hk]
        exact h.value_lt x (List.mem_cons_of_mem _ hx)

end LateCounter

end PythCrosschain

/-!
## Replay protection of messages that are held

A component executes numbered messages of the source that governs it, and keeps the number of
the last one. The source of a message is checked when the message comes in. It is then held,
and when it is executed only its number is compared with the counter. In between, the component
may be handed over to another source, with a new value of the counter.

A hand-over is quiet when the new value comes after all held messages of other sources, and
after all executed messages of the new source (`Move.handOver`).

The results are:

- `Deferred.Sound.governs`: a held message that is executed is of the source that governs;
- `Deferred.Sound.new`: it was not executed before;
- `Deferred.Move.sound`: all moves preserve what this needs.
-/

namespace PythCrosschain

structure Deferred (S : Type) where
  source : S
  last : Nat
  held : Set (S × Nat)
  executed : List (S × Nat)

namespace Deferred

variable {S : Type} {d d' : Deferred S}

/-- Moves whose hand-overs are quiet. Any of them may also drop held messages. -/
inductive Move (d : Deferred S) : Deferred S → Prop
  | hold {held : Set (S × Nat)} : (∀ m ∈ held, m ∈ d.held ∨ m.1 = d.source) →
      Move d { d with held := held }
  | execute {m : S × Nat} {held : Set (S × Nat)} : m ∈ d.held → d.last < m.2 → held ⊆ d.held →
      Move d { d with last := m.2, held := held, executed := d.executed ++ [m] }
  | handOver {source : S} {last : Nat} {held : Set (S × Nat)} : held ⊆ d.held →
      (∀ m ∈ held, m.1 ≠ source → m.2 ≤ last) →
      (∀ n, (source, n) ∈ d.executed → n ≤ last) →
      Move d { d with source := source, last := last, held := held }

/-- No message was executed twice, and the counter is ahead of all executed messages of the
source that governs and of all held messages of other sources. -/
structure Sound (d : Deferred S) : Prop where
  nodup : d.executed.Nodup
  behind : ∀ n, (d.source, n) ∈ d.executed → n ≤ d.last
  held : ∀ m ∈ d.held, m.1 = d.source ∨ m.2 ≤ d.last

theorem Sound.governs (h : d.Sound) {m : S × Nat} (hm : m ∈ d.held) (hahead : d.last < m.2) :
    m.1 = d.source :=
  (h.held m hm).resolve_right (not_le.mpr hahead)

theorem Sound.new (h : d.Sound) {m : S × Nat} (hm : m ∈ d.held) (hahead : d.last < m.2) :
    m ∉ d.executed := by
  intro hmem
  have hsource : m = (d.source, m.2) := Prod.ext (h.governs hm hahead) rfl
  rw [hsource] at hmem
  exact absurd (h.behind m.2 hmem) (not_le.mpr hahead)

theorem Move.sound (h : Move d d') (hd : d.Sound) : d'.Sound := by
  cases h with
  | hold hheld =>
    refine ⟨hd.nodup, hd.behind, fun m hm => ?_⟩
    exact (hheld m hm).elim (hd.held m) .inl
  | execute hm hahead hheld =>
    refine ⟨?_, fun n hn => ?_, fun m' hm' => ?_⟩
    · refine List.nodup_append.mpr ⟨hd.nodup, List.nodup_singleton _, fun a ha b hb => ?_⟩
      rw [List.mem_singleton.mp hb]
      rintro rfl
      exact hd.new hm hahead ha
    · rcases List.mem_append.mp hn with hold | hlast
      · exact (hd.behind n hold).trans hahead.le
      · rw [← List.mem_singleton.mp hlast]
    · exact (hd.held m' (hheld hm')).imp_right fun hle => hle.trans hahead.le
  | handOver hheld hothers hexecuted =>
    refine ⟨hd.nodup, hexecuted, fun m hm => ?_⟩
    exact or_iff_not_imp_left.mpr (hothers m hm)

end Deferred

end PythCrosschain

/-!
## Grants that are used once

A log of grants and of uses. A grant is in force until it is used or another one replaces it
(`inForce`). If every use matches the grant in force (`Justified`), a grant stands between two
uses (`Justified.grant_between`).
-/

namespace PythCrosschain.OneTimeGrant

variable {α β : Type}

inductive Event (α β : Type) where
  | grant (a : α)
  | use (b : β)
deriving DecidableEq

/-- What an event leaves in force. -/
def Event.leaves : Event α β → Option α
  | .grant a => some a
  | .use _ => none

/-- The grant that is in force after the log. -/
def inForce (log : List (Event α β)) : Option α := log.getLast?.bind Event.leaves

/-- Every use matches the grant that is in force when it happens. -/
def Justified (suits : α → β → Prop) (log : List (Event α β)) : Prop :=
  ∀ before b after, log = before ++ .use b :: after → ∃ a, inForce before = some a ∧ suits a b

@[simp] theorem inForce_append_singleton (log : List (Event α β)) (e : Event α β) :
    inForce (log ++ [e]) = e.leaves := by
  rw [inForce, List.getLast?_append_cons, List.getLast?_singleton, Option.bind_some]

variable {suits : α → β → Prop} {log : List (Event α β)}

theorem justified_nil : Justified suits ([] : List (Event α β)) :=
  fun _ _ _ h => absurd h.symm (List.append_ne_nil_of_right_ne_nil _ (List.cons_ne_nil _ _))

/-- One more event. -/
theorem Justified.snoc (h : Justified suits log) {e : Event α β}
    (he : ∀ b, e = .use b → ∃ a, inForce log = some a ∧ suits a b) :
    Justified suits (log ++ [e]) := by
  intro before b after hsplit
  rcases List.eq_nil_or_concat after with rfl | ⟨after, last, rfl⟩
  · obtain ⟨rfl, hlast⟩ := List.append_inj' hsplit rfl
    exact he b (List.cons.inj hlast).1
  · rw [List.concat_eq_append, ← List.cons_append, ← List.append_assoc] at hsplit
    exact h before b after (List.append_inj' hsplit rfl).1

/-- No grant is used twice. -/
theorem Justified.grant_between (h : Justified suits log) {before between after : List (Event α β)}
    {b b' : β} (hlog : log = before ++ .use b :: between ++ .use b' :: after) :
    ∃ a, .grant a ∈ between := by
  obtain ⟨a, hforce, -⟩ := h (before ++ .use b :: between) b' after hlog
  rcases List.eq_nil_or_concat between with rfl | ⟨between, last, rfl⟩
  · rw [inForce_append_singleton] at hforce
    cases hforce
  · have hlast : last.leaves = some a := by
      rw [List.concat_eq_append, ← List.cons_append, ← List.append_assoc,
        inForce_append_singleton] at hforce
      exact hforce
    cases last with
    | grant a' => exact ⟨a', by simp⟩
    | use b => cases hlast

end PythCrosschain.OneTimeGrant
