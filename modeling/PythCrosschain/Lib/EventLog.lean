import Mathlib.Data.List.Induction

/-!
# Logs of events

A log grows at its end. The results are:

- `since_append`: what an event does to `Since`;
- `Emits.exists_split` and `Emits.split`: the outputs along a log stand for the places of the log
  where they are made.
-/

namespace PythCrosschain

variable {α β : Type} {a event stop : α} {log : List α}

/-- Where an element of a log that has grown is. -/
theorem append_singleton_cases {before after : List α} {y : α}
    (heq : log ++ [a] = before ++ y :: after) :
    (log = before ∧ a = y ∧ after = []) ∨
      ∃ after', after = after' ++ [a] ∧ log = before ++ y :: after' := by
  induction after using List.reverseRecOn with
  | nil =>
    obtain ⟨hlog, hlast⟩ := List.append_inj' heq rfl
    exact .inl ⟨hlog, (List.cons.inj hlast).1, rfl⟩
  | append_singleton after z =>
    rw [← List.cons_append, ← List.append_assoc] at heq
    obtain ⟨hlog, hlast⟩ := List.append_inj' heq rfl
    exact .inr ⟨after, by rw [(List.cons.inj hlast).1], hlog⟩

/-- The event came where `p` held of the log, and `stop` has not come since. -/
def Since (p : List α → Prop) (event stop : α) (log : List α) : Prop :=
  ∃ before after, log = before ++ event :: after ∧ p before ∧ stop ∉ after

theorem not_since_nil {p : List α → Prop} : ¬Since p event stop [] := by
  rintro ⟨before, after, hlog, -⟩
  exact List.append_ne_nil_of_right_ne_nil before (List.cons_ne_nil event after) hlog.symm

theorem since_append {p : List α → Prop} :
    Since p event stop (log ++ [a]) ↔
      (a = event ∧ p log) ∨ (a ≠ stop ∧ Since p event stop log) := by
  constructor
  · rintro ⟨before, after, hlog, hbefore, hstop⟩
    rcases append_singleton_cases hlog with ⟨rfl, rfl, rfl⟩ | ⟨after', rfl, rfl⟩
    · exact .inl ⟨rfl, hbefore⟩
    · refine .inr ⟨fun h => hstop (h ▸ List.mem_concat_self), before, after', rfl, hbefore, ?_⟩
      exact fun h => hstop (List.mem_append_left _ h)
  · rintro (⟨rfl, hlog⟩ | ⟨ha, before, after, rfl, hbefore, hstop⟩)
    · exact ⟨log, [], rfl, hlog, List.not_mem_nil⟩
    · refine ⟨before, after ++ [a], by rw [List.append_assoc, List.cons_append], hbefore, ?_⟩
      intro h
      rcases List.mem_append.mp h with h | h
      · exact hstop h
      · exact ha (List.mem_singleton.mp h).symm

/-! ## Outputs -/

/-- `outs` is what the events of a log put out, where `R` says what an event puts out behind a
log. -/
inductive Emits (R : List α → α → β → Prop) : List α → List β → Prop
  | nil : Emits R [] []
  | silent {log : List α} {a : α} {outs : List β} : Emits R log outs → (∀ b, ¬R log a b) →
      Emits R (log ++ [a]) outs
  | emit {log : List α} {a : α} {outs : List β} {b : β} : Emits R log outs → R log a b →
      Emits R (log ++ [a]) (outs ++ [b])

variable {R : List α → α → β → Prop} {outs : List β}

/-- Every output has its place in the log. -/
theorem Emits.exists_split (h : Emits R log outs) {before after : List β} {b : β}
    (houts : outs = before ++ b :: after) :
    ∃ start a rest, log = start ++ a :: rest ∧ R start a b ∧ Emits R start before := by
  induction h generalizing after with
  | nil => exact absurd houts.symm (List.append_ne_nil_of_right_ne_nil _ (List.cons_ne_nil b _))
  | silent h _ ih =>
    obtain ⟨start, a', rest, rfl, hstart⟩ := ih houts
    exact ⟨start, a', rest ++ [_], by rw [List.append_assoc, List.cons_append], hstart⟩
  | emit h hb ih =>
    rcases append_singleton_cases houts with ⟨rfl, rfl, rfl⟩ | ⟨after', -, hlog⟩
    · exact ⟨_, _, [], rfl, hb, h⟩
    · obtain ⟨start, a', rest, rfl, hstart⟩ := ih hlog
      exact ⟨start, a', rest ++ [_], by rw [List.append_assoc, List.cons_append], hstart⟩

/-- Every place of the log where something is put out has its output. -/
theorem Emits.split (h : Emits R log outs) (hfun : ∀ log a b b', R log a b → R log a b' → b = b')
    {start rest : List α} {b : β} (hlog : log = start ++ a :: rest) (hb : R start a b) :
    ∃ before after, outs = before ++ b :: after ∧ Emits R start before := by
  induction h generalizing rest with
  | nil => exact absurd hlog.symm (List.append_ne_nil_of_right_ne_nil _ (List.cons_ne_nil a _))
  | silent h hsilent ih =>
    rcases append_singleton_cases hlog with ⟨rfl, rfl, -⟩ | ⟨rest', -, hlog⟩
    · exact absurd hb (hsilent b)
    · exact ih hlog
  | @emit log a' outs b' h hb' ih =>
    rcases append_singleton_cases hlog with ⟨rfl, rfl, -⟩ | ⟨rest', -, hlog⟩
    · obtain rfl := hfun _ _ _ _ hb hb'
      exact ⟨outs, [], rfl, h⟩
    · obtain ⟨before, after, rfl, hbefore⟩ := ih hlog
      exact ⟨before, after ++ [b'], by rw [List.append_assoc, List.cons_append], hbefore⟩

theorem Emits.mem_iff (h : Emits R log outs)
    (hfun : ∀ log a b b', R log a b → R log a b' → b = b') {b : β} :
    b ∈ outs ↔ ∃ start a rest, log = start ++ a :: rest ∧ R start a b := by
  constructor
  · intro hb
    obtain ⟨before, after, houts⟩ := List.append_of_mem hb
    obtain ⟨start, a, rest, hlog, hstart, -⟩ := h.exists_split houts
    exact ⟨start, a, rest, hlog, hstart⟩
  · rintro ⟨start, a, rest, hlog, hstart⟩
    obtain ⟨before, after, rfl, -⟩ := h.split hfun hlog hstart
    exact List.mem_append_right before List.mem_cons_self

end PythCrosschain
