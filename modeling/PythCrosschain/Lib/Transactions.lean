import Mathlib.Data.List.Basic

/-!
# Runs of transactions

Transactions that either change a state or fail and leave it as it was (`submit`). A run
is a list of them (`runAll`). What every transaction preserves holds in every state of
every run (`runAll_invariant`).

Where transactions write under keys, what a key holds is what the last transaction on it that
succeeded has written (`read_runAll`).

Where only some transactions preserve a property, `Always` says that it holds in every
state of a run, and `Along` that every transaction of it meets a condition on the state
that it finds: `always_of_along` and `always_iff_along`.

`nodup_applied` and `counter_runAll` are about the transactions that succeed, and `lockstep` about
two systems that take the same ones.
-/

namespace PythCrosschain

section Transactions

variable {σ κ ε : Type} (exec : κ → σ → Except ε σ)

/-- A transaction that fails changes nothing. -/
def submit (s : σ) (c : κ) : σ :=
  match exec c s with
  | .ok s' => s'
  | .error _ => s

/-- The state after a list of transactions. -/
def runAll (s : σ) (calls : List κ) : σ := calls.foldl (submit exec) s

/-- The transactions of a run that succeed. -/
def applied : σ → List κ → List κ
  | _, [] => []
  | s, c :: calls =>
    match exec c s with
    | .ok s' => c :: applied s' calls
    | .error _ => applied s calls

/-- The last transaction of a run on a key that succeeds. -/
def lastApplied {K : Type} [DecidableEq K] (key : κ → K) (s : σ) (calls : List κ) (k : K) :
    Option κ :=
  ((applied exec s calls).filter fun c => key c = k).getLast?

/-- The property holds in every state of the run, the first and the last one included. -/
def Always (p : σ → Prop) : σ → List κ → Prop
  | s, [] => p s
  | s, c :: calls => p s ∧ Always p (submit exec s c) calls

/-- Every transaction of the run meets the condition in the state that it finds. -/
def Along (q : σ → κ → Prop) : σ → List κ → Prop
  | _, [] => True
  | s, c :: calls => q s c ∧ Along q (submit exec s c) calls

instance Along.decidable (q : σ → κ → Prop) [∀ s c, Decidable (q s c)] :
    ∀ s calls, Decidable (Along exec q s calls)
  | _, [] => isTrue trivial
  | s, c :: calls =>
    have := Along.decidable q (submit exec s c) calls
    inferInstanceAs (Decidable (q s c ∧ Along exec q (submit exec s c) calls))

variable {exec} {p : σ → Prop} {q : σ → κ → Prop}

theorem submit_of_ok {s s' : σ} {c : κ} (h : exec c s = .ok s') : submit exec s c = s' := by
  rw [submit, h]

theorem submit_of_error {s : σ} {c : κ} {e : ε} (h : exec c s = .error e) :
    submit exec s c = s := by
  rw [submit, h]

/-- What a transaction that succeeds preserves, every transaction preserves. -/
theorem submit_preserves {s : σ} {c : κ} (hs : p s) (hstep : ∀ s', exec c s = .ok s' → p s') :
    p (submit exec s c) := by
  cases h : exec c s with
  | ok s' =>
    rw [submit_of_ok h]
    exact hstep s' h
  | error e =>
    rw [submit_of_error h]
    exact hs

theorem runAll_invariant {s : σ} (hs : p s)
    (hstep : ∀ c s s', p s → exec c s = .ok s' → p s') (calls : List κ) :
    p (runAll exec s calls) := by
  induction calls generalizing s with
  | nil => exact hs
  | cons c calls ih => exact ih (submit_preserves hs fun s' => hstep c s s' hs)

/-- What every transaction only extends, a run only extends. -/
theorem runAll_extends {R : σ → σ → Prop} (hrefl : ∀ s, R s s)
    (htrans : ∀ {s₁ s₂ s₃}, R s₁ s₂ → R s₂ s₃ → R s₁ s₃) {s : σ} (hs : p s)
    (hstep : ∀ c s s', p s → exec c s = .ok s' → p s' ∧ R s s') (calls : List κ) :
    R s (runAll exec s calls) := by
  have hrun := @runAll_invariant _ _ _ exec (fun s' => p s' ∧ R s s') s ⟨hs, hrefl s⟩
    (fun c s₁ s₂ h₁ hexec =>
      have h₂ := hstep c s₁ s₂ h₁.1 hexec
      ⟨h₂.1, htrans h₁.2 h₂.2⟩) calls
  exact hrun.2

theorem read_runAll {K ν : Type} [DecidableEq K] {key : κ → K} {value : κ → ν} {read : σ → K → ν}
    {k : K} {s : σ} (hs : p s)
    (hstep : ∀ c s s', p s → exec c s = .ok s' →
      p s' ∧ read s' k = if key c = k then value c else read s k) (calls : List κ) :
    read (runAll exec s calls) k = ((lastApplied exec key s calls k).map value).getD (read s k) := by
  induction calls generalizing s with
  | nil => rfl
  | cons c calls ih =>
    show read (runAll exec (submit exec s c) calls) k = _
    cases h : exec c s with
    | error e =>
      rw [submit_of_error h, ih hs]
      simp only [lastApplied, applied, h]
    | ok s' =>
      obtain ⟨hs', hread⟩ := hstep c s s' hs h
      rw [submit_of_ok h, ih hs', hread]
      simp only [lastApplied, applied, h]
      by_cases hc : key c = k
      · rw [if_pos hc, List.filter_cons, if_pos (decide_eq_true hc), List.getLast?_cons]
        cases ((applied exec s' calls).filter fun c => key c = k).getLast? <;> rfl
      · rw [if_neg hc, List.filter_cons, if_neg (by simpa using hc)]

/-- The last transaction on a key is on this key. -/
theorem key_lastApplied {K : Type} [DecidableEq K] {key : κ → K} {s : σ} {calls : List κ} {k : K}
    {c : κ} (h : lastApplied exec key s calls k = some c) : key c = k :=
  of_decide_eq_true (List.mem_filter.mp (List.mem_of_getLast? h)).2

/-- The last state of a run has what all its states have. -/
theorem Always.last {s : σ} {calls : List κ} (h : Always exec p s calls) :
    p (runAll exec s calls) := by
  induction calls generalizing s with
  | nil => exact h
  | cons c calls ih => exact ih h.2

theorem Always.mono {p' : σ → Prop} (himp : ∀ s, p s → p' s) {s : σ} {calls : List κ}
    (h : Always exec p s calls) : Always exec p' s calls := by
  induction calls generalizing s with
  | nil => exact himp s h
  | cons c calls ih => exact ⟨himp s h.1, ih h.2⟩

theorem Along.mono {q' : σ → κ → Prop} (himp : ∀ s c, q s c → q' s c) {s : σ} {calls : List κ}
    (h : Along exec q s calls) : Along exec q' s calls := by
  induction calls generalizing s with
  | nil => trivial
  | cons c calls ih => exact ⟨himp s c h.1, ih h.2⟩

theorem always_of_along {s : σ} {calls : List κ} (hs : p s)
    (hstep : ∀ c s s', p s → q s c → exec c s = .ok s' → p s')
    (h : Along exec q s calls) : Always exec p s calls := by
  induction calls generalizing s with
  | nil => exact hs
  | cons c calls ih =>
    exact ⟨hs, ih (submit_preserves hs fun s' => hstep c s s' hs h.1) h.2⟩

/-- Next to an invariant. -/
theorem always_and_iff {p' : σ → Prop} {s : σ} {calls : List κ} (hs : p s)
    (hstep : ∀ c s s', p s → exec c s = .ok s' → p s') :
    Always exec (fun s => p s ∧ p' s) s calls ↔ Always exec p' s calls := by
  refine ⟨.mono fun s h => h.2, fun h => ?_⟩
  induction calls generalizing s with
  | nil => exact ⟨hs, h⟩
  | cons c calls ih => exact ⟨⟨hs, h.1⟩, ih (submit_preserves hs fun s' => hstep c s s' hs) h.2⟩

/-- Where the condition says exactly when a transaction preserves the property, it says
exactly when a run does. -/
theorem always_iff_along {s : σ} {calls : List κ} (hs : p s)
    (hstep : ∀ c s, p s → (p (submit exec s c) ↔ q s c)) :
    Always exec p s calls ↔ Along exec q s calls := by
  induction calls generalizing s with
  | nil => exact ⟨fun _ => trivial, fun _ => hs⟩
  | cons c calls ih =>
    constructor
    · rintro ⟨-, h⟩
      have hc : p (submit exec s c) := by
        cases calls with
        | nil => exact h
        | cons _ _ => exact h.1
      exact ⟨(hstep c s hs).mp hc, (ih hc).mp h⟩
    · rintro ⟨hq, h⟩
      have hc := (hstep c s hs).mpr hq
      exact ⟨hs, (ih hc).mpr h⟩

/-- Where a transaction uses its key up, no key succeeds twice. -/
theorem nodup_applied {K : Type} (key : κ → K) (used : σ → K → Prop)
    (hfresh : ∀ c s s', exec c s = .ok s' → ¬used s (key c))
    (hstep : ∀ c s s' k, exec c s = .ok s' → used s k ∨ k = key c → used s' k)
    (s : σ) (calls : List κ) :
    ((applied exec s calls).map key).Nodup ∧
      ∀ k, used s k → k ∉ (applied exec s calls).map key := by
  induction calls generalizing s with
  | nil => exact ⟨List.nodup_nil, fun _ _ => List.not_mem_nil⟩
  | cons c calls ih =>
    cases h : exec c s with
    | error e =>
      simp only [applied, h]
      exact ih s
    | ok s' =>
      obtain ⟨hnodup, hused⟩ := ih s'
      simp only [applied, h, List.map_cons, List.nodup_cons]
      refine ⟨⟨hused _ (hstep c s s' _ h (.inr rfl)), hnodup⟩, fun k hk hmem => ?_⟩
      rcases List.mem_cons.mp hmem with rfl | hmem
      · exact hfresh c s s' h hk
      · exact hused k (hstep c s s' k h (.inl hk)) hmem

/-- A counter of the transactions that succeed. -/
theorem counter_runAll (count : σ → ℕ) {s : σ} {calls : List κ} (hs : p s)
    (hstep : ∀ c s s', p s → q s c → exec c s = .ok s' → p s' ∧ count s' = count s + 1)
    (h : Along exec q s calls) :
    p (runAll exec s calls) ∧
      count (runAll exec s calls) = count s + (applied exec s calls).length := by
  induction calls generalizing s with
  | nil => exact ⟨hs, rfl⟩
  | cons c calls ih =>
    obtain ⟨hq, h⟩ := h
    show p (runAll exec (submit exec s c) calls) ∧ count (runAll exec (submit exec s c) calls) = _
    cases hexec : exec c s with
    | error e =>
      rw [submit_of_error hexec] at h ⊢
      simp only [applied, hexec]
      exact ih hs h
    | ok s' =>
      obtain ⟨hs', hcount⟩ := hstep c s s' hs hq hexec
      rw [submit_of_ok hexec] at h ⊢
      obtain ⟨hlast, hlength⟩ := ih hs' h
      simp only [applied, hexec, List.length_cons]
      exact ⟨hlast, by rw [hlength, hcount, Nat.add_assoc, Nat.add_comm 1]⟩

/-- Two systems in lockstep: of every transaction both succeed or both fail. -/
theorem lockstep {τ ε' : Type} {exec' : κ → τ → Except ε' τ} (R : σ → τ → Prop)
    (hstep : ∀ c s t, R s t → q s c →
      (∃ s' t', exec c s = .ok s' ∧ exec' c t = .ok t' ∧ R s' t') ∨
        ∃ e e', exec c s = .error e ∧ exec' c t = .error e')
    {s : σ} {t : τ} {calls : List κ} (hR : R s t) (h : Along exec q s calls) :
    R (runAll exec s calls) (runAll exec' t calls) ∧
      applied exec s calls = applied exec' t calls := by
  induction calls generalizing s t with
  | nil => exact ⟨hR, rfl⟩
  | cons c calls ih =>
    obtain ⟨hq, h⟩ := h
    show R (runAll exec (submit exec s c) calls) (runAll exec' (submit exec' t c) calls) ∧ _
    rcases hstep c s t hR hq with ⟨s', t', hs, ht, hR'⟩ | ⟨e, e', hs, ht⟩
    · rw [submit_of_ok hs] at h ⊢
      rw [submit_of_ok ht]
      simp only [applied, hs, ht]
      obtain ⟨hlast, happlied⟩ := ih hR' h
      exact ⟨hlast, congrArg _ happlied⟩
    · rw [submit_of_error hs] at h ⊢
      rw [submit_of_error ht]
      simp only [applied, hs, ht]
      exact ih hR h

end Transactions

end PythCrosschain
