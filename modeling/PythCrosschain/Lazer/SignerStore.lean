import PythCrosschain.Lib.Transactions

/-!
# Lazer: trusted signers as a map

What the contracts of all chains are to do with trusted signers: their store stands for a
finite map from keys to the times at which they expire (`ActsAsMap`). A contract does where its
store can be read as such a map (`Refines.actsAsMap`).
-/

namespace PythCrosschain.Lazer

/-- A contract that keeps trusted signers. A message is of type `μ`; it is `signed` by a key
where all that is checked about it, but for the trust in the key, is in order at a time. -/
structure SignerStore (σ κ τ μ ε : Type) where
  start : σ → Prop
  /-- An update by the authority. -/
  update : κ × τ → σ → Except ε σ
  /-- The keys in the slots that are in use. -/
  slots : σ → List κ
  capacity : Option ℕ
  /-- The time is before the one at which a key expires. -/
  live : (expiresAt time : τ) → Prop
  signed : σ → μ → κ → τ → Prop
  accepts : σ → μ → κ → Prop

section

variable {σ κ τ μ ε : Type} [DecidableEq κ] [DecidableEq τ] [Zero τ]

/-- Every slot is in use. -/
def SignerStore.Full (S : SignerStore σ κ τ μ ε) (s : σ) : Prop :=
  S.capacity = some (S.slots s).length

/-- After a list of updates the store acts as a finite map from keys to expiry times. -/
structure ActsAsMap (S : SignerStore σ κ τ μ ε) (valid : κ → Prop) (zero : κ) (start : σ)
    (updates : List (κ × τ)) : Prop where
  accepted : ∀ {m k t}, valid k → k ≠ zero → S.signed (runAll S.update start updates) m k t →
    (S.accepts (runAll S.update start updates) m k ↔
      ∃ e, lastApplied S.update Prod.fst start updates k = some (k, e) ∧ e ≠ 0 ∧ S.live e t)
  others : ∀ {k e s'}, S.update (k, e) (runAll S.update start updates) = .ok s' →
    ∀ {m k' t}, valid k' → k' ≠ zero → k' ≠ k →
      S.signed (runAll S.update start updates) m k' t →
      (S.signed s' m k' t ∧ (S.accepts s' m k' ↔ S.accepts (runAll S.update start updates) m k'))
  zero : ∀ {m t}, S.signed (runAll S.update start updates) m zero t →
    ¬S.accepts (runAll S.update start updates) m zero
  distinct : (S.slots (runAll S.update start updates)).Nodup
  fails : ∀ {k e}, valid k →
    ((∃ err, S.update (k, e) (runAll S.update start updates) = .error err) ↔
      k ∉ S.slots (runAll S.update start updates) ∧
        (e = 0 ∨ S.Full (runAll S.update start updates)))

/-- What an update sets for its key. -/
def expiryOf (update : κ × τ) : Option τ := if update.2 = 0 then none else some update.2

/-- The store can be read as a map, and the updates write to this map. -/
structure Refines (S : SignerStore σ κ τ μ ε) (valid : κ → Prop) (zero : κ) (inv : σ → Prop)
    (read : σ → κ → Option τ) : Prop where
  start : ∀ {s}, S.start s → inv s ∧ ∀ k, valid k → read s k = none
  step : ∀ {u s s'}, inv s → S.update u s = .ok s' →
    inv s' ∧ ∀ k, valid k → read s' k = if u.1 = k then expiryOf u else read s k
  signed : ∀ {u s s' m k t}, S.update u s = .ok s' → S.signed s m k t → S.signed s' m k t
  accepts : ∀ {s m k t}, inv s → valid k → k ≠ zero → S.signed s m k t →
    (S.accepts s m k ↔ ∃ e, read s k = some e ∧ S.live e t)
  zero : ∀ {s m t}, S.signed s m zero t → ¬S.accepts s m zero
  distinct : ∀ {s}, inv s → (S.slots s).Nodup
  fails : ∀ {s k e}, inv s → valid k →
    ((∃ err, S.update (k, e) s = .error err) ↔ k ∉ S.slots s ∧ (e = 0 ∨ S.Full s))

variable {S : SignerStore σ κ τ μ ε} {valid : κ → Prop} {zero : κ} {inv : σ → Prop}
  {read : σ → κ → Option τ}

omit [DecidableEq κ] in
theorem expiryOf_eq_some {k : κ} {e e' : τ} : expiryOf (k, e) = some e' ↔ e = e' ∧ e ≠ 0 := by
  unfold expiryOf
  split
  · next h => exact ⟨nofun, fun h' => absurd h h'.2⟩
  · next h => exact ⟨fun h' => ⟨Option.some.inj h', h⟩, fun h' => congrArg some h'.1⟩

theorem Refines.inv_runAll (h : Refines S valid zero inv read) {start : σ} (hstart : S.start start)
    (updates : List (κ × τ)) : inv (runAll S.update start updates) :=
  runAll_invariant (h.start hstart).1 (fun _ _ _ hs hu => (h.step hs hu).1) updates

/-- What is read after a run is what the last update of the key has set. -/
theorem Refines.read_eq_some (h : Refines S valid zero inv read) {start : σ}
    (hstart : S.start start) {updates : List (κ × τ)} {k : κ} (hk : valid k) {e : τ} :
    read (runAll S.update start updates) k = some e ↔
      lastApplied S.update Prod.fst start updates k = some (k, e) ∧ e ≠ 0 := by
  have hread : read (runAll S.update start updates) k =
      ((lastApplied S.update Prod.fst start updates k).map expiryOf).getD (read start k) := by
    refine read_runAll (h.start hstart).1 (fun u s s' hs hu => ?_) updates
    exact ⟨(h.step hs hu).1, (h.step hs hu).2 k hk⟩
  rw [hread, (h.start hstart).2 k hk]
  cases hlast : lastApplied S.update Prod.fst start updates k with
  | none => exact ⟨nofun, fun h' => nomatch h'.1⟩
  | some u =>
    obtain ⟨k', e'⟩ := u
    obtain rfl : k' = k := key_lastApplied hlast
    show expiryOf (k', e') = some e ↔ _
    rw [expiryOf_eq_some, Option.some.injEq, Prod.mk.injEq]
    constructor
    · rintro ⟨rfl, hne⟩
      exact ⟨⟨rfl, rfl⟩, hne⟩
    · rintro ⟨⟨-, rfl⟩, hne⟩
      exact ⟨rfl, hne⟩

/-- A store that can be read as a map acts as one, in every run. -/
theorem Refines.actsAsMap (h : Refines S valid zero inv read) {start : σ} (hstart : S.start start)
    (updates : List (κ × τ)) : ActsAsMap S valid zero start updates := by
  have hinv := h.inv_runAll hstart updates
  refine ⟨fun {m k t} hk hzero hsigned => ?_, fun {k e s'} hu m k' t hk' hzero hne hsigned => ?_,
    h.zero, h.distinct hinv, h.fails hinv⟩
  · rw [h.accepts hinv hk hzero hsigned]
    simp only [h.read_eq_some hstart hk, and_assoc]
  · have hsigned' := h.signed hu hsigned
    obtain ⟨hinv', hread⟩ := h.step hinv hu
    rw [h.accepts hinv' hk' hzero hsigned', h.accepts hinv hk' hzero hsigned, hread k' hk',
      if_neg (Ne.symm hne)]
    exact ⟨hsigned', Iff.rfl⟩

end

end PythCrosschain.Lazer
