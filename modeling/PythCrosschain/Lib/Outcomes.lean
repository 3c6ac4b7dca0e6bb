import PythCrosschain.Lib.DecoderParser

/-!
# Outcomes that agree

A program that throws and a strict parser read the same input, each in its own representation.
`Agree` says that both fail, or that both succeed with results in a relation. It is carried over
steps that are put together (`Agree.bind`, `Agree.parse`) and over checks (`Agree.check`).

`Decoder.ReadsAs` is the case of a decoder, which leaves the same rest as the parser.
-/

namespace PythCrosschain

variable {ε α α' β β' : Type}

/-- Both fail, or both succeed with related results. -/
def Agree (φ : α → β → Prop) : Except ε α → Option β → Prop
  | .ok a, some b => φ a b
  | .error _, none => True
  | _, _ => False

namespace Agree

variable {φ : α → β → Prop} {ψ : α' → β' → Prop} {x : Except ε α} {y : Option β}

theorem fails {e : ε} (h : x = .error e) : Agree φ x (none : Option β) := by
  rw [h]
  trivial

theorem returns {a : α} {b : β} (h : φ a b) : Agree φ (.ok a : Except ε α) (some b) := h

theorem of_ok {a : α} (h : Agree φ x y) (hx : x = .ok a) : ∃ b, y = some b ∧ φ a b := by
  subst hx
  cases y with
  | none => exact h.elim
  | some b => exact ⟨b, rfl, h⟩

theorem of_some {b : β} (h : Agree φ x y) (hy : y = some b) : ∃ a, x = .ok a ∧ φ a b := by
  subst hy
  cases x with
  | error e => exact h.elim
  | ok a => exact ⟨a, rfl, h⟩

theorem of_none (h : Agree φ x y) (hy : y = none) : ∃ e, x = .error e := by
  subst hy
  cases x with
  | error e => exact ⟨e, rfl⟩
  | ok a => exact h.elim

theorem mono {φ' : α → β → Prop} (h : Agree φ x y) (hφ : ∀ a b, φ a b → φ' a b) :
    Agree φ' x y := by
  cases x <;> cases y <;> first | exact h | exact hφ _ _ h

theorem map {g : β → β'} {φ' : α → β' → Prop} (h : Agree (fun a b => φ' a (g b)) x y) :
    Agree φ' x (y.map g) := by
  cases x <;> cases y <;> exact h

/-- One step after another. -/
theorem bind {f : α → Except ε α'} {g : β → Option β'} (h : Agree φ x y)
    (hnext : ∀ a b, φ a b → Agree ψ (f a) (g b)) : Agree ψ (x >>= f) (y.bind g) := by
  cases x with
  | error e =>
    cases y with
    | none => trivial
    | some b => exact h.elim
  | ok a =>
    cases y with
    | none => exact h.elim
    | some b => exact hnext a b h

/-- The program returns something else. -/
theorem returnMap {f : α → α'} {φ' : α' → β → Prop} (h : Agree φ x y)
    (hmap : ∀ a b, φ a b → φ' (f a) b) : Agree φ' (x >>= fun a => pure (f a)) y := by
  cases x <;> cases y <;> first | exact h | exact hmap _ _ h

/-- A step against a parser. -/
theorem parse {γ δ : Type} {φ : α → γ × Bytes → Prop} {ψ : α' → δ × Bytes → Prop}
    {p : Parser γ} {q : γ → Parser δ} {bs : Bytes} {f : α → Except ε α'} (h : Agree φ x (p bs))
    (hnext : ∀ a c rest, φ a (c, rest) → Agree ψ (f a) (q c rest)) :
    Agree ψ (x >>= f) ((p >>= q) bs) :=
  h.bind fun a r hr => hnext a r.1 r.2 hr

/-- The parser returns something else. -/
theorem parsePure {γ δ : Type} {φ : α → γ × Bytes → Prop} {φ' : α → δ × Bytes → Prop}
    {p : Parser γ} {g : γ → δ} {bs : Bytes} (h : Agree φ x (p bs))
    (hmap : ∀ a c rest, φ a (c, rest) → φ' a (g c, rest)) :
    Agree φ' x ((p >>= fun c => pure (g c)) bs) := by
  rw [Parser.bind_run]
  cases x with
  | error e =>
    cases hrun : p bs with
    | none => trivial
    | some r => exact (hrun ▸ h : Agree φ (.error e : Except ε α) (some r)).elim
  | ok a =>
    cases hrun : p bs with
    | none => exact (hrun ▸ h : Agree φ (.ok a : Except ε α) none).elim
    | some r => exact hmap a r.1 r.2 (hrun ▸ h : Agree φ (.ok a : Except ε α) (some r))

/-- A check against an assertion of the parser. -/
theorem check {γ δ : Type} {φ : α → γ → Prop} {ψ : α' → δ × Bytes → Prop} {result : Option γ}
    {q : γ → Parser δ} {bs : Bytes} {f : α → Except ε α'} (h : Agree φ x result)
    (hnext : ∀ a c, φ a c → Agree ψ (f a) (q c bs)) :
    Agree ψ (x >>= f) ((Parser.assert result >>= q) bs) := by
  have hbind : (Parser.assert result >>= q) bs = result.bind fun c => q c bs := by
    cases result <;> rfl
  rw [hbind]
  exact h.bind hnext

end Agree

/-! ## Decoders -/

/-- The decoder reads what the parser reads, in another representation. -/
def Decoder.ReadsAs (φ : α → β → Prop) (d : Decoder ε α) (p : Parser β) : Prop :=
  ∀ bs, Agree (fun r s => φ r.1 s.1 ∧ r.2 = s.2) (d bs) (p bs)

namespace Decoder.ReadsAs

variable {φ : α → β → Prop} {ψ : α' → β' → Prop} {d : Decoder ε α} {p : Parser β}

theorem ret {a : α} {b : β} (h : φ a b) : ReadsAs φ (pure a : Decoder ε α) (pure b) :=
  fun _ => ⟨h, rfl⟩

theorem bind {f : α → Decoder ε α'} {q : β → Parser β'} (h : ReadsAs φ d p)
    (hnext : ∀ a b, φ a b → ReadsAs ψ (f a) (q b)) : ReadsAs ψ (d >>= f) (p >>= q) := by
  intro bs
  refine (h bs).bind fun r s hrs => ?_
  obtain ⟨hφ, hrest⟩ := hrs
  show Agree _ (f r.1 r.2) (q s.1 s.2)
  rw [hrest]
  exact hnext r.1 s.1 hφ s.2

/-- The decoder goes on with a value that the parser returns. -/
theorem last {f : α → Decoder ε α'} {φ' : α' → β → Prop} (h : ReadsAs φ d p)
    (hnext : ∀ a b, φ a b → ReadsAs φ' (f a) (pure b)) : ReadsAs φ' (d >>= f) p := by
  have hbind : ReadsAs φ' (d >>= f) (p >>= pure) := h.bind hnext
  rwa [bind_pure] at hbind

/-- The parser returns something else. -/
theorem parsePure {φ' : α → β' → Prop} {g : β → β'} (h : ReadsAs φ d p)
    (hmap : ∀ a b, φ a b → φ' a (g b)) : ReadsAs φ' d (p >>= fun b => pure (g b)) :=
  fun bs => (h bs).parsePure fun r c _ hr => ⟨hmap r.1 c hr.1, hr.2⟩

/-- A step that reads nothing. -/
theorem lift {x : Except ε α} {y : Option β} (h : Agree φ x y) :
    ReadsAs φ (liftM x : Decoder ε α) (Parser.assert y) := by
  intro bs
  cases x with
  | error e =>
    cases y with
    | none => trivial
    | some b => exact h.elim
  | ok a =>
    cases y with
    | none => exact h.elim
    | some b => exact ⟨h, rfl⟩

theorem of_reads {p : Parser α} (h : Reads d p) : ReadsAs Eq d p := by
  intro bs
  cases hd : d bs with
  | ok r =>
    rw [(h bs r).mp hd]
    exact ⟨rfl, rfl⟩
  | error e =>
    cases hp : p bs with
    | none => trivial
    | some r => exact nomatch hd.symm.trans ((h bs r).mpr hp)

/-- The rest is dropped. -/
theorem dropRest (h : ReadsAs φ d p) (bs : Bytes) :
    Agree φ (d bs >>= fun r => pure r.1) (p.parsePrefix bs) := by
  have hparser : p.parsePrefix bs = (p bs).bind fun s => some s.1 := by
    rw [Parser.parsePrefix]
    cases p bs <;> rfl
  rw [hparser]
  exact (h bs).bind fun r s hrs => hrs.1

end Decoder.ReadsAs

end PythCrosschain
