import Mathlib.Control.Monad.Basic
import PythCrosschain.Lib.Bytes

/-!
# Strict parsers and unchecked readers

A strict parser consumes a prefix of a byte string and fails rather than read past
its end. An unchecked reader of the same byte string keeps an offset and reads
whatever lies at it, also behind the end of the string. `Tracks` relates the two.

The results are:

- `Tracks.seq`: a reader tracks a parser when its steps do, where a step reads a field
  (`Tracks.field`) or checks what was read (`Tracks.check`);
- `Tracks.ends_within`: a reader that compares its last offset with the length of
  the input succeeds exactly when the parser does, with the same value;
- `Tracks.ends_at`: one that requires its last offset to be the length succeeds
  exactly when the parser consumes the input.
-/

namespace PythCrosschain

/-- A parser of a prefix: the value and the rest of the input, or nothing. -/
abbrev Parser (α : Type) := StateT Bytes Option α

namespace Parser

/-- The next `k` bytes. -/
def take (k : Nat) : Parser Bytes := fun bs =>
  if k ≤ bs.length then some (bs.take k, bs.drop k) else none

/-- A big-endian number of `k` bytes. -/
def uint (w k : Nat) : Parser (BitVec w) := do
  let field ← take k
  return BitVec.ofNat w (natBE field)

/-- Steps over `k` bytes. -/
def skip (k : Nat) : Parser Unit := do
  let _ ← take k

/-- Fails unless the result is there. -/
def assert {α : Type} (result : Option α) : Parser α := fun bs => result.map (·, bs)

/-- The value of a parser that consumes its input. -/
def parseAll {α : Type} (p : Parser α) (bs : Bytes) : Option α :=
  match p bs with
  | some (a, []) => some a
  | _ => none

/-- The value of a parser that may leave some input. -/
def parsePrefix {α : Type} (p : Parser α) (bs : Bytes) : Option α := (p bs).map Prod.fst

section Run

variable {α β : Type} {p : Parser α} {q : α → Parser β} {bs rest : Bytes} {b : β}

theorem bind_run : (p >>= q) bs = (p bs).bind fun r => q r.1 r.2 := rfl

theorem bind_run_eq_some :
    (p >>= q) bs = some (b, rest) ↔ ∃ a mid, p bs = some (a, mid) ∧ q a mid = some (b, rest) := by
  rw [bind_run, Option.bind_eq_some_iff]
  simp only [Prod.exists]

@[simp] theorem pure_run (a : α) : (pure a : Parser α) bs = some (a, bs) := rfl

theorem take_run_eq_some {k : Nat} {field : Bytes} :
    take k bs = some (field, rest) ↔ k ≤ bs.length ∧ field = bs.take k ∧ rest = bs.drop k := by
  unfold take
  split
  · next h => simp [h, eq_comm]
  · next h => simp [h]

theorem assert_run_eq_some {result : Option α} {a : α} :
    assert result bs = some (a, rest) ↔ result = some a ∧ rest = bs := by
  cases result with
  | none => simp [assert]
  | some a' => simp [assert, eq_comm]

theorem assert_some_bind {γ : Type} {c : γ} {q : γ → Parser β} : (assert (some c) >>= q) = q c :=
  rfl

/-- A check that depends on nothing that is read may be made later. -/
theorem assert_bind_comm {γ : Type} {result : Option γ} {q : γ → α → Parser β} :
    (assert result >>= fun c => p >>= fun a => q c a)
      = p >>= fun a => assert result >>= fun c => q c a := by
  funext bs
  cases result with
  | some c => rfl
  | none =>
    show none = (p bs).bind fun _ => none
    cases p bs <;> rfl

theorem parseAll_eq_some {a : α} : p.parseAll bs = some a ↔ p bs = some (a, []) := by
  unfold parseAll
  rcases p bs with _ | ⟨a', _ | _⟩ <;> simp

theorem parseAll_bind_eq_some {b : β} : (p >>= q).parseAll bs = some b ↔
    ∃ a mid, p bs = some (a, mid) ∧ (q a).parseAll mid = some b := by
  simp only [parseAll_eq_some, bind_run_eq_some]

theorem parseAll_map_eq_some {f : α → β} {b : β} :
    (f <$> p).parseAll bs = some b ↔ ∃ a, p.parseAll bs = some a ∧ f a = b := by
  rw [map_eq_pure_bind, parseAll_bind_eq_some]
  simp only [parseAll_eq_some, pure_run, Option.some.injEq, Prod.mk.injEq]
  constructor
  · rintro ⟨a, mid, ha, rfl, rfl⟩
    exact ⟨a, ha, rfl⟩
  · rintro ⟨a, ha, rfl⟩
    exact ⟨a, [], ha, rfl, rfl⟩

theorem parsePrefix_eq_some {a : α} :
    p.parsePrefix bs = some a ↔ ∃ rest, p bs = some (a, rest) := by
  simp [parsePrefix]

end Run

end Parser

/-! ## Tracking -/

/-- The unchecked reader `run` of `bs`, which starts at `start`, tracks the parser
`p`: its offset only grows, by at most `bound`; as long as it ends within `bs` it has
read what the parser reads; and it succeeds where the parser does. `out` gives the
value and the last offset of a result of the reader. -/
structure Tracks {ε ρ α : Type} (bs : Bytes) (start bound : Nat) (run : Except ε ρ)
    (out : ρ → α × Nat) (p : Parser α) : Prop where
  advances : ∀ r, run = .ok r → start ≤ (out r).2 ∧ (out r).2 ≤ bound + start
  sound : ∀ r, run = .ok r → (out r).2 ≤ bs.length →
    p (bs.drop start) = some ((out r).1, bs.drop (out r).2)
  complete : start ≤ bs.length → ∀ a rest, p (bs.drop start) = some (a, rest) →
    ∃ r, run = .ok r ∧ (out r).1 = a ∧ (out r).2 ≤ bs.length ∧ bs.drop (out r).2 = rest

namespace Tracks

variable {ε ρ ρ' α β : Type} {bs : Bytes} {start bound : Nat} {run : Except ε ρ}
  {out : ρ → α × Nat} {p : Parser α}

theorem mono {bound' : Nat} (h : Tracks bs start bound run out p) (hb : bound ≤ bound') :
    Tracks bs start bound' run out p := by
  refine ⟨fun r hr => ?_, h.sound, h.complete⟩
  have hadv := h.advances r hr
  exact ⟨hadv.1, by omega⟩

theorem ret {r : ρ} {a : α} (h : out r = (a, start)) :
    Tracks bs start 0 (.ok r : Except ε ρ) out (pure a) := by
  refine ⟨?_, ?_, ?_⟩
  · rintro _ ⟨⟩
    simp [h]
  · rintro _ ⟨⟩ -
    simp [h]
  · rintro hle a' rest hp
    obtain ⟨rfl, rfl⟩ : a = a' ∧ bs.drop start = rest := by simpa using hp
    exact ⟨r, rfl, by simp [h], by simpa [h] using hle, by simp [h]⟩

/-- One reader after another. -/
theorem seq {bound' : Nat} {x : Except ε ρ'} {out' : ρ' → β × Nat} {p' : Parser β}
    {f : ρ' → Except ε ρ} {q : β → Parser α} (hx : Tracks bs start bound' x out' p')
    (h : ∀ r', x = .ok r' → Tracks bs (out' r').2 bound (f r') out (q (out' r').1)) :
    Tracks bs start (bound + bound') (x >>= f) out (p' >>= q) := by
  have hok : ∀ r, (x >>= f) = .ok r ↔ ∃ b, x = .ok b ∧ f b = .ok r := fun r => by
    cases x <;> simp [bind, Except.bind]
  refine ⟨fun r hr => ?_, fun r hr hend => ?_, fun hle a rest hp => ?_⟩
  · obtain ⟨r', hr', hr⟩ := (hok r).mp hr
    have hadv' := hx.advances r' hr'
    have hadv := (h r' hr').advances r hr
    exact ⟨by omega, by omega⟩
  · obtain ⟨r', hr', hr⟩ := (hok r).mp hr
    -- the offset only grows, so the first reader ends within the input, too
    have hmid : (out' r').2 ≤ bs.length := ((h r' hr').advances r hr).1.trans hend
    exact Parser.bind_run_eq_some.mpr ⟨(out' r').1, bs.drop (out' r').2, hx.sound r' hr' hmid,
      (h r' hr').sound r hr hend⟩
  · obtain ⟨b, mid, hp', hq⟩ := Parser.bind_run_eq_some.mp hp
    obtain ⟨r', hr', rfl, hmid, rfl⟩ := hx.complete hle b mid hp'
    obtain ⟨r, hr, hout⟩ := (h r' hr').complete hmid a rest hq
    exact ⟨r, (hok r).mpr ⟨r', hr', hr⟩, hout⟩

/-- A reader of `k` bytes. Where they end within the input it has the bytes of the
input; where they do not, it may have any bytes. -/
theorem field {k K : Nat} {x : Except ε ρ} {bytesOf : ρ → Bytes} (hk : k ≤ K)
    (hread : ∀ b, x = .ok b → start + k ≤ bs.length → bytesOf b = (bs.drop start).take k)
    (htotal : start + k ≤ bs.length → ∃ b, x = .ok b) :
    Tracks bs start K x (fun b => (bytesOf b, start + k)) (Parser.take k) := by
  refine ⟨fun b _ => ⟨by omega, by omega⟩, fun b hb hin => ?_, fun hle a rest hp => ?_⟩
  · refine Parser.take_run_eq_some.mpr ⟨?_, hread b hb hin, (List.drop_drop ..).symm⟩
    rw [List.length_drop]
    omega
  · obtain ⟨hlen, rfl, rfl⟩ := Parser.take_run_eq_some.mp hp
    have hin : start + k ≤ bs.length := by
      rw [List.length_drop] at hlen
      omega
    obtain ⟨b, hb⟩ := htotal hin
    exact ⟨b, hb, hread b hb hin, hin, (List.drop_drop ..).symm⟩

/-- A step of the reader that reads nothing. -/
theorem check {x : Except ε ρ} {result : Option ρ} (hx : ∀ b, x = .ok b ↔ result = some b) :
    Tracks bs start 0 x (fun b => (b, start)) (Parser.assert result) := by
  refine ⟨fun b _ => ⟨by omega, by omega⟩, fun b hb _ => ?_, fun hle a rest hp => ?_⟩
  · exact Parser.assert_run_eq_some.mpr ⟨(hx b).mp hb, rfl⟩
  · obtain ⟨hresult, rfl⟩ := Parser.assert_run_eq_some.mp hp
    exact ⟨a, (hx a).mpr hresult, rfl, hle, rfl⟩

/-- A field whose bytes the reader looks up without a check. -/
theorem take {k K : Nat} {bytes : Bytes} {q : Bytes → Parser α} (hk : k ≤ K)
    (hread : start + k ≤ bs.length → bytes = (bs.drop start).take k)
    (h : Tracks bs (start + k) bound run out (q bytes)) :
    Tracks bs start (bound + K) run out (Parser.take k >>= q) := by
  have hfield : Tracks bs start K (.ok () : Except ε Unit) (fun _ => (bytes, start + k))
      (Parser.take k) := field hk (fun _ _ hin => hread hin) (fun _ => ⟨(), rfl⟩)
  exact hfield.seq (f := fun _ => run) fun _ _ => h

theorem uint {w k K : Nat} {v : BitVec w} {bytes : Bytes} {q : BitVec w → Parser α} (hk : k ≤ K)
    (hv : v = BitVec.ofNat w (natBE bytes))
    (hread : start + k ≤ bs.length → bytes = (bs.drop start).take k)
    (h : Tracks bs (start + k) bound run out (q v)) :
    Tracks bs start (bound + K) run out (Parser.uint w k >>= q) := by
  have hassoc : (Parser.uint w k >>= q)
      = Parser.take k >>= fun field => q (BitVec.ofNat w (natBE field)) := by
    simp only [Parser.uint, bind_assoc, pure_bind]
  rw [hassoc]
  exact take hk hread (hv ▸ h)

theorem skip {k K : Nat} {q : Unit → Parser α} (hk : k ≤ K)
    (h : Tracks bs (start + k) bound run out (q ())) :
    Tracks bs start (bound + K) run out (Parser.skip k >>= q) := by
  have hassoc : (Parser.skip k >>= q) = Parser.take k >>= fun _ => q () := by
    simp only [Parser.skip, bind_assoc, pure_bind]
  rw [hassoc]
  exact take hk (fun _ => rfl) h

/-! ## Readers that check their last offset -/

/-- A reader that rejects a last offset behind the end of the input succeeds exactly
when the parser does, with the same value and the same rest. -/
theorem ends_within (h : Tracks bs start bound run out p) (hle : start ≤ bs.length) (a : α)
    (rest : Bytes) :
    (∃ r, run = .ok r ∧ (out r).1 = a ∧ (out r).2 ≤ bs.length ∧ bs.drop (out r).2 = rest)
      ↔ p (bs.drop start) = some (a, rest) := by
  refine ⟨?_, fun hp => h.complete hle a rest hp⟩
  rintro ⟨r, hr, rfl, hend, rfl⟩
  exact h.sound r hr hend

/-- A reader that requires its last offset to be the length of the input succeeds
exactly when the parser consumes the input. -/
theorem ends_at (h : Tracks bs start bound run out p) (hle : start ≤ bs.length) (a : α) :
    (∃ r, run = .ok r ∧ (out r).1 = a ∧ (out r).2 = bs.length)
      ↔ p.parseAll (bs.drop start) = some a := by
  rw [Parser.parseAll_eq_some, ← h.ends_within hle a []]
  refine ⟨?_, ?_⟩
  · rintro ⟨r, hr, ha, hend⟩
    exact ⟨r, hr, ha, hend.le, by simp [hend]⟩
  · rintro ⟨r, hr, ha, hend, hdrop⟩
    exact ⟨r, hr, ha, Nat.le_antisymm hend (List.drop_eq_nil_iff.mp hdrop)⟩

end Tracks

end PythCrosschain
