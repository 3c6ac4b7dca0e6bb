import PythCrosschain.Lib.Codec
import PythCrosschain.Lib.StrictParser

/-!
# Decoders and strict parsers

A decoder of byte strings says why it fails, a strict parser does not. `Decoder.Reads`
states that the two read the same: the decoder succeeds exactly where the parser does,
with the same value and the same rest. It is carried over every way of putting readers
together, so a decoder that is derived from a type is compared with a parser that is
written down, step by step.

A parser is local (`Parser.Local`) when its value is determined by the bytes that it
consumes: what follows them may be cut off or replaced. A decoder is stable (`Decoder.Stable`)
when more input changes only the rest, so it fails on what is cut off from an input that it
reads to the end (`Decoder.Stable.fails_on_cut`). `Decoder.Takes` says when a decoder of a fixed
number of bytes succeeds, where its value does not matter.
-/

namespace PythCrosschain

namespace Parser

variable {α β : Type}

/-- The next byte. -/
def byte : Parser UInt8
  | [] => none
  | b :: rest => some (b, rest)

/-- The next `n` bytes, with their number. -/
def array (n : Nat) : Parser {bytes : Bytes // bytes.length = n} := fun bs =>
  if h : n ≤ bs.length then some (⟨bs.take n, List.length_take_of_le h⟩, bs.drop n) else none

/-- `n` values one after the other. -/
def elements (p : Parser α) : Nat → Parser (List α)
  | 0 => pure []
  | n + 1 => do
    let a ← p
    let as ← elements p n
    return a :: as

/-! ## What the fields consume -/

theorem byte_run {bs rest : Bytes} {b : UInt8} :
    byte bs = some (b, rest) ↔ bs = b :: rest := by
  cases bs with
  | nil => simp [byte]
  | cons b' bs => simp [byte]

theorem take_run {k : Nat} {bs field rest : Bytes} :
    take k bs = some (field, rest) ↔ field.length = k ∧ bs = field ++ rest := by
  rw [take_run_eq_some]
  constructor
  · rintro ⟨hk, rfl, rfl⟩
    exact ⟨List.length_take_of_le hk, (List.take_append_drop k bs).symm⟩
  · rintro ⟨rfl, rfl⟩
    exact ⟨by simp, List.take_left.symm, List.drop_left.symm⟩

theorem array_run {n : Nat} {bs rest : Bytes} {a : {bytes : Bytes // bytes.length = n}} :
    array n bs = some (a, rest) ↔ bs = a.val ++ rest := by
  unfold array
  constructor
  · intro h
    split at h
    · cases h
      exact (List.take_append_drop n bs).symm
    · cases h
  · rintro rfl
    have hlength : n ≤ (a.val ++ rest).length := by simp [a.property]
    rw [dif_pos hlength]
    refine congrArg some (Prod.ext (Subtype.ext ?_) ?_)
    · exact List.take_left' a.property
    · exact List.drop_left' a.property

theorem uint_run {w k : Nat} {bs rest : Bytes} {v : BitVec w} :
    uint w k bs = some (v, rest) ↔
      ∃ a : {bytes : Bytes // bytes.length = k},
        array k bs = some (a, rest) ∧ v = BitVec.ofNat w (natBE a.val) := by
  rw [uint, bind_run_eq_some]
  simp only [pure_run, Option.some.injEq, Prod.mk.injEq, array_run]
  constructor
  · rintro ⟨field, mid, hfield, rfl, rfl⟩
    obtain ⟨hlength, rfl⟩ := take_run.mp hfield
    exact ⟨⟨field, hlength⟩, rfl, rfl⟩
  · rintro ⟨a, rfl, rfl⟩
    exact ⟨a.val, rest, take_run.mpr ⟨a.property, rfl⟩, rfl, rfl⟩

/-- A number of one byte. -/
theorem uint8_run {bs rest : Bytes} {v : BitVec 8} :
    uint 8 1 bs = some (v, rest) ↔ ∃ b, byte bs = some (b, rest) ∧ v = b.toBitVec := by
  rw [uint_run]
  simp only [array_run, byte_run]
  have hone (b : UInt8) : BitVec.ofNat 8 (natBE [b]) = b.toBitVec := by
    simp [natBE]
  constructor
  · rintro ⟨⟨field, hfield⟩, rfl, rfl⟩
    obtain ⟨b, rfl⟩ := List.length_eq_one_iff.mp hfield
    exact ⟨b, rfl, hone b⟩
  · rintro ⟨b, rfl, rfl⟩
    exact ⟨⟨[b], rfl⟩, rfl, (hone b).symm⟩

theorem elements_succ_run {p : Parser α} {n : Nat} {bs rest : Bytes} {as : List α} :
    elements p (n + 1) bs = some (as, rest) ↔
      ∃ a tail mid, p bs = some (a, mid) ∧ elements p n mid = some (tail, rest) ∧
        as = a :: tail := by
  simp only [elements, bind_run_eq_some, pure_run, Option.some.injEq, Prod.mk.injEq]
  constructor
  · rintro ⟨a, mid, ha, tail, _, htail, rfl, rfl⟩
    exact ⟨a, tail, mid, ha, htail, rfl⟩
  · rintro ⟨a, tail, mid, ha, htail, rfl⟩
    exact ⟨a, mid, ha, tail, rest, htail, rfl, rfl⟩

theorem length_elements {p : Parser α} {n : Nat} {bs rest : Bytes} {as : List α}
    (h : elements p n bs = some (as, rest)) : as.length = n := by
  induction n generalizing bs as with
  | zero =>
    obtain ⟨rfl, -⟩ : [] = as ∧ bs = rest := by simpa [elements] using h
    rfl
  | succ n ih =>
    obtain ⟨a, tail, mid, -, htail, rfl⟩ := elements_succ_run.mp h
    rw [List.length_cons, ih htail]

theorem elements_byte (n : Nat) : elements byte n = take n := by
  funext bs
  induction n generalizing bs with
  | zero => rfl
  | succ n ih =>
    have hstep : elements byte (n + 1) bs
        = (byte bs).bind fun r => (elements byte n r.2).map fun s => (r.1 :: s.1, s.2) := by
      rw [elements, bind_run]
      refine congrArg _ (funext fun r => ?_)
      rw [bind_run]
      cases elements byte n r.2 <;> rfl
    rw [hstep]
    cases bs with
    | nil => rfl
    | cons b bs =>
      rw [byte, Option.bind_some, ih, take, take]
      by_cases h : n ≤ bs.length <;> simp [h]

/-! ## Local parsers -/

/-- The value is determined by the bytes that are consumed. -/
def Local (p : Parser α) : Prop :=
  ∀ bs a rest, p bs = some (a, rest) →
    ∃ used, bs = used ++ rest ∧ ∀ rest', p (used ++ rest') = some (a, rest')

theorem local_pure (a : α) : Local (pure a : Parser α) := by
  rintro bs _ _ ⟨⟩
  exact ⟨[], rfl, fun rest' => rfl⟩

theorem local_assert (result : Option α) : Local (assert result) := by
  intro bs a rest h
  obtain ⟨rfl, rfl⟩ := assert_run_eq_some.mp h
  exact ⟨[], rfl, fun rest' => rfl⟩

theorem local_byte : Local byte := by
  intro bs b rest h
  exact ⟨[b], byte_run.mp h, fun rest' => rfl⟩

theorem local_array (n : Nat) : Local (array n) := by
  intro bs a rest h
  exact ⟨a.val, array_run.mp h, fun rest' => array_run.mpr rfl⟩

theorem local_take (k : Nat) : Local (take k) := by
  intro bs field rest h
  obtain ⟨hlength, rfl⟩ := take_run.mp h
  exact ⟨field, rfl, fun rest' => take_run.mpr ⟨hlength, rfl⟩⟩

theorem Local.bind {p : Parser α} {q : α → Parser β} (hp : Local p) (hq : ∀ a, Local (q a)) :
    Local (p >>= q) := by
  intro bs b rest h
  obtain ⟨a, mid, ha, hb⟩ := bind_run_eq_some.mp h
  obtain ⟨used, rfl, hused⟩ := hp bs a mid ha
  obtain ⟨used', rfl, hused'⟩ := hq a mid b rest hb
  refine ⟨used ++ used', (List.append_assoc ..).symm, fun rest' => ?_⟩
  rw [List.append_assoc]
  exact bind_run_eq_some.mpr ⟨a, used' ++ rest', hused _, hused' rest'⟩

theorem local_uint (w k : Nat) : Local (uint w k) :=
  (local_take k).bind fun field => local_pure (BitVec.ofNat w (natBE field))

theorem local_skip (k : ℕ) : Local (skip k) :=
  (local_take k).bind fun _ => local_pure ()

theorem Local.elements {p : Parser α} (hp : Local p) (n : Nat) : Local (elements p n) := by
  induction n with
  | zero => exact local_pure []
  | succ n ih => exact hp.bind fun a => ih.bind fun as => local_pure (a :: as)

/-- A local parser reads a prefix: up to where it stops it consumes the input. -/
theorem Local.parsePrefix_iff_cut {p : Parser α} (hp : Local p) {bs : Bytes} {a : α} :
    p.parsePrefix bs = some a ↔ ∃ k ≤ bs.length, p.parseAll (bs.take k) = some a := by
  rw [parsePrefix_eq_some]
  constructor
  · rintro ⟨rest, hrun⟩
    obtain ⟨used, rfl, hused⟩ := hp bs a rest hrun
    refine ⟨used.length, by simp, parseAll_eq_some.mpr ?_⟩
    rw [List.take_left, ← List.append_nil used]
    exact hused []
  · rintro ⟨k, -, hrun⟩
    obtain ⟨used, hbytes, hused⟩ := hp _ a [] (parseAll_eq_some.mp hrun)
    rw [List.append_nil] at hbytes
    refine ⟨bs.drop k, ?_⟩
    have hlong := hused (bs.drop k)
    rwa [← hbytes, List.take_append_drop] at hlong

end Parser

/-! ## Decoders that read what a parser reads -/

namespace Decoder

variable {ε α β : Type}

/-- The decoder succeeds where the parser does, with its value and rest. -/
def Reads (d : Decoder ε α) (p : Parser α) : Prop := ∀ bs r, d bs = .ok r ↔ p bs = some r

theorem reads_pure (a : α) : Reads (pure a : Decoder ε α) (pure a) := by
  intro bs r
  constructor
  · rintro ⟨⟩
    rfl
  · rintro ⟨⟩
    rfl

theorem Reads.bind {d : Decoder ε α} {p : Parser α} {e : α → Decoder ε β} {q : α → Parser β}
    (hd : Reads d p) (he : ∀ a, Reads (e a) (q a)) : Reads (d >>= e) (p >>= q) := by
  intro bs r
  have hrun : (d >>= e) bs = (d bs >>= fun r => e r.1 r.2) := rfl
  rw [hrun, except_bind_eq_ok, Parser.bind_run, Option.bind_eq_some_iff]
  exact exists_congr fun s => and_congr (hd bs s) (he s.1 s.2 r)

theorem Reads.map {d : Decoder ε α} {p : Parser α} (hd : Reads d p) (f : α → β) :
    Reads (f <$> d) (f <$> p) :=
  hd.bind fun a => reads_pure (f a)

theorem bind_run_eq_ok {d : Decoder ε α} {f : α → Decoder ε β} {bs : Bytes} {r : β × Bytes} :
    (d >>= f) bs = .ok r ↔ ∃ a mid, d bs = .ok (a, mid) ∧ f a mid = .ok r := by
  have hrun : (d >>= f) bs = (d bs >>= fun s => f s.1 s.2) := rfl
  rw [hrun, except_bind_eq_ok, Prod.exists]

theorem lift_run_eq_ok {x : Except ε α} {bs rest : Bytes} {a : α} :
    (liftM x : Decoder ε α) bs = .ok (a, rest) ↔ x = .ok a ∧ bs = rest := by
  cases x with
  | error e => exact ⟨nofun, fun h => nomatch h.1⟩
  | ok b =>
    show Except.ok (b, bs) = Except.ok (a, rest) ↔ Except.ok b = Except.ok a ∧ _
    simp only [Except.ok.injEq, Prod.mk.injEq]

theorem map_run_eq_ok {d : Decoder ε α} {f : α → β} {bs rest : Bytes} {b : β} :
    (f <$> d) bs = .ok (b, rest) ↔ ∃ a, d bs = .ok (a, rest) ∧ f a = b := by
  show (d bs >>= fun r => pure (f r.1, r.2)) = _ ↔ _
  rw [except_bind_eq_ok]
  constructor
  · rintro ⟨⟨a, rest'⟩, ha, hr⟩
    cases hr
    exact ⟨a, ha, rfl⟩
  · rintro ⟨a, ha, rfl⟩
    exact ⟨(a, rest), ha, rfl⟩

theorem map_elements (d : Decoder ε α) (f : α → β) (n : Nat) :
    List.map f <$> elements d n = elements (f <$> d) n := by
  induction n with
  | zero => rfl
  | succ n ih =>
    rw [elements, elements, ← ih]
    simp only [map_eq_pure_bind, bind_assoc, pure_bind, List.map_cons]

theorem reads_byte (eof : ε) : Reads (byte eof) Parser.byte := by
  intro bs r
  cases bs with
  | nil => exact ⟨nofun, nofun⟩
  | cons b bs => simp [byte, Parser.byte]

theorem reads_take (eof : ε) (k : Nat) : Reads (take eof k) (Parser.take k) := by
  intro bs r
  unfold take Parser.take
  by_cases h : k ≤ bs.length
  · simp [h]
  · simp [h]

theorem Reads.elements {d : Decoder ε α} {p : Parser α} (hd : Reads d p) (n : Nat) :
    Reads (elements d n) (Parser.elements p n) := by
  induction n with
  | zero => exact reads_pure []
  | succ n ih => exact hd.bind fun a => ih.bind fun as => reads_pure (a :: as)

/-! ### More input -/

/-- More input changes only the rest. -/
def Stable (d : Decoder ε α) : Prop :=
  ∀ bs a rest, d bs = .ok (a, rest) → ∀ more, d (bs ++ more) = .ok (a, rest ++ more)

theorem stable_pure (a : α) : Stable (pure a : Decoder ε α) := by
  rintro bs _ _ ⟨⟩ more
  rfl

theorem stable_take (eof : ε) (k : Nat) : Stable (take eof k) := by
  intro bs field rest h more
  obtain ⟨hlength, rfl⟩ := Parser.take_run.mp ((reads_take eof k bs _).mp h)
  rw [List.append_assoc]
  exact take_run_append hlength _

theorem stable_lift (x : Except ε α) : Stable (liftM x : Decoder ε α) := by
  intro bs a rest h more
  cases x with
  | error e => cases h
  | ok b =>
    cases h
    rfl

theorem Stable.bind {d : Decoder ε α} {f : α → Decoder ε β} (hd : Stable d)
    (hf : ∀ a, Stable (f a)) : Stable (d >>= f) := by
  intro bs b rest h more
  obtain ⟨⟨a, mid⟩, ha, hb⟩ := except_bind_eq_ok.mp h
  rw [bind_run_of (hd bs a mid ha more)]
  exact hf a mid b rest hb more

theorem Stable.map {d : Decoder ε α} (hd : Stable d) (f : α → β) : Stable (f <$> d) := by
  rw [map_eq_pure_bind]
  exact hd.bind fun a => stable_pure (f a)

/-- An input that is read to the end cannot be cut off. -/
theorem Stable.fails_on_cut {d : Decoder ε α} (hd : Stable d) {bs more : Bytes} {a : α}
    (h : d (bs ++ more) = .ok (a, [])) (hmore : more ≠ []) : ∃ e, d bs = .error e := by
  cases hcut : d bs with
  | error e => exact ⟨e, rfl⟩
  | ok r =>
    have hlong := hd bs r.1 r.2 hcut more
    rw [h] at hlong
    have hrest : r.2 ++ more = [] := congrArg Prod.snd (Except.ok.inj hlong).symm
    exact absurd (List.append_eq_nil_iff.mp hrest).2 hmore

/-- What one run gives, every element has. -/
theorem forall_mem_elements {d : Decoder ε α} {P : α → Prop}
    (hd : ∀ bs a rest, d bs = .ok (a, rest) → P a) {n : ℕ} {bs rest : Bytes} {as : List α}
    (h : elements d n bs = .ok (as, rest)) : ∀ a ∈ as, P a := by
  induction n generalizing bs as with
  | zero =>
    cases h
    exact fun a ha => absurd ha List.not_mem_nil
  | succ n ih =>
    obtain ⟨a, mid, ha, h⟩ := bind_run_eq_ok.mp h
    obtain ⟨as', mid', has, h⟩ := bind_run_eq_ok.mp h
    cases h
    exact List.forall_mem_cons.mpr ⟨hd _ _ _ ha, ih has⟩

/-! ### A fixed number of bytes -/

/-- The decoder takes `n` bytes, if they are there and the input meets the condition. -/
def Takes (d : Decoder ε α) (n : ℕ) (φ : Bytes → Prop) : Prop :=
  ∀ bs rest, (∃ a, d bs = .ok (a, rest)) ↔ n ≤ bs.length ∧ rest = bs.drop n ∧ φ bs

theorem takes_pure (a : α) : Takes (pure a : Decoder ε α) 0 fun _ => True := by
  intro bs rest
  constructor
  · rintro ⟨_, ⟨⟩⟩
    exact ⟨Nat.zero_le _, rfl, trivial⟩
  · rintro ⟨-, rfl, -⟩
    exact ⟨a, rfl⟩

theorem takes_take (eof : ε) (k : ℕ) : Takes (take eof k) k fun _ => True := by
  intro bs rest
  simp only [reads_take eof k bs, Parser.take_run_eq_some]
  constructor
  · rintro ⟨_, hlength, -, rfl⟩
    exact ⟨hlength, rfl, trivial⟩
  · rintro ⟨hlength, rfl, -⟩
    exact ⟨_, hlength, rfl, rfl⟩

theorem Takes.mono {d : Decoder ε α} {n n' : ℕ} {φ φ' : Bytes → Prop} (h : Takes d n φ)
    (hn : n = n') (hφ : ∀ bs, n ≤ bs.length → (φ bs ↔ φ' bs)) : Takes d n' φ' := by
  subst hn
  intro bs rest
  rw [h bs rest]
  exact and_congr_right fun hlength => and_congr_right fun _ => hφ bs hlength

theorem Takes.bind {d : Decoder ε α} {f : α → Decoder ε β} {n m : ℕ} {φ ψ : Bytes → Prop}
    (hd : Takes d n φ) (hf : ∀ a, Takes (f a) m ψ) :
    Takes (d >>= f) (n + m) fun bs => φ bs ∧ ψ (bs.drop n) := by
  intro bs rest
  have hrun : (∃ b, (d >>= f) bs = .ok (b, rest)) ↔
      ∃ mid, (∃ a, d bs = .ok (a, mid)) ∧ m ≤ mid.length ∧ rest = mid.drop m ∧ ψ mid := by
    constructor
    · rintro ⟨b, hb⟩
      obtain ⟨⟨a, mid⟩, ha, hb⟩ := except_bind_eq_ok.mp hb
      exact ⟨mid, ⟨a, ha⟩, (hf a mid rest).mp ⟨b, hb⟩⟩
    · rintro ⟨mid, ⟨a, ha⟩, hmid⟩
      obtain ⟨b, hb⟩ := (hf a mid rest).mpr hmid
      exact ⟨b, except_bind_eq_ok.mpr ⟨(a, mid), ha, hb⟩⟩
  simp only [hrun, hd bs]
  constructor
  · rintro ⟨_, ⟨hn, rfl, hφ⟩, hm, rfl, hψ⟩
    rw [List.length_drop] at hm
    exact ⟨by omega, List.drop_drop, hφ, hψ⟩
  · rintro ⟨hnm, rfl, hφ, hψ⟩
    refine ⟨_, ⟨by omega, rfl, hφ⟩, ?_, List.drop_drop.symm, hψ⟩
    rw [List.length_drop]
    omega

/-- A step without a condition. -/
theorem Takes.skip {d : Decoder ε α} {f : α → Decoder ε β} {n m : ℕ} {ψ : Bytes → Prop}
    (hd : Takes d n fun _ => True) (hf : ∀ a, Takes (f a) m ψ) :
    Takes (d >>= f) (n + m) fun bs => ψ (bs.drop n) :=
  (hd.bind hf).mono rfl fun _ _ => and_iff_right trivial

theorem Takes.map {d : Decoder ε α} {n : ℕ} {φ : Bytes → Prop} (hd : Takes d n φ) (f : α → β) :
    Takes (f <$> d) n φ := by
  rw [map_eq_pure_bind]
  exact (hd.bind fun a => takes_pure (f a)).mono rfl fun bs _ => and_iff_left trivial

theorem Takes.elements {d : Decoder ε α} {n : ℕ} {φ : Bytes → Prop} (hd : Takes d n φ) (k : ℕ) :
    Takes (elements d k) (k * n) fun bs => ∀ i < k, φ (bs.drop (i * n)) := by
  induction k with
  | zero => exact (takes_pure []).mono (Nat.zero_mul n).symm fun bs _ => by simp
  | succ k ih =>
    refine (hd.bind fun a => ih.bind fun as => takes_pure (a :: as)).mono
      (by rw [Nat.succ_mul, Nat.add_zero, Nat.add_comm]) fun bs _ => ?_
    simp only [and_true, List.drop_drop]
    constructor
    · rintro ⟨hfirst, hrest⟩ i hi
      cases i with
      | zero => rwa [Nat.zero_mul, List.drop_zero]
      | succ i =>
        rw [Nat.succ_mul, Nat.add_comm]
        exact hrest i (Nat.lt_of_succ_lt_succ hi)
    · intro hall
      have hfirst := hall 0 (Nat.succ_pos k)
      rw [Nat.zero_mul, List.drop_zero] at hfirst
      refine ⟨hfirst, fun i hi => ?_⟩
      have hnext := hall (i + 1) (Nat.succ_lt_succ hi)
      rwa [Nat.succ_mul, Nat.add_comm] at hnext

end Decoder

end PythCrosschain
