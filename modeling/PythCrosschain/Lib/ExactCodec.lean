import PythCrosschain.Lib.DecoderParser

/-!
# Exact codecs

A codec is exact (`Exact`) when its decoder reads the encodings of the values and nothing else:
it round-trips, and no value has a second spelling. For a decoder of whole inputs this is
`Inverse`. The results are:

- `exact_uint`: a field of a format;
- `Exact.elements`: the elements of a list with a known length;
- `Inverse.rejects`: what is no encoding is rejected.
-/

namespace PythCrosschain

variable {ε ε' α β : Type}

/-- The decoder reads the encoding of `v`, and only that, as `v`. -/
def Exact (encode : α → Except ε Bytes) (decode : Decoder ε' α) : Prop :=
  ∀ bs v rest, decode bs = .ok (v, rest) ↔ ∃ bytes, encode v = .ok bytes ∧ bs = bytes ++ rest

theorem Exact.roundTrips {encode : α → Except ε Bytes} {decode : Decoder ε' α}
    (h : Exact encode decode) : RoundTrips encode decode :=
  fun v bytes hv rest => (h _ v rest).mpr ⟨bytes, hv, rfl⟩

/-! ## Fields -/

/-- A big-endian number that has just as many bytes as it needs. -/
theorem exact_uint (eof : ε') (k : ℕ) :
    Exact (fun v : BitVec (8 * k) => (.ok (bytesBE k v.toNat) : Except ε Bytes))
      ((fun bytes => BitVec.ofNat (8 * k) (natBE bytes)) <$> Decoder.take eof k) := by
  have hwidth : 2 ^ (8 * k) = 256 ^ k := by norm_num [pow_mul]
  intro bs v rest
  simp only [Decoder.map_run_eq_ok, Decoder.reads_take _ _ _ _, Parser.take_run]
  constructor
  · rintro ⟨field, ⟨hlength, rfl⟩, rfl⟩
    have hlt : natBE field < 2 ^ (8 * k) := by
      rw [hwidth, ← hlength]
      exact natBE_lt field
    refine ⟨field, ?_, rfl⟩
    rw [BitVec.toNat_ofNat, Nat.mod_eq_of_lt hlt, ← hlength, bytesBE_natBE]
  · rintro ⟨_, ⟨⟩, rfl⟩
    refine ⟨bytesBE k v.toNat, ⟨length_bytesBE k _, rfl⟩, ?_⟩
    rw [natBE_bytesBE, ← hwidth, Nat.mod_eq_of_lt v.isLt, BitVec.ofNat_toNat, BitVec.setWidth_eq]

/-! ## Lists -/

theorem Exact.elements {encode : α → Except ε Bytes} {decode : Decoder ε' α}
    (h : Exact encode decode) {n : ℕ} {bs rest : Bytes} {vs : List α} :
    Decoder.elements decode n bs = .ok (vs, rest) ↔
      vs.length = n ∧ ∃ bytes, encodeElements encode vs = .ok bytes ∧ bs = bytes ++ rest := by
  constructor
  · intro hread
    induction n generalizing bs vs with
    | zero =>
      cases hread
      exact ⟨rfl, [], rfl, rfl⟩
    | succ n ih =>
      obtain ⟨⟨v, mid⟩, hv, hread⟩ := except_bind_eq_ok.mp hread
      obtain ⟨⟨vs', rest'⟩, hvs, hread⟩ := except_bind_eq_ok.mp hread
      cases hread
      obtain ⟨hlength, tail, htail, rfl⟩ := ih hvs
      obtain ⟨head, hhead, rfl⟩ := (h _ v _).mp hv
      refine ⟨congrArg (· + 1) hlength, head ++ tail, ?_, (List.append_assoc ..).symm⟩
      rw [encodeElements, hhead, htail]
      rfl
  · rintro ⟨rfl, bytes, hbytes, rfl⟩
    exact h.roundTrips.elements hbytes rest

/-- An encoder that fails on no element fails on no list. -/
theorem exists_encodeElements {encode : α → Except ε Bytes} {vs : List α}
    (h : ∀ v ∈ vs, ∃ bytes, encode v = .ok bytes) :
    ∃ bytes, encodeElements encode vs = .ok bytes := by
  induction vs with
  | nil => exact ⟨[], rfl⟩
  | cons v vs ih =>
    obtain ⟨head, hhead⟩ := h v List.mem_cons_self
    obtain ⟨tail, htail⟩ := ih fun v' hv' => h v' (List.mem_cons_of_mem v hv')
    refine ⟨head ++ tail, ?_⟩
    rw [encodeElements, hhead, htail]
    rfl

/-! ## Whole inputs -/

/-- Encoding and decoding are inverse to one another where they succeed. -/
def Inverse (encode : α → Except ε Bytes) (decode : Bytes → Except ε' α) : Prop :=
  ∀ bs v, decode bs = .ok v ↔ encode v = .ok bs

/-- What is no encoding is rejected. -/
theorem Inverse.rejects {encode : α → Except ε Bytes} {decode : Bytes → Except ε' α}
    (h : Inverse encode decode) {bs : Bytes} (hbs : ∀ v, encode v ≠ .ok bs) :
    ∃ e, decode bs = .error e :=
  except_eq_error.mpr fun v hv => hbs v ((h bs v).mp hv)

end PythCrosschain
