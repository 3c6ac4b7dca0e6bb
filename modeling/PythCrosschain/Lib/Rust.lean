import PythCrosschain.Lib.Codec
import Mathlib.Tactic.Positivity

/-!
# Results of Rust code

A function returns a value, returns an error of its own, or panics (`Result`). Reading a
slice with `get` and checked arithmetic give options; `unwrap` and indexing turn a missing
value into a panic, `okOr` into an error. A binary format is exact (`ExactFormat`) when it
round-trips, fails for nothing else than values that do not fit, and never panics.
-/

namespace PythCrosschain.Rust

/-- Why no value is returned. -/
inductive Failure (ε : Type) where
  | error (e : ε)
  | panic
deriving DecidableEq, Repr

abbrev Result (ε α : Type) := Except (Failure ε) α

section

variable {ε α β : Type}

/-- `if !p { return Err(e) }`. -/
def require (p : Prop) [Decidable p] (e : ε) : Result ε Unit :=
  if p then .ok () else .error (.error e)

/-- `Option::ok_or`, with `?`. -/
def okOr (e : ε) : Option α → Result ε α
  | some a => .ok a
  | none => .error (.error e)

/-- `Option::unwrap`, and every indexing that panics when it is out of range. -/
def unwrap : Option α → Result ε α
  | some a => .ok a
  | none => .error .panic

/-- `x?`, for a function that does not panic. -/
def propagate : Except ε α → Result ε α
  | .ok a => .ok a
  | .error e => .error (.error e)

/-- `map_err(|_| e)?`. -/
def mapErr {ε' : Type} (e : ε) : Except ε' α → Result ε α
  | .ok a => .ok a
  | .error _ => .error (.error e)

@[simp] theorem okOr_some (e : ε) (a : α) : okOr e (some a) = .ok a := rfl

@[simp] theorem unwrap_some (a : α) : (unwrap (some a) : Result ε α) = .ok a := rfl

theorem require_eq_ok {p : Prop} [Decidable p] {e : ε} {u : Unit} :
    require p e = .ok u ↔ p := by
  unfold require
  split
  · next hp => exact ⟨fun _ => hp, fun _ => rfl⟩
  · next hp => exact ⟨nofun, fun h => absurd h hp⟩

theorem okOr_eq_ok {e : ε} {o : Option α} {a : α} : okOr e o = .ok a ↔ o = some a := by
  cases o with
  | none => exact ⟨nofun, nofun⟩
  | some b => simp [okOr]

theorem unwrap_eq_ok {o : Option α} {a : α} : (unwrap o : Result ε α) = .ok a ↔ o = some a := by
  cases o with
  | none => exact ⟨nofun, nofun⟩
  | some b => simp [unwrap]

theorem propagate_eq_ok {x : Except ε α} {a : α} : propagate x = .ok a ↔ x = .ok a := by
  cases x with
  | error e => exact ⟨nofun, nofun⟩
  | ok b => simp [propagate]

theorem mapErr_eq_ok {ε' : Type} {e : ε} {x : Except ε' α} {a : α} :
    mapErr e x = .ok a ↔ x = .ok a := by
  cases x with
  | error e' => exact ⟨nofun, nofun⟩
  | ok b => simp [mapErr]

theorem require_eq_error {p : Prop} [Decidable p] {e : ε} {f : Failure ε} :
    require p e = .error f ↔ ¬p ∧ f = .error e := by
  unfold require
  split
  · next hp => exact ⟨nofun, fun h => absurd hp h.1⟩
  · next hp => simp [hp, eq_comm]

theorem okOr_eq_error {e : ε} {o : Option α} {f : Failure ε} :
    okOr e o = .error f ↔ o = none ∧ f = .error e := by
  cases o with
  | none => simp [okOr, eq_comm]
  | some b => exact ⟨nofun, nofun⟩

theorem unwrap_eq_error {o : Option α} {f : Failure ε} :
    unwrap o = .error f ↔ o = none ∧ f = .panic := by
  cases o with
  | none => simp [unwrap, eq_comm]
  | some b => exact ⟨nofun, nofun⟩

theorem mapErr_eq_error {ε' : Type} {e : ε} {x : Except ε' α} {f : Failure ε} :
    mapErr e x = .error f ↔ (∃ e', x = .error e') ∧ f = .error e := by
  cases x with
  | error e' => simp [mapErr, eq_comm]
  | ok b => exact ⟨nofun, fun h => nomatch h.1⟩

theorem pure_eq_ok {a b : α} : (pure a : Result ε α) = .ok b ↔ a = b := by
  simp [pure, Except.pure]

/-- An error comes from the first part, or from the rest. -/
theorem bind_eq_error {x : Result ε α} {f : α → Result ε β} {e : Failure ε} :
    (x >>= f) = .error e ↔ x = .error e ∨ ∃ a, x = .ok a ∧ f a = .error e := by
  cases x with
  | error e' => simp [bind, Except.bind]
  | ok a => simp [bind, Except.bind]

/-- A computation panics where its first part does, or where the rest of it does. -/
theorem bind_eq_panic {x : Result ε α} {f : α → Result ε β} :
    (x >>= f) = .error .panic ↔ x = .error .panic ∨ ∃ a, x = .ok a ∧ f a = .error .panic :=
  bind_eq_error

/-- Neither part panics, so the whole does not. -/
theorem bind_ne_panic {x : Result ε α} {f : α → Result ε β} (hx : x ≠ .error .panic)
    (hf : ∀ a, x = .ok a → f a ≠ .error .panic) : (x >>= f) ≠ .error .panic := by
  intro h
  rcases bind_eq_panic.mp h with h | ⟨a, ha, h⟩
  · exact hx h
  · exact hf a ha h

theorem unwrap_ne_panic {o : Option α} {a : α} (h : o = some a) :
    (unwrap o : Result ε α) ≠ .error .panic := by
  rw [h]
  exact nofun

theorem require_ne_panic {p : Prop} [Decidable p] {e : ε} :
    require p e ≠ .error .panic := by
  unfold require
  split
  · exact nofun
  · exact nofun

theorem okOr_ne_panic {e : ε} {o : Option α} : okOr e o ≠ .error .panic := by
  cases o with
  | none => exact nofun
  | some a => exact nofun

theorem propagate_ne_panic {x : Except ε α} : propagate x ≠ .error .panic := by
  cases x with
  | error e => exact nofun
  | ok a => exact nofun

theorem mapErr_ne_panic {ε' : Type} {e : ε} {x : Except ε' α} : mapErr e x ≠ .error .panic := by
  cases x with
  | error e' => exact nofun
  | ok a => exact nofun

end

/-! ## Readers and formats -/

section Readers

variable {ε α β : Type}

/-- A reader that panics on no byte string. -/
def NeverPanics (p : Decoder (Failure ε) α) : Prop := ∀ bs, p bs ≠ .error .panic

theorem NeverPanics.bind {p : Decoder (Failure ε) α} {q : α → Decoder (Failure ε) β}
    (hp : NeverPanics p) (hq : ∀ a, NeverPanics (q a)) : NeverPanics (p >>= q) :=
  fun bs => bind_ne_panic (hp bs) fun r _ => hq r.1 r.2

theorem neverPanics_pure (a : α) : NeverPanics (pure a : Decoder (Failure ε) α) := fun _ => nofun

theorem NeverPanics.map {p : Decoder (Failure ε) α} (hp : NeverPanics p) (f : α → β) :
    NeverPanics (f <$> p) := hp.bind fun a => neverPanics_pure (f a)

theorem neverPanics_throw (e : ε) :
    NeverPanics (throw (.error e) : Decoder (Failure ε) α) := fun _ => nofun

theorem neverPanics_byte (e : ε) : NeverPanics (Decoder.byte (.error e)) := by
  intro bs
  cases bs with
  | nil => exact nofun
  | cons b bs => exact nofun

theorem NeverPanics.elements {p : Decoder (Failure ε) α} (hp : NeverPanics p) (n : Nat) :
    NeverPanics (Decoder.elements p n) := by
  induction n with
  | zero => exact neverPanics_pure []
  | succ n ih => exact hp.bind fun a => ih.bind fun as => neverPanics_pure (a :: as)

theorem NeverPanics.value {p : Decoder (Failure ε) α} (hp : NeverPanics p) (bs : Bytes) :
    Prod.fst <$> p bs ≠ .error .panic :=
  @bind_ne_panic ε _ _ _ (fun r => pure r.1) (hp bs) fun _ _ => nofun

/-- Writing fails exactly for the values that do not fit, what is written is read back, and
nothing panics. -/
structure ExactFormat (Fits : α → Prop) (write : α → Result ε Bytes) (read : Bytes → Result ε α) :
    Prop where
  round_trip : ∀ v bytes, write v = .ok bytes → read bytes = .ok v
  writes_iff : ∀ v, (∃ bytes, write v = .ok bytes) ↔ Fits v
  write_ne_panic : ∀ v, write v ≠ .error .panic
  read_ne_panic : ∀ bytes, read bytes ≠ .error .panic

theorem roundTrips_value {write : α → Result ε Bytes}
    {reader : Decoder (Failure ε) α} (h : RoundTrips write reader) {v : α} {bytes : Bytes}
    (hv : write v = .ok bytes) : Prod.fst <$> reader bytes = .ok v := by
  have hread := h v bytes hv []
  rw [List.append_nil] at hread
  rw [hread]
  rfl

theorem encodeElements_writes_iff {write : α → Result ε Bytes} {vs : List α} :
    (∃ bytes, encodeElements write vs = .ok bytes) ↔ ∀ v ∈ vs, ∃ bytes, write v = .ok bytes := by
  induction vs with
  | nil => exact ⟨fun _ => nofun, fun _ => ⟨[], rfl⟩⟩
  | cons v vs ih =>
    rw [List.forall_mem_cons, ← ih]
    constructor
    · rintro ⟨bytes, hbytes⟩
      simp only [encodeElements, except_bind_eq_ok] at hbytes
      obtain ⟨head, hhead, tail, htail, -⟩ := hbytes
      exact ⟨⟨head, hhead⟩, tail, htail⟩
    · rintro ⟨⟨head, hhead⟩, tail, htail⟩
      exact ⟨head ++ tail, by rw [encodeElements, hhead, htail]; rfl⟩

theorem encodeElements_ne_panic {write : α → Result ε Bytes}
    (h : ∀ v, write v ≠ .error .panic) (vs : List α) :
    encodeElements write vs ≠ .error .panic := by
  induction vs with
  | nil => exact nofun
  | cons v vs ih => exact bind_ne_panic (h v) fun _ _ => bind_ne_panic ih fun _ _ => nofun

end Readers

/-! ## Slices -/

section Slices

variable {α : Type}

/-- `get(start..stop)`. -/
def slice (xs : List α) (start stop : Nat) : Option (List α) :=
  if start ≤ stop ∧ stop ≤ xs.length then some ((xs.take stop).drop start) else none

theorem slice_eq_some {xs ys : List α} {start stop : Nat} :
    slice xs start stop = some ys ↔
      start ≤ stop ∧ stop ≤ xs.length ∧ (xs.take stop).drop start = ys := by
  unfold slice
  split
  · next h => simp [h.1, h.2]
  · next h => exact ⟨nofun, fun h' => absurd ⟨h'.1, h'.2.1⟩ h⟩

theorem slice_of_le {xs : List α} {start stop : Nat} (h : start ≤ stop) (hlen : stop ≤ xs.length) :
    slice xs start stop = some ((xs.take stop).drop start) := if_pos ⟨h, hlen⟩

theorem length_slice {xs ys : List α} {start stop : Nat} (h : slice xs start stop = some ys) :
    ys.length = stop - start := by
  obtain ⟨hle, hlen, rfl⟩ := slice_eq_some.mp h
  rw [List.length_drop, List.length_take, Nat.min_eq_left hlen]

/-- The part between two others. -/
theorem slice_append (front middle back : List α) :
    slice (front ++ middle ++ back) front.length (front.length + middle.length) =
      some middle := by
  refine slice_eq_some.mpr ⟨Nat.le_add_right _ _, by simp, ?_⟩
  rw [← List.length_append, List.take_left, List.drop_left]

theorem slice_all (xs : List α) : slice xs 0 xs.length = some xs :=
  slice_eq_some.mpr ⟨Nat.zero_le _, Nat.le_refl _, by rw [List.take_length, List.drop_zero]⟩

/-- Two slices, the second of which starts where the first stops. -/
theorem slice_concat {xs ys zs : List α} {start middle stop : Nat}
    (hys : slice xs start middle = some ys) (hzs : slice xs middle stop = some zs) :
    slice xs start stop = some (ys ++ zs) := by
  obtain ⟨hle, -, rfl⟩ := slice_eq_some.mp hys
  obtain ⟨hle', hlen, rfl⟩ := slice_eq_some.mp hzs
  refine slice_eq_some.mpr ⟨hle.trans hle', hlen, ?_⟩
  have htake : xs.take middle = (xs.take stop).take middle := by
    rw [List.take_take, Nat.min_eq_left hle']
  have hlength : ((xs.take stop).take middle).length = middle := by
    rw [← htake, List.length_take, Nat.min_eq_left (hle'.trans hlen)]
  rw [htake]
  conv_lhs => rw [← List.take_append_drop middle (xs.take stop)]
  exact List.drop_append_of_le_length (hle.trans_eq hlength.symm)

/-- A slice of a slice. -/
theorem slice_slice {xs ys zs : List α} {start stop start' stop' : Nat}
    (hys : slice xs start stop = some ys) (hzs : slice ys start' stop' = some zs) :
    slice xs (start + start') (start + stop') = some zs := by
  have hlength := length_slice hys
  obtain ⟨hle, hlen, rfl⟩ := slice_eq_some.mp hys
  obtain ⟨hle', hlen', rfl⟩ := slice_eq_some.mp hzs
  refine slice_eq_some.mpr ⟨Nat.add_le_add_left hle' _, by omega, ?_⟩
  rw [List.take_drop, List.drop_drop, List.take_take, Nat.min_eq_left (by omega)]

end Slices

/-! ## Integers

An integer of `w` bits is a word. Its number is `toNat` for an unsigned integer and `toInt`
for a signed one. -/

section Integers

variable {ε : Type} {w : Nat}

/-- The unsigned integer with a number, where there is one. -/
def toUnsigned (w : Nat) (n : Int) : Option (BitVec w) :=
  if 0 ≤ n ∧ n < 2 ^ w then some (BitVec.ofInt w n) else none

/-- The signed integer with a number, where there is one. -/
def toSigned (w : Nat) (n : Int) : Option (BitVec w) :=
  if -2 ^ (w - 1) ≤ n ∧ n < 2 ^ (w - 1) then some (BitVec.ofInt w n) else none

/-- `checked_sub` of unsigned integers. -/
def checkedSub (a b : BitVec w) : Option (BitVec w) := toUnsigned w (a.toNat - b.toNat)

/-- `checked_add` of unsigned integers. -/
def checkedAdd (a b : BitVec w) : Option (BitVec w) := toUnsigned w (a.toNat + b.toNat)

/-- `checked_mul` of unsigned integers. -/
def checkedMul (a b : BitVec w) : Option (BitVec w) := toUnsigned w (a.toNat * b.toNat)

/-- `checked_pow` of unsigned integers. -/
def checkedPow (a : BitVec w) (n : Nat) : Option (BitVec w) := toUnsigned w (a.toNat ^ n)

/-- `checked_sub` of signed integers. -/
def checkedSubSigned (a b : BitVec w) : Option (BitVec w) := toSigned w (a.toInt - b.toInt)

/-- `checked_div` of unsigned integers. -/
def checkedDiv (a b : BitVec w) : Option (BitVec w) := if b = 0 then none else some (a / b)

/-- `a / b` of unsigned integers. -/
def div (a b : BitVec w) : Result ε (BitVec w) := unwrap (if b = 0 then none else some (a / b))

/-- `a / b` of signed integers. -/
def divSigned (a b : BitVec w) : Result ε (BitVec w) :=
  unwrap (if b = 0 then none else toSigned w (a.toInt.tdiv b.toInt))

/-- `a - b` of unsigned integers, which panics in a build with overflow checks, and wraps
around in one without. -/
def sub (overflowChecks : Bool) (a b : BitVec w) : Result ε (BitVec w) :=
  if overflowChecks then unwrap (checkedSub a b) else .ok (a - b)

theorem toUnsigned_eq_some {n : Int} {x : BitVec w} :
    toUnsigned w n = some x ↔ (x.toNat : Int) = n := by
  unfold toUnsigned
  constructor
  · intro h
    split at h
    · next hn =>
      cases h
      have hpos : ((2 ^ w : Nat) : Int) ≠ 0 := by exact_mod_cast (Nat.two_pow_pos w).ne'
      rw [BitVec.toNat_ofInt, Int.toNat_of_nonneg (Int.emod_nonneg _ hpos),
        Int.emod_eq_of_lt hn.1 (by exact_mod_cast hn.2)]
    · exact absurd h nofun
  · rintro rfl
    have hx : (x.toNat : Int) < 2 ^ w := by exact_mod_cast x.isLt
    rw [if_pos ⟨Int.natCast_nonneg _, hx⟩, BitVec.ofInt_natCast, BitVec.ofNat_toNat,
      BitVec.setWidth_eq]

theorem toSigned_eq_some (hw : 0 < w) {n : Int} {x : BitVec w} :
    toSigned w n = some x ↔ x.toInt = n := by
  unfold toSigned
  constructor
  · intro h
    split at h
    · next hn =>
      cases h
      exact BitVec.toInt_ofInt_eq_self hw hn.1 hn.2
    · exact absurd h nofun
  · rintro rfl
    rw [if_pos ⟨x.le_toInt, x.toInt_lt⟩, BitVec.ofInt_toInt]

theorem checkedSub_eq_some {a b x : BitVec w} :
    checkedSub a b = some x ↔ b.toNat ≤ a.toNat ∧ x.toNat = a.toNat - b.toNat := by
  rw [checkedSub, toUnsigned_eq_some]
  omega

theorem checkedAdd_eq_some {a b x : BitVec w} :
    checkedAdd a b = some x ↔ x.toNat = a.toNat + b.toNat := by
  rw [checkedAdd, toUnsigned_eq_some]
  exact_mod_cast Iff.rfl

theorem checkedMul_eq_some {a b x : BitVec w} :
    checkedMul a b = some x ↔ x.toNat = a.toNat * b.toNat := by
  rw [checkedMul, toUnsigned_eq_some]
  exact_mod_cast Iff.rfl

theorem checkedDiv_eq_some {a b x : BitVec w} :
    checkedDiv a b = some x ↔ b ≠ 0 ∧ x.toNat = a.toNat / b.toNat := by
  unfold checkedDiv
  split
  · next hb => exact ⟨nofun, fun h => absurd hb h.1⟩
  · next hb =>
    rw [Option.some.injEq, and_iff_right hb, ← BitVec.toNat_udiv, eq_comm]
    exact ⟨congrArg BitVec.toNat, BitVec.eq_of_toNat_eq⟩

theorem checkedSubSigned_eq_some (hw : 0 < w) {a b x : BitVec w} :
    checkedSubSigned a b = some x ↔ x.toInt = a.toInt - b.toInt := toSigned_eq_some hw

theorem div_eq_ok {a b x : BitVec w} :
    (div a b : Result ε (BitVec w)) = .ok x ↔ b ≠ 0 ∧ a / b = x := by
  rw [div, unwrap_eq_ok]
  split
  · next hb => exact ⟨nofun, fun h => absurd hb h.1⟩
  · next hb => exact ⟨fun h => ⟨hb, Option.some.inj h⟩, fun h => congrArg some h.2⟩

theorem divSigned_eq_ok (hw : 0 < w) {a b x : BitVec w} :
    (divSigned a b : Result ε (BitVec w)) = .ok x ↔ b ≠ 0 ∧ x.toInt = a.toInt.tdiv b.toInt := by
  rw [divSigned, unwrap_eq_ok]
  split
  · next hb => exact ⟨nofun, fun h => absurd hb h.1⟩
  · next hb => rw [toSigned_eq_some hw, and_iff_right hb]

theorem div_ne_panic {a b : BitVec w} (hb : b ≠ 0) :
    (div a b : Result ε (BitVec w)) ≠ .error .panic := by
  rw [div, if_neg hb]
  exact nofun

/-- A quotient by a positive number fits. -/
theorem divSigned_ne_panic {a b : BitVec w} (hb : 0 < b.toInt) :
    (divSigned a b : Result ε (BitVec w)) ≠ .error .panic := by
  have hne : b ≠ 0 := fun h => by simp [h] at hb
  have hlow := a.le_toInt
  have hhigh := a.toInt_lt
  have hfits : -2 ^ (w - 1) ≤ a.toInt.tdiv b.toInt ∧ a.toInt.tdiv b.toInt < 2 ^ (w - 1) := by
    by_cases ha : 0 ≤ a.toInt
    · have hle := Int.tdiv_le_self b.toInt ha
      have hnonneg := Int.tdiv_nonneg ha hb.le
      omega
    · have hle := Int.tdiv_le_self b.toInt (show 0 ≤ -a.toInt by omega)
      have hnonneg := Int.tdiv_nonneg (show 0 ≤ -a.toInt by omega) hb.le
      rw [Int.neg_tdiv] at hle hnonneg
      have hpos : (0 : Int) < 2 ^ (w - 1) := by positivity
      omega
  rw [divSigned, if_neg hne, toSigned, if_pos hfits]
  exact nofun

theorem checkedSub_of_le {a b : BitVec w} (h : b.toNat ≤ a.toNat) :
    checkedSub a b = some (a - b) :=
  checkedSub_eq_some.mpr ⟨h, BitVec.toNat_sub_of_le h⟩

theorem checkedSub_eq_none {a b : BitVec w} : checkedSub a b = none ↔ a.toNat < b.toNat := by
  constructor
  · intro h
    by_contra hle
    rw [checkedSub_of_le (Nat.le_of_not_lt hle)] at h
    exact absurd h nofun
  · intro h
    rw [Option.eq_none_iff_forall_ne_some]
    exact fun x hx => absurd (checkedSub_eq_some.mp hx).1 (Nat.not_le.mpr h)

/-- A difference that fits is the same in all builds. -/
theorem sub_of_le (overflowChecks : Bool) {a b : BitVec w} (h : b.toNat ≤ a.toNat) :
    (sub overflowChecks a b : Result ε (BitVec w)) = .ok (a - b) := by
  cases overflowChecks with
  | false => rfl
  | true => rw [sub, if_pos rfl, checkedSub_of_le h, unwrap]

theorem sub_panics {a b : BitVec w} (h : a.toNat < b.toNat) :
    (sub true a b : Result ε (BitVec w)) = .error .panic := by
  rw [sub, if_pos rfl, checkedSub_eq_none.mpr h, unwrap]

end Integers

end PythCrosschain.Rust
