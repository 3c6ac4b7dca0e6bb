import Mathlib.Control.Monad.Basic
import Mathlib.Data.List.Forall2
import PythCrosschain.Lib.Bytes

/-!
# Encoders and decoders of byte strings

An encoder turns a value into bytes or fails; a decoder reads a value from the
front of a byte string and leaves the rest. They round-trip (`RoundTrips`) when
decoding what was written, followed by anything, gives the value back and leaves
what followed. Such an encoding is injective, and no encoding is the beginning
of another one (`RoundTrips.prefixFree`).

Sequences of encodings without separators round-trip when the decoder knows how
many there are (`RoundTrips.elements`).
-/

namespace PythCrosschain

theorem except_eq_error {ε α : Type} {x : Except ε α} :
    (∃ e, x = .error e) ↔ ∀ a, x ≠ .ok a := by
  cases x with
  | error e => exact ⟨fun _ _ => nofun, fun _ => ⟨e, rfl⟩⟩
  | ok a => exact ⟨fun ⟨_, h⟩ => (nomatch h), fun h => absurd rfl (h a)⟩

theorem except_bind_eq_ok {ε α β : Type} {x : Except ε α} {f : α → Except ε β} {b : β} :
    (x >>= f) = .ok b ↔ ∃ a, x = .ok a ∧ f a = .ok b := by
  cases x with
  | error e => exact ⟨nofun, fun ⟨_, h, _⟩ => nomatch h⟩
  | ok a =>
    constructor
    · intro h
      exact ⟨a, rfl, h⟩
    · rintro ⟨_, h, hf⟩
      cases h
      exact hf

theorem except_toOption_eq_some {ε α : Type} {x : Except ε α} {a : α} :
    x.toOption = some a ↔ x = .ok a := by
  cases x with
  | error e => exact ⟨nofun, nofun⟩
  | ok b => simp [Except.toOption]

theorem except_ok_bind {ε α β : Type} (a : α) (f : α → Except ε β) : (.ok a >>= f) = f a := rfl

theorem except_map_eq_ok {ε α β : Type} {x : Except ε α} {f : α → β} {b : β} :
    f <$> x = .ok b ↔ ∃ a, x = .ok a ∧ f a = b := by
  cases x with
  | error e => exact ⟨nofun, nofun⟩
  | ok a =>
    exact ⟨fun h => ⟨a, rfl, Except.ok.inj h⟩, fun ⟨_, ha, hb⟩ => Except.ok.inj ha ▸ congrArg _ hb⟩

theorem except_mapM_eq_ok {ε α β : Type} {f : α → Except ε β} {xs : List α} {ys : List β} :
    xs.mapM f = .ok ys ↔ List.Forall₂ (fun x y => f x = .ok y) xs ys := by
  induction xs generalizing ys with
  | nil =>
    rw [List.mapM_nil, List.forall₂_nil_left_iff]
    exact ⟨fun h => (Except.ok.inj h).symm, fun h => h ▸ rfl⟩
  | cons x xs ih =>
    simp only [List.mapM_cons, except_bind_eq_ok, ih]
    constructor
    · rintro ⟨y, hy, ys, hys, hpure⟩
      cases hpure
      exact .cons hy hys
    · rintro (_ | ⟨hy, hys⟩)
      exact ⟨_, hy, _, hys, rfl⟩

theorem exists_right_of_forall₂ {α β : Type} {R : α → β → Prop} {xs : List α} {ys : List β}
    (h : List.Forall₂ R xs ys) {x : α} (hx : x ∈ xs) : ∃ y ∈ ys, R x y := by
  induction h with
  | nil => cases hx
  | cons hxy _ ih =>
    rcases List.mem_cons.mp hx with rfl | hx
    · exact ⟨_, List.mem_cons_self, hxy⟩
    · obtain ⟨y, hy, hxy⟩ := ih hx
      exact ⟨y, List.mem_cons_of_mem _ hy, hxy⟩

theorem exists_left_of_forall₂ {α β : Type} {R : α → β → Prop} {xs : List α} {ys : List β}
    (h : List.Forall₂ R xs ys) {y : β} (hy : y ∈ ys) : ∃ x ∈ xs, R x y :=
  exists_right_of_forall₂ h.flip hy

theorem forall₂_comp {α β γ : Type} {R : α → β → Prop} {S : β → γ → Prop} {xs : List α}
    {ys : List β} {zs : List γ} (h : List.Forall₂ R xs ys) (h' : List.Forall₂ S ys zs) :
    List.Forall₂ (fun x z => ∃ y, R x y ∧ S y z) xs zs := by
  induction h generalizing zs with
  | nil =>
    cases h'
    exact .nil
  | cons hxy _ ih =>
    cases h' with
    | cons hyz hrest => exact .cons ⟨_, hxy, hyz⟩ (ih hrest)

theorem exists_of_mem_mapM {ε α β : Type} {f : α → Except ε β} {xs : List α} {ys : List β}
    (h : xs.mapM f = .ok ys) {y : β} (hy : y ∈ ys) : ∃ x ∈ xs, f x = .ok y :=
  exists_left_of_forall₂ (except_mapM_eq_ok.mp h) hy

/-- An error is the one of the first element that fails. -/
theorem exists_of_mapM_eq_error {ε α β : Type} {f : α → Except ε β} {xs : List α} {e : ε}
    (h : xs.mapM f = .error e) :
    ∃ before x after, xs = before ++ x :: after ∧ (∀ y ∈ before, ∃ z, f y = .ok z) ∧
      f x = .error e := by
  induction xs with
  | nil => cases h
  | cons x xs ih =>
    rw [List.mapM_cons] at h
    cases hx : f x with
    | error e' =>
      rw [hx] at h
      obtain rfl : e' = e := Except.error.inj h
      exact ⟨[], x, xs, rfl, fun _ hy => absurd hy List.not_mem_nil, hx⟩
    | ok y =>
      rw [hx] at h
      cases htail : xs.mapM f with
      | ok ys =>
        rw [htail] at h
        cases h
      | error e' =>
        rw [htail] at h
        obtain rfl : e' = e := Except.error.inj h
        obtain ⟨before, x', after, rfl, hbefore, hx'⟩ := ih htail
        refine ⟨x :: before, x', after, rfl, fun z hz => ?_, hx'⟩
        rcases List.mem_cons.mp hz with rfl | hz
        · exact ⟨y, hx⟩
        · exact hbefore z hz

theorem exists_mapM_eq_ok {ε α β : Type} {f : α → Except ε β} {xs : List α}
    (h : ∀ x ∈ xs, ∃ y, f x = .ok y) : ∃ ys, xs.mapM f = .ok ys := by
  simp only [except_mapM_eq_ok]
  induction xs with
  | nil => exact ⟨[], .nil⟩
  | cons x xs ih =>
    obtain ⟨y, hy⟩ := h x List.mem_cons_self
    obtain ⟨ys, hys⟩ := ih fun x hx => h x (List.mem_cons_of_mem _ hx)
    exact ⟨y :: ys, .cons hy hys⟩

/-- Reads a value from the front of a byte string. -/
abbrev Decoder (ε α : Type) := StateT Bytes (Except ε) α

namespace Decoder

variable {ε α β : Type}

theorem bind_run_of {p : Decoder ε α} {q : α → Decoder ε β} {bs mid : Bytes} {a : α}
    (h : p bs = .ok (a, mid)) : (p >>= q) bs = q a mid := by
  show (p bs >>= fun r => q r.1 r.2) = q a mid
  rw [h]
  rfl

theorem map_run_of {p : Decoder ε α} {f : α → β} {bs mid : Bytes} {a : α}
    (h : p bs = .ok (a, mid)) : (f <$> p) bs = .ok (f a, mid) := by
  show (p bs >>= fun r => pure (f r.1, r.2)) = _
  rw [h]
  rfl

@[simp] theorem pure_run (a : α) (bs : Bytes) : (pure a : Decoder ε α) bs = .ok (a, bs) := rfl

/-- The next `k` bytes, or an error. -/
def take (eof : ε) (k : Nat) : Decoder ε Bytes := fun bs =>
  if k ≤ bs.length then .ok (bs.take k, bs.drop k) else .error eof

theorem take_run_append {eof : ε} {k : Nat} {field : Bytes} (hfield : field.length = k)
    (rest : Bytes) : take eof k (field ++ rest) = .ok (field, rest) := by
  subst hfield
  rw [take, if_pos (by simp), List.take_left, List.drop_left]

/-- The next byte, or an error. -/
def byte (eof : ε) : Decoder ε UInt8
  | [] => .error eof
  | b :: rest => .ok (b, rest)

/-- `n` values one after the other. -/
def elements (p : Decoder ε α) : Nat → Decoder ε (List α)
  | 0 => pure []
  | n + 1 => do
    let a ← p
    let as ← elements p n
    return a :: as

end Decoder

section RoundTrips

variable {ε ε' α β : Type}

/-- The decoder reads what the encoder wrote, and leaves what comes after it. -/
def RoundTrips (encode : α → Except ε Bytes) (decode : Decoder ε' α) : Prop :=
  ∀ v bytes, encode v = .ok bytes → ∀ rest, decode (bytes ++ rest) = .ok (v, rest)

variable {encode : α → Except ε Bytes} {decode : Decoder ε' α}

/-- No encoding is the beginning of another one. -/
theorem RoundTrips.prefixFree (h : RoundTrips encode decode) {v v' : α} {bytes rest : Bytes}
    (hv : encode v = .ok bytes) (hv' : encode v' = .ok (bytes ++ rest)) : v = v' ∧ rest = [] := by
  have hshort := h v bytes hv rest
  have hlong := h v' (bytes ++ rest) hv' []
  rw [List.append_nil, hshort] at hlong
  cases hlong
  exact ⟨rfl, rfl⟩

theorem RoundTrips.injective (h : RoundTrips encode decode) {v v' : α} {bytes : Bytes}
    (hv : encode v = .ok bytes) (hv' : encode v' = .ok bytes) : v = v' :=
  (h.prefixFree hv (hv'.trans (congrArg Except.ok (List.append_nil bytes).symm))).1

/-- A pair of maps that recovers the values carries a codec over to other values. -/
theorem RoundTrips.map (h : RoundTrips encode decode) {f : β → α} {g : α → β}
    (hgf : ∀ b, g (f b) = b) : RoundTrips (fun b => encode (f b)) (g <$> decode) := by
  intro b bytes hb rest
  rw [Decoder.map_run_of (h (f b) bytes hb rest), hgf]

/-- The encodings of the elements, one after the other. -/
def encodeElements (encode : α → Except ε Bytes) : List α → Except ε Bytes
  | [] => .ok []
  | v :: vs => do
    let head ← encode v
    let tail ← encodeElements encode vs
    return head ++ tail

theorem encodeElements_eq_ok {vs : List α} {bytes : α → Bytes}
    (h : ∀ v ∈ vs, encode v = .ok (bytes v)) :
    encodeElements encode vs = .ok (vs.flatMap bytes) := by
  induction vs with
  | nil => rfl
  | cons v vs ih =>
    have hvs := ih fun v' hv' => h v' (List.mem_cons_of_mem v hv')
    rw [encodeElements, h v List.mem_cons_self, hvs]
    rfl

theorem encodeElements_map {β : Type} (f : β → α) (vs : List β) :
    encodeElements encode (vs.map f) = encodeElements (fun v => encode (f v)) vs := by
  induction vs with
  | nil => rfl
  | cons v vs ih => rw [List.map_cons, encodeElements, encodeElements, ih]

theorem RoundTrips.elements (h : RoundTrips encode decode) {vs : List α} {bytes : Bytes}
    (hvs : encodeElements encode vs = .ok bytes) (rest : Bytes) :
    Decoder.elements decode vs.length (bytes ++ rest) = .ok (vs, rest) := by
  induction vs generalizing bytes with
  | nil =>
    cases hvs
    rfl
  | cons v vs ih =>
    simp only [encodeElements, except_bind_eq_ok] at hvs
    obtain ⟨head, hhead, tail, htail, hbytes⟩ := hvs
    cases hbytes
    show (decode >>= fun a => Decoder.elements decode vs.length >>= fun as => pure (a :: as)) _
      = _
    rw [List.append_assoc, Decoder.bind_run_of (h v head hhead _),
      Decoder.bind_run_of (ih htail)]
    rfl

end RoundTrips

end PythCrosschain
