import PythCrosschain.Lib.Codec

/-!
# Borsh

Readers of the Borsh format: little-endian integers, a byte for a `bool`, four bytes with
the length before a `Vec`. `tryFromSlice` wants all bytes read. Every reader is given what it
reads back from the bytes of a value (`uint_append`, `vec_append`, `tryFromSlice_of`).
-/

namespace PythCrosschain.Borsh

inductive Error where
  | unexpectedLength
  | invalidBool
  | unexpectedVariant
  | notAllBytesRead
deriving DecidableEq, Repr

abbrev Reader (α : Type) := Decoder Error α

section

variable {α : Type}

/-- An unsigned integer of `k` bytes. -/
def uint (k : Nat) : Reader Nat := natLE <$> Decoder.take .unexpectedLength k

/-- `[u8; N]`. -/
def array (N : Nat) : Reader {bytes : Bytes // bytes.length = N} := fun bs =>
  if h : N ≤ bs.length then .ok (⟨bs.take N, List.length_take_of_le h⟩, bs.drop N)
  else .error .unexpectedLength

def bool : Reader Bool := do
  match ← uint 1 with
  | 0 => return false
  | 1 => return true
  | _ => fun _ => .error .invalidBool

/-- The variants of an enumeration without fields, in their order. -/
def variant (variants : List α) : Reader α := do
  let index ← uint 1
  match variants[index]? with
  | some v => return v
  | none => fun _ => .error .unexpectedVariant

/-- `Vec<T>`. -/
def vec (p : Reader α) : Reader (List α) := do
  let len ← uint 4
  Decoder.elements p len

/-- `Vec<u8>`. -/
def byteVec : Reader Bytes := do
  let len ← uint 4
  Decoder.take .unexpectedLength len

def tryFromSlice (p : Reader α) (bs : Bytes) : Except Error α :=
  match p bs with
  | .ok (a, []) => .ok a
  | .ok (_, _ :: _) => .error .notAllBytesRead
  | .error e => .error e

end

/-! ## What the readers read -/

section

variable {α : Type}

theorem uint_append {k n : Nat} (h : n < 256 ^ k) (rest : Bytes) :
    uint k (bytesLE k n ++ rest) = .ok (n, rest) := by
  rw [uint, Decoder.map_run_of (Decoder.take_run_append (length_bytesLE k n) rest),
    natLE_bytesLE, Nat.mod_eq_of_lt h]

theorem array_append {N : Nat} (a : {bytes : Bytes // bytes.length = N}) (rest : Bytes) :
    array N (a.val ++ rest) = .ok (a, rest) := by
  have hlength : N ≤ (a.val ++ rest).length := by simp [a.property]
  rw [array, dif_pos hlength]
  congr 2
  · exact Subtype.ext (List.take_left' a.property)
  · exact List.drop_left' a.property

theorem bool_cons (b : Bool) (rest : Bytes) :
    bool ((if b then 1 else 0) :: rest) = .ok (b, rest) := by
  cases b <;> rfl

/-- A number that names a variant. -/
theorem variant_cons {variants : List α} {index : UInt8} {v : α}
    (h : variants[index.toNat]? = some v) (rest : Bytes) :
    variant variants (index :: rest) = .ok (v, rest) := by
  have hindex : uint 1 (index :: rest) = .ok (index.toNat, rest) := by
    have hbyte : natLE [index] = index.toNat := by simp [natLE, natBE]
    rw [uint, ← List.singleton_append, Decoder.map_run_of
      (Decoder.take_run_append (List.length_singleton) rest), hbyte]
  rw [variant, Decoder.bind_run_of hindex, h]
  rfl

theorem vec_append {ε : Type} {encode : α → Except ε Bytes} {p : Reader α}
    (hp : RoundTrips encode p) {as : List α} {bytes : Bytes}
    (has : encodeElements encode as = .ok bytes) (hlength : as.length < 256 ^ 4) (rest : Bytes) :
    vec p (bytesLE 4 as.length ++ bytes ++ rest) = .ok (as, rest) := by
  rw [vec, List.append_assoc, Decoder.bind_run_of (uint_append hlength _)]
  exact hp.elements has rest

theorem byteVec_append {bytes : Bytes} (hlength : bytes.length < 256 ^ 4) (rest : Bytes) :
    byteVec (bytesLE 4 bytes.length ++ bytes ++ rest) = .ok (bytes, rest) := by
  rw [byteVec, List.append_assoc, Decoder.bind_run_of (uint_append hlength _)]
  exact Decoder.take_run_append rfl rest

theorem tryFromSlice_of {p : Reader α} {bytes : Bytes} {a : α} (h : p bytes = .ok (a, [])) :
    tryFromSlice p bytes = .ok a := by
  rw [tryFromSlice, h]

end

end PythCrosschain.Borsh
