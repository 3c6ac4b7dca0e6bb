import PythCrosschain.Lib.Bytes

/-!
# Bit strings

Bit strings are lists of `Bool`, most significant bit first. `natBits` and `bitsBE` are to bits
what `natBE` and `bytesBE` are to bytes. `bitsOf` spells out the bits of a byte string, and
`bytesOf` groups bits into bytes: they are inverse to each other on whole bytes, and a field of
whole bytes has the same value either way (`natBits_bitsOf`).
-/

namespace PythCrosschain

abbrev Bits := List Bool

/-- The number that a bit string encodes. -/
def natBits : Bits → Nat
  | [] => 0
  | b :: bs => b.toNat * 2 ^ bs.length + natBits bs

/-- The `k` low bits of `n`. -/
def bitsBE : Nat → Nat → Bits
  | 0, _ => []
  | k + 1, n => n.testBit k :: bitsBE k n

/-- The bits of a byte string. -/
def bitsOf (bytes : Bytes) : Bits := bytes.flatMap fun b => bitsBE 8 b.toNat

/-- The whole bytes of a bit string. -/
def bytesOf : Bits → Bytes
  | b₀ :: b₁ :: b₂ :: b₃ :: b₄ :: b₅ :: b₆ :: b₇ :: rest =>
    UInt8.ofNat (natBits [b₀, b₁, b₂, b₃, b₄, b₅, b₆, b₇]) :: bytesOf rest
  | _ => []

/-! ## Numbers -/

@[simp] theorem length_bitsBE (k n : Nat) : (bitsBE k n).length = k := by
  induction k with
  | zero => rfl
  | succ k ih => rw [bitsBE, List.length_cons, ih]

theorem natBits_lt (bs : Bits) : natBits bs < 2 ^ bs.length := by
  induction bs with
  | nil => exact Nat.one_pos
  | cons b bs ih =>
    have hb : b.toNat ≤ 1 := Bool.toNat_le b
    calc natBits (b :: bs) < b.toNat * 2 ^ bs.length + 2 ^ bs.length := Nat.add_lt_add_left ih _
      _ = (b.toNat + 1) * 2 ^ bs.length := by ring
      _ ≤ 2 * 2 ^ bs.length := Nat.mul_le_mul_right _ (by omega)
      _ = 2 ^ (b :: bs).length := by rw [List.length_cons, Nat.pow_succ, Nat.mul_comm]

theorem natBits_append (as bs : Bits) :
    natBits (as ++ bs) = natBits as * 2 ^ bs.length + natBits bs := by
  induction as with
  | nil => simp [natBits]
  | cons a as ih =>
    rw [List.cons_append, natBits, natBits, ih, List.length_append, Nat.pow_add]
    ring

theorem natBits_bitsBE (k n : Nat) : natBits (bitsBE k n) = n % 2 ^ k := by
  induction k with
  | zero => simp [bitsBE, natBits, Nat.mod_one]
  | succ k ih =>
    rw [bitsBE, natBits, length_bitsBE, ih, Nat.toNat_testBit, Nat.pow_succ, Nat.mod_mul]
    ring

/-- Bit strings of one length are equal when they encode one number. -/
theorem natBits_injective_of_length {as bs : Bits} (h : as.length = bs.length)
    (hnat : natBits as = natBits bs) : as = bs := by
  induction as generalizing bs with
  | nil => exact (List.length_eq_zero_iff.mp h.symm).symm
  | cons a as ih =>
    cases bs with
    | nil => cases h
    | cons b bs =>
      have hlength : as.length = bs.length := Nat.succ.inj h
      have ha := natBits_lt as
      have hb := natBits_lt bs
      rw [natBits, natBits, hlength] at hnat
      rw [hlength] at ha
      cases a <;> cases b <;> simp only [Bool.toNat_true, Bool.toNat_false] at hnat
      · rw [ih hlength (by omega)]
      · omega
      · omega
      · rw [ih hlength (by omega)]

theorem bitsBE_natBits (bs : Bits) : bitsBE bs.length (natBits bs) = bs := by
  refine natBits_injective_of_length (length_bitsBE _ _) ?_
  rw [natBits_bitsBE, Nat.mod_eq_of_lt (natBits_lt bs)]

/-! ## Bytes -/

@[simp] theorem bitsOf_nil : bitsOf [] = [] := rfl

theorem bitsOf_cons (b : UInt8) (bytes : Bytes) :
    bitsOf (b :: bytes) = bitsBE 8 b.toNat ++ bitsOf bytes := rfl

theorem bitsOf_append (as bs : Bytes) : bitsOf (as ++ bs) = bitsOf as ++ bitsOf bs :=
  List.flatMap_append

@[simp] theorem length_bitsOf (bytes : Bytes) : (bitsOf bytes).length = 8 * bytes.length := by
  induction bytes with
  | nil => rfl
  | cons b bytes ih =>
    rw [bitsOf_cons, List.length_append, length_bitsBE, ih, List.length_cons]
    ring

theorem natBits_bitsOf (bytes : Bytes) : natBits (bitsOf bytes) = natBE bytes := by
  induction bytes with
  | nil => rfl
  | cons b bytes ih =>
    rw [bitsOf_cons, natBits_append, natBits_bitsBE, length_bitsOf, ih, natBE,
      Nat.mod_eq_of_lt b.toNat_lt, Nat.pow_mul]

theorem bytesOf_bitsBE_append (b : UInt8) (rest : Bits) :
    bytesOf (bitsBE 8 b.toNat ++ rest) = b :: bytesOf rest := by
  show UInt8.ofNat (natBits (bitsBE 8 b.toNat)) :: bytesOf rest = _
  rw [natBits_bitsBE, Nat.mod_eq_of_lt b.toNat_lt, UInt8.ofNat_toNat]

@[simp] theorem bytesOf_bitsOf (bytes : Bytes) : bytesOf (bitsOf bytes) = bytes := by
  induction bytes with
  | nil => rfl
  | cons b bytes ih => rw [bitsOf_cons, bytesOf_bitsBE_append, ih]

theorem bitsOf_injective : Function.Injective bitsOf :=
  Function.LeftInverse.injective bytesOf_bitsOf

theorem bitsOf_bytesOf {bits : Bits} (h : bits.length % 8 = 0) : bitsOf (bytesOf bits) = bits := by
  fun_induction bytesOf bits with
  | case1 b₀ b₁ b₂ b₃ b₄ b₅ b₆ b₇ rest ih =>
    have hrest : rest.length % 8 = 0 := by
      simp only [List.length_cons] at h
      omega
    have hlt : natBits [b₀, b₁, b₂, b₃, b₄, b₅, b₆, b₇] < 2 ^ 8 := natBits_lt _
    have hbyte : (UInt8.ofNat (natBits [b₀, b₁, b₂, b₃, b₄, b₅, b₆, b₇])).toNat
        = natBits [b₀, b₁, b₂, b₃, b₄, b₅, b₆, b₇] := by
      rw [UInt8.toNat_ofNat', Nat.mod_eq_of_lt hlt]
    rw [bitsOf_cons, ih hrest, hbyte]
    exact congrArg (· ++ rest) (bitsBE_natBits [b₀, b₁, b₂, b₃, b₄, b₅, b₆, b₇])
  | case2 bits hshort =>
    match bits, h, hshort with
    | [], _, _ => rfl
    | [_], h, _ => cases h
    | [_, _], h, _ => cases h
    | [_, _, _], h, _ => cases h
    | [_, _, _, _], h, _ => cases h
    | [_, _, _, _, _], h, _ => cases h
    | [_, _, _, _, _, _], h, _ => cases h
    | [_, _, _, _, _, _, _], h, _ => cases h
    | b₀ :: b₁ :: b₂ :: b₃ :: b₄ :: b₅ :: b₆ :: b₇ :: rest, _, hshort =>
      exact absurd rfl (hshort b₀ b₁ b₂ b₃ b₄ b₅ b₆ b₇ rest)

theorem bitsOf_take (k : Nat) (bytes : Bytes) :
    bitsOf (bytes.take k) = (bitsOf bytes).take (8 * k) := by
  rcases le_total k bytes.length with h | h
  · have hlength : 8 * k = (bitsOf (bytes.take k)).length := by
      rw [length_bitsOf, List.length_take_of_le h]
    conv_rhs => rw [← List.take_append_drop k bytes, bitsOf_append, hlength, List.take_left]
  · rw [List.take_of_length_le h, List.take_of_length_le]
    rw [length_bitsOf]
    exact Nat.mul_le_mul_left 8 h

theorem bitsOf_drop (k : Nat) (bytes : Bytes) :
    bitsOf (bytes.drop k) = (bitsOf bytes).drop (8 * k) := by
  rcases le_total k bytes.length with h | h
  · have hlength : 8 * k = (bitsOf (bytes.take k)).length := by
      rw [length_bitsOf, List.length_take_of_le h]
    conv_rhs => rw [← List.take_append_drop k bytes, bitsOf_append, hlength, List.drop_left]
  · rw [List.drop_of_length_le h, List.drop_of_length_le]
    · rfl
    · rw [length_bitsOf]
      exact Nat.mul_le_mul_left 8 h

/-- A number of whole bytes. -/
theorem bitsBE_eq_bitsOf (k n : Nat) : bitsBE (8 * k) n = bitsOf (bytesBE k n) := by
  refine natBits_injective_of_length (by simp) ?_
  rw [natBits_bitsBE, natBits_bitsOf, natBE_bytesBE, Nat.pow_mul]

end PythCrosschain
