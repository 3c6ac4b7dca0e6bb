import Mathlib.Algebra.Order.Ring.Nat
import Mathlib.Tactic.Ring

/-!
# Byte strings as numbers

Byte strings are lists of `UInt8`. `natBE` reads a byte string as an unsigned
number, most significant byte first, and `bytesBE k n` writes the `k` low bytes
of `n`. The two are inverse to each other on `k` bytes, so a fixed-width
big-endian field determines its value. `natLE` and `bytesLE` do the same from the
least significant byte on.
-/

namespace PythCrosschain

/-- A byte string. -/
abbrev Bytes := List UInt8

/-- The number that a byte string encodes, most significant byte first. -/
def natBE : Bytes → Nat
  | [] => 0
  | b :: bs => b.toNat * 256 ^ bs.length + natBE bs

/-- The `k` low bytes of `n`, most significant byte first. -/
def bytesBE : Nat → Nat → Bytes
  | 0, _ => []
  | k + 1, n => UInt8.ofNat (n / 256 ^ k) :: bytesBE k n

@[simp] theorem length_bytesBE (k n : Nat) : (bytesBE k n).length = k := by
  induction k with
  | zero => rfl
  | succ k ih => simp [bytesBE, ih]

theorem natBE_lt (bs : Bytes) : natBE bs < 256 ^ bs.length := by
  induction bs with
  | nil => simp [natBE]
  | cons b bs ih =>
    have hb : b.toNat + 1 ≤ 256 := b.toNat_lt
    calc natBE (b :: bs) < b.toNat * 256 ^ bs.length + 256 ^ bs.length := by
          simpa [natBE] using ih
      _ = (b.toNat + 1) * 256 ^ bs.length := by ring
      _ ≤ 256 * 256 ^ bs.length := Nat.mul_le_mul_right _ hb
      _ = 256 ^ (b :: bs).length := by rw [List.length_cons, Nat.pow_succ, Nat.mul_comm]

theorem natBE_append (as bs : Bytes) :
    natBE (as ++ bs) = natBE as * 256 ^ bs.length + natBE bs := by
  induction as with
  | nil => simp [natBE]
  | cons a as ih =>
    rw [List.cons_append, natBE, natBE, ih, List.length_append, Nat.pow_add]
    ring

/-- The high part of a number does not reach its `k` low bytes. -/
theorem bytesBE_add_mul (k m n : Nat) : bytesBE k (m * 256 ^ k + n) = bytesBE k n := by
  induction k generalizing m with
  | zero => rfl
  | succ k ih =>
    have hpos : 0 < 256 ^ k := Nat.pow_pos (by decide)
    have hsplit : m * 256 ^ (k + 1) + n = m * 256 * 256 ^ k + n := by ring
    have htop : (m * 256 * 256 ^ k + n) / 256 ^ k = m * 256 + n / 256 ^ k := by
      rw [Nat.add_comm, Nat.add_mul_div_right _ _ hpos, Nat.add_comm]
    have hbyte : UInt8.ofNat (m * 256 + n / 256 ^ k) = UInt8.ofNat (n / 256 ^ k) := by
      apply UInt8.toNat_inj.mp
      simp only [UInt8.toNat_ofNat']
      omega
    rw [hsplit, bytesBE, bytesBE, htop, hbyte, ih]

/-- Writing a number and reading it back keeps it modulo `256 ^ k`. -/
theorem natBE_bytesBE (k n : Nat) : natBE (bytesBE k n) = n % 256 ^ k := by
  induction k with
  | zero => simp [bytesBE, natBE, Nat.mod_one]
  | succ k ih =>
    rw [bytesBE, natBE, length_bytesBE, ih, Nat.pow_succ, Nat.mod_mul, Nat.add_comm,
      Nat.mul_comm]
    simp only [UInt8.toNat_ofNat', Nat.reducePow]

/-- Reading a byte string and writing it back gives the same byte string. -/
theorem bytesBE_natBE (bs : Bytes) : bytesBE bs.length (natBE bs) = bs := by
  induction bs with
  | nil => rfl
  | cons b bs ih =>
    have hpos : 0 < 256 ^ bs.length := Nat.pow_pos (by decide)
    have htop : (b.toNat * 256 ^ bs.length + natBE bs) / 256 ^ bs.length = b.toNat := by
      rw [Nat.add_comm, Nat.add_mul_div_right _ _ hpos, Nat.div_eq_of_lt (natBE_lt bs),
        Nat.zero_add]
    rw [List.length_cons, bytesBE, natBE, htop, bytesBE_add_mul, ih, UInt8.ofNat_toNat]

/-- A `k`-byte field determines every value that fits in it. -/
theorem bytesBE_inj {k m n : Nat} (hm : m < 256 ^ k) (hn : n < 256 ^ k)
    (h : bytesBE k m = bytesBE k n) : m = n := by
  have hread := congrArg natBE h
  rwa [natBE_bytesBE, natBE_bytesBE, Nat.mod_eq_of_lt hm, Nat.mod_eq_of_lt hn] at hread

/-- Numbers with two digits are compared by their high digit first. -/
theorem mul_add_lt_mul_add_iff {m a b r s : Nat} (hr : r < m) (hs : s < m) :
    a * m + r < b * m + s ↔ a < b ∨ a = b ∧ r < s := by
  rcases Nat.lt_trichotomy a b with h | rfl | h
  · have hle : (a + 1) * m ≤ b * m := Nat.mul_le_mul_right m h
    rw [Nat.add_mul, Nat.one_mul] at hle
    exact iff_of_true (by omega) (.inl h)
  · simp
  · have hle : (b + 1) * m ≤ a * m := Nat.mul_le_mul_right m h
    rw [Nat.add_mul, Nat.one_mul] at hle
    refine iff_of_false (by omega) ?_
    rintro (h' | ⟨rfl, -⟩)
    · exact Nat.lt_asymm h h'
    · exact Nat.lt_irrefl _ h

/-- Byte strings of one length are ordered as the numbers that they encode. -/
theorem natBE_lt_natBE {as bs : Bytes} (h : as.length = bs.length) :
    natBE as < natBE bs ↔ as < bs := by
  induction as generalizing bs with
  | nil =>
    obtain rfl := List.length_eq_zero_iff.mp h.symm
    exact iff_of_false (Nat.lt_irrefl _) (List.not_lt_nil _)
  | cons a as ih =>
    cases bs with
    | nil => cases h
    | cons b bs =>
      have hlength : as.length = bs.length := Nat.succ.inj h
      rw [natBE, natBE, hlength, List.cons_lt_cons_iff, ← ih hlength, UInt8.lt_iff_toNat_lt,
        ← UInt8.toNat_inj]
      exact mul_add_lt_mul_add_iff (hlength ▸ natBE_lt as) (natBE_lt bs)

theorem natBE_le_natBE {as bs : Bytes} (h : as.length = bs.length) :
    natBE as ≤ natBE bs ↔ as ≤ bs := by
  rw [← Nat.not_lt, natBE_lt_natBE h.symm]
  exact Iff.rfl

theorem natBE_injective_of_length {as bs : Bytes} (h : as.length = bs.length)
    (hnat : natBE as = natBE bs) : as = bs := by
  rw [← bytesBE_natBE as, ← bytesBE_natBE bs, h, hnat]

/-- The high bytes of a number. -/
theorem natBE_take (k : Nat) (bs : Bytes) :
    natBE (bs.take k) = natBE bs / 256 ^ (bs.length - k) := by
  have hsplit := natBE_append (bs.take k) (bs.drop k)
  have hlow := natBE_lt (bs.drop k)
  rw [List.take_append_drop, List.length_drop] at hsplit
  rw [List.length_drop] at hlow
  rw [hsplit, Nat.add_comm, Nat.add_mul_div_right _ _ (Nat.pow_pos (by decide)),
    Nat.div_eq_of_lt hlow, Nat.zero_add]

/-- The low bytes of a number. -/
theorem natBE_drop (k : Nat) (bs : Bytes) :
    natBE (bs.drop k) = natBE bs % 256 ^ (bs.length - k) := by
  have hsplit := natBE_append (bs.take k) (bs.drop k)
  have hlow := natBE_lt (bs.drop k)
  rw [List.take_append_drop, List.length_drop] at hsplit
  rw [List.length_drop] at hlow
  rw [hsplit, Nat.add_comm, Nat.add_mul_mod_self_right, Nat.mod_eq_of_lt hlow]

/-! ## Little-endian -/

/-- The number that a byte string encodes, least significant byte first. -/
def natLE (bs : Bytes) : Nat := natBE bs.reverse

/-- The `k` low bytes of `n`, least significant byte first. -/
def bytesLE (k n : Nat) : Bytes := (bytesBE k n).reverse

@[simp] theorem length_bytesLE (k n : Nat) : (bytesLE k n).length = k := by
  rw [bytesLE, List.length_reverse, length_bytesBE]

theorem natLE_lt (bs : Bytes) : natLE bs < 256 ^ bs.length := by
  rw [natLE, ← List.length_reverse]
  exact natBE_lt _

theorem natLE_bytesLE (k n : Nat) : natLE (bytesLE k n) = n % 256 ^ k := by
  rw [natLE, bytesLE, List.reverse_reverse, natBE_bytesBE]

theorem bytesLE_natLE (bs : Bytes) : bytesLE bs.length (natLE bs) = bs := by
  rw [bytesLE, natLE, ← List.length_reverse, bytesBE_natBE, List.reverse_reverse]

end PythCrosschain
