import PythCrosschain.Starknet.Hash
import PythCrosschain.Starknet.ReaderOperations

/-!
# Starknet: sequences of pushes

The other pushes of `hash.cairo`. `hasher_keccak256` says that whatever was pushed, in whatever
order, the hash is that of the big-endian encodings one after the other.
-/

namespace PythCrosschain.Starknet

namespace Hasher

def pushU16 (h : Hasher) (value : ℕ) : Result Hasher := h.pushNumBytes value 2

def pushU32 (h : Hasher) (value : ℕ) : Result Hasher := h.pushNumBytes value 4

def pushU256 (h : Hasher) (value : ℕ) : Result Hasher := do
  let h ← h.pushU128 (high value)
  h.pushU128 (low value)

end Hasher

/-- A reader over a well-formed byte array, after any operations. -/
def Reader.WellFormed (r : Reader) : Prop := r.Holds r.bytes

inductive Push
  | u8 (value : BitVec 8)
  | u16 (value : BitVec 16)
  | u32 (value : BitVec 32)
  | u64 (value : BitVec 64)
  | u128 (value : BitVec 128)
  | u160 (value : BitVec 160)
  | u256 (value : BitVec 256)
  | reader (r : Reader) (wellFormed : r.WellFormed)

namespace Push

def run (h : Hasher) : Push → Result Hasher
  | .u8 value => h.pushU8 value.toNat
  | .u16 value => h.pushU16 value.toNat
  | .u32 value => h.pushU32 value.toNat
  | .u64 value => h.pushU64 value.toNat
  | .u128 value => h.pushU128 value.toNat
  | .u160 value => h.pushU160 value.toNat
  | .u256 value => h.pushU256 value.toNat
  | .reader r _ => h.pushReader r

/-- The big-endian encoding of a value, or the bytes that a reader has left. -/
def encode : Push → Bytes
  | .u8 value => packed 1 value
  | .u16 value => packed 2 value
  | .u32 value => packed 4 value
  | .u64 value => packed 8 value
  | .u128 value => packed 16 value
  | .u160 value => packed 20 value
  | .u256 value => packed 32 value
  | .reader r _ => r.bytes

end Push

def pushAll (pushes : List Push) (h : Hasher) : Result Hasher := pushes.foldlM Push.run h

/-! ## What was pushed -/

namespace Hasher

variable {h : Hasher} {bytes : Bytes}

theorem natBE_packed {w k : ℕ} (hw : w ≤ 8 * k) (value : BitVec w) :
    natBE (packed k value) = value.toNat := by
  have hpow : 2 ^ w ≤ 256 ^ k := by
    calc 2 ^ w ≤ 2 ^ (8 * k) := Nat.pow_le_pow_right (by decide) hw
      _ = 256 ^ k := by rw [Nat.pow_mul]
  rw [packed, natBE_bytesBE, Nat.mod_eq_of_lt (value.isLt.trans_le hpow)]

theorem pushNumBytes_packed {k : ℕ} (hh : h.Holds bytes) (hk : k ≤ 8) (value : BitVec (8 * k)) :
    ∃ h', h.pushNumBytes value.toNat k = .ok h' ∧ h'.Holds (bytes ++ packed k value) := by
  have hpush := pushNumBytes_natBE (packed k value) hh (by rw [length_packed]; exact hk)
  rwa [natBE_packed le_rfl, length_packed] at hpush

theorem pushU256_eq (value : Bytes) (hh : h.Holds bytes) (hvalue : value.length = 32) :
    ∃ h', h.pushU256 (natBE value) = .ok h' ∧ h'.Holds (bytes ++ value) := by
  have hhead : (value.take 16).length = 16 := by
    rw [List.length_take, hvalue]
    rfl
  have htail : (value.drop 16).length = 16 := by rw [List.length_drop, hvalue]
  have hhigh : high (natBE value) = natBE (value.take 16) := by
    rw [high, natBE_take, hvalue]
    rfl
  have hlow : low (natBE value) = natBE (value.drop 16) := by
    rw [low, natBE_drop, hvalue]
    rfl
  obtain ⟨h₁, hpush₁, hh₁⟩ := pushU128_eq (value.take 16) hh hhead
  obtain ⟨h₂, hpush₂, hh₂⟩ := pushU128_eq (value.drop 16) hh₁ htail
  rw [List.append_assoc, List.take_append_drop] at hh₂
  refine ⟨h₂, ?_, hh₂⟩
  rw [pushU256, hhigh, hpush₁, except_ok_bind, hlow, hpush₂]

/-- A push adds its encoding. -/
theorem push_eq (hh : h.Holds bytes) (push : Push) :
    ∃ h', push.run h = .ok h' ∧ h'.Holds (bytes ++ push.encode) := by
  cases push with
  | u8 value =>
    have hnum := hh.num_lt
    have hfits : (packed 1 value).length ≤ 8 - h.numLastBytes := by
      rw [length_packed]
      omega
    obtain ⟨h', hpush, hh', -⟩ := pushToLast_natBE (packed 1 value) hh hfits
    rw [natBE_packed (by decide), length_packed] at hpush
    exact ⟨h', hpush, hh'⟩
  | u16 value => exact pushNumBytes_packed (k := 2) hh (by decide) value
  | u32 value => exact pushNumBytes_packed (k := 4) hh (by decide) value
  | u64 value => exact pushNumBytes_packed (k := 8) hh (by decide) value
  | u128 value =>
    have hpush := pushU128_eq (packed 16 value) hh (length_packed 16 value)
    rwa [natBE_packed (by decide)] at hpush
  | u160 value =>
    have hpush := pushU160_eq (packed 20 value) hh (length_packed 20 value)
    rwa [natBE_packed (by decide)] at hpush
  | u256 value =>
    have hpush := pushU256_eq (packed 32 value) hh (length_packed 32 value)
    rwa [natBE_packed (by decide)] at hpush
  | reader r wellFormed => exact pushReader_eq hh wellFormed

/-- Pushes add their encodings, one after the other. -/
theorem pushAll_eq (pushes : List Push) (hh : h.Holds bytes) :
    ∃ h', pushAll pushes h = .ok h' ∧ h'.Holds (bytes ++ pushes.flatMap Push.encode) := by
  unfold pushAll
  induction pushes generalizing h bytes with
  | nil =>
    refine ⟨h, rfl, ?_⟩
    rw [List.flatMap_nil, List.append_nil]
    exact hh
  | cons push pushes ih =>
    obtain ⟨h₁, hpush, hh₁⟩ := push_eq hh push
    obtain ⟨h', hrest, hh'⟩ := ih hh₁
    refine ⟨h', ?_, ?_⟩
    · rw [List.foldlM_cons, hpush, except_ok_bind, hrest]
    · rw [List.flatMap_cons, ← List.append_assoc]
      exact hh'

end Hasher

/-- **The hasher is Keccak-256** of the encodings of all that was pushed. -/
theorem hasher_keccak256 (keccak256 : Bytes → Bytes32) (pushes : List Push) :
    ∃ h, pushAll pushes Hasher.new = .ok h ∧
      h.finalize keccak256 = .ok (keccak256 (pushes.flatMap Push.encode)).toNat := by
  obtain ⟨h, hpush, hh⟩ := Hasher.pushAll_eq pushes Hasher.holds_new
  rw [List.nil_append] at hh
  exact ⟨h, hpush, Hasher.finalize_eq hh⟩

end PythCrosschain.Starknet
