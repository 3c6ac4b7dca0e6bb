import PythCrosschain.Evm.Solidity
import PythCrosschain.Starknet.Reader

/-!
# Starknet: `hash.cairo`

A buffer of little-endian words of 64 bits, and up to seven bytes that do not fill a word yet.
`Hasher.Holds` says which bytes were pushed, and `finalize_eq` that their Keccak-256 comes out.
-/

namespace PythCrosschain.Starknet

/-- `one_shift_left_bytes_u64`. -/
def oneShiftLeftBytesU64 (nBytes : ℕ) : Result ℕ :=
  if nBytes < 8 then .ok (256 ^ nBytes) else .error .nBytesTooBig

def u128ByteReverse (value : ℕ) : ℕ := natLE (bytesBE 16 value)

def u64ByteReverse (value : ℕ) : ℕ := u128ByteReverse value / 2 ^ 64

structure Hasher where
  inputsLe : List ℕ
  lastBe : ℕ
  numLastBytes : ℕ
deriving DecidableEq, Repr

namespace Hasher

def new : Hasher := ⟨[], 0, 0⟩

/-- The assertion that a value has at most `numBytes` bytes. -/
def assertFits (value numBytes : ℕ) : Result Unit :=
  if numBytes = 8 then .ok ()
  else do
    let shift ← oneShiftLeftBytesU64 numBytes
    assert (value / shift = 0)

/-- The bytes in `last_be` with more bytes behind them. -/
def extendLast (lastBe value numBytes : ℕ) : Result ℕ :=
  if numBytes = 8 then .ok value
  else do
    let shift ← oneShiftLeftBytesU64 numBytes
    checked 64 (lastBe * shift + value)

def pushToLast (h : Hasher) (value numBytes : ℕ) : Result Hasher := do
  assert (numBytes ≤ 8 - h.numLastBytes)
  assertFits value numBytes
  let lastBe ← extendLast h.lastBe value numBytes
  let numLastBytes := h.numLastBytes + numBytes
  if numLastBytes = 8 then return ⟨h.inputsLe ++ [u64ByteReverse lastBe], 0, 0⟩
  else return ⟨h.inputsLe, lastBe, numLastBytes⟩

def pushNumBytes (h : Hasher) (value numBytes : ℕ) : Result Hasher := do
  assert (numBytes ≤ 8)
  assertFits value numBytes
  let numHighBytes := min numBytes (8 - h.numLastBytes)
  let numLowBytes := numBytes - numHighBytes
  let divisor ← oneShiftLeftBytesU64 numLowBytes
  let h ← h.pushToLast (value / divisor) numHighBytes
  h.pushToLast (value % divisor) numLowBytes

def pushU8 (h : Hasher) (value : ℕ) : Result Hasher := h.pushToLast value 1

def pushU64 (h : Hasher) (value : ℕ) : Result Hasher := h.pushNumBytes value 8

def pushU128 (h : Hasher) (value : ℕ) : Result Hasher := do
  let h ← h.pushU64 (value / 2 ^ 64)
  h.pushU64 (value % 2 ^ 64)

def pushU160 (h : Hasher) (value : ℕ) : Result Hasher := do
  assert (value / 2 ^ 160 = 0)
  let high ← checked 64 (high value)
  let h ← h.pushNumBytes high 4
  h.pushU128 (low value)

/-- The loop of `push_reader`, for at most `fuel` chunks. -/
def pushReaderFrom : ℕ → Hasher → Reader → Result Hasher
  | 0, h, _ => .ok h
  | fuel + 1, h, reader =>
    if reader.len > 0 then do
      let chunkLen := min reader.len (8 - h.numLastBytes)
      let (value, reader) ← reader.readNumBytes chunkLen
      let value ← checked 64 value
      let h ← h.pushToLast value chunkLen
      pushReaderFrom fuel h reader
    else .ok h

/-- A chunk has at least a byte. -/
def pushReader (h : Hasher) (reader : Reader) : Result Hasher := pushReaderFrom reader.len h reader

section

variable (keccak256 : Bytes → Bytes32)

/-- The system call: little-endian words in, a little-endian number out. -/
def cairoKeccak (inputs : List ℕ) (lastInputWord lastInputNumBytes : ℕ) : ℕ :=
  natLE (wordBytes
    (keccak256 (inputs.flatMap (bytesLE 8) ++ bytesLE lastInputNumBytes lastInputWord)))

/-- `last_be` as a little-endian number. -/
def lastLe (h : Hasher) : Result ℕ :=
  if h.numLastBytes = 0 then .ok 0
  else do
    let shift ← oneShiftLeftBytesU64 (8 - h.numLastBytes)
    return u64ByteReverse h.lastBe / shift

def finalize (h : Hasher) : Result ℕ := do
  let lastLe ← h.lastLe
  let hashLe := cairoKeccak keccak256 h.inputsLe lastLe h.numLastBytes
  return u128ByteReverse (low hashLe) * 2 ^ 128 + u128ByteReverse (high hashLe)

end

/-! ## Reversed bytes -/

theorem natBE_replicate_append (k : ℕ) (bytes : Bytes) :
    natBE (List.replicate k 0 ++ bytes) = natBE bytes := by
  induction k with
  | zero => rfl
  | succ k ih =>
    rw [List.replicate_succ, List.cons_append, natBE, ih]
    exact (congrArg (· + _) (Nat.zero_mul _)).trans (Nat.zero_add _)

theorem bytesBE_natBE_of_le {k : ℕ} {bytes : Bytes} (h : bytes.length ≤ k) :
    bytesBE k (natBE bytes) = List.replicate (k - bytes.length) 0 ++ bytes := by
  have hlen : (List.replicate (k - bytes.length) (0 : UInt8) ++ bytes).length = k := by
    rw [List.length_append, List.length_replicate]
    omega
  have hwrite := bytesBE_natBE (List.replicate (k - bytes.length) (0 : UInt8) ++ bytes)
  rwa [hlen, natBE_replicate_append] at hwrite

theorem natLE_replicate_append (k : ℕ) (bytes : Bytes) :
    natLE (List.replicate k 0 ++ bytes) = natLE bytes * 256 ^ k := by
  have hzero : natBE (List.replicate k 0) = 0 := by
    have h := natBE_replicate_append k []
    rwa [List.append_nil] at h
  rw [natLE, List.reverse_append, List.reverse_replicate, natBE_append, hzero,
    List.length_replicate, Nat.add_zero, natLE]

theorem u128ByteReverse_natBE {bytes : Bytes} (h : bytes.length ≤ 16) :
    u128ByteReverse (natBE bytes) = natLE bytes * 256 ^ (16 - bytes.length) := by
  rw [u128ByteReverse, bytesBE_natBE_of_le h, natLE_replicate_append]

theorem u64ByteReverse_natBE {bytes : Bytes} (h : bytes.length ≤ 8) :
    u64ByteReverse (natBE bytes) = natLE bytes * 256 ^ (8 - bytes.length) := by
  have hpow : 256 ^ (16 - bytes.length) = 256 ^ (8 - bytes.length) * 2 ^ 64 := by
    rw [show 16 - bytes.length = 8 - bytes.length + 8 by omega, Nat.pow_add]
    rfl
  rw [u64ByteReverse, u128ByteReverse_natBE (by omega), hpow, ← Nat.mul_assoc,
    Nat.mul_div_cancel _ (Nat.two_pow_pos 64)]

theorem u128ByteReverse_natLE {bytes : Bytes} (h : bytes.length = 16) :
    u128ByteReverse (natLE bytes) = natBE bytes := by
  have hreverse : bytes.reverse.length = 16 := by rw [List.length_reverse, h]
  rw [natLE, u128ByteReverse_natBE hreverse.le, natLE, List.reverse_reverse, hreverse]
  exact Nat.mul_one _

/-- Reversing both halves of a little-endian number gives the big-endian one. -/
theorem reverse_natLE {bytes : Bytes} (h : bytes.length = 32) :
    u128ByteReverse (low (natLE bytes)) * 2 ^ 128 + u128ByteReverse (high (natLE bytes))
      = natBE bytes := by
  have hfirst : (bytes.take 16).length = 16 := by
    rw [List.length_take, h]
    rfl
  have hsecond : (bytes.drop 16).length = 16 := by rw [List.length_drop, h]
  have hsplit : natLE bytes = natLE (bytes.drop 16) * 2 ^ 128 + natLE (bytes.take 16) := by
    conv_lhs => rw [← List.take_append_drop 16 bytes]
    rw [natLE, List.reverse_append, natBE_append, List.length_reverse, hfirst]
    rfl
  have hlt : natLE (bytes.take 16) < 2 ^ 128 := by
    have hlt := natLE_lt (bytes.take 16)
    rwa [hfirst] at hlt
  have hlow : low (natLE bytes) = natLE (bytes.take 16) := by
    rw [low, hsplit, Nat.add_comm, Nat.add_mul_mod_self_right, Nat.mod_eq_of_lt hlt]
  have hhigh : high (natLE bytes) = natLE (bytes.drop 16) := by
    rw [high, hsplit, Nat.add_comm, Nat.add_mul_div_right _ _ (Nat.two_pow_pos 128),
      Nat.div_eq_of_lt hlt, Nat.zero_add]
  rw [hlow, hhigh, u128ByteReverse_natLE hfirst, u128ByteReverse_natLE hsecond]
  conv_rhs => rw [← List.take_append_drop 16 bytes]
  rw [natBE_append, hsecond]
  rfl

/-! ## What was pushed -/

/-- The hasher was given these bytes. -/
structure Holds (h : Hasher) (bytes : Bytes) : Prop where
  num_lt : h.numLastBytes < 8
  parts : ∃ last : Bytes, last.length = h.numLastBytes ∧ natBE last = h.lastBe ∧
    bytes = h.inputsLe.flatMap (bytesLE 8) ++ last

theorem holds_new : new.Holds [] :=
  ⟨by decide, [], rfl, rfl, rfl⟩

theorem assertFits_natBE (value : Bytes) (h : value.length ≤ 8) :
    assertFits (natBE value) value.length = .ok () := by
  rw [assertFits]
  split
  · rfl
  · next hshort =>
    rw [oneShiftLeftBytesU64, if_pos (by omega), except_ok_bind, assert,
      if_pos (Nat.div_eq_of_lt (natBE_lt value))]

theorem extendLast_natBE {last value : Bytes} (h : last.length + value.length ≤ 8) :
    extendLast (natBE last) (natBE value) value.length = .ok (natBE (last ++ value)) := by
  rw [extendLast, natBE_append]
  split
  · next hwhole =>
    obtain rfl : last = [] := List.length_eq_zero_iff.mp (by omega)
    rw [natBE, Nat.zero_mul, Nat.zero_add]
  · next hshort =>
    have hlt := natBE_lt (last ++ value)
    rw [natBE_append, List.length_append] at hlt
    rw [oneShiftLeftBytesU64, if_pos (by omega), except_ok_bind, checked, if_pos]
    exact lt_of_lt_of_le hlt ((Nat.pow_le_pow_right (by decide) h).trans (by decide))

theorem pushToLast_natBE {h : Hasher} {bytes : Bytes} (value : Bytes) (hh : h.Holds bytes)
    (hle : value.length ≤ 8 - h.numLastBytes) :
    ∃ h', h.pushToLast (natBE value) value.length = .ok h' ∧ h'.Holds (bytes ++ value) ∧
      h'.numLastBytes = (h.numLastBytes + value.length) % 8 := by
  obtain ⟨hnum, last, hlast, hbe, rfl⟩ := hh
  have hfits : last.length + value.length ≤ 8 := by omega
  rw [pushToLast, assert, if_pos hle, except_ok_bind, assertFits_natBE value (by omega),
    except_ok_bind, ← hbe, extendLast_natBE hfits, except_ok_bind]
  dsimp only
  by_cases hfull : h.numLastBytes + value.length = 8
  · have hword : (last ++ value).length = 8 := by
      rw [List.length_append]
      omega
    refine ⟨_, by rw [if_pos hfull]; rfl, ⟨Nat.zero_lt_succ 7, [], rfl, rfl, ?_⟩, by rw [hfull]⟩
    have hreverse : bytesLE 8 (u64ByteReverse (natBE (last ++ value))) = last ++ value := by
      rw [u64ByteReverse_natBE hword.le, hword, Nat.sub_self, Nat.pow_zero, Nat.mul_one]
      have hwrite := bytesLE_natLE (last ++ value)
      rwa [hword] at hwrite
    rw [List.flatMap_append, List.flatMap_singleton, hreverse, List.append_nil, List.append_assoc]
  · have hlt : h.numLastBytes + value.length < 8 := by omega
    refine ⟨_, by rw [if_neg hfull]; rfl, ⟨hlt, last ++ value, ?_, rfl, ?_⟩,
      (Nat.mod_eq_of_lt hlt).symm⟩
    · rw [List.length_append, hlast]
    · rw [List.append_assoc]

theorem pushNumBytes_natBE {h : Hasher} {bytes : Bytes} (value : Bytes) (hh : h.Holds bytes)
    (hle : value.length ≤ 8) :
    ∃ h', h.pushNumBytes (natBE value) value.length = .ok h' ∧ h'.Holds (bytes ++ value) := by
  have hnum := hh.num_lt
  have hlow : value.length - min value.length (8 - h.numLastBytes) < 8 := by omega
  have hhead : (value.take (min value.length (8 - h.numLastBytes))).length
      = min value.length (8 - h.numLastBytes) := List.length_take_of_le (Nat.min_le_left _ _)
  have htail : (value.drop (min value.length (8 - h.numLastBytes))).length
      = value.length - min value.length (8 - h.numLastBytes) := List.length_drop
  have hdiv : natBE value / 256 ^ (value.length - min value.length (8 - h.numLastBytes))
      = natBE (value.take (min value.length (8 - h.numLastBytes))) := by
    rw [natBE_take]
  have hmod : natBE value % 256 ^ (value.length - min value.length (8 - h.numLastBytes))
      = natBE (value.drop (min value.length (8 - h.numLastBytes))) := by
    rw [natBE_drop]
  obtain ⟨h₁, hpush₁, hh₁, hnum₁⟩ := pushToLast_natBE
    (value.take (min value.length (8 - h.numLastBytes))) hh (by rw [hhead]; omega)
  rw [hhead] at hpush₁ hnum₁
  obtain ⟨h₂, hpush₂, hh₂, -⟩ := pushToLast_natBE
    (value.drop (min value.length (8 - h.numLastBytes))) hh₁ (by rw [htail]; omega)
  rw [htail] at hpush₂
  rw [List.append_assoc, List.take_append_drop] at hh₂
  refine ⟨h₂, ?_, hh₂⟩
  rw [pushNumBytes, assert, if_pos hle, except_ok_bind, assertFits_natBE value hle, except_ok_bind]
  dsimp only
  rw [oneShiftLeftBytesU64, if_pos hlow, except_ok_bind, hdiv, hpush₁, except_ok_bind, hmod, hpush₂]

theorem pushU8_eq {h : Hasher} {bytes : Bytes} (hh : h.Holds bytes) (b : UInt8) :
    ∃ h', h.pushU8 b.toNat = .ok h' ∧ h'.Holds (bytes ++ [b]) := by
  have hnum := hh.num_lt
  have hb : natBE [b] = b.toNat := by
    rw [natBE, natBE, List.length_nil, Nat.pow_zero, Nat.mul_one, Nat.add_zero]
  obtain ⟨h', hpush, hh', -⟩ := pushToLast_natBE ([b]) hh
    (by rw [List.length_singleton]; omega)
  rw [hb] at hpush
  exact ⟨h', hpush, hh'⟩

theorem pushU128_eq {h : Hasher} {bytes : Bytes} (value : Bytes) (hh : h.Holds bytes)
    (hvalue : value.length = 16) :
    ∃ h', h.pushU128 (natBE value) = .ok h' ∧ h'.Holds (bytes ++ value) := by
  have hhead : (value.take 8).length = 8 := by
    rw [List.length_take, hvalue]
    rfl
  have htail : (value.drop 8).length = 8 := by rw [List.length_drop, hvalue]
  have hdiv : natBE value / 2 ^ 64 = natBE (value.take 8) := by
    rw [natBE_take, hvalue]
    rfl
  have hmod : natBE value % 2 ^ 64 = natBE (value.drop 8) := by
    rw [natBE_drop, hvalue]
    rfl
  obtain ⟨h₁, hpush₁, hh₁⟩ := pushNumBytes_natBE (value.take 8) hh hhead.le
  obtain ⟨h₂, hpush₂, hh₂⟩ := pushNumBytes_natBE (value.drop 8) hh₁ htail.le
  rw [hhead] at hpush₁
  rw [htail] at hpush₂
  rw [List.append_assoc, List.take_append_drop] at hh₂
  refine ⟨h₂, ?_, hh₂⟩
  rw [pushU128, pushU64, hdiv, hpush₁, except_ok_bind, pushU64, hmod, hpush₂]

theorem pushU160_eq {h : Hasher} {bytes : Bytes} (value : Bytes) (hh : h.Holds bytes)
    (hvalue : value.length = 20) :
    ∃ h', h.pushU160 (natBE value) = .ok h' ∧ h'.Holds (bytes ++ value) := by
  have hhead : (value.take 4).length = 4 := by
    rw [List.length_take, hvalue]
    rfl
  have htail : (value.drop 4).length = 16 := by rw [List.length_drop, hvalue]
  have hfits : natBE value < 2 ^ 160 := by
    have hlt := natBE_lt value
    rwa [hvalue] at hlt
  have hhigh : high (natBE value) = natBE (value.take 4) := by
    rw [high, natBE_take, hvalue]
    rfl
  have hlow : low (natBE value) = natBE (value.drop 4) := by
    rw [low, natBE_drop, hvalue]
    rfl
  have hhighlt : natBE (value.take 4) < 2 ^ 64 := by
    have hlt := natBE_lt (value.take 4)
    rw [hhead] at hlt
    exact hlt.trans (by decide)
  obtain ⟨h₁, hpush₁, hh₁⟩ := pushNumBytes_natBE (value.take 4) hh (by omega)
  obtain ⟨h₂, hpush₂, hh₂⟩ := pushU128_eq (value.drop 4) hh₁ htail
  rw [hhead] at hpush₁
  rw [List.append_assoc, List.take_append_drop] at hh₂
  refine ⟨h₂, ?_, hh₂⟩
  rw [pushU160, assert, if_pos (Nat.div_eq_of_lt hfits), except_ok_bind, hhigh, checked,
    if_pos hhighlt, except_ok_bind, hpush₁, except_ok_bind, hlow, hpush₂]

theorem pushReaderFrom_eq {fuel : ℕ} {h : Hasher} {reader : Reader} {bytes message : Bytes}
    (hh : h.Holds bytes) (hreader : reader.Holds message) (hfuel : message.length ≤ fuel) :
    ∃ h', pushReaderFrom fuel h reader = .ok h' ∧ h'.Holds (bytes ++ message) := by
  induction fuel generalizing h reader bytes message with
  | zero =>
    obtain rfl : message = [] := List.length_eq_zero_iff.mp (Nat.le_zero.mp hfuel)
    exact ⟨h, rfl, (List.append_nil bytes).symm ▸ hh⟩
  | succ fuel ih =>
    have hnum := hh.num_lt
    rw [pushReaderFrom, hreader.len_eq]
    by_cases hpos : 0 < message.length
    · have hchunk : min message.length (8 - h.numLastBytes) ≤ message.length :=
        Nat.min_le_left _ _
      obtain ⟨reader', hread, hreader'⟩ := (Reader.readNumBytes_reads hreader
        (n := min message.length (8 - h.numLastBytes)) (by omega)).ok hchunk
      have htake := List.length_take_of_le hchunk
      obtain ⟨h₁, hpush, hh₁, -⟩ := pushToLast_natBE
        (message.take (min message.length (8 - h.numLastBytes))) hh
        (by rw [htake]; exact Nat.min_le_right _ _)
      have hfits : natBE (message.take (min message.length (8 - h.numLastBytes))) < 2 ^ 64 := by
        have hlt := natBE_lt (message.take (min message.length (8 - h.numLastBytes)))
        rw [htake] at hlt
        refine lt_of_lt_of_le hlt ?_
        exact (Nat.pow_le_pow_right (by decide) (show _ ≤ 8 by omega)).trans (by decide)
      rw [htake] at hpush
      obtain ⟨h', hrest, hh'⟩ := ih hh₁ hreader' (by rw [List.length_drop]; omega)
      rw [List.append_assoc, List.take_append_drop] at hh'
      refine ⟨h', ?_, hh'⟩
      rw [if_pos hpos]
      dsimp only
      rw [hread, except_ok_bind]
      dsimp only
      rw [checked, if_pos hfits, except_ok_bind, hpush, except_ok_bind, hrest]
    · obtain rfl : message = [] := List.length_eq_zero_iff.mp (by omega)
      rw [if_neg hpos]
      exact ⟨h, rfl, (List.append_nil bytes).symm ▸ hh⟩

theorem pushReader_eq {h : Hasher} {reader : Reader} {bytes message : Bytes} (hh : h.Holds bytes)
    (hreader : reader.Holds message) :
    ∃ h', h.pushReader reader = .ok h' ∧ h'.Holds (bytes ++ message) :=
  pushReaderFrom_eq hh hreader hreader.len_eq.ge

theorem lastLe_eq {h : Hasher} {last : Bytes} (hnum : h.numLastBytes < 8)
    (hlast : last.length = h.numLastBytes) (hbe : natBE last = h.lastBe) :
    h.lastLe = .ok (natLE last) := by
  rw [lastLe]
  split
  · next hzero =>
    obtain rfl : last = [] := List.length_eq_zero_iff.mp (hlast.trans hzero)
    rfl
  · next hpos =>
    rw [oneShiftLeftBytesU64, if_pos (by omega), except_ok_bind, ← hbe,
      u64ByteReverse_natBE (by omega), hlast, Nat.mul_div_cancel _ (Nat.pow_pos (by decide))]
    rfl

/-- **The hash of what was pushed.** -/
theorem finalize_eq {keccak256 : Bytes → Bytes32} {h : Hasher} {bytes : Bytes}
    (hh : h.Holds bytes) : h.finalize keccak256 = .ok (keccak256 bytes).toNat := by
  obtain ⟨hnum, last, hlast, hbe, rfl⟩ := hh
  have hword : natBE (wordBytes (keccak256 (h.inputsLe.flatMap (bytesLE 8) ++ last)))
      = (keccak256 (h.inputsLe.flatMap (bytesLE 8) ++ last)).toNat := by
    rw [wordBytes, packed, natBE_bytesBE]
    exact Nat.mod_eq_of_lt (BitVec.isLt _)
  rw [finalize, lastLe_eq hnum hlast hbe, except_ok_bind]
  dsimp only
  rw [cairoKeccak, ← hlast, bytesLE_natLE, reverse_natLE (length_packed 32 _), hword]
  rfl

end Hasher

end PythCrosschain.Starknet
