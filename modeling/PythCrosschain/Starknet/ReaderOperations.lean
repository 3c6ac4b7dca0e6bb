import PythCrosschain.Starknet.Reader

/-!
# Starknet: the operations of a reader

The other operations of `reader.cairo`, and sequences of operations on the reader of a byte array
(`Refines`), compared with the string of its bytes. `read_byte_array` reads 31 bytes at a time, and
takes an empty last item where nothing is left; `ByteBuffer::new` refuses an empty item.

- `readByteArray_eq`: a byte array is read unless its length is a multiple of 31;
- `reader_refines_iff`: a sequence of operations refines the string exactly where it reads no such
  byte array.
-/

namespace PythCrosschain.Starknet

/-- The modulus of `felt252`. -/
def FELT_PRIME : ℕ := 2 ^ 251 + 17 * 2 ^ 192 + 1

/-- A conversion into `felt252`. -/
def toFelt (value : ℕ) : Result ℕ :=
  if value < FELT_PRIME then .ok value else .error .unexpectedOverflow

/-- `one_shift_left_bytes_u256`. -/
def oneShiftLeftBytesU256 (nBytes : ℕ) : Result ℕ :=
  if nBytes < 32 then .ok (256 ^ nBytes) else .error .nBytesTooBig

/-- `ByteBufferImpl::new`. -/
def ByteBuffer.new (data : List ℕ) (numLastBytes : ℕ) : Result ByteBuffer :=
  match data.getLast? with
  | none => do
    assert (numLastBytes = 0)
    return ⟨numLastBytes, data⟩
  | some last => do
    assert (numLastBytes > 0)
    assert (numLastBytes ≤ 31)
    let shift ← oneShiftLeftBytesU256 numLastBytes
    assert (last / shift = 0)
    return ⟨numLastBytes, data⟩

namespace Reader

/-! ## The operations -/

def readU128 (r : Reader) : Result (ℕ × Reader) := readNumBytes 16 r

/-- The loop of `skip`, for at most `fuel` rounds. -/
def skipFrom : ℕ → ℕ → Reader → Result Reader
  | 0, _, _ => .error .unexpectedEndOfInput
  | fuel + 1, numBytes, r =>
    if numBytes > 0 then
      if numBytes > 16 then do
        let (_, r) ← readNumBytes 16 r
        skipFrom fuel (numBytes - 16) r
      else do
        let numBytes ← checked 8 numBytes
        let (_, r) ← readNumBytes numBytes r
        return r
    else .ok r

/-- A round of `skip` takes 16 bytes or is the last. -/
def skip (numBytes : ℕ) (r : Reader) : Result Reader := skipFrom (numBytes / 16 + 1) numBytes r

/-- `read_bytes_iteration`: the number of bytes read, whether it was the last iteration, the item
that it appends, and the reader. -/
def readBytesIteration (numBytes : ℕ) (r : Reader) : Result ((ℕ × Bool) × ℕ × Reader) :=
  if numBytes ≥ 31 then do
    let (high, r) ← readNumBytes 15 r
    let (low, r) ← readNumBytes 16 r
    let value ← toFelt (high * 2 ^ 128 + low)
    return ((31, false), value, r)
  else if numBytes > 16 then do
    let numHighBytes ← checked 8 (numBytes - 16)
    let (high, r) ← readNumBytes numHighBytes r
    let (low, r) ← readNumBytes 16 r
    let value ← toFelt (high * 2 ^ 128 + low)
    return ((numBytes, true), value, r)
  else do
    let numLowBytes ← checked 8 numBytes
    let (low, r) ← readNumBytes numLowBytes r
    let value ← toFelt low
    return ((numBytes, true), value, r)

/-- The loop of `read_byte_array`, for at most `fuel` iterations: the items, and the number of bytes
of the last one. -/
def readBytesFrom : ℕ → ℕ → List ℕ → Reader → Result ((List ℕ × ℕ) × Reader)
  | 0, _, _, _ => .error .unexpectedEndOfInput
  | fuel + 1, numRemainingBytes, array, r => do
    let ((numRead, eof), value, r) ← readBytesIteration numRemainingBytes r
    if eof then return ((array ++ [value], numRead), r)
    else readBytesFrom fuel (numRemainingBytes - numRead) (array ++ [value]) r

/-- An iteration takes 31 bytes or is the last. -/
def readByteArray (numBytes : ℕ) (r : Reader) : Result (ByteBuffer × Reader) := do
  let ((array, numLastBytes), r) ← readBytesFrom (numBytes / 31 + 1) numBytes [] r
  let numLastBytes ← checked 8 numLastBytes
  let array ← ByteBuffer.new array numLastBytes
  return (array, r)

end Reader

/-! ## Sequences of operations -/

inductive Operation
  | readNumBytes (numBytes : Fin 17)
  | readU8
  | readU16
  | readU32
  | readU64
  | readU128
  | readU160
  | readU256
  | skip (numBytes : ℕ)
  | readByteArray (numBytes : ℕ)
  | len
deriving DecidableEq

inductive Output
  | number (value : ℕ)
  | buffer (array : ByteBuffer)
  | nothing
deriving DecidableEq

namespace Operation

def run (r : Reader) : Operation → Result (Output × Reader)
  | .readNumBytes numBytes => do
    let (value, r) ← r.readNumBytes numBytes
    return (.number value, r)
  | .readU8 => do
    let (value, r) ← r.readU8
    return (.number value, r)
  | .readU16 => do
    let (value, r) ← r.readU16
    return (.number value, r)
  | .readU32 => do
    let (value, r) ← r.readU32
    return (.number value, r)
  | .readU64 => do
    let (value, r) ← r.readU64
    return (.number value, r)
  | .readU128 => do
    let (value, r) ← r.readU128
    return (.number value, r)
  | .readU160 => do
    let (value, r) ← r.readU160
    return (.number value, r)
  | .readU256 => do
    let (value, r) ← r.readU256
    return (.number value, r)
  | .skip numBytes => do
    let r ← r.skip numBytes
    return (.nothing, r)
  | .readByteArray numBytes => do
    let (array, r) ← r.readByteArray numBytes
    return (.buffer array, r)
  | .len => return (.number r.len, r)

/-- The number of bytes that an operation takes. -/
def size : Operation → ℕ
  | .readNumBytes numBytes => numBytes
  | .readU8 => 1
  | .readU16 => 2
  | .readU32 => 4
  | .readU64 => 8
  | .readU128 => 16
  | .readU160 => 20
  | .readU256 => 32
  | .skip numBytes => numBytes
  | .readByteArray numBytes => numBytes
  | .len => 0

/-- What an operation gives on a string of bytes. -/
def Answers (bytes : Bytes) : Operation → Output → Prop
  | .skip _, out => out = .nothing
  | .readByteArray numBytes, out =>
    ∃ array : ByteBuffer, out = .buffer array ∧ array.Holds (bytes.take numBytes)
  | .len, out => out = .number bytes.length
  | op, out => out = .number (natBE (bytes.take op.size))

end Operation

/-- The operations take their bytes from the front of the string, and fail where there are too
few. -/
def Refines : List Operation → Reader → Bytes → Prop
  | [], _, _ => True
  | op :: ops, r, bytes =>
    if op.size ≤ bytes.length then
      ∃ out r', op.run r = .ok (out, r') ∧ op.Answers bytes out ∧
        Refines ops r' (bytes.drop op.size)
    else ∃ e, op.run r = .error e

/-- No byte array is read whose length is a multiple of 31, unless there are too few bytes. -/
def ReadsNoWholeItems : List Operation → Bytes → Prop
  | [], _ => True
  | op :: ops, bytes =>
    op.size ≤ bytes.length →
      (∀ numBytes, op = .readByteArray numBytes → ¬31 ∣ numBytes) ∧
        ReadsNoWholeItems ops (bytes.drop op.size)

/-- The last item has the bytes that `ByteBuffer::new` demands, the others 31. -/
structure ByteBuffer.WellFormed (array : ByteBuffer) : Prop where
  empty : array.data = [] → array.numLastBytes = 0
  last : ∀ item ∈ array.data.getLast?,
    0 < array.numLastBytes ∧ array.numLastBytes ≤ 31 ∧ item < 256 ^ array.numLastBytes
  items : ∀ item ∈ array.data.dropLast, item < 256 ^ 31

/-! ## Byte arrays -/

namespace ByteBuffer

/-- A well-formed array has its bytes. -/
theorem WellFormed.holds {array : ByteBuffer} (h : array.WellFormed) : array.Holds array.bytes := by
  obtain ⟨numLastBytes, data⟩ := array
  induction data with
  | nil =>
    obtain rfl : numLastBytes = 0 := h.empty rfl
    rw [bytes]
    exact .nil
  | cons item data ih =>
    cases data with
    | nil =>
      obtain ⟨hpos, hle, hlt⟩ := h.last item rfl
      have hlength : (bytesBE numLastBytes item).length = numLastBytes := length_bytesBE _ _
      have hitem : natBE (bytesBE numLastBytes item) = item := by
        rw [natBE_bytesBE, Nat.mod_eq_of_lt hlt]
      have hlast := Holds.last (List.ne_nil_of_length_pos (hpos.trans_eq hlength.symm))
        (hlength.trans_le hle)
      rw [hlength, hitem] at hlast
      rw [bytes]
      exact hlast
    | cons item' data =>
      have hitem : natBE (bytesBE 31 item) = item := by
        rw [natBE_bytesBE, Nat.mod_eq_of_lt (h.items item List.mem_cons_self)]
      have htail : WellFormed ⟨numLastBytes, item' :: data⟩ := by
        refine ⟨?_, fun last hlast => h.last last ?_, fun i hi => h.items i ?_⟩
        · intro hnil
          cases hnil
        · rw [List.getLast?_cons_cons]
          exact hlast
        · exact List.mem_cons_of_mem _ hi
      have hcons := Holds.cons (length_bytesBE 31 item) (ih htail)
      rw [hitem] at hcons
      rw [bytes]
      exact hcons

/-- A well-formed array passes the assertions. -/
theorem Holds.new_eq {array : ByteBuffer} {bytes : Bytes} (h : array.Holds bytes) :
    ByteBuffer.new array.data array.numLastBytes = .ok array := by
  induction h with
  | nil => rfl
  | @last bytes hne hle =>
    have hpos : 0 < bytes.length := List.length_pos_iff.mpr hne
    have hfits : natBE bytes / 256 ^ bytes.length = 0 := Nat.div_eq_of_lt (natBE_lt bytes)
    unfold ByteBuffer.new
    simp only [List.getLast?_singleton]
    rw [assert, if_pos hpos, except_ok_bind, assert, if_pos hle, except_ok_bind,
      oneShiftLeftBytesU256, if_pos (Nat.lt_succ_of_le hle), except_ok_bind, assert, if_pos hfits]
    rfl
  | @cons numLastBytes item data bytes rest hlen hrest ih =>
    unfold ByteBuffer.new at ih ⊢
    rw [List.getLast?_cons_cons]
    cases hlast : (item :: data).getLast? with
    | none => cases List.getLast?_eq_none_iff.mp hlast
    | some last =>
      simp only [hlast, except_bind_eq_ok] at ih ⊢
      obtain ⟨_, hpos, _, hle, shift, hshift, _, hfits, -⟩ := ih
      exact ⟨_, hpos, _, hle, shift, hshift, _, hfits, rfl⟩

/-- An empty last item is refused. -/
theorem new_zero {data : List ℕ} (h : data ≠ []) : ByteBuffer.new data 0 = .error .assertion := by
  unfold ByteBuffer.new
  cases hlast : data.getLast? with
  | none => exact absurd (List.getLast?_eq_none_iff.mp hlast) h
  | some last => rfl

end ByteBuffer

namespace Reader

variable {r : Reader} {bytes : Bytes}

/-! ## Skipping -/

theorem skipFrom_eq {fuel n : ℕ} (h : r.Holds bytes) (hfuel : n / 16 < fuel) :
    if n ≤ bytes.length then ∃ r', skipFrom fuel n r = .ok r' ∧ r'.Holds (bytes.drop n)
    else skipFrom fuel n r = .error .unexpectedEndOfInput := by
  induction fuel generalizing r bytes n with
  | zero => exact absurd hfuel (Nat.not_lt_zero _)
  | succ fuel ih =>
    rw [skipFrom]
    by_cases hpos : n > 0
    · rw [if_pos hpos]
      by_cases hlong : n > 16
      · rw [if_pos hlong]
        have hread := readNumBytes_reads h (le_refl 16)
        by_cases hle : 16 ≤ bytes.length
        · obtain ⟨r₁, hread, h₁⟩ := hread.ok hle
          have hrest := ih h₁ (show (n - 16) / 16 < fuel by omega)
          rw [List.length_drop, List.drop_drop, Nat.add_sub_cancel' hlong.le] at hrest
          rw [hread, except_ok_bind]
          by_cases hall : n ≤ bytes.length
          · rw [if_pos hall]
            rwa [if_pos (by omega)] at hrest
          · rw [if_neg hall]
            rwa [if_neg (by omega)] at hrest
        · rw [if_neg (by omega), hread.error (Nat.not_le.mp hle)]
          rfl
      · have hn : n ≤ 16 := Nat.not_lt.mp hlong
        have hfits : n < 2 ^ 8 := by omega
        have hread := readNumBytes_reads h hn
        rw [if_neg hlong, checked, if_pos hfits, except_ok_bind]
        by_cases hall : n ≤ bytes.length
        · obtain ⟨r', hread, h'⟩ := hread.ok hall
          rw [if_pos hall, hread]
          exact ⟨r', rfl, h'⟩
        · rw [if_neg hall, hread.error (Nat.not_le.mp hall)]
          rfl
    · obtain rfl : n = 0 := Nat.eq_zero_of_not_pos hpos
      rw [if_neg hpos, if_pos (Nat.zero_le _)]
      exact ⟨r, rfl, h⟩

/-! ## Reading a byte array -/

/-- A number of at most 31 bytes is a field element. -/
theorem toFelt_natBE (h : bytes.length ≤ 31) : toFelt (natBE bytes) = .ok (natBE bytes) := by
  have hpow : 256 ^ bytes.length ≤ 256 ^ 31 := Nat.pow_le_pow_right (by decide) h
  have hprime : 256 ^ 31 < FELT_PRIME := by decide
  exact if_pos ((natBE_lt bytes).trans_le (hpow.trans hprime.le))

/-- A number in two halves, as a field element. -/
theorem readHalves_felt {α : Type} (h : r.Holds bytes) {a : ℕ} (ha : a ≤ 15)
    (k : ℕ → Reader → Result α) :
    (if a + 16 ≤ bytes.length then ∃ r', (do
        let (high, r) ← readNumBytes a r
        let (low, r) ← readNumBytes 16 r
        let value ← toFelt (high * 2 ^ 128 + low)
        k value r) = k (natBE (bytes.take (a + 16))) r' ∧ r'.Holds (bytes.drop (a + 16))
    else (do
        let (high, r) ← readNumBytes a r
        let (low, r) ← readNumBytes 16 r
        let value ← toFelt (high * 2 ^ 128 + low)
        k value r) = .error .unexpectedEndOfInput) := by
  have hread := readHalves_reads h (show a ≤ 16 by omega)
  have hsplit : (do
      let (high, r) ← readNumBytes a r
      let (low, r) ← readNumBytes 16 r
      let value ← toFelt (high * 2 ^ 128 + low)
      k value r) = (do
        let (high, r) ← readNumBytes a r
        let (low, r) ← readNumBytes 16 r
        return (high * 2 ^ 128 + low, r)) >>= fun v => toFelt v.1 >>= fun value => k value v.2 := by
    simp only [bind_assoc, pure_bind]
  rw [hsplit]
  split
  · next hle =>
    obtain ⟨r', hread, h'⟩ := hread.ok hle
    refine ⟨r', ?_, h'⟩
    rw [hread, except_ok_bind, toFelt_natBE (by rw [List.length_take]; omega), except_ok_bind]
  · next hlt =>
    rw [hread.error (Nat.not_le.mp hlt)]
    rfl

/-- An iteration appends the next bytes, up to 31 of them, as an item. -/
theorem readBytesIteration_eq (h : r.Holds bytes) (n : ℕ) :
    if min n 31 ≤ bytes.length then
      ∃ r', readBytesIteration n r
          = .ok ((min n 31, decide (n < 31)), natBE (bytes.take (min n 31)), r') ∧
        r'.Holds (bytes.drop (min n 31))
    else readBytesIteration n r = .error .unexpectedEndOfInput := by
  rw [readBytesIteration]
  by_cases hwhole : n ≥ 31
  · have hread := readHalves_felt h (le_refl 15) fun value r => return ((31, false), value, r)
    rw [if_pos hwhole, min_eq_right hwhole, decide_eq_false (Nat.not_lt.mpr hwhole)]
    exact hread
  · rw [if_neg hwhole, min_eq_left (by omega), decide_eq_true (Nat.not_le.mp hwhole)]
    by_cases hlong : n > 16
    · have hread := readHalves_felt h (show n - 16 ≤ 15 by omega)
        fun value r => return ((n, true), value, r)
      have hfits : n - 16 < 2 ^ 8 := by omega
      rw [Nat.sub_add_cancel hlong.le] at hread
      rw [if_pos hlong, checked, if_pos hfits, except_ok_bind]
      exact hread
    · have hread := readNumBytes_reads h (Nat.not_lt.mp hlong)
      have hfits : n < 2 ^ 8 := by omega
      rw [if_neg hlong, checked, if_pos hfits, except_ok_bind]
      split
      · next hle =>
        obtain ⟨r', hread, h'⟩ := hread.ok hle
        refine ⟨r', ?_, h'⟩
        rw [hread, except_ok_bind]
        dsimp only
        rw [toFelt_natBE (by rw [List.length_take]; omega)]
        rfl
      · next hlt =>
        rw [hread.error (Nat.not_le.mp hlt)]
        rfl

/-- The items of the loop hold the next bytes, where the last one has a byte. -/
theorem readBytesFrom_eq {fuel n : ℕ} (h : r.Holds bytes) (array : List ℕ) (hfuel : n / 31 < fuel) :
    if n ≤ bytes.length then
      ∃ items r', readBytesFrom fuel n array r = .ok ((array ++ items, n % 31), r') ∧
        r'.Holds (bytes.drop n) ∧ items ≠ [] ∧
        (n % 31 ≠ 0 → ByteBuffer.Holds ⟨n % 31, items⟩ (bytes.take n))
    else readBytesFrom fuel n array r = .error .unexpectedEndOfInput := by
  induction fuel generalizing r bytes n array with
  | zero => exact absurd hfuel (Nat.not_lt_zero _)
  | succ fuel ih =>
    have hiteration := readBytesIteration_eq h n
    rw [readBytesFrom]
    by_cases hmin : min n 31 ≤ bytes.length
    · rw [if_pos hmin] at hiteration
      obtain ⟨r₁, hiteration, h₁⟩ := hiteration
      rw [hiteration, except_ok_bind]
      dsimp only
      by_cases hlast : n < 31
      · have hn : min n 31 = n := min_eq_left hlast.le
        rw [hn] at hmin h₁ ⊢
        rw [if_pos hmin, decide_eq_true hlast, if_pos rfl, Nat.mod_eq_of_lt hlast]
        refine ⟨[natBE (bytes.take n)], r₁, rfl, h₁, List.cons_ne_nil _ _, fun hpos => ?_⟩
        have htake : (bytes.take n).length = n := List.length_take_of_le hmin
        have hholds := @ByteBuffer.Holds.last (bytes.take n)
          (List.ne_nil_of_length_pos (by omega)) (by omega)
        rwa [htake] at hholds
      · have hn : min n 31 = 31 := min_eq_right (Nat.not_lt.mp hlast)
        rw [hn] at hmin h₁ ⊢
        have hrest := ih h₁ (array ++ [natBE (bytes.take 31)]) (show (n - 31) / 31 < fuel by omega)
        rw [List.length_drop, List.drop_drop, Nat.add_sub_cancel' (Nat.not_lt.mp hlast),
          ← Nat.mod_eq_sub_mod (Nat.not_lt.mp hlast)] at hrest
        rw [decide_eq_false hlast, if_neg Bool.false_ne_true]
        by_cases hall : n ≤ bytes.length
        · rw [if_pos (by omega)] at hrest
          obtain ⟨items, r', hread, h', hne, hholds⟩ := hrest
          rw [if_pos hall]
          refine ⟨natBE (bytes.take 31) :: items, r', ?_, h', List.cons_ne_nil _ _, fun hpos => ?_⟩
          · rw [hread, List.append_assoc]
            rfl
          · have htake : (bytes.take 31).length = 31 := List.length_take_of_le hmin
            have hsplit : bytes.take n = bytes.take 31 ++ (bytes.drop 31).take (n - 31) := by
              rw [← List.take_add, Nat.add_sub_cancel' (Nat.not_lt.mp hlast)]
            obtain ⟨item, data, rfl⟩ := List.exists_cons_of_ne_nil hne
            rw [hsplit]
            exact .cons htake (hholds hpos)
        · rw [if_neg (by omega)] at hrest
          rw [if_neg hall]
          exact hrest
    · rw [if_neg hmin] at hiteration
      rw [if_neg (fun hall => hmin ((Nat.min_le_left _ _).trans hall)), hiteration]
      rfl

/-- **A byte array** is read where its last item has a byte. -/
theorem readByteArray_eq (h : r.Holds bytes) (n : ℕ) :
    if n ≤ bytes.length then
      if 31 ∣ n then readByteArray n r = .error .assertion
      else ∃ array r', readByteArray n r = .ok (array, r') ∧ array.Holds (bytes.take n) ∧
        r'.Holds (bytes.drop n)
    else readByteArray n r = .error .unexpectedEndOfInput := by
  have hloop := readBytesFrom_eq h [] (Nat.lt_succ_self (n / 31))
  have hfits : n % 31 < 2 ^ 8 := by omega
  rw [readByteArray]
  split
  · next hle =>
    rw [if_pos hle] at hloop
    obtain ⟨items, r', hloop, h', hne, hholds⟩ := hloop
    rw [hloop, except_ok_bind, List.nil_append]
    dsimp only
    rw [checked, if_pos hfits, except_ok_bind]
    split
    · next hdvd =>
      rw [Nat.mod_eq_zero_of_dvd hdvd, ByteBuffer.new_zero hne]
      rfl
    · next hdvd =>
      have hpos : n % 31 ≠ 0 := fun hzero => hdvd (Nat.dvd_of_mod_eq_zero hzero)
      have hnew := (hholds hpos).new_eq
      dsimp only at hnew
      rw [hnew]
      exact ⟨_, r', rfl, hholds hpos, h'⟩
  · next hlt =>
    rw [if_neg hlt] at hloop
    rw [hloop]
    rfl

end Reader

/-! ## Sequences -/

section

variable {r : Reader} {bytes : Bytes}

/-- An operation refines the string of bytes. -/
def Operation.Step (op : Operation) (r : Reader) (bytes : Bytes) : Prop :=
  if op.size ≤ bytes.length then
    ∃ out r', op.run r = .ok (out, r') ∧ op.Answers bytes out ∧ r'.Holds (bytes.drop op.size)
  else ∃ e, op.run r = .error e

theorem Operation.step_ok {op : Operation} {out : Output} {r' : Reader}
    (hle : op.size ≤ bytes.length) (hrun : op.run r = .ok (out, r')) (hanswers : op.Answers bytes out)
    (h' : r'.Holds (bytes.drop op.size)) : op.Step r bytes := by
  rw [Operation.Step, if_pos hle]
  exact ⟨out, r', hrun, hanswers, h'⟩

theorem Operation.step_error {op : Operation} {e : Panic} (hlt : ¬op.size ≤ bytes.length)
    (hrun : op.run r = .error e) : op.Step r bytes := by
  rw [Operation.Step, if_neg hlt]
  exact ⟨e, hrun⟩

/-- The result of a read as the output of an operation. -/
theorem step_of_reads {n : ℕ} {x : Result (ℕ × Reader)} (h : Reader.Reads bytes n x) :
    if n ≤ bytes.length then
      ∃ out r', (do
          let (value, r) ← x
          return (Output.number value, r)) = (Except.ok (out, r') : Result _) ∧
        out = .number (natBE (bytes.take n)) ∧ r'.Holds (bytes.drop n)
    else ∃ e, (do
        let (value, r) ← x
        return (Output.number value, r)) = (Except.error e : Result _) := by
  split
  · next hle =>
    obtain ⟨r', rfl, h'⟩ := h.ok hle
    exact ⟨_, r', rfl, rfl, h'⟩
  · next hlt =>
    obtain rfl := h.error (Nat.not_le.mp hlt)
    exact ⟨_, rfl⟩

/-- Every operation is a step, but for reading a byte array of whole items. -/
theorem step_of_holds (h : r.Holds bytes) (op : Operation)
    (hitems : ∀ n, op = .readByteArray n → n ≤ bytes.length → ¬31 ∣ n) : op.Step r bytes := by
  cases op with
  | readNumBytes n => exact step_of_reads (Reader.readNumBytes_reads h (Nat.le_of_lt_succ n.isLt))
  | readU8 => exact step_of_reads (Reader.readUint_reads h (by decide))
  | readU16 => exact step_of_reads (Reader.readUint_reads h (by decide))
  | readU32 => exact step_of_reads (Reader.readUint_reads h (by decide))
  | readU64 => exact step_of_reads (Reader.readUint_reads h (by decide))
  | readU128 => exact step_of_reads (Reader.readNumBytes_reads h (le_refl 16))
  | readU160 => exact step_of_reads (Reader.readU160_reads h)
  | readU256 => exact step_of_reads (Reader.readHalves_reads h (le_refl 16))
  | skip n =>
    have hskip := Reader.skipFrom_eq h (Nat.lt_succ_self (n / 16))
    by_cases hle : n ≤ bytes.length
    · rw [if_pos hle] at hskip
      obtain ⟨r', hskip, h'⟩ := hskip
      have hrun : (Operation.skip n).run r = .ok (.nothing, r') := by
        rw [Operation.run, Reader.skip, hskip]
        rfl
      exact Operation.step_ok hle hrun rfl h'
    · rw [if_neg hle] at hskip
      have hrun : (Operation.skip n).run r = .error .unexpectedEndOfInput := by
        rw [Operation.run, Reader.skip, hskip]
        rfl
      exact Operation.step_error hle hrun
  | readByteArray n =>
    have hread := Reader.readByteArray_eq h n
    by_cases hle : n ≤ bytes.length
    · rw [if_pos hle, if_neg (hitems n rfl hle)] at hread
      obtain ⟨array, r', hread, hholds, h'⟩ := hread
      have hrun : (Operation.readByteArray n).run r = .ok (.buffer array, r') := by
        rw [Operation.run, hread]
        rfl
      exact Operation.step_ok hle hrun ⟨array, rfl, hholds⟩ h'
    · rw [if_neg hle] at hread
      have hrun : (Operation.readByteArray n).run r = .error .unexpectedEndOfInput := by
        rw [Operation.run, hread]
        rfl
      exact Operation.step_error hle hrun
  | len => exact Operation.step_ok (Nat.zero_le _) rfl (congrArg Output.number h.len_eq) h

/-- On a reader over the bytes, operations refine the string exactly where they read no byte array
of whole items. -/
theorem refines_iff (ops : List Operation) (h : r.Holds bytes) :
    Refines ops r bytes ↔ ReadsNoWholeItems ops bytes := by
  induction ops generalizing r bytes with
  | nil => exact Iff.rfl
  | cons op ops ih =>
    rw [Refines, ReadsNoWholeItems]
    by_cases hle : op.size ≤ bytes.length
    · rw [if_pos hle, forall_prop_of_true hle]
      by_cases hitems : ∀ n, op = .readByteArray n → ¬31 ∣ n
      · have hstep := step_of_holds h op fun n hop _ => hitems n hop
        rw [Operation.Step, if_pos hle] at hstep
        obtain ⟨out, r', hrun, hanswers, h'⟩ := hstep
        rw [and_iff_right hitems, ← ih h']
        constructor
        · rintro ⟨out₁, r₁, hrun₁, -, hrest⟩
          cases hrun.symm.trans hrun₁
          exact hrest
        · exact fun hrest => ⟨out, r', hrun, hanswers, hrest⟩
      · refine iff_of_false ?_ fun hall => hitems hall.1
        rintro ⟨out, r', hrun, -, -⟩
        -- The assertion of `ByteBuffer::new` fails.
        obtain ⟨n, rfl, hdvd⟩ : ∃ n, op = .readByteArray n ∧ 31 ∣ n := by
          push Not at hitems
          exact hitems
        have hle : n ≤ bytes.length := hle
        have hread := Reader.readByteArray_eq h n
        rw [if_pos hle, if_pos hdvd] at hread
        rw [Operation.run, hread] at hrun
        cases hrun
    · rw [if_neg hle]
      refine iff_of_true ?_ fun hle' => absurd hle' hle
      have hstep := step_of_holds h op fun n hop hn => absurd (by rw [hop]; exact hn) hle
      rwa [Operation.Step, if_neg hle] at hstep

end

/-- **A reader refines a string of bytes**, over any well-formed byte array and for any operations,
exactly where they read no byte array whose length is a multiple of 31. -/
theorem reader_refines_iff (array : ByteBuffer) (ops : List Operation) (h : array.WellFormed) :
    Refines ops (Reader.new array) array.bytes ↔ ReadsNoWholeItems ops array.bytes :=
  refines_iff ops (Reader.holds_new h.holds)

/-- The numbers from 1 to 38, 31 of them in the first item. -/
def exArray : ByteBuffer where
  numLastBytes := 7
  data := [natBE ((List.range 31).map fun i => UInt8.ofNat (i + 1)),
    natBE ((List.range 7).map fun i => UInt8.ofNat (i + 32))]

theorem exArray_wellFormed : exArray.WellFormed :=
  ⟨nofun, by decide, by decide⟩

theorem reader_refines_across_items :
    Refines [.readU32, .readByteArray 30, .len, .readU16, .readU256] (Reader.new exArray)
        exArray.bytes ↔
      ReadsNoWholeItems [.readU32, .readByteArray 30, .len, .readU16, .readU256] exArray.bytes :=
  reader_refines_iff exArray _ exArray_wellFormed

/-- A byte array of the whole first item is not read, and neither is an empty one. -/
theorem readByteArray_whole_items :
    exArray.WellFormed ∧ exArray.bytes.length = 38 ∧
      (Reader.new exArray).readByteArray 31 = .error .assertion ∧
      ¬Refines [.readByteArray 31] (Reader.new exArray) exArray.bytes ∧
      ¬Refines [.readByteArray 0] (Reader.new exArray) exArray.bytes := by
  have hlength : exArray.bytes.length = 38 := by
    rw [← exArray_wellFormed.holds.len_eq]
    rfl
  have hwhole (n : ℕ) (hle : n ≤ exArray.bytes.length) (hdvd : 31 ∣ n) :
      ¬Refines [.readByteArray n] (Reader.new exArray) exArray.bytes := by
    rw [refines_iff _ (Reader.holds_new exArray_wellFormed.holds)]
    exact fun hall => (hall hle).1 n rfl hdvd
  refine ⟨exArray_wellFormed, hlength, by decide +kernel, ?_, ?_⟩
  · exact hwhole 31 (by omega) (dvd_refl 31)
  · exact hwhole 0 (by omega) (dvd_zero 31)

end PythCrosschain.Starknet
