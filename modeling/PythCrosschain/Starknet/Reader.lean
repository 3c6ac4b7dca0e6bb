import PythCrosschain.Lib.Bytes
import PythCrosschain.Lib.Rust

/-!
# Starknet: `byte_buffer.cairo` and `reader.cairo`

A byte array is an array of field elements with 31 bytes each, the last one with
`num_last_bytes`. A reader takes one element at a time apart into two numbers of at most 16
bytes. `readNumBytes_reads` says what a read gives on any reader over given bytes (`Reader.Holds`):
the next bytes as a number, or a panic when there are too few.

Integers are natural numbers, and each operation that panics on overflow says so.
-/

namespace PythCrosschain.Starknet

inductive Panic
  | unexpectedEndOfInput
  | unexpectedOverflow
  | nBytesTooBig
  | assertion
  | digestMismatch
deriving DecidableEq, Repr

abbrev Result (α : Type) := Except Panic α

def assert (p : Prop) [Decidable p] : Result Unit := if p then .ok () else .error .assertion

/-- The value of an expression of `w` bits, or a conversion into `w` bits. -/
def checked (w n : ℕ) : Result ℕ := if n < 2 ^ w then .ok n else .error .unexpectedOverflow

/-- `one_shift_left_bytes_u128`. -/
def oneShiftLeftBytesU128 (nBytes : ℕ) : Result ℕ :=
  if nBytes < 16 then .ok (256 ^ nBytes) else .error .nBytesTooBig

/-- `u256.high` and `u256.low`. -/
def high (value : ℕ) : ℕ := value / 2 ^ 128
def low (value : ℕ) : ℕ := value % 2 ^ 128

/-! ## `ByteBuffer` -/

structure ByteBuffer where
  numLastBytes : ℕ
  data : List ℕ
deriving DecidableEq, Repr

namespace ByteBuffer

def popFront : ByteBuffer → Option ((ℕ × ℕ) × ByteBuffer)
  | ⟨_, []⟩ => none
  | ⟨numLastBytes, [item]⟩ => some ((item, numLastBytes), ⟨0, []⟩)
  | ⟨numLastBytes, item :: data⟩ => some ((item, 31), ⟨numLastBytes, data⟩)

def len (array : ByteBuffer) : ℕ :=
  if array.data = [] then 0 else (array.data.length - 1) * 31 + array.numLastBytes

/-- The bytes of the elements. -/
def bytes : ByteBuffer → Bytes
  | ⟨_, []⟩ => []
  | ⟨numLastBytes, [item]⟩ => bytesBE numLastBytes item
  | ⟨numLastBytes, item :: item' :: data⟩ => bytesBE 31 item ++ bytes ⟨numLastBytes, item' :: data⟩
termination_by array => array.data.length

/-- A well-formed array with these bytes. -/
inductive Holds : ByteBuffer → Bytes → Prop
  | nil : Holds ⟨0, []⟩ []
  | last {bytes : Bytes} (hne : bytes ≠ []) (hle : bytes.length ≤ 31) :
      Holds ⟨bytes.length, [natBE bytes]⟩ bytes
  | cons {numLastBytes item : ℕ} {data : List ℕ} {bytes rest : Bytes} (hlen : bytes.length = 31)
      (hrest : Holds ⟨numLastBytes, item :: data⟩ rest) :
      Holds ⟨numLastBytes, natBE bytes :: item :: data⟩ (bytes ++ rest)

theorem Holds.len_eq {array : ByteBuffer} {bytes : Bytes} (h : array.Holds bytes) :
    array.len = bytes.length := by
  induction h with
  | nil => rfl
  | last hne hle => simp [len]
  | cons hlen hrest ih =>
    simp only [len, reduceCtorEq, ↓reduceIte, List.length_cons, List.length_append] at ih ⊢
    omega

theorem Holds.bytes_eq {array : ByteBuffer} {bytes : Bytes} (h : array.Holds bytes) :
    array.bytes = bytes := by
  induction h with
  | nil => rw [ByteBuffer.bytes]
  | last hne hle => rw [ByteBuffer.bytes, bytesBE_natBE]
  | cons hlen hrest ih => rw [ByteBuffer.bytes, ih, ← hlen, bytesBE_natBE]

/-- Popping gives between 1 and 31 bytes, or there are none. -/
theorem Holds.popFront {array : ByteBuffer} {bytes : Bytes} (h : array.Holds bytes) :
    (bytes = [] ∧ array.popFront = none) ∨
      ∃ (item rest : Bytes) (array' : ByteBuffer), bytes = item ++ rest ∧ item ≠ [] ∧
        item.length ≤ 31 ∧ array'.Holds rest ∧ array'.data.length + 1 = array.data.length ∧
        array.popFront = some ((natBE item, item.length), array') := by
  cases h with
  | nil => exact .inl ⟨rfl, rfl⟩
  | last hne hle =>
    exact .inr ⟨bytes, [], ⟨0, []⟩, (List.append_nil _).symm, hne, hle, .nil, rfl, rfl⟩
  | @cons numLastBytes item data first rest hlen hrest =>
    refine .inr ⟨first, rest, ⟨numLastBytes, item :: data⟩, rfl, ?_, hlen.le, hrest, rfl, ?_⟩
    · exact List.ne_nil_of_length_pos (by omega)
    · rw [hlen]
      rfl

end ByteBuffer

/-! ## `Reader` -/

structure Reader where
  array : ByteBuffer
  current : ℕ
  numCurrentBytes : ℕ
  next : Option ℕ
deriving DecidableEq, Repr

namespace Reader

def new (array : ByteBuffer) : Reader := ⟨array, 0, 0, none⟩

def readFromCurrent (r : Reader) (numBytes : ℕ) : Result (ℕ × Reader) := do
  let numRemainingBytes := r.numCurrentBytes - numBytes
  let divisor ← oneShiftLeftBytesU128 numRemainingBytes
  return (r.current / divisor,
    { r with current := r.current % divisor, numCurrentBytes := numRemainingBytes })

def fetchNext (r : Reader) : Result Reader :=
  match r.next with
  | some value => .ok { r with next := none, current := value, numCurrentBytes := 16 }
  | none =>
    match r.array.popFront with
    | none => .error .unexpectedEndOfInput
    | some ((value, bytes), array) =>
      if bytes > 16 then
        .ok ⟨array, high value, bytes - 16, some (low value)⟩
      else
        .ok ⟨array, low value, bytes, r.next⟩

/-- `read_num_bytes`, for at most `fuel` fetches. -/
def readNumBytesFrom : ℕ → ℕ → Reader → Result (ℕ × Reader)
  | 0, _, _ => .error .unexpectedEndOfInput
  | fuel + 1, numBytes, r =>
    if numBytes ≤ r.numCurrentBytes then r.readFromCurrent numBytes
    else do
      let numLowBytes := numBytes - r.numCurrentBytes
      let fetched ← r.fetchNext
      let (lowPart, rest) ← readNumBytesFrom fuel numLowBytes fetched
      if numLowBytes = 16 then return (lowPart, rest)
      else do
        let shift ← oneShiftLeftBytesU128 numLowBytes
        let value ← checked 128 (r.current * shift + lowPart)
        return (value, rest)

/-- A fetch takes `next` or an element of the array. -/
def fetches (r : Reader) : ℕ := 2 * r.array.data.length + if r.next = none then 0 else 1

def readNumBytes (numBytes : ℕ) (r : Reader) : Result (ℕ × Reader) := do
  assert (numBytes ≤ 16)
  readNumBytesFrom (r.fetches + 1) numBytes r

def readU256 (r : Reader) : Result (ℕ × Reader) := do
  let (high, r) ← readNumBytes 16 r
  let (low, r) ← readNumBytes 16 r
  return (high * 2 ^ 128 + low, r)

def readU160 (r : Reader) : Result (ℕ × Reader) := do
  let (high, r) ← readNumBytes 4 r
  let (low, r) ← readNumBytes 16 r
  return (high * 2 ^ 128 + low, r)

/-- `read_u8`, `read_u16`, `read_u32` and `read_u64`: `k` bytes as an integer of `8 * k` bits. -/
def readUint (k : ℕ) (r : Reader) : Result (ℕ × Reader) := do
  let (value, r) ← readNumBytes k r
  let value ← checked (8 * k) value
  return (value, r)

def readU8 : Reader → Result (ℕ × Reader) := readUint 1
def readU16 : Reader → Result (ℕ × Reader) := readUint 2
def readU32 : Reader → Result (ℕ × Reader) := readUint 4
def readU64 : Reader → Result (ℕ × Reader) := readUint 8

def len (r : Reader) : ℕ :=
  r.numCurrentBytes + (if r.next = none then 0 else 16) + r.array.len

/-- The bytes that are left. -/
def bytes (r : Reader) : Bytes :=
  bytesBE r.numCurrentBytes r.current ++ r.next.elim [] (bytesBE 16) ++ r.array.bytes

/-- The bytes that are left are `current`, `next` and those of the array. -/
structure Parts (r : Reader) (current next rest : Bytes) : Prop where
  current_length : current.length = r.numCurrentBytes
  current_le : r.numCurrentBytes ≤ 16
  current_eq : natBE current = r.current
  next_eq : r.next = none ∧ next = [] ∨ r.next = some (natBE next) ∧ next.length = 16
  array : r.array.Holds rest

/-- The reader has these bytes left. Between two reads `current` is not a whole half. -/
def Holds (r : Reader) (bytes : Bytes) : Prop :=
  r.numCurrentBytes < 16 ∧
    ∃ current next rest, r.Parts current next rest ∧ bytes = current ++ next ++ rest

theorem holds_new {array : ByteBuffer} {bytes : Bytes} (h : array.Holds bytes) :
    (new array).Holds bytes :=
  ⟨Nat.zero_lt_succ 15, [], [], bytes,
    ⟨rfl, Nat.zero_le 16, rfl, .inl ⟨rfl, rfl⟩, h⟩, rfl⟩

theorem Holds.len_eq {r : Reader} {bytes : Bytes} (h : r.Holds bytes) :
    r.len = bytes.length := by
  obtain ⟨-, current, nextBytes, rest, hparts, rfl⟩ := h
  rw [len, hparts.array.len_eq, ← hparts.current_length, List.length_append, List.length_append]
  rcases hparts.next_eq with ⟨hnone, rfl⟩ | ⟨hsome, hlen⟩
  · rw [if_pos hnone, List.length_nil]
  · rw [if_neg (by rw [hsome]; nofun), hlen]

theorem Holds.bytes_eq {r : Reader} {bytes : Bytes} (h : r.Holds bytes) : r.bytes = bytes := by
  obtain ⟨-, current, nextBytes, rest, hparts, rfl⟩ := h
  rw [Reader.bytes, hparts.array.bytes_eq, ← hparts.current_length, ← hparts.current_eq,
    bytesBE_natBE]
  rcases hparts.next_eq with ⟨hnone, rfl⟩ | ⟨hsome, hlen⟩
  · rw [hnone]
    rfl
  · rw [hsome, Option.elim_some, ← hlen, bytesBE_natBE]

/-! ### Reading -/

theorem readFromCurrent_eq {r : Reader} {current nextBytes rest : Bytes} {k : ℕ}
    (h : r.Parts current nextBytes rest) (hk : 0 < k ∨ r.numCurrentBytes < 16)
    (hle : k ≤ r.numCurrentBytes) :
    ∃ r', r.readFromCurrent k = .ok (natBE (current.take k), r') ∧
      r'.numCurrentBytes < 16 ∧ r'.Parts (current.drop k) nextBytes rest := by
  have hlen := h.current_length
  have hle16 := h.current_le
  have hremaining : r.numCurrentBytes - k < 16 := by omega
  have hdiv : r.current / 256 ^ (r.numCurrentBytes - k) = natBE (current.take k) := by
    rw [natBE_take, h.current_eq, hlen]
  have hmod : r.current % 256 ^ (r.numCurrentBytes - k) = natBE (current.drop k) := by
    rw [natBE_drop, h.current_eq, hlen]
  refine ⟨{ r with current := natBE (current.drop k), numCurrentBytes := r.numCurrentBytes - k },
    ?_, hremaining, ?_⟩
  · rw [readFromCurrent, oneShiftLeftBytesU128, if_pos hremaining]
    show Except.ok (r.current / 256 ^ (r.numCurrentBytes - k), _) = _
    rw [hdiv, hmod]
  · refine ⟨?_, hremaining.le, rfl, h.next_eq, h.array⟩
    rw [List.length_drop, hlen]

/-- A fetch makes the next part current, or fails at the end. -/
theorem fetchNext_eq {r : Reader} {current nextBytes rest : Bytes}
    (h : r.Parts current nextBytes rest) :
    (nextBytes ++ rest = [] ∧ r.fetchNext = .error .unexpectedEndOfInput) ∨
      ∃ r' current' nextBytes' rest', r.fetchNext = .ok r' ∧ r'.fetches < r.fetches ∧
        0 < r'.numCurrentBytes ∧ r'.Parts current' nextBytes' rest' ∧
        nextBytes ++ rest = current' ++ nextBytes' ++ rest' := by
  obtain ⟨array, current₀, numCurrentBytes, next₀⟩ := r
  rcases h.next_eq with ⟨hnone, rfl⟩ | ⟨hsome, hlen⟩
  · obtain rfl : next₀ = none := hnone
    rcases h.array.popFront with
      ⟨rfl, hpop⟩ | ⟨item, tail, array', rfl, hne, hle, htail, hdata, hpop⟩
    · left
      refine ⟨rfl, ?_⟩
      unfold fetchNext
      simp only [hpop]
    · right
      have hpos : 0 < item.length := List.length_pos_iff.mpr hne
      have hfetches : 2 * array'.data.length + 1 < 2 * array.data.length + 0 := by
        have : array'.data.length + 1 = array.data.length := hdata
        omega
      by_cases hlong : 16 < item.length
      · have hhigh : high (natBE item) = natBE (item.take (item.length - 16)) := by
          rw [natBE_take, Nat.sub_sub_self hlong.le, high]
          rfl
        have hdrop : (item.drop (item.length - 16)).length = 16 := by
          rw [List.length_drop]
          omega
        have hlow : low (natBE item) = natBE (item.drop (item.length - 16)) := by
          rw [natBE_drop, Nat.sub_sub_self hlong.le, low]
          rfl
        refine ⟨⟨array', high (natBE item), item.length - 16, some (low (natBE item))⟩,
          item.take (item.length - 16), item.drop (item.length - 16), tail, ?_, hfetches,
          by show 0 < item.length - 16; omega, ?_, ?_⟩
        · unfold fetchNext
          simp only [hpop, gt_iff_lt, hlong, if_true]
        · refine ⟨?_, ?_, hhigh.symm, .inr ⟨?_, hdrop⟩, htail⟩
          · rw [List.length_take]
            show min (item.length - 16) item.length = item.length - 16
            omega
          · show item.length - 16 ≤ 16
            omega
          · rw [← hlow]
        · rw [List.take_append_drop, List.nil_append]
      · have hlow : low (natBE item) = natBE item := by
          refine Nat.mod_eq_of_lt (lt_of_lt_of_le (natBE_lt item) ?_)
          exact (Nat.pow_le_pow_right (by decide) (Nat.not_lt.mp hlong)).trans (by decide)
        refine ⟨⟨array', low (natBE item), item.length, none⟩, item, [], tail, ?_,
          lt_trans (Nat.lt_succ_self _) hfetches, hpos, ?_, ?_⟩
        · unfold fetchNext
          simp only [hpop, gt_iff_lt, hlong, if_false]
        · exact ⟨rfl, Nat.not_lt.mp hlong, hlow.symm, .inl ⟨rfl, rfl⟩, htail⟩
        · rw [List.append_nil, List.nil_append]
  · right
    obtain rfl : next₀ = some (natBE nextBytes) := hsome
    refine ⟨⟨array, natBE nextBytes, 16, none⟩, nextBytes, [], rest, rfl, ?_, by show 0 < 16; omega,
      ⟨hlen, le_refl 16, rfl, .inl ⟨rfl, rfl⟩, h.array⟩, by rw [List.append_nil]⟩
    show 2 * array.data.length + 0 < 2 * array.data.length + 1
    omega

/-- `x` reads the next `n` bytes as a number, or fails when there are fewer. -/
def Reads (bytes : Bytes) (n : ℕ) (x : Result (ℕ × Reader)) : Prop :=
  if n ≤ bytes.length then ∃ r', x = .ok (natBE (bytes.take n), r') ∧ r'.Holds (bytes.drop n)
  else x = .error .unexpectedEndOfInput

theorem Reads.ok {bytes : Bytes} {n : ℕ} {x : Result (ℕ × Reader)} (h : Reads bytes n x)
    (hle : n ≤ bytes.length) :
    ∃ r', x = .ok (natBE (bytes.take n), r') ∧ r'.Holds (bytes.drop n) := by
  rwa [Reads, if_pos hle] at h

theorem Reads.error {bytes : Bytes} {n : ℕ} {x : Result (ℕ × Reader)} (h : Reads bytes n x)
    (hlt : bytes.length < n) : x = .error .unexpectedEndOfInput := by
  rwa [Reads, if_neg (Nat.not_le.mpr hlt)] at h

theorem readNumBytesFrom_eq {fuel : ℕ} {r : Reader} {current nextBytes rest : Bytes} {n : ℕ}
    (h : r.Parts current nextBytes rest) (hfuel : r.fetches < fuel) (hn : n ≤ 16)
    (hpos : 0 < n ∨ r.numCurrentBytes < 16) :
    Reads (current ++ nextBytes ++ rest) n (readNumBytesFrom fuel n r) := by
  unfold Reads
  induction fuel generalizing r current nextBytes rest n with
  | zero => exact absurd hfuel (Nat.not_lt_zero _)
  | succ fuel ih =>
    have hcurrent := h.current_length
    rw [readNumBytesFrom]
    by_cases hle : n ≤ r.numCurrentBytes
    · obtain ⟨r', hread, hnum, hparts⟩ := readFromCurrent_eq h hpos hle
      rw [if_pos, if_pos hle]
      · refine ⟨r', ?_, hnum, current.drop n, nextBytes, rest, hparts, ?_⟩
        · rw [hread, List.append_assoc, List.take_append_of_le_length (by omega)]
        · rw [List.append_assoc, List.drop_append_of_le_length (by omega), List.append_assoc]
      · rw [List.append_assoc, List.length_append]
        omega
    · rw [if_neg hle]
      rcases fetchNext_eq h with ⟨hempty, hfetch⟩ |
        ⟨r₁, current₁, next₁, rest₁, hfetch, hlt, hpos₁, hparts, hbytes⟩
      · rw [if_neg, hfetch]
        · rfl
        · rw [List.append_assoc, hempty, List.append_nil]
          omega
      · have hlow : n - r.numCurrentBytes ≤ 16 := by omega
        have ih₁ : Reads _ _ _ := ih hparts (by omega) hlow (.inl (by omega))
        rw [List.append_assoc, hbytes, hfetch, except_ok_bind]
        by_cases hlen : n - r.numCurrentBytes ≤ (current₁ ++ next₁ ++ rest₁).length
        · obtain ⟨r', hread, hholds⟩ := ih₁.ok hlen
          have htake : (current ++ (current₁ ++ next₁ ++ rest₁)).take n
              = current ++ (current₁ ++ next₁ ++ rest₁).take (n - r.numCurrentBytes) := by
            rw [List.take_append, List.take_of_length_le (by omega), hcurrent]
          have hdrop : (current ++ (current₁ ++ next₁ ++ rest₁)).drop n
              = (current₁ ++ next₁ ++ rest₁).drop (n - r.numCurrentBytes) := by
            rw [List.drop_append, List.drop_of_length_le (by omega), hcurrent, List.nil_append]
          have htaken : ((current₁ ++ next₁ ++ rest₁).take (n - r.numCurrentBytes)).length
              = n - r.numCurrentBytes := List.length_take_of_le hlen
          rw [if_pos (by rw [List.length_append]; omega), htake, hdrop, natBE_append, htaken,
            h.current_eq, hread, except_ok_bind]
          refine ⟨r', ?_, hholds⟩
          dsimp only
          by_cases hwhole : n - r.numCurrentBytes = 16
          · have hzero : current = [] := List.length_eq_zero_iff.mp (by omega)
            rw [if_pos hwhole, ← h.current_eq, hzero, natBE, Nat.zero_mul, Nat.zero_add]
            rfl
          · have hshort : n - r.numCurrentBytes < 16 := by omega
            have hfits : r.current * 256 ^ (n - r.numCurrentBytes)
                + natBE ((current₁ ++ next₁ ++ rest₁).take (n - r.numCurrentBytes)) < 2 ^ 128 := by
              have hlt := natBE_lt ((current ++ (current₁ ++ next₁ ++ rest₁)).take n)
              rw [htake, natBE_append, htaken, h.current_eq, ← htake, List.length_take] at hlt
              refine lt_of_lt_of_le hlt ?_
              exact (Nat.pow_le_pow_right (by decide) ((Nat.min_le_left _ _).trans hn)).trans
                (by decide)
            rw [if_neg hwhole, oneShiftLeftBytesU128, if_pos hshort, except_ok_bind, checked,
              if_pos hfits]
            rfl
        · rw [if_neg (by rw [List.length_append]; omega), ih₁.error (Nat.not_le.mp hlen)]
          rfl

/-- **A read of at most 16 bytes.** -/
theorem readNumBytes_reads {r : Reader} {bytes : Bytes} (h : r.Holds bytes) {n : ℕ}
    (hn : n ≤ 16) : Reads bytes n (readNumBytes n r) := by
  obtain ⟨hnum, current, nextBytes, rest, hparts, rfl⟩ := h
  have hread := readNumBytesFrom_eq hparts (Nat.lt_succ_self _) hn (.inr hnum)
  rw [readNumBytes, assert, if_pos hn]
  exact hread

theorem readUint_reads {r : Reader} {bytes : Bytes} (h : r.Holds bytes) {k : ℕ} (hk : k ≤ 16) :
    Reads bytes k (readUint k r) := by
  have hreads := readNumBytes_reads h hk
  unfold Reads
  split
  · next hle =>
    obtain ⟨r', hread, hholds⟩ := hreads.ok hle
    have hfits : natBE (bytes.take k) < 2 ^ (8 * k) := by
      have hlt := natBE_lt (bytes.take k)
      rw [List.length_take_of_le hle] at hlt
      rwa [Nat.pow_mul]
    refine ⟨r', ?_, hholds⟩
    rw [readUint, hread, except_ok_bind]
    dsimp only
    rw [checked, if_pos hfits]
    rfl
  · next hlt =>
    rw [readUint, hreads.error (Nat.not_le.mp hlt)]
    rfl

/-- A number in two halves: `a` bytes and then the 16 low bytes. -/
theorem readHalves_reads {r : Reader} {bytes : Bytes} (h : r.Holds bytes) {a : ℕ} (ha : a ≤ 16) :
    Reads bytes (a + 16) (do
      let (high, r) ← readNumBytes a r
      let (low, r) ← readNumBytes 16 r
      return (high * 2 ^ 128 + low, r)) := by
  have hfirst := readNumBytes_reads h ha
  unfold Reads
  by_cases hle : a ≤ bytes.length
  · obtain ⟨r₁, hread₁, h₁⟩ := hfirst.ok hle
    have hsecond := readNumBytes_reads h₁ (le_refl 16)
    rw [hread₁, except_ok_bind]
    dsimp only
    split
    · next hlong =>
      have hrest : 16 ≤ (bytes.drop a).length := by
        rw [List.length_drop]
        omega
      obtain ⟨r', hread, h'⟩ := hsecond.ok hrest
      refine ⟨r', ?_, List.drop_drop ▸ h'⟩
      rw [hread, List.take_add, natBE_append, List.length_take_of_le hrest]
      rfl
    · next hshort =>
      rw [hsecond.error (by rw [List.length_drop]; omega)]
      rfl
  · rw [if_neg (by omega), hfirst.error (Nat.not_le.mp hle)]
    rfl

theorem readU160_reads {r : Reader} {bytes : Bytes} (h : r.Holds bytes) :
    Reads bytes 20 (readU160 r) :=
  readHalves_reads h (by decide)

end Reader

end PythCrosschain.Starknet
