import PythCrosschain.Lib.Tvm

/-!
# TON: `utils.fc`

Data that may be larger than a cell. `read_and_store_large_data` copies the next bits, through
any number of cells, into cells of `MAX_BITS`. The results are `splitIntoReverseChunks_eq` and
`readAndStoreLargeData_eq`: for any layout of the data, the copy is the one layout of these bits
with full cells (`Packed`), and the rest is what `skipCells` leaves.
-/

namespace PythCrosschain.Ton

open Tvm

abbrev Bytes32 := BitVec 256

def MAX_BITS : ℕ := 1016

/-- The next cell, where this one has no bits left. -/
def advance (data : Slice) : Slice :=
  match data.bits, data.refs with
  | [], bits :: refs => ⟨bits, refs⟩
  | _, _ => data

/-- The loop of `split_into_reverse_chunks`, for at most `fuel` iterations. -/
def splitLoop (size : ℕ) : ℕ → Slice → Cell → ℕ → Bits → Cell × Slice
  | 0, data, chunks, _, _ => (chunks, data)
  | fuel + 1, data, chunks, totalBitsLoaded, currentChunk =>
    if ¬data.IsEmpty ∧ totalBitsLoaded < size then
      let bitsToLoad := min (min data.bits.length (MAX_BITS - currentChunk.length))
        (size - totalBitsLoaded)
      let currentChunk := currentChunk ++ data.bits.take bitsToLoad
      let data := advance { data with bits := data.bits.drop bitsToLoad }
      let totalBitsLoaded := totalBitsLoaded + bitsToLoad
      if currentChunk.length = MAX_BITS ∨ size - totalBitsLoaded = 0 then
        splitLoop size fuel data (currentChunk :: chunks) totalBitsLoaded []
      else
        splitLoop size fuel data chunks totalBitsLoaded currentChunk
    else (chunks, data)

/-- `split_into_reverse_chunks`. An iteration loads a bit or leaves a cell. -/
def splitIntoReverseChunks (data : Slice) (size : ℕ) : Cell × Slice :=
  splitLoop size (data.all.length + data.refs.length) data [] 0 []

/-- The loop of `read_and_store_large_data`, which reverses the chunks. -/
def reverseChunks (lastCell : Cell) : Cell → Cell
  | [] => lastCell
  | chunk :: chunks => reverseChunks (chunk :: lastCell) chunks

def readAndStoreLargeData (inMsgBody : Slice) (size : ℕ) : Cell × Slice :=
  let (chunks, remaining) := splitIntoReverseChunks inMsgBody size
  (reverseChunks [] chunks, remaining)

/-- The loops that collect `n` bits from this cell and those behind it. The source has one for
signatures and one for keys, which differ in what is thrown when there is no other cell. -/
def gatherBits (missing : Exception) : ℕ → Bits → Cell → Result (Bits × Slice)
  | n, bits, [] => if n ≤ bits.length then .ok (bits.take n, ⟨bits.drop n, []⟩) else .error missing
  | n, bits, bits' :: refs =>
    if n ≤ bits.length then .ok (bits.take n, ⟨bits.drop n, bits' :: refs⟩)
    else do
      let (rest, s) ← gatherBits missing (n - bits.length) bits' refs
      return (bits ++ rest, s)

/-! ## Hashes -/

/-- The slices that `keccak256_slice` pushes. -/
def pushedSlices : Bits → Cell → List Bits
  | bits, [] => if bits = [] then [] else [bits]
  | bits, bits' :: refs => bits :: pushedSlices bits' refs

section

variable (keccak256 : Bytes → Bytes32)

/-- `HASHEXT_KECCAK256` of a tuple, which has at most 255 slices. Together they have to be whole
bytes. -/
def keccak256Tuple (slices : List Bits) : Result Bytes32 :=
  if slices.length ≤ 255 then
    if slices.flatten.length % 8 = 0 then .ok (keccak256 (bytesOf slices.flatten))
    else .error .cellUnderflow
  else .error .typeCheck

def keccak256Slice (s : Slice) : Result Bytes32 :=
  keccak256Tuple keccak256 (pushedSlices s.bits s.refs)

def keccak256Int (hash : Bytes32) : Bytes32 := keccak256 (bytesOf (bitsBE 256 hash.toNat))

def pubkeyToEthAddress (x1 x2 : Bytes32) : BitVec 160 :=
  (keccak256 (bytesOf (bitsBE 256 x1.toNat ++ bitsBE 256 x2.toNat))).setWidth 160

end

/-! ## What is left -/

/-- The rest after `n` bits. A cell that is used up is left, unless it is the last one. -/
def skipCells : ℕ → Bits → Cell → Slice
  | n, bits, [] => ⟨bits.drop n, []⟩
  | n, bits, bits' :: refs =>
    if n < bits.length then ⟨bits.drop n, bits' :: refs⟩
    else if n = bits.length then ⟨bits', refs⟩
    else skipCells (n - bits.length) bits' refs

theorem all_advance (data : Slice) : (advance data).all = data.all := by
  unfold advance
  split
  · next bits refs hbits hrefs => simp [Slice.all, hbits, hrefs]
  · rfl

theorem advance_of_ne_nil {data : Slice} (h : data.bits ≠ []) : advance data = data := by
  unfold advance
  split
  · next hbits _ => exact absurd hbits h
  · rfl

theorem skipCells_of_lt {n : ℕ} {bits : Bits} {refs : Cell} (h : n < bits.length) :
    skipCells n bits refs = ⟨bits.drop n, refs⟩ := by
  cases refs with
  | nil => rfl
  | cons bits' refs => rw [skipCells, if_pos h]

theorem skipCells_length (bits : Bits) (refs : Cell) :
    skipCells bits.length bits refs = advance ⟨[], refs⟩ := by
  cases refs with
  | nil => rw [skipCells, List.drop_length, advance]
  | cons bits' refs => rw [skipCells, if_neg (lt_irrefl _), if_pos rfl, advance]

theorem all_skipCells (n : ℕ) (bits : Bits) (refs : Cell) :
    (skipCells n bits refs).all = (Slice.all ⟨bits, refs⟩).drop n := by
  induction refs generalizing n bits with
  | nil => simp [skipCells, Slice.all]
  | cons bits' refs ih =>
    unfold skipCells
    split
    · next h => simp only [Slice.all, List.drop_append_of_le_length h.le]
    · next h =>
      split
      · next heq =>
        subst heq
        simp only [Slice.all, List.flatten_cons, List.drop_left]
      · next hne =>
        rw [ih]
        have hsum : n = bits.length + (n - bits.length) := by omega
        conv_rhs => rw [hsum]
        simp only [Slice.all, List.flatten_cons, List.drop_length_add_append]

/-- Bits of one cell that are skipped first. -/
theorem skipCells_advance {k n : ℕ} {bits : Bits} {refs : Cell} (hk : k ≤ bits.length)
    (hn : k < n) :
    skipCells (n - k) (advance ⟨bits.drop k, refs⟩).bits (advance ⟨bits.drop k, refs⟩).refs
      = skipCells n bits refs := by
  rcases Nat.lt_or_eq_of_le hk with hlt | rfl
  · have hne : bits.drop k ≠ [] := by
      rw [ne_eq, List.drop_eq_nil_iff]
      omega
    rw [advance_of_ne_nil hne]
    cases refs with
    | nil =>
      rw [skipCells, skipCells, List.drop_drop]
      congr 2
      omega
    | cons bits' refs =>
      rw [skipCells, skipCells, List.length_drop, List.drop_drop]
      have hsum : k + (n - k) = n := by omega
      have hrest : n - k - (bits.length - k) = n - bits.length := by omega
      rw [hsum, hrest]
      have hiff : n - k < bits.length - k ↔ n < bits.length := by omega
      have hiff' : n - k = bits.length - k ↔ n = bits.length := by omega
      simp only [hiff, hiff']
  · rw [List.drop_length]
    cases refs with
    | nil => simp only [advance, skipCells, List.drop_nil, List.drop_of_length_le hn.le]
    | cons bits' refs =>
      have hne : ¬n < bits.length := by omega
      have hne' : ¬n = bits.length := by omega
      simp only [advance, skipCells, if_neg hne, if_neg hne']

/-! ## The copy -/

/-- The layout of a bit string in cells that are full but the last one. -/
inductive Packed : Bits → Cell → Prop
  | nil : Packed [] []
  | last {bits : Bits} : bits ≠ [] → bits.length < MAX_BITS → Packed bits [bits]
  | full {bits rest : Bits} {cell : Cell} : bits.length = MAX_BITS → Packed rest cell →
      Packed (bits ++ rest) (bits :: cell)

theorem Packed.flatten {bits : Bits} {cell : Cell} (h : Packed bits cell) :
    cell.flatten = bits := by
  induction h with
  | nil => rfl
  | last => exact List.append_nil _
  | full _ _ ih => rw [List.flatten_cons, ih]

/-- The first cell has all bits, or `MAX_BITS`. -/
theorem Packed.head {bits first : Bits} {rest : Cell} (h : Packed bits (first :: rest)) :
    first = bits.take MAX_BITS := by
  cases h with
  | last _ hshort => rw [List.take_of_length_le hshort.le]
  | full hfull _ => rw [← hfull, List.take_left]

theorem Packed.eq_nil_iff {bits : Bits} {cell : Cell} (h : Packed bits cell) :
    cell = [] ↔ bits = [] := by
  cases h with
  | nil => exact iff_of_true rfl rfl
  | last hne _ => exact iff_of_false nofun hne
  | full hfull _ =>
    refine iff_of_false nofun fun hnil => ?_
    rw [List.append_eq_nil_iff] at hnil
    rw [hnil.1] at hfull
    cases hfull

/-- Bits that fit into one cell. -/
theorem Packed.single {bits : Bits} {cell : Cell} (h : Packed bits cell) (hne : bits ≠ [])
    (hle : bits.length ≤ MAX_BITS) : cell = [bits] := by
  cases h with
  | nil => exact absurd rfl hne
  | last _ _ => rfl
  | @full _ rest _ hfull hrest =>
    rw [List.length_append] at hle
    obtain rfl : rest = [] := List.length_eq_zero_iff.mp (by omega)
    rw [hrest.eq_nil_iff.mpr rfl, List.append_nil]

/-- What the loop appends to the chunks, and what it leaves, when `n` more bits are to be
loaded. -/
structure Splits (n : ℕ) (data : Slice) (chunks : Cell) (currentChunk : Bits)
    (result : Cell × Slice) : Prop where
  packed : n ≤ data.all.length →
    ∃ cell, Packed (currentChunk ++ data.all.take n) cell ∧ result.1 = cell.reverse ++ chunks
  short : data.all.length < n → ∃ k cell, MAX_BITS * k ≤ (currentChunk ++ data.all).length ∧
    Packed ((currentChunk ++ data.all).take (MAX_BITS * k)) cell ∧ result.1 = cell.reverse ++ chunks
  rest : result.2 = skipCells n data.bits data.refs

theorem splitLoop_done {size fuel total : ℕ} {data : Slice} {chunks : Cell} {current : Bits}
    (h : size ≤ total) : splitLoop size fuel data chunks total current = (chunks, data) := by
  cases fuel with
  | zero => rfl
  | succ fuel => rw [splitLoop, if_neg fun h' => absurd h'.2 (not_lt.mpr h)]

theorem splitLoop_empty {size fuel total : ℕ} {chunks : Cell} {current : Bits} :
    splitLoop size fuel ⟨[], []⟩ chunks total current = (chunks, ⟨[], []⟩) := by
  cases fuel with
  | zero => rfl
  | succ fuel => rw [splitLoop, if_neg fun h => absurd ⟨rfl, rfl⟩ h.1]

theorem measure_advance {k : ℕ} {data : Slice} (hk : k ≤ data.bits.length)
    (h : 0 < k ∨ data.bits = []) (hne : ¬data.IsEmpty) :
    (advance { data with bits := data.bits.drop k }).all.length
        + (advance { data with bits := data.bits.drop k }).refs.length
      < data.all.length + data.refs.length := by
  obtain ⟨bits, refs⟩ := data
  replace hk : k ≤ bits.length := hk
  have hall : (Slice.all ⟨bits.drop k, refs⟩).length + k = (Slice.all ⟨bits, refs⟩).length := by
    simp only [Slice.all, List.length_append, List.length_drop]
    omega
  rw [all_advance]
  rcases h with hpos | rfl
  · have hrefs : (advance ⟨bits.drop k, refs⟩).refs.length ≤ refs.length := by
      unfold advance
      split
      · next hrefs =>
        rw [show refs = _ from hrefs]
        exact Nat.le_succ _
      · exact le_rfl
    simp only at hall ⊢
    omega
  · cases refs with
    | nil => exact absurd ⟨rfl, rfl⟩ hne
    | cons bits' refs =>
      simp only [List.drop_nil, advance, List.length_cons] at hall ⊢
      omega

theorem splitLoop_splits {size fuel total n : ℕ} {data : Slice} {chunks : Cell} {current : Bits}
    (hfuel : data.all.length + data.refs.length ≤ fuel) (hcurrent : current.length < MAX_BITS)
    (hsize : total + n = size) (hn : 0 < n) :
    Splits n data chunks current (splitLoop size fuel data chunks total current) := by
  induction fuel generalizing data chunks current total n with
  | zero =>
    obtain ⟨bits, refs⟩ := data
    replace hfuel : (Slice.all ⟨bits, refs⟩).length + refs.length ≤ 0 := hfuel
    obtain rfl : refs = [] := List.length_eq_zero_iff.mp (by omega)
    have hbits : bits = [] := by
      refine List.length_eq_zero_iff.mp ?_
      simp only [Slice.all, List.length_append] at hfuel
      omega
    subst hbits
    rw [splitLoop_empty]
    refine ⟨fun h => ?_, fun _ => ⟨0, [], Nat.zero_le _, .nil, rfl⟩, by simp [skipCells]⟩
    exact absurd h (not_le.mpr hn)
  | succ fuel ih =>
    by_cases hempty : data.IsEmpty
    · obtain ⟨bits, refs⟩ := data
      obtain ⟨rfl, rfl⟩ : bits = [] ∧ refs = [] := hempty
      rw [splitLoop_empty]
      refine ⟨fun h => ?_, fun _ => ⟨0, [], Nat.zero_le _, .nil, rfl⟩, by simp [skipCells]⟩
      exact absurd h (not_le.mpr hn)
    · have hlen : data.all.length = data.bits.length + data.refs.flatten.length :=
        List.length_append
      have hrem : size - total = n := by omega
      rw [splitLoop, if_pos ⟨hempty, by omega⟩, hrem]
      simp only
      generalize hk : min (min data.bits.length (MAX_BITS - current.length)) n = k
      have hkbits : k ≤ data.bits.length := by omega
      have hall : data.all = data.bits.take k ++ (data.bits.drop k ++ data.refs.flatten) := by
        rw [← List.append_assoc, List.take_append_drop]
        rfl
      have hadv : (advance { data with bits := data.bits.drop k }).all
          = data.bits.drop k ++ data.refs.flatten := all_advance _
      have hfuel' := measure_advance hkbits (by
        by_cases hbits : data.bits = []
        · exact .inr hbits
        · have := List.length_pos_iff.mpr hbits
          exact .inl (by omega)) hempty
      have hcur : (current ++ data.bits.take k).length = current.length + k := by
        rw [List.length_append, List.length_take_of_le hkbits]
      rcases Nat.lt_or_ge k n with hkn | hkn
      · -- the loop goes on for `n - k` bits
        have htake : data.all.take n
            = data.bits.take k ++ (data.bits.drop k ++ data.refs.flatten).take (n - k) := by
          rw [hall, List.take_append, List.take_of_length_le (by simp; omega),
            List.length_take_of_le hkbits]
        by_cases hfull : (current ++ data.bits.take k).length = MAX_BITS
        · rw [if_pos (.inl hfull)]
          have hsplits : Splits (n - k) (advance { data with bits := data.bits.drop k })
              ((current ++ data.bits.take k) :: chunks) [] _ :=
            ih (by omega) (by decide) (show total + k + (n - k) = size by omega) (by omega)
          refine ⟨fun h => ?_, fun h => ?_, ?_⟩
          · obtain ⟨cell, hpacked, hresult⟩ := hsplits.packed (by
              rw [hadv]
              rw [hall] at h
              simp only [List.length_append, List.length_take_of_le hkbits] at h ⊢
              omega)
            rw [List.nil_append, hadv] at hpacked
            refine ⟨(current ++ data.bits.take k) :: cell, ?_, ?_⟩
            · rw [htake, ← List.append_assoc]
              exact .full hfull hpacked
            · rw [hresult, List.reverse_cons, List.append_assoc, List.singleton_append]
          · obtain ⟨j, cell, hle, hpacked, hresult⟩ := hsplits.short (by
              rw [hadv]
              rw [hall] at h
              simp only [List.length_append, List.length_take_of_le hkbits] at h ⊢
              omega)
            rw [List.nil_append, hadv] at hle hpacked
            refine ⟨j + 1, (current ++ data.bits.take k) :: cell, ?_, ?_, ?_⟩
            · rw [hall, ← List.append_assoc, List.length_append, hfull, Nat.mul_succ, Nat.add_comm]
              exact Nat.add_le_add_left hle _
            · have hchunks : (current ++ data.all).take (MAX_BITS * (j + 1))
                  = (current ++ data.bits.take k)
                    ++ (data.bits.drop k ++ data.refs.flatten).take (MAX_BITS * j) := by
                rw [hall, ← List.append_assoc, Nat.mul_succ, Nat.add_comm, List.take_append,
                  List.take_of_length_le (by omega), hfull, Nat.add_sub_cancel_left]
              rw [hchunks]
              exact .full hfull hpacked
            · rw [hresult, List.reverse_cons, List.append_assoc, List.singleton_append]
          · rw [hsplits.rest]
            exact skipCells_advance hkbits hkn
        · rw [if_neg (by omega)]
          have hsplits : Splits (n - k) (advance { data with bits := data.bits.drop k }) chunks
              (current ++ data.bits.take k) _ :=
            ih (by omega) (by omega) (show total + k + (n - k) = size by omega) (by omega)
          refine ⟨fun h => ?_, fun h => ?_, ?_⟩
          · obtain ⟨cell, hpacked, hresult⟩ := hsplits.packed (by
              rw [hadv]
              rw [hall] at h
              simp only [List.length_append, List.length_take_of_le hkbits] at h ⊢
              omega)
            rw [hadv, List.append_assoc, ← htake] at hpacked
            exact ⟨cell, hpacked, hresult⟩
          · obtain ⟨j, cell, hle, hpacked, hresult⟩ := hsplits.short (by
              rw [hadv]
              rw [hall] at h
              simp only [List.length_append, List.length_take_of_le hkbits] at h ⊢
              omega)
            rw [hadv, List.append_assoc, ← hall] at hle hpacked
            exact ⟨j, cell, hle, hpacked, hresult⟩
          · rw [hsplits.rest]
            exact skipCells_advance hkbits hkn
      · -- the last chunk
        obtain rfl : k = n := by omega
        rw [if_pos (.inr (by omega)), splitLoop_done (by omega)]
        refine ⟨fun h => ⟨[current ++ data.bits.take k], ?_, by simp⟩, fun h => ?_, ?_⟩
        · have htake : data.all.take k = data.bits.take k := by
            rw [Slice.all, List.take_append_of_le_length hkbits]
          rw [htake]
          rcases Nat.lt_or_eq_of_le (show (current ++ data.bits.take k).length ≤ MAX_BITS by omega)
            with hlt | hfull
          · refine .last (fun hnil => ?_) hlt
            rw [hnil] at hcur
            simp only [List.length_nil] at hcur
            omega
          · have hpacked := Packed.full hfull .nil
            rwa [List.append_nil] at hpacked
        · omega
        · rcases Nat.lt_or_eq_of_le hkbits with hlt | heq
          · rw [skipCells_of_lt hlt, advance_of_ne_nil]
            rw [ne_eq, List.drop_eq_nil_iff]
            omega
          · rw [heq, skipCells_length, List.drop_length]

theorem reverseChunks_eq (lastCell chunks : Cell) :
    reverseChunks lastCell chunks = chunks.reverse ++ lastCell := by
  induction chunks generalizing lastCell with
  | nil => rfl
  | cons chunk chunks ih => rw [reverseChunks, ih, List.reverse_cons, List.append_assoc,
      List.singleton_append]

theorem readAndStoreLargeData_zero (data : Slice) : readAndStoreLargeData data 0 = ([], data) := by
  rw [readAndStoreLargeData, splitIntoReverseChunks, splitLoop_done (Nat.zero_le _)]
  rfl

/-- The copy of the next bits. -/
theorem readAndStoreLargeData_packed {data : Slice} {size : ℕ} (h : size ≤ data.all.length) :
    Packed (data.all.take size) (readAndStoreLargeData data size).1 := by
  rcases Nat.eq_zero_or_pos size with rfl | hpos
  · rw [readAndStoreLargeData_zero]
    exact .nil
  · have hsplits : Splits size data [] [] (splitIntoReverseChunks data size) :=
      splitLoop_splits le_rfl (by decide) (Nat.zero_add _) hpos
    obtain ⟨cell, hpacked, hresult⟩ := hsplits.packed h
    show Packed _ (reverseChunks [] (splitIntoReverseChunks data size).1)
    rw [hresult, List.append_nil, reverseChunks_eq, List.reverse_reverse, List.append_nil]
    exact hpacked

/-- When there are fewer bits, the copy has the full chunks only. -/
theorem readAndStoreLargeData_partial {data : Slice} {size : ℕ} (h : data.all.length < size) :
    ∃ k, MAX_BITS * k ≤ data.all.length ∧
      Packed (data.all.take (MAX_BITS * k)) (readAndStoreLargeData data size).1 := by
  have hsplits : Splits size data [] [] (splitIntoReverseChunks data size) :=
    splitLoop_splits le_rfl (by decide) (Nat.zero_add _) (by omega)
  obtain ⟨k, cell, hle, hpacked, hresult⟩ := hsplits.short h
  refine ⟨k, hle, ?_⟩
  show Packed _ (reverseChunks [] (splitIntoReverseChunks data size).1)
  rw [hresult, List.append_nil, reverseChunks_eq, List.reverse_reverse, List.append_nil]
  exact hpacked

/-- There are not enough bits for one chunk. -/
theorem readAndStoreLargeData_short {data : Slice} {size : ℕ} (h : data.all.length < size)
    (hshort : data.all.length < MAX_BITS) : (readAndStoreLargeData data size).1 = [] := by
  obtain ⟨k, hle, hpacked⟩ := readAndStoreLargeData_partial h
  rw [MAX_BITS] at hle hshort
  obtain rfl : k = 0 := by omega
  exact hpacked.eq_nil_iff.mpr rfl

/-- The first cell of a large copy is full. -/
theorem readAndStoreLargeData_first {data : Slice} {size : ℕ} {first : Bits} {rest : Cell}
    (h : MAX_BITS ≤ size) (hcell : (readAndStoreLargeData data size).1 = first :: rest) :
    first.length = MAX_BITS := by
  rcases Nat.lt_or_ge data.all.length size with hshort | hlong
  · obtain ⟨k, hle, hpacked⟩ := readAndStoreLargeData_partial hshort
    rw [hcell] at hpacked
    have hpos : 0 < k := by
      refine Nat.pos_of_ne_zero fun hzero => ?_
      rw [hzero] at hpacked
      exact absurd (hpacked.eq_nil_iff.mpr rfl) (List.cons_ne_nil _ _)
    have hmul : MAX_BITS ≤ MAX_BITS * k := Nat.le_mul_of_pos_right _ hpos
    rw [hpacked.head, List.take_take, min_eq_left hmul,
      List.length_take_of_le (hmul.trans hle)]
  · have hpacked := readAndStoreLargeData_packed hlong
    rw [hcell] at hpacked
    rw [hpacked.head, List.take_take, min_eq_left h, List.length_take_of_le (h.trans hlong)]

theorem readAndStoreLargeData_rest {data : Slice} {size : ℕ} (hpos : 0 < size) :
    (readAndStoreLargeData data size).2 = skipCells size data.bits data.refs := by
  have hsplits : Splits size data [] [] (splitIntoReverseChunks data size) :=
    splitLoop_splits le_rfl (by decide) (Nat.zero_add _) hpos
  exact hsplits.rest

theorem all_readAndStoreLargeData (data : Slice) (size : ℕ) :
    (readAndStoreLargeData data size).2.all = data.all.drop size := by
  rcases Nat.eq_zero_or_pos size with rfl | hpos
  · rw [readAndStoreLargeData_zero, List.drop_zero]
  · rw [readAndStoreLargeData_rest hpos, all_skipCells]

/-! ## Collected bits and hashes -/

theorem gatherBits_ok {missing : Exception} {n : ℕ} {bits collected : Bits} {refs : Cell}
    {s : Slice} (h : gatherBits missing n bits refs = .ok (collected, s)) :
    n ≤ (Slice.all ⟨bits, refs⟩).length ∧ collected = (Slice.all ⟨bits, refs⟩).take n ∧
      s.all = (Slice.all ⟨bits, refs⟩).drop n := by
  induction refs generalizing n bits collected with
  | nil =>
    unfold gatherBits at h
    split at h
    · next hle =>
      cases h
      have hall : Slice.all ⟨bits, []⟩ = bits := List.append_nil bits
      rw [hall]
      exact ⟨hle, rfl, List.append_nil _⟩
    · exact absurd h nofun
  | cons bits' refs ih =>
    unfold gatherBits at h
    split at h
    · next hle =>
      cases h
      simp only [Slice.all, List.length_append]
      exact ⟨by omega, (List.take_append_of_le_length hle).symm,
        (List.drop_append_of_le_length hle).symm⟩
    · next hgt =>
      obtain ⟨⟨rest, s'⟩, hrest, h⟩ := except_bind_eq_ok.mp h
      cases h
      obtain ⟨hle, rfl, hs⟩ := ih hrest
      have hsum : n = bits.length + (n - bits.length) := by omega
      have hall : Slice.all ⟨bits, bits' :: refs⟩ = bits ++ Slice.all ⟨bits', refs⟩ := by
        simp only [Slice.all, List.flatten_cons]
      rw [hall, List.length_append, hs]
      refine ⟨by omega, ?_, ?_⟩
      · conv_rhs => rw [hsum, List.take_length_add_append]
      · conv_rhs => rw [hsum, List.drop_length_add_append]

theorem flatten_pushedSlices (bits : Bits) (refs : Cell) :
    (pushedSlices bits refs).flatten = bits ++ refs.flatten := by
  induction refs generalizing bits with
  | nil =>
    unfold pushedSlices
    split
    · next h => rw [h, List.flatten_nil, List.append_nil]
    · rw [List.flatten_cons]
  | cons bits' refs ih => rw [pushedSlices, List.flatten_cons, ih, List.flatten_cons]

theorem keccak256Slice_eq_ok {keccak256 : Bytes → Bytes32} {s : Slice} {hash : Bytes32} :
    keccak256Slice keccak256 s = .ok hash ↔
      (pushedSlices s.bits s.refs).length ≤ 255 ∧ s.all.length % 8 = 0 ∧
        keccak256 (bytesOf s.all) = hash := by
  unfold keccak256Slice keccak256Tuple
  rw [flatten_pushedSlices]
  split
  · next hfew =>
    split
    · next hwhole => simp only [Except.ok.injEq, Slice.all, hfew, hwhole, true_and]
    · next hwhole =>
      refine iff_of_false ?_ fun h => hwhole h.2.1
      intro h
      cases h
  · next hmany =>
    refine iff_of_false ?_ fun h => hmany h.1
    intro h
    cases h

end PythCrosschain.Ton
