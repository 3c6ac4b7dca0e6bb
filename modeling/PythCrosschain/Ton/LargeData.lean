import PythCrosschain.Ton.Utils

/-!
# TON: what `read_and_store_large_data` throws

`Utils.lean` has the copy without the checks of the machine. Here every load and store of
`utils.fc` can throw, and a loop that does not end has no result. The results are:

- `readLargeData_eq`: no load or store throws, the loops end, and the result is the one of
  `Utils.lean`;
- `large_data_read_iff`: the copy is what was asked for exactly where the chain of cells has enough
  bits. Where it has fewer, the call does not throw: bits that fill no chunk are in neither result.
-/

namespace PythCrosschain.Ton

open Tvm

/-- The bits that a cell can hold. -/
def MAX_CELL_BITS : ℕ := 1023

/-- `store_slice`, of the bits of a slice. -/
def storeBits (builder bits : Bits) : Result Bits :=
  if builder.length + bits.length ≤ MAX_CELL_BITS then .ok (builder ++ bits)
  else .error .cellOverflow

/-- What an iteration of `split_into_reverse_chunks` changes. -/
structure SplitState where
  data : Slice
  chunks : Cell
  totalBitsLoaded : ℕ
  currentChunk : Bits

/-- The chunk goes before the others when it is full or the last one. -/
def flushChunk (size : ℕ) (s : SplitState) : Result SplitState :=
  if s.currentChunk.length = MAX_BITS ∨ size - s.totalBitsLoaded = 0 then do
    let chunk ← storeBits [] s.currentChunk
    return { s with chunks := chunk :: s.chunks, currentChunk := [] }
  else .ok s

/-- On to the next cell, where this one has no bits left. -/
def nextCell (s : SplitState) : Result SplitState :=
  if s.data.bits.length = 0 ∧ s.data.refs ≠ [] then do
    let data ← s.data.followRef
    return { s with data }
  else .ok s

/-- An iteration of `split_into_reverse_chunks`. -/
def splitStep (size : ℕ) (s : SplitState) : Result SplitState := do
  let bitsToLoad := min (min s.data.bits.length (MAX_BITS - s.currentChunk.length))
    (size - s.totalBitsLoaded)
  let (loaded, data) ← loadBits bitsToLoad s.data
  let currentChunk ← storeBits s.currentChunk loaded
  let s ← flushChunk size
    { s with data, currentChunk, totalBitsLoaded := s.totalBitsLoaded + bitsToLoad }
  nextCell s

/-- The loop of `split_into_reverse_chunks`, which has no result when `fuel` iterations do not
end it. -/
def splitWhile (size : ℕ) : ℕ → SplitState → Option (Result (Cell × Slice))
  | fuel, s =>
    if ¬s.data.IsEmpty ∧ s.totalBitsLoaded < size then
      match fuel with
      | 0 => none
      | fuel + 1 =>
        match splitStep size s with
        | .ok s => splitWhile size fuel s
        | .error e => some (.error e)
    else some (.ok (s.chunks, s.data))

/-- The loop of `read_and_store_large_data`. -/
def restoreChunks (lastCell : Cell) : Cell → Result Cell
  | [] => .ok lastCell
  | bits :: chunks => do
    let (loaded, _) ← loadBits bits.length ⟨bits, chunks⟩
    let cb ← storeBits [] loaded
    restoreChunks (cb :: lastCell) chunks

/-- `read_and_store_large_data`, with at most `fuel` iterations of the first loop. -/
def readLargeData (fuel : ℕ) (inMsgBody : Slice) (size : ℕ) : Option (Result (Cell × Slice)) :=
  (splitWhile size fuel ⟨inMsgBody, [], 0, []⟩).map fun result => do
    let (chunks, remaining) ← result
    let lastCell ← restoreChunks [] chunks
    return (lastCell, remaining)

/-! ## Nothing throws -/

theorem storeBits_of_le {builder bits : Bits} (h : builder.length + bits.length ≤ MAX_BITS) :
    storeBits builder bits = .ok (builder ++ bits) :=
  if_pos (h.trans (by decide))

theorem nextCell_eq (s : SplitState) : nextCell s = .ok { s with data := advance s.data } := by
  obtain ⟨⟨bits, refs⟩, chunks, total, current⟩ := s
  cases bits with
  | nil =>
    cases refs with
    | nil => rfl
    | cons bits' refs => rfl
  | cons bit bits => exact if_neg fun h => absurd h.1 (Nat.succ_ne_zero _)

theorem flushChunk_eq {size : ℕ} {s : SplitState} (h : s.currentChunk.length ≤ MAX_BITS) :
    flushChunk size s = .ok (
      if s.currentChunk.length = MAX_BITS ∨ size - s.totalBitsLoaded = 0 then
        { s with chunks := s.currentChunk :: s.chunks, currentChunk := [] }
      else s) := by
  unfold flushChunk
  split
  · rw [storeBits_of_le (by rw [List.length_nil, Nat.zero_add]; exact h), except_ok_bind]
    rfl
  · rfl

/-- An iteration loads what fits the chunk and the cell. -/
theorem splitStep_eq {size : ℕ} {s : SplitState} (h : s.currentChunk.length ≤ MAX_BITS) :
    ∃ k, k = min (min s.data.bits.length (MAX_BITS - s.currentChunk.length))
        (size - s.totalBitsLoaded) ∧
      splitStep size s = .ok (
        let currentChunk := s.currentChunk ++ s.data.bits.take k
        let data := advance { s.data with bits := s.data.bits.drop k }
        let totalBitsLoaded := s.totalBitsLoaded + k
        if currentChunk.length = MAX_BITS ∨ size - totalBitsLoaded = 0 then
          ⟨data, currentChunk :: s.chunks, totalBitsLoaded, []⟩
        else ⟨data, s.chunks, totalBitsLoaded, currentChunk⟩) := by
  refine ⟨_, rfl, ?_⟩
  generalize hk : min (min s.data.bits.length (MAX_BITS - s.currentChunk.length))
    (size - s.totalBitsLoaded) = k
  have hbits : k ≤ s.data.bits.length := by omega
  have hroom : s.currentChunk.length + (s.data.bits.take k).length ≤ MAX_BITS := by
    rw [List.length_take_of_le hbits]
    omega
  unfold splitStep
  dsimp only
  rw [hk, loadBits_eq_ok.mpr ⟨hbits, rfl, rfl⟩, except_ok_bind]
  dsimp only
  rw [storeBits_of_le hroom, except_ok_bind,
    flushChunk_eq (by rw [List.length_append]; exact hroom), except_ok_bind, nextCell_eq]
  dsimp only
  split
  · rfl
  · rfl

/-- The loop is the one without checks. -/
theorem splitWhile_eq {size fuel : ℕ} {s : SplitState}
    (hfuel : s.data.all.length + s.data.refs.length ≤ fuel)
    (hcurrent : s.currentChunk.length < MAX_BITS) :
    splitWhile size fuel s =
      some (.ok (splitLoop size fuel s.data s.chunks s.totalBitsLoaded s.currentChunk)) := by
  induction fuel generalizing s with
  | zero =>
    have hempty : s.data.IsEmpty := by
      have hlength : s.data.bits.length ≤ s.data.all.length := by simp [Slice.all]
      exact ⟨List.length_eq_zero_iff.mp (by omega), List.length_eq_zero_iff.mp (by omega)⟩
    rw [splitWhile, if_neg fun h => h.1 hempty, splitLoop]
  | succ fuel ih =>
    by_cases hgo : ¬s.data.IsEmpty ∧ s.totalBitsLoaded < size
    · obtain ⟨k, hk, hstep⟩ := @splitStep_eq size s hcurrent.le
      have hbits : k ≤ s.data.bits.length := by omega
      have hmeasure := measure_advance hbits (by
        by_cases hnil : s.data.bits = []
        · exact .inr hnil
        · have hpos := List.length_pos_iff.mpr hnil
          exact .inl (by omega)) hgo.1
      have hchunk : (s.currentChunk ++ s.data.bits.take k).length ≤ MAX_BITS := by
        rw [List.length_append, List.length_take_of_le hbits]
        omega
      rw [splitWhile, if_pos hgo, splitLoop, if_pos hgo, ← hk]
      dsimp only at hstep ⊢
      rw [hstep]
      dsimp only
      by_cases hflush : (s.currentChunk ++ s.data.bits.take k).length = MAX_BITS ∨
          size - (s.totalBitsLoaded + k) = 0
      · rw [if_pos hflush, if_pos hflush]
        exact ih (Nat.le_of_lt_succ (hmeasure.trans_le hfuel)) (show 0 < MAX_BITS by decide)
      · rw [if_neg hflush, if_neg hflush]
        exact ih (Nat.le_of_lt_succ (hmeasure.trans_le hfuel))
          (Nat.lt_of_le_of_ne hchunk fun h => hflush (.inl h))
    · rw [splitWhile, if_neg hgo, splitLoop, if_neg hgo]

theorem restoreChunks_eq {lastCell chunks : Cell} (h : ∀ bits ∈ chunks, bits.length ≤ MAX_BITS) :
    restoreChunks lastCell chunks = .ok (reverseChunks lastCell chunks) := by
  induction chunks generalizing lastCell with
  | nil => rfl
  | cons bits chunks ih =>
    have hbits := h bits List.mem_cons_self
    have hload : loadBits bits.length ⟨bits, chunks⟩ = .ok (bits, ⟨[], chunks⟩) :=
      loadBits_eq_ok.mpr ⟨le_rfl, List.take_length.symm, by rw [List.drop_length]⟩
    rw [restoreChunks, hload, except_ok_bind]
    dsimp only
    rw [storeBits_of_le (by rw [List.length_nil, Nat.zero_add]; exact hbits), except_ok_bind,
      List.nil_append, reverseChunks]
    exact ih fun bits hmem => h bits (List.mem_cons_of_mem _ hmem)

theorem Packed.length_le {bits : Bits} {cell : Cell} (h : Packed bits cell) {chunk : Bits}
    (hmem : chunk ∈ cell) : chunk.length ≤ MAX_BITS := by
  induction h with
  | nil => cases hmem
  | last _ hshort =>
    rw [List.mem_singleton.mp hmem]
    exact hshort.le
  | full hfull _ ih =>
    rcases List.mem_cons.mp hmem with rfl | hmem
    · exact hfull.le
    · exact ih hmem

/-- The copy is always made of full cells and one shorter cell. -/
theorem exists_packed (data : Slice) (size : ℕ) :
    ∃ bits, Packed bits (readAndStoreLargeData data size).1 := by
  rcases Nat.lt_or_ge data.all.length size with hshort | hlong
  · obtain ⟨k, -, hpacked⟩ := readAndStoreLargeData_partial hshort
    exact ⟨_, hpacked⟩
  · exact ⟨_, readAndStoreLargeData_packed hlong⟩

/-- **The call never throws.** -/
theorem readLargeData_eq (data : Slice) (size : ℕ) :
    readLargeData (data.all.length + data.refs.length) data size
      = some (.ok (readAndStoreLargeData data size)) := by
  have hchunks : ∀ bits ∈ (splitIntoReverseChunks data size).1, bits.length ≤ MAX_BITS := by
    intro bits hmem
    obtain ⟨all, hpacked⟩ := exists_packed data size
    refine hpacked.length_le ?_
    show bits ∈ reverseChunks [] (splitIntoReverseChunks data size).1
    rw [reverseChunks_eq, List.append_nil]
    exact List.mem_reverse.mpr hmem
  have hsplit : splitWhile size (data.all.length + data.refs.length) ⟨data, [], 0, []⟩
      = some (.ok (splitIntoReverseChunks data size)) :=
    splitWhile_eq le_rfl (show 0 < MAX_BITS by decide)
  unfold readLargeData
  rw [hsplit, Option.map_some, except_ok_bind]
  refine congrArg some ?_
  show (restoreChunks [] (splitIntoReverseChunks data size).1 >>= _) = _
  rw [restoreChunks_eq hchunks]
  rfl

/-! ## What was asked for -/

/-- The first `size` bits in cells of at most `MAX_BITS` and the rest, or an exception where the
chain has fewer bits. -/
def ReadsOrThrows (data : Slice) (size : ℕ) (result : Result (Cell × Slice)) : Prop :=
  if size ≤ data.all.length then
    ∃ cell remaining, result = .ok (cell, remaining) ∧ (∀ bits ∈ cell, bits.length ≤ MAX_BITS) ∧
      cell.flatten = data.all.take size ∧ remaining.all = data.all.drop size
  else ∃ e, result = .error e

/-- **The copy is right exactly where the chain is long enough.** -/
theorem large_data_read_iff (data : Slice) (size : ℕ) :
    (∃ result, readLargeData (data.all.length + data.refs.length) data size = some result ∧
      ReadsOrThrows data size result) ↔ size ≤ data.all.length := by
  rw [readLargeData_eq]
  constructor
  · rintro ⟨result, hresult, hreads⟩
    by_contra hshort
    cases hresult
    rw [ReadsOrThrows, if_neg hshort] at hreads
    obtain ⟨e, he⟩ := hreads
    cases he
  · intro hlong
    have hpacked := readAndStoreLargeData_packed hlong
    refine ⟨_, rfl, ?_⟩
    rw [ReadsOrThrows, if_pos hlong]
    exact ⟨_, _, rfl, fun bits hmem => hpacked.length_le hmem, hpacked.flatten,
      all_readAndStoreLargeData data size⟩

/-- One cell of eight bits. -/
def exShort : Slice := ⟨List.replicate 8 true, []⟩

/-- Sixteen of its bits are read as no bits, and nothing is left. -/
theorem short_chain_not_thrown :
    readLargeData 8 exShort 16 = some (.ok ([], ⟨[], []⟩)) ∧
      ¬∃ result, readLargeData 8 exShort 16 = some result ∧ ReadsOrThrows exShort 16 result := by
  have hrun : readLargeData 8 exShort 16 = some (.ok ([], ⟨[], []⟩)) := readLargeData_eq exShort 16
  refine ⟨hrun, ?_⟩
  rintro ⟨result, hresult, hreads⟩
  rw [hrun] at hresult
  cases hresult
  rw [ReadsOrThrows, if_neg (by decide)] at hreads
  obtain ⟨e, he⟩ := hreads
  cases he

end PythCrosschain.Ton
