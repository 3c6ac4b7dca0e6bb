import PythCrosschain.Lib.Outcomes
import PythCrosschain.Ton.Utils

/-!
# Byte strings in chains of cells

`createCellChain` of the SDK puts 127 bytes into each cell. `Laid` says that a slice holds given
bytes of such a chain, with room for `c` of them in its own cell. A load reads what the strict
parser reads as long as it stays in the cell (`Laid.load`), a large read goes on through the
cells (`Laid.large`). After a load that uses a cell up the slice has no room left, after a large
read it is in the next cell.
-/

namespace PythCrosschain.Ton

open Tvm

/-- The chunks of a buffer, at most `fuel` of them. -/
def bufferToChunks (chunkSizeBytes : ℕ) : ℕ → Bytes → List Bytes
  | 0, _ => []
  | _, [] => []
  | fuel + 1, buff =>
    buff.take chunkSizeBytes :: bufferToChunks chunkSizeBytes fuel (buff.drop chunkSizeBytes)

/-- `createCellChain`. A chunk has at least a byte. There is no cell without a byte, where the
source throws. -/
def createCellChain (buffer : Bytes) : Cell :=
  (bufferToChunks 127 buffer.length buffer).map bitsOf

theorem bufferToChunks_packed {fuel : ℕ} {buffer : Bytes} (h : buffer.length ≤ fuel) :
    Packed (bitsOf buffer) ((bufferToChunks 127 fuel buffer).map bitsOf) := by
  induction fuel generalizing buffer with
  | zero =>
    obtain rfl : buffer = [] := List.length_eq_zero_iff.mp (Nat.le_zero.mp h)
    exact .nil
  | succ fuel ih =>
    cases buffer with
    | nil => exact .nil
    | cons b rest =>
      have htail := @ih ((b :: rest).drop 127) (by rw [List.length_drop]; omega)
      show Packed _ (bitsOf ((b :: rest).take 127) ::
        (bufferToChunks 127 fuel ((b :: rest).drop 127)).map bitsOf)
      by_cases hlong : 127 ≤ (b :: rest).length
      · have hsplit : bitsOf (b :: rest)
            = bitsOf ((b :: rest).take 127) ++ bitsOf ((b :: rest).drop 127) := by
          rw [← bitsOf_append, List.take_append_drop]
        rw [hsplit]
        refine .full ?_ htail
        rw [length_bitsOf, List.length_take_of_le hlong, MAX_BITS]
      · have hdrop : (b :: rest).drop 127 = [] := List.drop_eq_nil_of_le (by omega)
        have hnil : bufferToChunks 127 fuel [] = [] := by cases fuel <;> rfl
        rw [hdrop, hnil, List.map_nil, List.take_of_length_le (by omega)]
        refine .last ?_ ?_
        · refine List.ne_nil_of_length_pos ?_
          rw [length_bitsOf, List.length_cons]
          omega
        · rw [length_bitsOf, MAX_BITS]
          omega

theorem createCellChain_packed (buffer : Bytes) :
    Packed (bitsOf buffer) (createCellChain buffer) :=
  bufferToChunks_packed le_rfl

theorem Packed.tail {bits first : Bits} {rest : Cell} (h : Packed bits (first :: rest)) :
    Packed (bits.drop MAX_BITS) rest := by
  cases h with
  | last _ hshort =>
    rw [List.drop_eq_nil_of_le hshort.le]
    exact .nil
  | full hfull hrest => rwa [← hfull, List.drop_left]

/-- There is one layout of a bit string. -/
theorem Packed.unique {bits : Bits} {cell cell' : Cell} (h : Packed bits cell)
    (h' : Packed bits cell') : cell = cell' := by
  induction cell generalizing bits cell' with
  | nil => exact (h'.eq_nil_iff.mpr (h.eq_nil_iff.mp rfl)).symm
  | cons first rest ih =>
    cases cell' with
    | nil => exact absurd (h.eq_nil_iff.mpr (h'.eq_nil_iff.mp rfl)) (List.cons_ne_nil _ _)
    | cons first' rest' => rw [h.head, h'.head, ih h.tail h'.tail]

/-! ## Slices of a chain -/

/-- The slice holds these bytes, and its cell has room for `c` of them. -/
structure Laid (cs : Slice) (bytes : Bytes) (c : ℕ) : Prop where
  bits : cs.bits = bitsOf (bytes.take c)
  refs : Packed (bitsOf (bytes.drop c)) cs.refs

theorem laid_beginParse {cell : Cell} {bytes : Bytes} {cs : Slice}
    (h : Packed (bitsOf bytes) cell) (hcs : beginParse cell = .ok cs) : Laid cs bytes 127 := by
  cases cell with
  | nil => cases hcs
  | cons first rest =>
    cases hcs
    refine ⟨?_, ?_⟩
    · rw [h.head, bitsOf_take]
      rfl
    · rw [bitsOf_drop]
      exact h.tail

/-- Bytes that lie in one cell. -/
theorem laid_single {bytes : Bytes} {c : ℕ} (h : bytes.length ≤ c) :
    Laid ⟨bitsOf bytes, []⟩ bytes c := by
  refine ⟨by rw [List.take_of_length_le h], ?_⟩
  rw [List.drop_eq_nil_of_le h]
  exact .nil

namespace Laid

variable {cs : Slice} {bytes : Bytes} {c : ℕ}

theorem all (h : Laid cs bytes c) : cs.all = bitsOf bytes := by
  rw [Slice.all, h.bits, h.refs.flatten, ← bitsOf_append, List.take_append_drop]

theorem isEmpty_iff (h : Laid cs bytes c) : cs.IsEmpty ↔ bytes = [] := by
  rw [Slice.IsEmpty]
  constructor
  · rintro ⟨hbits, hrefs⟩
    have hall := h.all
    rw [Slice.all, hbits, hrefs] at hall
    exact bitsOf_injective hall.symm
  · rintro rfl
    refine ⟨by rw [h.bits, List.take_nil]; rfl, ?_⟩
    rw [h.refs.eq_nil_iff, List.drop_nil]
    rfl

/-- A load within the cell. -/
theorem load (h : Laid cs bytes c) {w k : ℕ} (hw : w = 8 * k) (hk : k ≤ c) :
    Agree (fun r s => r.1 = s.1 ∧ Laid r.2 s.2 (c - k)) (loadInt w cs)
      (Parser.uint w k bytes) := by
  have hlen : cs.bits.length = 8 * min c bytes.length := by
    rw [h.bits, length_bitsOf, List.length_take]
  unfold loadInt
  show Agree _ _ ((Parser.take k bytes).bind fun r => some (BitVec.ofNat w (natBE r.1), r.2))
  rw [Parser.take]
  by_cases hle : k ≤ bytes.length
  · have hfits : w ≤ cs.bits.length := by omega
    rw [if_pos hfits, if_pos hle]
    refine ⟨?_, ?_, ?_⟩
    · show BitVec.ofNat w (natBits (cs.bits.take w)) = BitVec.ofNat w (natBE (bytes.take k))
      rw [hw, h.bits, ← bitsOf_take, List.take_take, min_eq_left hk, natBits_bitsOf]
    · show cs.bits.drop w = bitsOf ((bytes.drop k).take (c - k))
      rw [hw, h.bits, ← bitsOf_drop, List.drop_take]
    · show Packed (bitsOf ((bytes.drop k).drop (c - k))) cs.refs
      rw [List.drop_drop, Nat.add_sub_cancel' hk]
      exact h.refs
  · rw [if_neg (show ¬w ≤ cs.bits.length by omega), if_neg hle]
    trivial

/-- A load as a step, with the bytes that it reads. -/
theorem stepAt {α β : Type} {ψ : α → β × Bytes → Prop} (h : Laid cs bytes c) {w k : ℕ}
    (hw : w = 8 * k) (hk : k ≤ c) {f : BitVec w × Slice → Result α} {q : BitVec w → Parser β}
    (hnext : k ≤ bytes.length → ∀ s, Laid s (bytes.drop k) (c - k) →
      Agree ψ (f (BitVec.ofNat w (natBE (bytes.take k)), s))
        (q (BitVec.ofNat w (natBE (bytes.take k))) (bytes.drop k))) :
    Agree ψ (loadInt w cs >>= f) ((Parser.uint w k >>= q) bytes) := by
  have hload := h.load hw hk
  by_cases hle : k ≤ bytes.length
  · have hrun : Parser.uint w k bytes
        = some (BitVec.ofNat w (natBE (bytes.take k)), bytes.drop k) := by
      show (Parser.take k bytes).bind _ = _
      rw [Parser.take, if_pos hle]
      rfl
    obtain ⟨⟨v, s⟩, hread, hv, hs⟩ := hload.of_some hrun
    rw [Parser.bind_run, hrun, hread]
    obtain rfl : v = _ := hv
    exact hnext hle s hs
  · have hrun : Parser.uint w k bytes = none := by
      show (Parser.take k bytes).bind _ = _
      rw [Parser.take, if_neg hle]
      rfl
    obtain ⟨e, hread⟩ := hload.of_none hrun
    rw [Parser.bind_run, hrun, hread]
    exact .fails rfl

/-- A load as a step. -/
theorem step {α β : Type} {ψ : α → β × Bytes → Prop} (h : Laid cs bytes c) {w k : ℕ}
    (hw : w = 8 * k) (hk : k ≤ c) {f : BitVec w × Slice → Result α} {q : BitVec w → Parser β}
    (hnext : ∀ v s rest, Laid s rest (c - k) → Agree ψ (f (v, s)) (q v rest)) :
    Agree ψ (loadInt w cs >>= f) ((Parser.uint w k >>= q) bytes) :=
  h.stepAt hw hk fun _ s hs => hnext _ s _ hs

/-- A load does not go on into the next cell. -/
theorem load_short (h : Laid cs bytes c) {w k : ℕ} (hw : w = 8 * k) (hk : c < k) :
    loadInt w cs = .error .cellUnderflow := by
  have hlen : cs.bits.length = 8 * min c bytes.length := by
    rw [h.bits, length_bitsOf, List.length_take]
  rw [loadInt, if_neg (show ¬w ≤ cs.bits.length by omega)]

end Laid

/-! ## Large reads -/

/-- The room in the cell that is reached after `m` bytes. -/
def roomAfter (c m : ℕ) : ℕ := 127 - (127 - c + m) % 127

theorem roomAfter_roomAfter (c a b : ℕ) :
    roomAfter (roomAfter c a) b = roomAfter c (a + b) := by
  unfold roomAfter
  omega

theorem roomAfter_le (c m : ℕ) : roomAfter c m ≤ 127 := Nat.sub_le _ _

theorem laid_skipCells {bits : Bits} {refs : Cell} {bytes : Bytes} {c m : ℕ}
    (h : Laid ⟨bits, refs⟩ bytes c) (hc : c ≤ 127) (hpos : 0 < m) (hle : m ≤ bytes.length) :
    Laid (skipCells (8 * m) bits refs) (bytes.drop m) (roomAfter c m) := by
  have hbits : bits = bitsOf (bytes.take c) := h.bits
  have hbitsDrop : bits.drop (8 * m) = bitsOf ((bytes.drop m).take (c - m)) := by
    rw [hbits, ← bitsOf_drop, List.drop_take]
  induction refs generalizing bits bytes c m with
  | nil =>
    have hnil : bytes.drop c = [] := bitsOf_injective (h.refs.eq_nil_iff.mp rfl)
    have hlen : bytes.length ≤ c := List.drop_eq_nil_iff.mp hnil
    have hrest : (bytes.drop m).length ≤ roomAfter c m := by
      rw [List.length_drop, roomAfter]
      omega
    have hrest' : (bytes.drop m).length ≤ c - m := by
      rw [List.length_drop]
      omega
    rw [skipCells, hbitsDrop, List.take_of_length_le hrest']
    exact laid_single hrest
  | cons bits' refs ih =>
    have hlong : c < bytes.length := by
      by_contra hshort
      have hnil : bytes.drop c = [] := List.drop_eq_nil_of_le (Nat.not_lt.mp hshort)
      have hrefs := h.refs
      rw [hnil] at hrefs
      exact absurd (hrefs.eq_nil_iff.mpr rfl) (List.cons_ne_nil _ _)
    have hlen : bits.length = 8 * c := by
      rw [hbits, length_bitsOf, List.length_take_of_le hlong.le]
    have hnext : Laid ⟨bits', refs⟩ (bytes.drop c) 127 := laid_beginParse h.refs rfl
    rw [skipCells, hlen]
    rcases Nat.lt_trichotomy m c with hlt | rfl | hgt
    · have hroom : roomAfter c m = c - m := by
        unfold roomAfter
        omega
      rw [if_pos (by omega), hroom]
      refine ⟨hbitsDrop, ?_⟩
      rw [List.drop_drop, Nat.add_sub_cancel' hlt.le]
      exact h.refs
    · have hroom : roomAfter m m = 127 := by
        unfold roomAfter
        omega
      rw [if_neg (lt_irrefl _), if_pos rfl, hroom]
      exact hnext
    · have hroom : roomAfter c m = roomAfter 127 (m - c) := by
        unfold roomAfter
        omega
      have hdrop : bytes.drop m = (bytes.drop c).drop (m - c) := by
        rw [List.drop_drop, Nat.add_sub_cancel' hgt.le]
      have hsub : 8 * m - 8 * c = 8 * (m - c) := by omega
      rw [if_neg (by omega), if_neg (by omega), hroom, hdrop, hsub]
      refine ih hnext le_rfl (by omega) (by rw [List.length_drop]; omega) hnext.bits ?_
      have hbits' : bits' = bitsOf ((bytes.drop c).take 127) := hnext.bits
      rw [hbits', ← bitsOf_drop, List.drop_take]

namespace Laid

variable {cs : Slice} {bytes : Bytes} {c m : ℕ}

/-- **A large read**: the copy, and the slice behind it. -/
theorem large (h : Laid cs bytes c) (hc : c ≤ 127) (hpos : 0 < m) (hle : m ≤ bytes.length) :
    (readAndStoreLargeData cs (8 * m)).1 = createCellChain (bytes.take m) ∧
      Laid (readAndStoreLargeData cs (8 * m)).2 (bytes.drop m) (roomAfter c m) := by
  have hlen : 8 * m ≤ cs.all.length := by
    rw [h.all, length_bitsOf]
    omega
  constructor
  · have hpacked := readAndStoreLargeData_packed hlen
    rw [h.all, ← bitsOf_take] at hpacked
    exact hpacked.unique (createCellChain_packed _)
  · rw [readAndStoreLargeData_rest (by omega)]
    exact laid_skipCells h hc hpos hle

end Laid

end PythCrosschain.Ton
