import PythCrosschain.Evm.Solidity
import PythCrosschain.Lib.StrictParser

/-!
# Byte arrays in calldata and in memory

A `bytes calldata` value is an offset and a length in the calldata; a `bytes memory`
value is its content and the memory around it. The `UnsafeCalldataBytesLib` and
`UnsafeBytesLib` functions load a word at an address and cut it, whether or not the
bytes lie in the array. All addresses are words and wrap around.

The results are:

- `CalldataBytes.drop_take_bytes` and `MemoryBytes.readBytes_byteAt`: what is read
  within an array is the content of the array;
- `TracksAt`, with one rule for each library function: an unchecked reader with a
  word as its offset tracks a strict parser, as long as the offset does not wrap.
-/

namespace PythCrosschain

/-! ## Loads -/

/-- The bytes at `k` consecutive addresses. -/
def readBytes (byteAt : Uint256 → UInt8) (address : Uint256) (k : Nat) : Bytes :=
  (List.range k).map fun i => byteAt (address + BitVec.ofNat 256 i)

/-- The word at an address. -/
def loadWord (byteAt : Uint256 → UInt8) (address : Uint256) : Bytes32 :=
  BitVec.ofNat 256 (natBE (readBytes byteAt address 32))

section Loads

variable {byteAt : Uint256 → UInt8} {address : Uint256}

@[simp] theorem length_readBytes (k : Nat) : (readBytes byteAt address k).length = k := by
  simp [readBytes]

theorem readBytes_add (k l : Nat) : readBytes byteAt address (k + l)
    = readBytes byteAt address k ++ readBytes byteAt (address + BitVec.ofNat 256 k) l := by
  simp only [readBytes, List.range_add, List.map_append, List.map_map]
  refine congrArg _ (List.map_congr_left fun i _ => ?_)
  simp only [Function.comp_apply, BitVec.add_assoc, BitVec.ofNat_add]

theorem drop_take_readBytes {k l n : Nat} (h : k + l ≤ n) :
    ((readBytes byteAt address n).drop k).take l
      = readBytes byteAt (address + BitVec.ofNat 256 k) l := by
  obtain ⟨d, rfl⟩ := Nat.exists_eq_add_of_le h
  rw [Nat.add_assoc, readBytes_add, readBytes_add l d, List.drop_left' (length_readBytes k),
    List.take_left' (length_readBytes l)]

/-- The first `k` bytes of a word. -/
theorem loadWord_high {w k l : Nat} (hkl : k + l = 32) :
    (loadWord byteAt address >>> (8 * l)).setWidth w
      = BitVec.ofNat w (natBE (readBytes byteAt address k)) := by
  have hlt : natBE (readBytes byteAt address 32) < 2 ^ 256 := by
    simpa using natBE_lt (readBytes byteAt address 32)
  have hlow : natBE (readBytes byteAt (address + BitVec.ofNat 256 k) l) < 2 ^ (8 * l) := by
    rw [Nat.pow_mul]
    simpa using natBE_lt (readBytes byteAt (address + BitVec.ofNat 256 k) l)
  have hword : natBE (readBytes byteAt address 32)
      = natBE (readBytes byteAt address k) * 2 ^ (8 * l)
        + natBE (readBytes byteAt (address + BitVec.ofNat 256 k) l) := by
    rw [← hkl, readBytes_add, natBE_append, length_readBytes, Nat.pow_mul]
  apply BitVec.eq_of_toNat_eq
  rw [BitVec.toNat_setWidth, BitVec.toNat_ushiftRight, loadWord, BitVec.toNat_ofNat,
    BitVec.toNat_ofNat, Nat.mod_eq_of_lt hlt, Nat.shiftRight_eq_div_pow, hword, Nat.add_comm,
    Nat.add_mul_div_right _ _ (Nat.two_pow_pos _), Nat.div_eq_of_lt hlow, Nat.zero_add]

/-- The last `l` bytes of a word. -/
theorem loadWord_low {k l : Nat} (hkl : k + l = 32) :
    (loadWord byteAt address).setWidth (8 * l)
      = BitVec.ofNat (8 * l) (natBE (readBytes byteAt (address + BitVec.ofNat 256 k) l)) := by
  have hword : natBE (readBytes byteAt address 32)
      = natBE (readBytes byteAt address k) * 2 ^ (8 * l)
        + natBE (readBytes byteAt (address + BitVec.ofNat 256 k) l) := by
    rw [← hkl, readBytes_add, natBE_append, length_readBytes, Nat.pow_mul]
  have hdvd : 2 ^ (8 * l) ∣ 2 ^ 256 := Nat.pow_dvd_pow 2 (by omega)
  apply BitVec.eq_of_toNat_eq
  rw [BitVec.toNat_setWidth, loadWord, BitVec.toNat_ofNat, BitVec.toNat_ofNat,
    Nat.mod_mod_of_dvd _ hdvd, hword, Nat.add_comm, Nat.add_mul_mod_self_right]

end Loads

/-! ## `bytes calldata` -/

/-- A `bytes calldata` value. -/
structure CalldataBytes where
  offset : Uint256
  length : Uint256
deriving DecidableEq, Repr

/-- What a call finds around its byte arrays: the whole calldata, the memory around
the copy of a calldata array and around an array that another contract returned, and
whether the bounds of a calldata slice are checked. -/
structure Machine where
  calldata : Uint256 → UInt8
  aroundCopy : CalldataBytes → Uint256 → UInt8
  aroundReturned : Uint256 → UInt8
  checksSlices : Bool

namespace CalldataBytes

/-- The content of the array. -/
def bytes (m : Machine) (_bytes : CalldataBytes) : Bytes :=
  readBytes m.calldata _bytes.offset _bytes.length.toNat

@[simp] theorem length_bytes (m : Machine) (b : CalldataBytes) :
    (b.bytes m).length = b.length.toNat := by
  simp [bytes]

/-- What is read within the array is its content. -/
theorem drop_take_bytes {m : Machine} {b : CalldataBytes} {start : Uint256} {k : Nat}
    (h : start.toNat + k ≤ b.length.toNat) :
    readBytes m.calldata (b.offset + start) k = ((b.bytes m).drop start.toNat).take k := by
  rw [bytes, drop_take_readBytes h, BitVec.ofNat_toNat, BitVec.setWidth_eq]

end CalldataBytes

namespace UnsafeCalldataBytesLib

variable {ε : Type} (m : Machine) (_bytes : CalldataBytes) (_start : Uint256)

/-- `_bytes[_start:_start + _length]`. -/
def slice (_length : Uint256) : Exec ε CalldataBytes := do
  let stop ← checkedAdd _start _length
  require (m.checksSlices → stop ≤ _bytes.length) .noData
  return { offset := _bytes.offset + _start, length := _length }

/-- `_bytes[_start:_bytes.length]`. -/
def sliceFrom : Exec ε CalldataBytes := do
  require (m.checksSlices → _start ≤ _bytes.length) .noData
  return { offset := _bytes.offset + _start, length := _bytes.length - _start }

theorem slice_eq_ok {s : CalldataBytes} {_length : Uint256} :
    (slice m _bytes _start _length : Exec ε _) = .ok s ↔
      _start.toNat + _length.toNat < 2 ^ 256 ∧
      (m.checksSlices → _start.toNat + _length.toNat ≤ _bytes.length.toNat) ∧
      s = { offset := _bytes.offset + _start, length := _length } := by
  simp only [slice, bind_eq_ok, checkedAdd_eq_ok, require_eq_ok, pure_eq_ok, BitVec.le_def]
  constructor
  · rintro ⟨stop, hstop, -, hcheck, rfl⟩
    exact ⟨hstop ▸ stop.isLt, fun hc => hstop ▸ hcheck hc, rfl⟩
  · rintro ⟨hlt, hcheck, rfl⟩
    refine ⟨BitVec.ofNat 256 (_start.toNat + _length.toNat), ?_, (), ?_, rfl⟩
    · rw [BitVec.toNat_ofNat, Nat.mod_eq_of_lt hlt]
    · rwa [BitVec.toNat_ofNat, Nat.mod_eq_of_lt hlt]

theorem sliceFrom_eq_ok {s : CalldataBytes} :
    (sliceFrom m _bytes _start : Exec ε _) = .ok s ↔
      (m.checksSlices → _start.toNat ≤ _bytes.length.toNat) ∧
      s = { offset := _bytes.offset + _start, length := _bytes.length - _start } := by
  simp only [sliceFrom, bind_eq_ok, require_eq_ok, pure_eq_ok, BitVec.le_def]
  constructor
  · rintro ⟨-, hcheck, rfl⟩
    exact ⟨hcheck, rfl⟩
  · rintro ⟨hcheck, rfl⟩
    exact ⟨(), hcheck, rfl⟩

def calldataload (address : Uint256) : Bytes32 := loadWord m.calldata address

def toAddress : Address :=
  (calldataload m (_bytes.offset + _start) >>> 96).setWidth 160

def toUint8 : Uint8 :=
  (calldataload m (_bytes.offset + _start) >>> 248).setWidth 8

def toUint16 : Uint16 :=
  (calldataload m (_bytes.offset + _start) >>> 240).setWidth 16

def toUint32 : Uint32 :=
  (calldataload m (_bytes.offset + _start) >>> 224).setWidth 32

def toUint64 : Uint64 :=
  (calldataload m (_bytes.offset + _start) >>> 192).setWidth 64

def toBytes32 : Bytes32 := calldataload m (_bytes.offset + _start)

end UnsafeCalldataBytesLib

/-! ## `bytes memory` -/

/-- A `bytes memory` value: its content, and the memory around it at addresses
relative to the first byte of the content. -/
structure MemoryBytes where
  content : Bytes
  around : Uint256 → UInt8

namespace MemoryBytes

def byteAt (_bytes : MemoryBytes) (i : Uint256) : UInt8 :=
  _bytes.content.getD i.toNat (_bytes.around i)

/-- What is read within the array is its content. -/
theorem readBytes_byteAt {b : MemoryBytes} {start : Uint256} {k : Nat}
    (h : start.toNat + k ≤ b.content.length) (hwrap : start.toNat + k < 2 ^ 256) :
    readBytes b.byteAt start k = (b.content.drop start.toNat).take k := by
  apply List.ext_getElem
  · simp only [length_readBytes, List.length_take, List.length_drop]
    omega
  · intro i hi hi'
    have hik : i < k := by simpa using hi
    have hnat : (start + BitVec.ofNat 256 i).toNat = start.toNat + i := by
      rw [BitVec.toNat_add, BitVec.toNat_ofNat, Nat.mod_eq_of_lt (a := i) (by omega),
        Nat.mod_eq_of_lt (by omega)]
    have hin : start.toNat + i < b.content.length := by omega
    simp only [readBytes, byteAt, List.getElem_map, List.getElem_range, hnat, List.getElem_take,
      List.getElem_drop]
    exact (List.getElem_eq_getD _).symm

end MemoryBytes

/-- The copy in memory of a calldata array. -/
def CalldataBytes.toMemory (m : Machine) (_bytes : CalldataBytes) : MemoryBytes where
  content := _bytes.bytes m
  around := m.aroundCopy _bytes

/-- An array with this content that another contract returned. -/
def Machine.returned (m : Machine) (content : Bytes) : MemoryBytes where
  content := content
  around := m.aroundReturned

namespace UnsafeBytesLib

variable (_bytes : MemoryBytes) (_start : Uint256)

/-- The word at an address relative to `_bytes`, whose content starts at `0x20`. -/
def mload (address : Uint256) : Bytes32 := loadWord _bytes.byteAt (address - 0x20)

def toAddress : Address := (mload _bytes (0x20 + _start) >>> 96).setWidth 160

def toUint8 : Uint8 := (mload _bytes (0x1 + _start)).setWidth 8

def toUint32 : Uint32 := (mload _bytes (0x4 + _start)).setWidth 32

def toUint64 : Uint64 := (mload _bytes (0x8 + _start)).setWidth 64

end UnsafeBytesLib

/-! ## Checked reads of `bytes memory` -/

namespace BytesLib

variable {ε : Type} (_bytes : Bytes) (_start : Nat)

/-- The big-endian number of `k` bytes at an offset. -/
def field (w k : Nat) : BitVec w := BitVec.ofNat w (natBE ((_bytes.drop _start).take k))

/-- The functions `toUint8`, `toUint16` and so on. Their callers count the offset in
checked arithmetic, and each check bounds it by the length. -/
def toField (w k : Nat) (name : String) : Exec ε (BitVec w) := do
  require (_bytes.length ≥ _start + k) (.reason (name ++ "_outOfBounds"))
  return field _bytes _start w k

def toAddress : Exec ε Address := toField _bytes _start 160 20 "toAddress"
def toUint8 : Exec ε Uint8 := toField _bytes _start 8 1 "toUint8"
def toUint16 : Exec ε Uint16 := toField _bytes _start 16 2 "toUint16"
def toUint32 : Exec ε Uint32 := toField _bytes _start 32 4 "toUint32"
def toUint64 : Exec ε Uint64 := toField _bytes _start 64 8 "toUint64"
def toBytes32 : Exec ε Bytes32 := toField _bytes _start 256 32 "toBytes32"

def slice (_length : Nat) : Exec ε Bytes := do
  require (_bytes.length ≥ _start + _length) (.reason "slice_outOfBounds")
  return (_bytes.drop _start).take _length

/-- The slice to the end, whose length is computed in checked arithmetic. -/
def sliceToEnd : Exec ε Bytes := do
  require (_bytes.length ≥ _start) (.panic 0x11)
  slice _bytes _start (_bytes.length - _start)

variable {_bytes : Bytes} {_start : Nat}

@[simp] theorem toField_eq_ok {w k : Nat} {name : String} {v : BitVec w} :
    (toField _bytes _start w k name : Exec ε _) = .ok v ↔
      _start + k ≤ _bytes.length ∧ v = field _bytes _start w k := by
  simp only [toField, bind_eq_ok, require_eq_ok, pure_eq_ok, exists_const]
  exact and_congr_right fun _ => eq_comm

@[simp] theorem sliceToEnd_eq_ok {rest : Bytes} :
    (sliceToEnd _bytes _start : Exec ε _) = .ok rest ↔
      _start ≤ _bytes.length ∧ rest = _bytes.drop _start := by
  have hall : (_bytes.drop _start).take (_bytes.length - _start) = _bytes.drop _start :=
    List.take_of_length_le (by simp)
  simp only [sliceToEnd, slice, bind_eq_ok, require_eq_ok, pure_eq_ok, hall]
  constructor
  · rintro ⟨-, hle, -, -, rfl⟩
    exact ⟨hle, rfl⟩
  · rintro ⟨hle, rfl⟩
    exact ⟨(), hle, (), by omega, rfl⟩

end BytesLib

/-! ## Unchecked reads within the array -/

namespace UnsafeCalldataBytesLib

open BytesLib

variable {m : Machine} {b : CalldataBytes} {start : Nat}

theorem readBytes_eq_take {k : Nat} (h : start + k ≤ b.length.toNat) :
    readBytes m.calldata (b.offset + BitVec.ofNat 256 start) k
      = ((b.bytes m).drop start).take k := by
  have hnat : (BitVec.ofNat 256 start).toNat = start := by
    rw [BitVec.toNat_ofNat, Nat.mod_eq_of_lt]
    exact (Nat.le_add_right start k).trans_lt (h.trans_lt b.length.isLt)
  rw [CalldataBytes.drop_take_bytes (by rwa [hnat]), hnat]

theorem toUint8_eq_field (h : start + 1 ≤ b.length.toNat) :
    toUint8 m b (BitVec.ofNat 256 start) = field (b.bytes m) start 8 1 := by
  rw [field, ← readBytes_eq_take h]
  exact loadWord_high (k := 1) (l := 31) rfl

theorem toUint16_eq_field (h : start + 2 ≤ b.length.toNat) :
    toUint16 m b (BitVec.ofNat 256 start) = field (b.bytes m) start 16 2 := by
  rw [field, ← readBytes_eq_take h]
  exact loadWord_high (k := 2) (l := 30) rfl

theorem toUint32_eq_field (h : start + 4 ≤ b.length.toNat) :
    toUint32 m b (BitVec.ofNat 256 start) = field (b.bytes m) start 32 4 := by
  rw [field, ← readBytes_eq_take h]
  exact loadWord_high (k := 4) (l := 28) rfl

theorem toUint64_eq_field (h : start + 8 ≤ b.length.toNat) :
    toUint64 m b (BitVec.ofNat 256 start) = field (b.bytes m) start 64 8 := by
  rw [field, ← readBytes_eq_take h]
  exact loadWord_high (k := 8) (l := 24) rfl

theorem toAddress_eq_field (h : start + 20 ≤ b.length.toNat) :
    toAddress m b (BitVec.ofNat 256 start) = field (b.bytes m) start 160 20 := by
  rw [field, ← readBytes_eq_take h]
  exact loadWord_high (k := 20) (l := 12) rfl

theorem toBytes32_eq_field (h : start + 32 ≤ b.length.toNat) :
    toBytes32 m b (BitVec.ofNat 256 start) = field (b.bytes m) start 256 32 := by
  rw [field, ← readBytes_eq_take h]
  rfl

theorem sliceFrom_eq_drop {ε : Type} {s : CalldataBytes} (h : start ≤ b.length.toNat) :
    (sliceFrom m b (BitVec.ofNat 256 start) : Exec ε _) = .ok s ↔
      s = { offset := b.offset + BitVec.ofNat 256 start,
            length := b.length - BitVec.ofNat 256 start } := by
  have hnat : (BitVec.ofNat 256 start).toNat = start := by
    rw [BitVec.toNat_ofNat, Nat.mod_eq_of_lt (h.trans_lt b.length.isLt)]
  rw [sliceFrom_eq_ok, hnat]
  exact and_iff_right fun _ => h

/-- The bytes from an offset to the end. -/
theorem bytes_sliceFrom (h : start ≤ b.length.toNat) :
    ({ offset := b.offset + BitVec.ofNat 256 start,
       length := b.length - BitVec.ofNat 256 start } : CalldataBytes).bytes m
      = (b.bytes m).drop start := by
  have hnat : (BitVec.ofNat 256 start).toNat = start := by
    rw [BitVec.toNat_ofNat, Nat.mod_eq_of_lt (h.trans_lt b.length.isLt)]
  have hlength : (b.length - BitVec.ofNat 256 start).toNat = b.length.toNat - start := by
    rw [BitVec.toNat_sub_of_le (by rwa [BitVec.le_def, hnat]), hnat]
  rw [CalldataBytes.bytes, hlength, readBytes_eq_take (by omega),
    List.take_of_length_le (by simp)]

end UnsafeCalldataBytesLib

/-! ## Readers with a word as their offset -/

namespace Parser

abbrev uint8 : Parser Uint8 := uint 8 1
abbrev uint16 : Parser Uint16 := uint 16 2
abbrev uint32 : Parser Uint32 := uint 32 4
abbrev uint64 : Parser Uint64 := uint 64 8
abbrev address : Parser Address := uint 160 20
abbrev bytes32 : Parser Bytes32 := uint 256 32

end Parser

/-- `Tracks` for a reader whose offsets are words, provided that they do not wrap. -/
def TracksAt {ε ρ α : Type} (bs : Bytes) (start : Uint256) (bound : Nat) (run : Exec ε ρ)
    (out : ρ → α × Uint256) (p : Parser α) : Prop :=
  bound + start.toNat < 2 ^ 256 →
    Tracks bs start.toNat bound run (fun r => ((out r).1, (out r).2.toNat)) p

namespace TracksAt

variable {ε ρ ρ' α β : Type} {bs : Bytes} {start : Uint256} {bound : Nat} {run : Exec ε ρ}
  {out : ρ → α × Uint256} {p : Parser α}

theorem ret {r : ρ} {a : α} (h : out r = (a, start)) :
    TracksAt bs start 0 (.ok r : Exec ε ρ) out (pure a) :=
  fun _ => Tracks.ret (by simp [h])

/-- The end of a reader that rejects an offset behind the end of the input. -/
theorem retWithin {c : Prop} [Decidable c] {e : Revert ε} {r : ρ} {a : α}
    (hc : start.toNat ≤ bs.length → c) (h : out r = (a, start)) :
    TracksAt bs start 0 (require c e >>= fun _ => .ok r) out (pure a) := by
  have hret : TracksAt bs start 0 (.ok r : Exec ε ρ) out (pure a) := ret h
  refine fun hwrap => ⟨fun r' hr => ?_, fun r' hr hend => ?_, fun hle a' rest hp => ?_⟩
  · obtain ⟨-, -, hr⟩ := bind_eq_ok.mp hr
    exact (hret hwrap).advances r' hr
  · obtain ⟨-, -, hr⟩ := bind_eq_ok.mp hr
    exact (hret hwrap).sound r' hr hend
  · obtain ⟨r', hr, hout⟩ := (hret hwrap).complete hle a' rest hp
    exact ⟨r', bind_eq_ok.mpr ⟨(), require_eq_ok.mpr (hc hle), hr⟩, hout⟩

/-- A step that reads nothing. -/
theorem check {x : Exec ε β} {result : Option β} {f : β → Exec ε ρ} {q : β → Parser α}
    (hx : ∀ b, x = .ok b ↔ result = some b)
    (h : ∀ b, x = .ok b → TracksAt bs start bound (f b) out (q b)) :
    TracksAt bs start bound (x >>= f) out (Parser.assert result >>= q) :=
  fun hwrap => (Tracks.check hx).seq fun b hb => h b hb hwrap

theorem require {c : Prop} [Decidable c] {e : Revert ε} {f : Unit → Exec ε ρ} {q : Unit → Parser α}
    (h : c → TracksAt bs start bound (f ()) out (q ())) :
    TracksAt bs start bound (require c e >>= f) out (Parser.assert (guard c) >>= q) :=
  check (fun _ => by simp) fun _ hc => h (require_eq_ok.mp hc)

theorem seq {bound' : Nat} {x : Exec ε ρ'} {out' : ρ' → β × Uint256} {p' : Parser β}
    {f : ρ' → Exec ε ρ} {q : β → Parser α} (hx : TracksAt bs start bound' x out' p')
    (h : ∀ r', x = .ok r' → TracksAt bs (out' r').2 bound (f r') out (q (out' r').1)) :
    TracksAt bs start (bound + bound') (x >>= f) out (p' >>= q) := by
  intro hwrap
  have hx' := hx (by omega)
  refine hx'.seq fun r' hr' => h r' hr' ?_
  have hadv := hx'.advances r' hr'
  dsimp only at hadv
  omega

/-- A part of the reader that cannot fail. -/
theorem value {bound' : Nat} {r' : ρ'} {out' : ρ' → β × Uint256} {p' : Parser β}
    {q : β → Parser α} (hx : TracksAt bs start bound' (.ok r' : Exec ε ρ') out' p')
    (h : TracksAt bs (out' r').2 bound run out (q (out' r').1)) :
    TracksAt bs start (bound + bound') run out (p' >>= q) :=
  hx.seq (f := fun _ => run) fun r hr => by rwa [← Except.ok.inj hr]

theorem toNat_setWidth_256 {w : Nat} (hw : w ≤ 256) (n : BitVec w) :
    (n.setWidth 256).toNat = n.toNat := by
  have hlt : n.toNat < 2 ^ 256 := n.isLt.trans_le (Nat.pow_le_pow_right (by decide) hw)
  rw [BitVec.toNat_setWidth, Nat.mod_eq_of_lt hlt]

/-- The offset after `k` more bytes. -/
theorem toNat_add {k K : Nat} {n : Uint256} (hn : n.toNat = k) (hk : k ≤ K)
    (hwrap : bound + K + start.toNat < 2 ^ 256) : (start + n).toNat = start.toNat + k := by
  rw [BitVec.toNat_add, hn, Nat.mod_eq_of_lt (by omega)]

theorem uint {w k : Nat} {n : Uint256} {v : BitVec w} {bytes : Bytes} {q : BitVec w → Parser α}
    (hn : n.toNat = k) (hv : v = BitVec.ofNat w (natBE bytes))
    (hread : start.toNat + k ≤ bs.length → start.toNat + k < 2 ^ 256 →
      bytes = (bs.drop start.toNat).take k)
    (h : TracksAt bs (start + n) bound run out (q v)) :
    TracksAt bs start (bound + k) run out (Parser.uint w k >>= q) := by
  intro hwrap
  have hnat := @toNat_add start bound k k n hn (Nat.le_refl k) hwrap
  refine Tracks.uint (Nat.le_refl k) hv (fun hin => hread hin (by omega)) ?_
  rw [← hnat]
  exact h (by omega)

theorem skip {k K : Nat} {n : Uint256} {q : Unit → Parser α} (hn : n.toNat = k) (hk : k ≤ K)
    (h : TracksAt bs (start + n) bound run out (q ())) :
    TracksAt bs start (bound + K) run out (Parser.skip k >>= q) := by
  intro hwrap
  have hnat := @toNat_add start bound k K n hn hk hwrap
  refine Tracks.skip hk ?_
  rw [← hnat]
  exact h (by omega)

/-- A field whose size was read from one byte. -/
theorem skipUint8 {n : Uint8} {q : Unit → Parser α}
    (h : TracksAt bs (start + n.setWidth 256) bound run out (q ())) :
    TracksAt bs start (bound + 255) run out (Parser.skip n.toNat >>= q) :=
  skip (toNat_setWidth_256 (by decide) n) (Nat.le_of_lt_succ n.isLt) h

theorem mono {bound' : Nat} (h : TracksAt bs start bound run out p) (hb : bound ≤ bound') :
    TracksAt bs start bound' run out p :=
  fun hwrap => (h (by omega)).mono hb

/-- A reader that ends at a fixed offset and checks it succeeds exactly when the
parser does. -/
theorem parsePrefix_eq_some {stop : Uint256} {run : Exec ε α} {a : α}
    (h : TracksAt bs start bound run (fun a => (a, stop)) p) (hwrap : bound + start.toNat < 2 ^ 256)
    (hle : start.toNat ≤ bs.length) (hend : run = .ok a → stop.toNat ≤ bs.length) :
    run = .ok a ↔ p.parsePrefix (bs.drop start.toNat) = some a := by
  rw [Parser.parsePrefix_eq_some]
  constructor
  · intro hrun
    exact ⟨_, (h hwrap).sound a hrun (hend hrun)⟩
  · rintro ⟨rest, hp⟩
    obtain ⟨r, hr, rfl, -⟩ := (h hwrap).complete hle a rest hp
    exact hr

/-- The last step of a parser. -/
theorem last (h : TracksAt bs start bound run out (p >>= pure)) :
    TracksAt bs start bound run out p := by
  rwa [bind_pure] at h

/-! ### Fields of a `bytes calldata` value -/

section Calldata

open UnsafeCalldataBytesLib

variable {m : Machine} {b : CalldataBytes}

theorem calldataUint8 {q : Uint8 → Parser α}
    (h : TracksAt (b.bytes m) (start + 1) bound run out (q (toUint8 m b start))) :
    TracksAt (b.bytes m) start (bound + 1) run out (Parser.uint8 >>= q) :=
  uint rfl (loadWord_high (k := 1) (l := 31) rfl)
    (fun hin _ => CalldataBytes.drop_take_bytes (by simpa using hin)) h

theorem calldataUint16 {q : Uint16 → Parser α}
    (h : TracksAt (b.bytes m) (start + 2) bound run out (q (toUint16 m b start))) :
    TracksAt (b.bytes m) start (bound + 2) run out (Parser.uint16 >>= q) :=
  uint rfl (loadWord_high (k := 2) (l := 30) rfl)
    (fun hin _ => CalldataBytes.drop_take_bytes (by simpa using hin)) h

theorem calldataUint32 {q : Uint32 → Parser α}
    (h : TracksAt (b.bytes m) (start + 4) bound run out (q (toUint32 m b start))) :
    TracksAt (b.bytes m) start (bound + 4) run out (Parser.uint32 >>= q) :=
  uint rfl (loadWord_high (k := 4) (l := 28) rfl)
    (fun hin _ => CalldataBytes.drop_take_bytes (by simpa using hin)) h

theorem calldataUint64 {q : Uint64 → Parser α}
    (h : TracksAt (b.bytes m) (start + 8) bound run out (q (toUint64 m b start))) :
    TracksAt (b.bytes m) start (bound + 8) run out (Parser.uint64 >>= q) :=
  uint rfl (loadWord_high (k := 8) (l := 24) rfl)
    (fun hin _ => CalldataBytes.drop_take_bytes (by simpa using hin)) h

theorem calldataAddress {q : Address → Parser α}
    (h : TracksAt (b.bytes m) (start + 20) bound run out (q (toAddress m b start))) :
    TracksAt (b.bytes m) start (bound + 20) run out (Parser.address >>= q) :=
  uint rfl (loadWord_high (k := 20) (l := 12) rfl)
    (fun hin _ => CalldataBytes.drop_take_bytes (by simpa using hin)) h

theorem calldataBytes32 {q : Bytes32 → Parser α}
    (h : TracksAt (b.bytes m) (start + 32) bound run out (q (toBytes32 m b start))) :
    TracksAt (b.bytes m) start (bound + 32) run out (Parser.bytes32 >>= q) :=
  uint rfl rfl (fun hin _ => CalldataBytes.drop_take_bytes (by simpa using hin)) h

/-- A slice, whose bytes may lie behind the end of the array. -/
theorem calldataSlice {k K : Nat} {n : Uint256} {f : CalldataBytes → Exec ε ρ}
    {q : Bytes → Parser α}
    (hn : n.toNat = k) (hk : k ≤ K)
    (h : ∀ s, TracksAt (b.bytes m) (start + n) bound (f s) out (q (s.bytes m))) :
    TracksAt (b.bytes m) start (bound + K) (slice m b start n >>= f) out
      (Parser.take k >>= q) := by
  intro hwrap
  have hnat := @toNat_add start bound k K n hn hk hwrap
  have hfield : Tracks (b.bytes m) start.toNat K
      (slice m b start n : Exec ε CalldataBytes)
      (fun s => (s.bytes m, start.toNat + k)) (Parser.take k) := by
    refine Tracks.field hk (fun s hs hin => ?_) (fun hin => ?_)
    · obtain ⟨-, -, rfl⟩ := (slice_eq_ok ..).mp hs
      rw [← CalldataBytes.drop_take_bytes (by simpa using hin), ← hn]
      rfl
    · rw [CalldataBytes.length_bytes, ← hn] at hin
      exact ⟨_, (slice_eq_ok ..).mpr ⟨hin.trans_lt b.length.isLt, fun _ => hin, rfl⟩⟩
  refine hfield.seq fun s _ => ?_
  rw [← hnat]
  exact h s (by omega)

/-- A slice whose size was read from two bytes. -/
theorem calldataSliceUint16 {n : Uint16} {f : CalldataBytes → Exec ε ρ} {q : Bytes → Parser α}
    (h : ∀ s, TracksAt (b.bytes m) (start + n.setWidth 256) bound (f s) out (q (s.bytes m))) :
    TracksAt (b.bytes m) start (bound + 65535) (slice m b start (n.setWidth 256) >>= f) out
      (Parser.take n.toNat >>= q) :=
  calldataSlice (toNat_setWidth_256 (by decide) n) (Nat.le_of_lt_succ n.isLt) h

end Calldata

/-! ### Fields of a `bytes memory` value -/

section Memory

open UnsafeBytesLib

variable {b : MemoryBytes}

/-- The bytes at the end of a word that is loaded before the field. -/
theorem mload_field {k l : Nat} (hkl : k + l = 32) (n : Uint256)
    (haddress : n - 0x20 + BitVec.ofNat 256 k = start) :
    (mload b n).setWidth (8 * l) = BitVec.ofNat (8 * l) (natBE (readBytes b.byteAt start l)) := by
  rw [mload, loadWord_low hkl, haddress]

theorem memoryUint8 {q : Uint8 → Parser α}
    (h : TracksAt b.content (start + 1) bound run out (q (toUint8 b start))) :
    TracksAt b.content start (bound + 1) run out (Parser.uint8 >>= q) :=
  uint rfl (mload_field (k := 31) (l := 1) rfl _ (by bv_omega))
    (fun hin hwrap => MemoryBytes.readBytes_byteAt hin hwrap) h

theorem memoryUint32 {q : Uint32 → Parser α}
    (h : TracksAt b.content (start + 4) bound run out (q (toUint32 b start))) :
    TracksAt b.content start (bound + 4) run out (Parser.uint32 >>= q) :=
  uint rfl (mload_field (k := 28) (l := 4) rfl _ (by bv_omega))
    (fun hin hwrap => MemoryBytes.readBytes_byteAt hin hwrap) h

theorem memoryUint64 {q : Uint64 → Parser α}
    (h : TracksAt b.content (start + 8) bound run out (q (toUint64 b start))) :
    TracksAt b.content start (bound + 8) run out (Parser.uint64 >>= q) :=
  uint rfl (mload_field (k := 24) (l := 8) rfl _ (by bv_omega))
    (fun hin hwrap => MemoryBytes.readBytes_byteAt hin hwrap) h

theorem memoryAddress {q : Address → Parser α}
    (h : TracksAt b.content (start + 20) bound run out (q (toAddress b start))) :
    TracksAt b.content start (bound + 20) run out (Parser.address >>= q) := by
  have haddress : 0x20 + start - 0x20 = start := by bv_omega
  refine uint rfl ?_
    (fun hin hwrap => MemoryBytes.readBytes_byteAt hin hwrap) h
  rw [toAddress, mload, haddress]
  exact loadWord_high (k := 20) (l := 12) rfl

end Memory

end TracksAt

end PythCrosschain

/-!
## What a calldata array holds at an offset

`Holds m b start bs` says that the array `b` has the bytes `bs` from the offset `start`
on. It splits along concatenation (`Holds.left`, `Holds.right`), and each function of
`UnsafeCalldataBytesLib` reads the bytes that the array holds at its offset.
-/

namespace PythCrosschain

namespace CalldataBytes

def Holds (m : Machine) (b : CalldataBytes) (start : Nat) (bs : Bytes) : Prop :=
  ∃ pre post, b.bytes m = pre ++ (bs ++ post) ∧ pre.length = start

namespace Holds

open BytesLib UnsafeCalldataBytesLib

variable {m : Machine} {b : CalldataBytes} {start : Nat} {bs cs : Bytes}

theorem all (h : b.bytes m = bs) : Holds m b 0 bs :=
  ⟨[], [], by rw [List.append_nil, List.nil_append, h], rfl⟩

theorem left (h : Holds m b start (bs ++ cs)) : Holds m b start bs := by
  obtain ⟨pre, post, hbytes, hlength⟩ := h
  exact ⟨pre, cs ++ post, by rw [hbytes, List.append_assoc], hlength⟩

theorem right (h : Holds m b start (bs ++ cs)) : Holds m b (start + bs.length) cs := by
  obtain ⟨pre, post, hbytes, hlength⟩ := h
  refine ⟨pre ++ bs, post, ?_, ?_⟩
  · rw [hbytes, List.append_assoc, List.append_assoc]
  · rw [List.length_append, hlength]

theorem tail {v : UInt8} (h : Holds m b start (v :: bs)) : Holds m b (start + 1) bs :=
  right (show Holds m b start ([v] ++ bs) from h)

theorem end_le (h : Holds m b start bs) : start + bs.length ≤ b.length.toNat := by
  obtain ⟨pre, post, hbytes, hlength⟩ := h
  rw [← CalldataBytes.length_bytes m b, hbytes, List.length_append, List.length_append, hlength,
    ← Nat.add_assoc]
  exact Nat.le_add_right _ _

theorem drop_take (h : Holds m b start bs) : ((b.bytes m).drop start).take bs.length = bs := by
  obtain ⟨pre, post, hbytes, rfl⟩ := h
  rw [hbytes, List.drop_left, List.take_left]

theorem field_eq {w k : Nat} (h : Holds m b start bs) (hk : bs.length = k) :
    field (b.bytes m) start w k = BitVec.ofNat w (natBE bs) := by
  rw [field, ← hk, h.drop_take]

theorem toUint8_eq {v : UInt8} (h : Holds m b start (v :: bs)) :
    toUint8 m b (BitVec.ofNat 256 start) = BitVec.ofNat 8 v.toNat := by
  have hbyte : Holds m b start [v] := left (show Holds m b start ([v] ++ bs) from h)
  rw [toUint8_eq_field hbyte.end_le, hbyte.field_eq (k := 1) rfl]
  simp [natBE]

theorem toUint16_eq {n : Nat} (h : Holds m b start (bytesBE 2 n)) (hn : n ≤ 65535) :
    toUint16 m b (BitVec.ofNat 256 start) = BitVec.ofNat 16 n := by
  have hend := h.end_le
  have hlt : n < 256 ^ 2 := Nat.lt_succ_of_le hn
  rw [length_bytesBE] at hend
  rw [toUint16_eq_field hend, h.field_eq (length_bytesBE 2 n), natBE_bytesBE, Nat.mod_eq_of_lt hlt]

theorem toUint32_eq (h : Holds m b start bs) (hlength : bs.length = 4) :
    toUint32 m b (BitVec.ofNat 256 start) = BitVec.ofNat 32 (natBE bs) := by
  have hend := h.end_le
  rw [hlength] at hend
  rw [toUint32_eq_field hend, h.field_eq hlength]

theorem toAddress_eq (h : Holds m b start bs) (hlength : bs.length = 20) :
    toAddress m b (BitVec.ofNat 256 start) = BitVec.ofNat 160 (natBE bs) := by
  have hend := h.end_le
  rw [hlength] at hend
  rw [toAddress_eq_field hend, h.field_eq hlength]

theorem slice_eq {ε : Type} (h : Holds m b start bs) :
    ∃ s, (slice m b (BitVec.ofNat 256 start) (BitVec.ofNat 256 bs.length) : Exec ε _) = .ok s ∧
      s.bytes m = bs := by
  have hend := h.end_le
  have hlt := hend.trans_lt b.length.isLt
  have hstart : (BitVec.ofNat 256 start).toNat = start := by
    rw [BitVec.toNat_ofNat, Nat.mod_eq_of_lt ((Nat.le_add_right _ _).trans_lt hlt)]
  have hlength : (BitVec.ofNat 256 bs.length).toNat = bs.length := by
    rw [BitVec.toNat_ofNat, Nat.mod_eq_of_lt ((Nat.le_add_left _ _).trans_lt hlt)]
  refine ⟨_, (slice_eq_ok ..).mpr ⟨?_, fun _ => ?_, rfl⟩, ?_⟩
  · rwa [hstart, hlength]
  · rwa [hstart, hlength]
  · rw [CalldataBytes.bytes, hlength, readBytes_eq_take hend, h.drop_take]

end Holds

end CalldataBytes

end PythCrosschain
