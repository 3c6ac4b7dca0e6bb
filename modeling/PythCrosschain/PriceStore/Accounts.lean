import Mathlib.Data.BitVec
import PythCrosschain.Solana.Accounts

/-!
# Price store: the accounts

The accounts of the program `pyth-price-store`. They hold bytes, `fromBytes` is the view of them
that `bytemuck` gives, and what is written through this view is put in front of the other bytes
again.

What an account holds is one of four kinds of values (`Stored`), and each view of its bytes succeeds
for one kind only: `checked_bytes_eq_ok` and the lemmas behind it. `readsBack_update` is what a
submission adds to the prices of a buffer, and `read_of_readsBack` how they are read.
-/

namespace PythCrosschain.PriceStore

export Solana (require require_eq_ok)

open Solana
open PythnetSdk (HashArray)

abbrev U32 := BitVec 32
abbrev U64 := BitVec 64

/-- The members of `ProgramError` that the program returns. -/
inductive StoreError where
  | accountAlreadyInitialized
  | accountDataTooSmall
  | accountNotRentExempt
  | illegalOwner
  | invalidAccountData
  | invalidArgument
  | invalidInstructionData
  | missingRequiredSignature
  | notEnoughAccountKeys
deriving DecidableEq, Repr

abbrev Result (α : Type) := Solana.Result StoreError α

/-- The accounts hold bytes only. -/
abbrev StoreLedger := Ledger PEmpty

def dataOf (ledger : StoreLedger) (key : Pubkey) : Bytes :=
  match (ledger key).data with
  | .raw bytes => bytes
  | .value x => x.elim

def setData (ledger : StoreLedger) (key : Pubkey) (data : Bytes) : StoreLedger :=
  Function.update ledger key { ledger key with data := .raw data }

/-! ## `errors.rs` -/

inductive ReadAccountError where
  | dataTooShort
  | formatMismatch
  | alreadyInitialized
  | invalidNumPrices
deriving DecidableEq, Repr

inductive ExtendError where
  | notEnoughSpace
  | invalidLength
deriving DecidableEq, Repr

def ReadAccountError.toProgramError : ReadAccountError → StoreError
  | .dataTooShort => .accountDataTooSmall
  | .formatMismatch => .invalidAccountData
  | .alreadyInitialized => .accountAlreadyInitialized
  | .invalidNumPrices => .invalidAccountData

def ExtendError.toProgramError : ExtendError → StoreError
  | .notEnoughSpace => .accountDataTooSmall
  | .invalidLength => .invalidInstructionData

/-- `?` on a result of `accounts.rs`. -/
def ofRead {α : Type} : Except ReadAccountError α → Result α
  | .ok a => .ok a
  | .error e => .error (.error (.custom e.toProgramError))

def ofExtend {α : Type} : Rust.Result ExtendError α → Result α
  | .ok a => .ok a
  | .error (.error e) => .error (.error (.custom e.toProgramError))
  | .error .panic => .error .panic

/-! ## Fields -/

/-- The little-endian number of `k` bytes at an offset. -/
def uintAt (w k : ℕ) (data : Bytes) (offset : ℕ) : BitVec w :=
  BitVec.ofNat w (natLE ((data.drop offset).take k))

def pubkeyAt (data : Bytes) (offset : ℕ) : Pubkey :=
  HashArray.ofNat 32 (natBE ((data.drop offset).take 32))

/-- What `read`, `read_mut` and `create` of all accounts begin with: the size and the format are
checked. -/
def checked {α : Type} (size : ℕ) (format : U32) (e : ReadAccountError) (view : Bytes → α)
    (data : Bytes) : Except ReadAccountError α :=
  if data.length < size then .error .dataTooShort
  else if uintAt 32 4 data 0 ≠ format then .error e
  else .ok (view data)

/-! ## `config.rs` -/

structure Config where
  format : U32
  authority : Pubkey
deriving DecidableEq

namespace Config

def FORMAT : U32 := 1505352794
def SIZE : ℕ := 36

def toBytes (config : Config) : Bytes := bytesLE 4 config.format.toNat ++ config.authority.val

def fromBytes (data : Bytes) : Config where
  format := uintAt 32 4 data 0
  authority := pubkeyAt data 4

def read : Bytes → Except ReadAccountError Config := checked SIZE FORMAT .formatMismatch fromBytes

/-- The data with the new config. -/
def create (data : Bytes) (authority : Pubkey) : Except ReadAccountError Bytes :=
  checked SIZE 0 .alreadyInitialized
    (fun data => toBytes { format := FORMAT, authority } ++ data.drop SIZE) data

end Config

/-! ## `publisher_config.rs` -/

structure PublisherConfig where
  format : U32
  publisher : Pubkey
  bufferAccount : Pubkey
deriving DecidableEq

namespace PublisherConfig

def FORMAT : U32 := 2258188348
def SIZE : ℕ := 68

def toBytes (config : PublisherConfig) : Bytes :=
  bytesLE 4 config.format.toNat ++ (config.publisher.val ++ config.bufferAccount.val)

def fromBytes (data : Bytes) : PublisherConfig where
  format := uintAt 32 4 data 0
  publisher := pubkeyAt data 4
  bufferAccount := pubkeyAt data 36

def read : Bytes → Except ReadAccountError PublisherConfig :=
  checked SIZE FORMAT .formatMismatch fromBytes

/-- The data with the new config. -/
def create (data : Bytes) (publisher bufferAccount : Pubkey) : Except ReadAccountError Bytes :=
  checked SIZE 0 .alreadyInitialized
    (fun data => toBytes { format := FORMAT, publisher, bufferAccount } ++ data.drop SIZE) data

end PublisherConfig

/-! ## `buffer.rs` -/

structure BufferHeader where
  format : U32
  publisher : Pubkey
  slot : U64
  numPrices : U32
deriving DecidableEq

structure BufferedPrice where
  tradingStatusAndFeedIndex : U32
  price : U64
  confidence : U64
deriving DecidableEq

namespace BufferedPrice

def SIZE : ℕ := 20

def fromBytes (data : Bytes) : BufferedPrice where
  tradingStatusAndFeedIndex := uintAt 32 4 data 0
  price := uintAt 64 8 data 4
  confidence := uintAt 64 8 data 12

/-- `cast_slice`, of whole prices. -/
def castSlice (data : Bytes) : List BufferedPrice :=
  (List.range (data.length / SIZE)).map fun i => fromBytes ((data.drop (SIZE * i)).take SIZE)

end BufferedPrice

namespace BufferHeader

def FORMAT : U32 := 2848712303
def SIZE : ℕ := 48

def new (publisher : Pubkey) : BufferHeader where
  format := FORMAT
  publisher
  slot := 0
  numPrices := 0

def toBytes (header : BufferHeader) : Bytes :=
  bytesLE 4 header.format.toNat ++
    (header.publisher.val ++ (bytesLE 8 header.slot.toNat ++ bytesLE 4 header.numPrices.toNat))

def fromBytes (data : Bytes) : BufferHeader where
  format := uintAt 32 4 data 0
  publisher := pubkeyAt data 4
  slot := uintAt 64 8 data 36
  numPrices := uintAt 32 4 data 44

end BufferHeader

namespace Buffer

open BufferHeader (SIZE)

def formatMatches (data : Bytes) : Bool :=
  if data.length < 4 then false else uintAt 32 4 data 0 = BufferHeader.FORMAT

def read (data : Bytes) : Except ReadAccountError (BufferHeader × List BufferedPrice) := do
  let header ← checked SIZE BufferHeader.FORMAT .formatMismatch BufferHeader.fromBytes data
  let pricesBytes := data.drop SIZE
  let expectedLen := header.numPrices.toNat * BufferedPrice.SIZE
  if expectedLen > pricesBytes.length then .error .invalidNumPrices
  else return (header, BufferedPrice.castSlice (pricesBytes.take expectedLen))

/-- The header and the space behind it. -/
def readMut : Bytes → Except ReadAccountError (BufferHeader × Bytes) :=
  checked SIZE BufferHeader.FORMAT .formatMismatch fun data =>
    (BufferHeader.fromBytes data, data.drop SIZE)

def create (data : Bytes) (publisher : Pubkey) : Except ReadAccountError (BufferHeader × Bytes) :=
  checked SIZE 0 .alreadyInitialized (fun data => (.new publisher, data.drop SIZE)) data

/-- With a new slot the prices that are stored are removed. -/
def enterSlot (header : BufferHeader) (currentSlot : U64) : BufferHeader :=
  if header.slot ≠ currentSlot then { header with slot := currentSlot, numPrices := 0 }
  else header

/-- The header and the space behind it, with the new prices. -/
def update (header : BufferHeader) (prices : Bytes) (currentSlot : U64) (newPrices : Bytes) :
    Rust.Result ExtendError (BufferHeader × Bytes) := do
  Rust.require (newPrices.length % BufferedPrice.SIZE = 0) .invalidLength
  let header := enterSlot header currentSlot
  let numNewPrices ← Rust.unwrap (Rust.toUnsigned 32 (newPrices.length / BufferedPrice.SIZE : ℕ))
  let start := BufferedPrice.SIZE * header.numPrices.toNat
  let stop := BufferedPrice.SIZE * header.numPrices.toNat + newPrices.length
  let numPrices ← Rust.unwrap (Rust.checkedAdd header.numPrices numNewPrices)
  Rust.require (stop ≤ prices.length) .notEnoughSpace
  return ({ header with numPrices }, prices.take start ++ newPrices ++ prices.drop stop)

end Buffer

/-! ## Views of bytes -/

theorem uintAt_append {w k offset : ℕ} (hw : 2 ^ w = 256 ^ k) (v : BitVec w) {front : Bytes}
    (hfront : front.length = offset) (rest : Bytes) :
    uintAt w k (front ++ (bytesLE k v.toNat ++ rest)) offset = v := by
  have hlength : (bytesLE k v.toNat).length = k := length_bytesLE k _
  have hlt : v.toNat < 256 ^ k := lt_of_lt_of_eq v.isLt hw
  rw [uintAt, List.drop_left' hfront, List.take_left' hlength, natLE_bytesLE,
    Nat.mod_eq_of_lt hlt, BitVec.ofNat_toNat, BitVec.setWidth_eq]

theorem pubkeyAt_append {offset : ℕ} (key : Pubkey) {front : Bytes}
    (hfront : front.length = offset) (rest : Bytes) :
    pubkeyAt (front ++ (key.val ++ rest)) offset = key := by
  have hkey := bytesBE_natBE key.val
  rw [key.property] at hkey
  refine Subtype.ext ?_
  show bytesBE 32 (natBE _) = key.val
  rw [List.drop_left' hfront, List.take_left' key.property, hkey]

/-- What the program keeps in an account. -/
inductive Stored where
  /-- A new account: it holds zeros. -/
  | blank (size : ℕ)
  | config (authority : Pubkey)
  | publisherConfig (publisher bufferAccount : Pubkey)
  /-- The header and the space behind it. -/
  | buffer (publisher : Pubkey) (slot : U64) (numPrices : U32) (prices : Bytes)
deriving DecidableEq

namespace Stored

def format : Stored → U32
  | .blank _ => 0
  | .config _ => Config.FORMAT
  | .publisherConfig _ _ => PublisherConfig.FORMAT
  | .buffer _ _ _ _ => BufferHeader.FORMAT

def header (publisher : Pubkey) (slot : U64) (numPrices : U32) : BufferHeader where
  format := BufferHeader.FORMAT
  publisher
  slot
  numPrices

def bytes : Stored → Bytes
  | .blank size => List.replicate size 0
  | .config authority => Config.toBytes { format := Config.FORMAT, authority }
  | .publisherConfig publisher bufferAccount =>
    PublisherConfig.toBytes { format := PublisherConfig.FORMAT, publisher, bufferAccount }
  | .buffer publisher slot numPrices prices => (header publisher slot numPrices).toBytes ++ prices

variable {x : Stored}

/-- The first four bytes tell what kind of value it is. -/
theorem uintAt_bytes (h : 4 ≤ x.bytes.length) : uintAt 32 4 x.bytes 0 = x.format := by
  cases x with
  | blank size =>
    rw [bytes, List.length_replicate] at h
    rw [bytes, uintAt, List.drop_zero, List.take_replicate, Nat.min_eq_left h, format]
    decide
  | config authority => exact uintAt_append rfl _ List.length_nil _
  | publisherConfig publisher bufferAccount => exact uintAt_append rfl _ List.length_nil _
  | buffer publisher slot numPrices prices =>
    rw [bytes, BufferHeader.toBytes, List.append_assoc]
    exact uintAt_append rfl _ List.length_nil _

theorem length_config (authority : Pubkey) : (config authority).bytes.length = Config.SIZE := by
  rw [bytes, Config.toBytes, List.length_append, length_bytesLE, authority.property, Config.SIZE]

theorem length_publisherConfig (publisher bufferAccount : Pubkey) :
    (publisherConfig publisher bufferAccount).bytes.length = PublisherConfig.SIZE := by
  rw [bytes, PublisherConfig.toBytes, List.length_append, List.length_append, length_bytesLE,
    publisher.property, bufferAccount.property, PublisherConfig.SIZE]

theorem length_header (publisher : Pubkey) (slot : U64) (numPrices : U32) :
    (header publisher slot numPrices).toBytes.length = BufferHeader.SIZE := by
  rw [BufferHeader.toBytes, List.length_append, List.length_append, List.length_append,
    length_bytesLE, length_bytesLE, length_bytesLE,
    (header publisher slot numPrices).publisher.property, BufferHeader.SIZE]

theorem fromBytes_config (authority : Pubkey) :
    Config.fromBytes (config authority).bytes = { format := Config.FORMAT, authority } := by
  have hkey := pubkeyAt_append authority (length_bytesLE 4 Config.FORMAT.toNat) []
  rw [List.append_nil] at hkey
  exact congrArg₂ Config.mk (uintAt_append rfl _ List.length_nil _) hkey

theorem fromBytes_publisherConfig (publisher bufferAccount : Pubkey) :
    PublisherConfig.fromBytes (publisherConfig publisher bufferAccount).bytes
      = { format := PublisherConfig.FORMAT, publisher, bufferAccount } := by
  have hpublisher := pubkeyAt_append publisher (length_bytesLE 4 PublisherConfig.FORMAT.toNat)
    bufferAccount.val
  have hfront : (bytesLE 4 PublisherConfig.FORMAT.toNat ++ publisher.val).length = 36 := by
    rw [List.length_append, length_bytesLE, publisher.property]
  have hbuffer := pubkeyAt_append bufferAccount hfront []
  rw [List.append_nil, List.append_assoc] at hbuffer
  have hformat : uintAt 32 4 (publisherConfig publisher bufferAccount).bytes 0
      = PublisherConfig.FORMAT := uintAt_append rfl _ List.length_nil _
  rw [PublisherConfig.fromBytes, hformat]
  exact congrArg₂ (PublisherConfig.mk PublisherConfig.FORMAT) hpublisher hbuffer

theorem fromBytes_buffer (publisher : Pubkey) (slot : U64) (numPrices : U32) (prices : Bytes) :
    BufferHeader.fromBytes (buffer publisher slot numPrices prices).bytes
      = header publisher slot numPrices := by
  have hformat : uintAt 32 4 ([] ++ (bytesLE 4 BufferHeader.FORMAT.toNat ++ (publisher.val ++
      (bytesLE 8 slot.toNat ++ (bytesLE 4 numPrices.toNat ++ prices))))) 0 = BufferHeader.FORMAT :=
    uintAt_append rfl _ List.length_nil _
  have hpublisher := pubkeyAt_append publisher (length_bytesLE 4 BufferHeader.FORMAT.toNat)
    (bytesLE 8 slot.toNat ++ (bytesLE 4 numPrices.toNat ++ prices))
  have hfront : (bytesLE 4 BufferHeader.FORMAT.toNat ++ publisher.val).length = 36 := by
    rw [List.length_append, length_bytesLE, publisher.property]
  have hslot := uintAt_append (by decide : 2 ^ 64 = 256 ^ 8) slot hfront
    (bytesLE 4 numPrices.toNat ++ prices)
  have hfront' : (bytesLE 4 BufferHeader.FORMAT.toNat ++ publisher.val
      ++ bytesLE 8 slot.toNat).length = 44 := by
    rw [List.length_append, hfront, length_bytesLE]
  have hnumPrices := uintAt_append (by decide : 2 ^ 32 = 256 ^ 4) numPrices hfront' prices
  simp only [List.append_assoc, List.nil_append] at hformat hpublisher hslot hnumPrices
  simp only [BufferHeader.fromBytes, bytes, BufferHeader.toBytes, header, List.append_assoc,
    hformat, hpublisher, hslot, hnumPrices]

/-! ### Each view succeeds for one kind -/

theorem checked_bytes_eq_ok {α : Type} {size : ℕ} {format : U32} {e : ReadAccountError}
    {view : Bytes → α} {a : α} (hsize : 4 ≤ size) :
    checked size format e view x.bytes = .ok a ↔
      size ≤ x.bytes.length ∧ x.format = format ∧ view x.bytes = a := by
  unfold checked
  split
  · next hlength =>
    exact iff_of_false (fun h => by cases h) fun h => absurd h.1 (not_le.mpr hlength)
  · next hlength =>
    have hle := not_lt.mp hlength
    rw [uintAt_bytes (hsize.trans hle)]
    split
    · next hformat => exact iff_of_false (fun h => by cases h) fun h => hformat h.2.1
    · next hformat =>
      rw [Except.ok.injEq]
      exact ⟨fun h => ⟨hle, not_not.mp hformat, h⟩, fun h => h.2.2⟩

theorem format_eq_config : x.format = Config.FORMAT ↔ ∃ authority, x = .config authority := by
  cases x with
  | blank size => simp [format, Config.FORMAT]
  | config authority => simp [format]
  | publisherConfig publisher bufferAccount =>
    simp [format, Config.FORMAT, PublisherConfig.FORMAT]
  | buffer publisher slot numPrices prices => simp [format, Config.FORMAT, BufferHeader.FORMAT]

theorem format_eq_publisherConfig : x.format = PublisherConfig.FORMAT ↔
    ∃ publisher bufferAccount, x = .publisherConfig publisher bufferAccount := by
  cases x with
  | blank size => simp [format, PublisherConfig.FORMAT]
  | config authority => simp [format, Config.FORMAT, PublisherConfig.FORMAT]
  | publisherConfig publisher bufferAccount => simp [format]
  | buffer publisher slot numPrices prices =>
    simp [format, PublisherConfig.FORMAT, BufferHeader.FORMAT]

theorem format_eq_buffer : x.format = BufferHeader.FORMAT ↔
    ∃ publisher slot numPrices prices, x = .buffer publisher slot numPrices prices := by
  cases x with
  | blank size => simp [format, BufferHeader.FORMAT]
  | config authority => simp [format, Config.FORMAT, BufferHeader.FORMAT]
  | publisherConfig publisher bufferAccount =>
    simp [format, PublisherConfig.FORMAT, BufferHeader.FORMAT]
  | buffer publisher slot numPrices prices => simp [format]

theorem format_eq_zero : x.format = 0 ↔ ∃ size, x = .blank size := by
  cases x with
  | blank size => simp [format]
  | config authority => simp [format, Config.FORMAT]
  | publisherConfig publisher bufferAccount => simp [format, PublisherConfig.FORMAT]
  | buffer publisher slot numPrices prices => simp [format, BufferHeader.FORMAT]

theorem configRead_eq_ok {config : Config} :
    Config.read x.bytes = .ok config ↔
      x = .config config.authority ∧ config.format = Config.FORMAT := by
  rw [Config.read, checked_bytes_eq_ok (by decide), format_eq_config]
  constructor
  · rintro ⟨-, ⟨authority, rfl⟩, rfl⟩
    rw [fromBytes_config]
    exact ⟨rfl, rfl⟩
  · obtain ⟨format, authority⟩ := config
    rintro ⟨rfl, rfl⟩
    exact ⟨(length_config authority).ge, ⟨authority, rfl⟩, fromBytes_config authority⟩

theorem publisherConfigRead_eq_ok {config : PublisherConfig} :
    PublisherConfig.read x.bytes = .ok config ↔
      x = .publisherConfig config.publisher config.bufferAccount ∧
        config.format = PublisherConfig.FORMAT := by
  rw [PublisherConfig.read, checked_bytes_eq_ok (by decide), format_eq_publisherConfig]
  constructor
  · rintro ⟨-, ⟨publisher, bufferAccount, rfl⟩, rfl⟩
    rw [fromBytes_publisherConfig]
    exact ⟨rfl, rfl⟩
  · obtain ⟨format, publisher, bufferAccount⟩ := config
    rintro ⟨rfl, rfl⟩
    exact ⟨(length_publisherConfig ..).ge, ⟨publisher, bufferAccount, rfl⟩,
      fromBytes_publisherConfig publisher bufferAccount⟩

theorem bufferReadMut_eq_ok {h : BufferHeader} {prices : Bytes} :
    Buffer.readMut x.bytes = .ok (h, prices) ↔
      x = .buffer h.publisher h.slot h.numPrices prices ∧ h.format = BufferHeader.FORMAT := by
  rw [Buffer.readMut, checked_bytes_eq_ok (by decide), format_eq_buffer]
  constructor
  · rintro ⟨-, ⟨publisher, slot, numPrices, prices', rfl⟩, hview⟩
    rw [fromBytes_buffer, bytes, List.drop_left' (length_header ..)] at hview
    cases hview
    exact ⟨rfl, rfl⟩
  · obtain ⟨format, publisher, slot, numPrices⟩ := h
    rintro ⟨rfl, rfl⟩
    refine ⟨?_, ⟨publisher, slot, numPrices, prices, rfl⟩, ?_⟩
    · rw [bytes, List.length_append, length_header]
      exact Nat.le_add_right _ _
    · rw [fromBytes_buffer, bytes, List.drop_left' (length_header ..)]
      rfl

theorem bufferCreate_eq_ok {publisher : Pubkey} {h : BufferHeader} {prices : Bytes} :
    Buffer.create x.bytes publisher = .ok (h, prices) ↔
      x = .blank (BufferHeader.SIZE + prices.length) ∧ h = .new publisher ∧
        prices = List.replicate prices.length 0 := by
  rw [Buffer.create, checked_bytes_eq_ok (by decide), format_eq_zero]
  constructor
  · rintro ⟨hlength, ⟨size, rfl⟩, hview⟩
    rw [bytes, List.length_replicate] at hlength
    rw [bytes, List.drop_replicate] at hview
    cases hview
    rw [List.length_replicate, Nat.add_sub_cancel' hlength]
    exact ⟨rfl, rfl, rfl⟩
  · rintro ⟨rfl, rfl, hprices⟩
    rw [bytes, List.length_replicate, List.drop_replicate, Nat.add_sub_cancel_left, ← hprices]
    exact ⟨Nat.le_add_right _ _, ⟨_, rfl⟩, rfl⟩

theorem bytes_injective : Function.Injective bytes := by
  intro x y h
  cases x with
  | config authority =>
    have hread : Config.read (config authority).bytes
        = .ok { format := Config.FORMAT, authority } := configRead_eq_ok.mpr ⟨rfl, rfl⟩
    rw [h] at hread
    exact (configRead_eq_ok.mp hread).1.symm
  | publisherConfig publisher bufferAccount =>
    have hread : PublisherConfig.read (publisherConfig publisher bufferAccount).bytes
        = .ok { format := PublisherConfig.FORMAT, publisher, bufferAccount } :=
      publisherConfigRead_eq_ok.mpr ⟨rfl, rfl⟩
    rw [h] at hread
    exact (publisherConfigRead_eq_ok.mp hread).1.symm
  | buffer publisher slot numPrices prices =>
    have hread : Buffer.readMut (buffer publisher slot numPrices prices).bytes
        = .ok (header publisher slot numPrices, prices) := bufferReadMut_eq_ok.mpr ⟨rfl, rfl⟩
    rw [h] at hread
    exact (bufferReadMut_eq_ok.mp hread).1.symm
  | blank size =>
    have hlength := congrArg List.length h
    rw [bytes, List.length_replicate] at hlength
    have hformat (hsize : 4 ≤ size) : y.format = 0 := by
      rw [← uintAt_bytes (hlength ▸ hsize), ← h]
      exact uintAt_bytes (by rwa [bytes, List.length_replicate])
    cases y with
    | blank size' =>
      rw [bytes, List.length_replicate] at hlength
      rw [hlength]
    | config authority =>
      rw [length_config] at hlength
      obtain ⟨size', hblank⟩ := format_eq_zero.mp (hformat (hlength ▸ by decide))
      cases hblank
    | publisherConfig publisher bufferAccount =>
      rw [length_publisherConfig] at hlength
      obtain ⟨size', hblank⟩ := format_eq_zero.mp (hformat (hlength ▸ by decide))
      cases hblank
    | buffer publisher slot numPrices prices =>
      rw [bytes, List.length_append, length_header] at hlength
      obtain ⟨size', hblank⟩ := format_eq_zero.mp (hformat (hlength ▸
        (by decide : 4 ≤ BufferHeader.SIZE).trans (Nat.le_add_right _ _)))
      cases hblank

end Stored

/-! ## Prices -/

open BufferedPrice (SIZE castSlice)

theorem castSlice_append {as bs : Bytes} (h : as.length % SIZE = 0) :
    castSlice (as ++ bs) = castSlice as ++ castSlice bs := by
  have has : as.length = SIZE * (as.length / SIZE) := by
    rw [Nat.mul_div_cancel' (Nat.dvd_of_mod_eq_zero h)]
  have hcount : (as ++ bs).length / SIZE = as.length / SIZE + bs.length / SIZE := by
    rw [List.length_append, has, Nat.mul_add_div (by decide), Nat.mul_div_cancel_left _ (by decide)]
  rw [castSlice, hcount, List.range_add, List.map_append, List.map_map]
  refine congrArg₂ (· ++ ·) (List.map_congr_left fun i hi => ?_)
    (List.map_congr_left fun i _ => ?_)
  · have hle : SIZE * i + SIZE ≤ as.length := by
      rw [has]
      exact Nat.mul_le_mul_left SIZE (List.mem_range.mp hi)
    rw [List.drop_append_of_le_length (Nat.le_of_add_right_le hle), List.take_append_of_le_length]
    rw [List.length_drop]
    exact Nat.le_sub_of_add_le' hle
  · show BufferedPrice.fromBytes _ = BufferedPrice.fromBytes _
    have hdrop : SIZE * (as.length / SIZE + i) = as.length + SIZE * i := by
      rw [Nat.mul_add, ← has]
    rw [hdrop, List.drop_length_add_append]

/-- Prices that a publisher has submitted. -/
structure Submission where
  publisher : Pubkey
  slot : U64
  prices : Bytes
deriving DecidableEq

theorem castSlice_flatMap {submissions : List Submission}
    (h : ∀ s ∈ submissions, s.prices.length % SIZE = 0) :
    castSlice (submissions.flatMap Submission.prices)
      = submissions.flatMap fun s => castSlice s.prices := by
  induction submissions with
  | nil => rfl
  | cons s submissions ih =>
    rw [List.flatMap_cons, List.flatMap_cons, castSlice_append (h s List.mem_cons_self),
      ih fun t ht => h t (List.mem_cons_of_mem _ ht)]

/-- The submissions since the first one in the slot. -/
def since (slot : U64) (submissions : List Submission) : List Submission :=
  submissions.dropWhile fun s => s.slot ≠ slot

theorem since_concat {submissions : List Submission} {s : Submission} :
    since s.slot (submissions ++ [s]) = since s.slot submissions ++ [s] := by
  unfold since
  rw [List.dropWhile_append]
  have hlast : [s].dropWhile (fun t => t.slot ≠ s.slot) = [s] := by simp
  split
  · next hempty => rw [hlast, List.isEmpty_iff.mp hempty, List.nil_append]
  · rfl

theorem since_eq_nil {slot : U64} {submissions : List Submission}
    (h : ∀ s ∈ submissions, s.slot ≠ slot) : since slot submissions = [] := by
  have happend := @List.dropWhile_append_of_pos _ _ submissions []
    fun s hs => decide_eq_true (h s hs)
  rwa [List.append_nil] at happend

/-- A buffer has the prices of the submissions in its slot, which is the last one. -/
structure ReadsBack (submissions : List Submission) (slot : U64) (numPrices : U32)
    (prices : Bytes) : Prop where
  fits : SIZE * numPrices.toNat ≤ prices.length
  prices : prices.take (SIZE * numPrices.toNat)
    = (since slot submissions).flatMap Submission.prices
  past : ∀ s ∈ submissions, s.slot ≤ slot
  whole : ∀ s ∈ submissions, s.prices.length % SIZE = 0

section

variable {submissions : List Submission} {publisher : Pubkey} {slot now : U64} {numPrices : U32}
  {prices : Bytes}

theorem readsBack_new (prices : Bytes) : ReadsBack [] 0 0 prices where
  fits := Nat.zero_le _
  prices := List.take_zero
  past := List.forall_mem_nil _
  whole := List.forall_mem_nil _

/-- The number of prices that are kept for a submission. -/
def kept (slot now : U64) (numPrices : U32) : U32 := if slot = now then numPrices else 0

theorem enterSlot_header : Buffer.enterSlot (Stored.header publisher slot numPrices) now
    = Stored.header publisher now (kept slot now numPrices) := by
  unfold Buffer.enterSlot kept
  rcases eq_or_ne slot now with rfl | hslot
  · exact (if_neg (not_not.mpr rfl)).trans (congrArg _ (if_pos rfl).symm)
  · exact (if_pos hslot).trans (congrArg (Stored.header publisher now) (if_neg hslot).symm)

theorem update_eq_ok {newPrices prices' : Bytes} {header' : BufferHeader}
    (h : Buffer.update (Stored.header publisher slot numPrices) prices now newPrices
      = .ok (header', prices')) :
    newPrices.length % SIZE = 0 ∧
      SIZE * (kept slot now numPrices).toNat + newPrices.length ≤ prices.length ∧
      (∃ numPrices' : U32, header' = Stored.header publisher now numPrices' ∧
        numPrices'.toNat = (kept slot now numPrices).toNat + newPrices.length / SIZE) ∧
      prices' = prices.take (SIZE * (kept slot now numPrices).toNat) ++ newPrices
        ++ prices.drop (SIZE * (kept slot now numPrices).toNat + newPrices.length) := by
  unfold Buffer.update at h
  rw [enterSlot_header] at h
  simp only [except_bind_eq_ok, Rust.require_eq_ok, Rust.unwrap_eq_ok, Rust.toUnsigned_eq_some,
    Rust.checkedAdd_eq_some, Nat.cast_inj] at h
  obtain ⟨_, hlength, numNewPrices, hnew, numPrices', htotal, _, hfits, h⟩ := h
  cases h
  rw [hnew] at htotal
  exact ⟨hlength, hfits, ⟨numPrices', rfl, htotal⟩, rfl⟩

/-- A submission in a slot that is not before the one of the buffer is read back after the others of
its slot. -/
theorem readsBack_update {newPrices prices' : Bytes} {header' : BufferHeader}
    (hreads : ReadsBack submissions slot numPrices prices) (hnow : slot ≤ now)
    (h : Buffer.update (Stored.header publisher slot numPrices) prices now newPrices
      = .ok (header', prices')) :
    ∃ numPrices', header' = Stored.header publisher now numPrices' ∧
      ReadsBack (submissions ++ [⟨publisher, now, newPrices⟩]) now numPrices' prices' := by
  obtain ⟨hwhole, hfits, ⟨numPrices', rfl, hnum⟩, rfl⟩ := update_eq_ok h
  have hkept : prices.take (SIZE * (kept slot now numPrices).toNat)
      = (since now submissions).flatMap Submission.prices := by
    unfold kept
    by_cases hslot : slot = now
    · rw [if_pos hslot, hreads.prices, hslot]
    · have hpast : ∀ s ∈ submissions, s.slot ≠ now := by
        rintro s hs rfl
        exact hslot (BitVec.le_antisymm hnow (hreads.past s hs))
      rw [if_neg hslot, since_eq_nil hpast]
      rfl
  have hlength : (prices.take (SIZE * (kept slot now numPrices).toNat)).length
      = SIZE * (kept slot now numPrices).toNat := by
    rw [List.length_take, Nat.min_eq_left (Nat.le_of_add_right_le hfits)]
  have hstop : SIZE * numPrices'.toNat
      = SIZE * (kept slot now numPrices).toNat + newPrices.length := by
    rw [hnum, Nat.mul_add, Nat.mul_div_cancel' (Nat.dvd_of_mod_eq_zero hwhole)]
  have hfront : (prices.take (SIZE * (kept slot now numPrices).toNat) ++ newPrices).length
      = SIZE * numPrices'.toNat := by
    rw [List.length_append, hlength, hstop]
  refine ⟨numPrices', rfl, ?_, ?_, ?_, ?_⟩
  · rw [List.length_append, hfront]
    exact Nat.le_add_right _ _
  · have hsince := @since_concat submissions ⟨publisher, now, newPrices⟩
    rw [List.take_left' hfront, hkept, hsince, List.flatMap_append, List.flatMap_singleton]
  · intro s hs
    rcases List.mem_append.mp hs with hs | hs
    · exact BitVec.le_trans (hreads.past s hs) hnow
    · obtain rfl := List.mem_singleton.mp hs
      exact BitVec.le_refl now
  · intro s hs
    rcases List.mem_append.mp hs with hs | hs
    · exact hreads.whole s hs
    · obtain rfl := List.mem_singleton.mp hs
      exact hwhole

/-- A buffer that reads back is read. -/
theorem read_of_readsBack (h : ReadsBack submissions slot numPrices prices) :
    Buffer.read (Stored.buffer publisher slot numPrices prices).bytes
      = .ok (Stored.header publisher slot numPrices,
          (since slot submissions).flatMap fun s => castSlice s.prices) := by
  have hchecked : checked BufferHeader.SIZE BufferHeader.FORMAT .formatMismatch
      BufferHeader.fromBytes (Stored.buffer publisher slot numPrices prices).bytes
      = .ok (Stored.header publisher slot numPrices) := by
    refine (Stored.checked_bytes_eq_ok (by decide)).mpr ⟨?_, rfl, Stored.fromBytes_buffer ..⟩
    rw [Stored.bytes, List.length_append, Stored.length_header]
    exact Nat.le_add_right _ _
  have hprices : (Stored.buffer publisher slot numPrices prices).bytes.drop BufferHeader.SIZE
      = prices := by
    rw [Stored.bytes, List.drop_left' (Stored.length_header ..)]
  have hwhole : ∀ s ∈ since slot submissions, s.prices.length % SIZE = 0 := fun s hs =>
    h.whole s ((List.dropWhile_suffix _).subset hs)
  have hlen : (Stored.header publisher slot numPrices).numPrices.toNat * SIZE
      = SIZE * numPrices.toNat := Nat.mul_comm _ _
  rw [Buffer.read, hchecked, except_ok_bind]
  dsimp only
  rw [hprices, hlen, if_neg (not_lt.mpr h.fits), h.prices, castSlice_flatMap hwhole]
  rfl

end

end PythCrosschain.PriceStore
