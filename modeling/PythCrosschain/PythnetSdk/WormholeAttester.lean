import PythCrosschain.Lib.DecoderParser
import PythCrosschain.PythnetSdk.Messages

/-!
# The Pythnet SDK: `legacy/wormhole_attester.rs`

Batches of price attestations, which were sent over Wormhole before the accumulator. The header
and the attestations have sizes on the wire, so that later versions can append fields to both. An
extension of a batch is an encoding of it as a later minor version may write it. The results are:

- `read_encoding`: of an extension, as many attestations are read as the number on the wire says;
- `deserialize_extended`: what is appended is skipped;
- `deserialize_truncated`: a batch that is cut is rejected;
- `deserialize_headed`: the magic number, the major version and the payload id of what is read.
-/

namespace PythCrosschain.PythnetSdk.Legacy

/-- "P2WH". -/
def P2W_MAGIC : Bytes := [0x50, 0x32, 0x57, 0x48]
def P2W_FORMAT_VER_MAJOR : BitVec 16 := 3
def P2W_FORMAT_VER_MINOR : BitVec 16 := 1
def P2W_FORMAT_HDR_SIZE : BitVec 16 := 1
def PUBKEY_LEN : ℕ := 32

/-- `PayloadId::PriceBatchAttestation`. -/
def PRICE_BATCH_ATTESTATION : UInt8 := 2

/-- `PriceStatus` of the Pyth SDK. -/
inductive PriceStatus where
  | unknown
  | trading
  | halted
  | auction
deriving DecidableEq, Repr

def PriceStatus.toU8 : PriceStatus → UInt8
  | .unknown => 0
  | .trading => 1
  | .halted => 2
  | .auction => 3

structure PriceAttestation where
  productId : HashArray 32
  priceId : HashArray 32
  price : I64
  conf : U64
  expo : I32
  emaPrice : I64
  emaConf : U64
  status : PriceStatus
  numPublishers : BitVec 32
  maxNumPublishers : BitVec 32
  attestationTime : I64
  publishTime : I64
  prevPublishTime : I64
  prevPrice : I64
  prevConf : U64
  lastAttestedPublishTime : I64
deriving DecidableEq

structure BatchPriceAttestation where
  priceAttestations : List PriceAttestation
deriving DecidableEq

/-- What the messages of an `ErrBox` say. -/
inductive ErrBox where
  | unexpectedEof
  | invalidMagic (magic : Bytes)
  | unsupportedMajorVersion (majorVersion : BitVec 16)
  | unsupportedMinorVersion (minorVersion : BitVec 16)
  | invalidPayloadId (payloadId : UInt8)
  | invalidStatus (status : UInt8)
  | attestation (i batchLen : ℕ) (e : ErrBox)
  | attestationSize (i size expected : ℕ)
deriving DecidableEq

/-! ## Serialization -/

def PriceAttestation.serialize (a : PriceAttestation) : Bytes :=
  a.productId.val ++ a.priceId.val ++ bytesBE 8 a.price.toNat ++ bytesBE 8 a.conf.toNat
    ++ bytesBE 4 a.expo.toNat ++ bytesBE 8 a.emaPrice.toNat ++ bytesBE 8 a.emaConf.toNat
    ++ [a.status.toU8] ++ bytesBE 4 a.numPublishers.toNat ++ bytesBE 4 a.maxNumPublishers.toNat
    ++ bytesBE 8 a.attestationTime.toNat ++ bytesBE 8 a.publishTime.toNat
    ++ bytesBE 8 a.prevPublishTime.toNat ++ bytesBE 8 a.prevPrice.toNat
    ++ bytesBE 8 a.prevConf.toNat ++ bytesBE 8 a.lastAttestedPublishTime.toNat

/-- The size of the attestation at `idx`, where `attestationSize` is that of the ones before it
and 0 for the first one. -/
def checkSize (idx attestationSize aLen : ℕ) : Except ErrBox ℕ :=
  if attestationSize > 0 then
    if aLen ≠ attestationSize then .error (.attestationSize (idx + 1) aLen attestationSize)
    else .ok attestationSize
  else .ok aLen

/-- The loop of `BatchPriceAttestation::serialize`. -/
def serializeAttestations (idx attestationSize : ℕ) :
    List PriceAttestation → Except ErrBox (ℕ × List Bytes)
  | [] => return (attestationSize, [])
  | a :: as => do
    let serialized := a.serialize
    let attestationSize ← checkSize idx attestationSize serialized.length
    let (attestationSize, serializedAttestations) ←
      serializeAttestations (idx + 1) attestationSize as
    return (attestationSize, serialized :: serializedAttestations)

/-- The header in front of its size, and the size. -/
def headerStart (hdrSize : BitVec 16) : Bytes :=
  P2W_MAGIC ++ bytesBE 2 P2W_FORMAT_VER_MAJOR.toNat ++ bytesBE 2 P2W_FORMAT_VER_MINOR.toNat
    ++ bytesBE 2 hdrSize.toNat

/-- The number of attestations and their size are cast to 16 bits. -/
def BatchPriceAttestation.serialize (b : BatchPriceAttestation) : Except ErrBox Bytes := do
  let (attestationSize, serializedAttestations) ← serializeAttestations 0 0 b.priceAttestations
  return headerStart P2W_FORMAT_HDR_SIZE ++ [PRICE_BATCH_ATTESTATION]
    ++ bytesBE 2 (BitVec.ofNat 16 b.priceAttestations.length).toNat
    ++ bytesBE 2 (BitVec.ofNat 16 attestationSize).toNat ++ serializedAttestations.flatten

/-! ## Deserialization -/

abbrev Read (α : Type) := Decoder ErrBox α

/-- `read_exact` into `k` bytes. -/
def readExact (k : ℕ) : Read Bytes := Decoder.take .unexpectedEof k

/-- `from_be_bytes` of the next `k` bytes. -/
def readWord (w k : ℕ) : Read (BitVec w) :=
  (fun bytes => BitVec.ofNat w (natBE bytes)) <$> readExact k

def readU8 : Read UInt8 := Decoder.byte .unexpectedEof

def readIdentifier : Read (HashArray 32) := fun bytes =>
  if h : PUBKEY_LEN ≤ bytes.length then
    .ok (⟨bytes.take PUBKEY_LEN, List.length_take_of_le h⟩, bytes.drop PUBKEY_LEN)
  else .error .unexpectedEof

/-- `return Err(e)` unless `p`. -/
def check (p : Prop) [Decidable p] (e : ErrBox) : Except ErrBox Unit :=
  if p then .ok () else .error e

def PriceStatus.ofU8 : UInt8 → Except ErrBox PriceStatus
  | 0 => .ok .unknown
  | 1 => .ok .trading
  | 2 => .ok .halted
  | 3 => .ok .auction
  | other => .error (.invalidStatus other)

def PriceAttestation.deserialize : Read PriceAttestation := do
  let productId ← readIdentifier
  let priceId ← readIdentifier
  let price ← readWord 64 8
  let conf ← readWord 64 8
  let expo ← readWord 32 4
  let emaPrice ← readWord 64 8
  let emaConf ← readWord 64 8
  let status ← readU8
  let status ← liftM (PriceStatus.ofU8 status)
  let numPublishers ← readWord 32 4
  let maxNumPublishers ← readWord 32 4
  let attestationTime ← readWord 64 8
  let publishTime ← readWord 64 8
  let prevPublishTime ← readWord 64 8
  let prevPrice ← readWord 64 8
  let prevConf ← readWord 64 8
  let lastAttestedPublishTime ← readWord 64 8
  return { productId, priceId, price, conf, expo, emaPrice, emaConf, status, numPublishers,
           maxNumPublishers, attestationTime, publishTime, prevPublishTime, prevPrice, prevConf,
           lastAttestedPublishTime }

/-- An attestation in its bytes, of which the rest is dropped. -/
def attestationOf (i batchLen : ℕ) (attestationBuf : Bytes) : Except ErrBox PriceAttestation :=
  match PriceAttestation.deserialize attestationBuf with
  | .ok (attestation, _) => .ok attestation
  | .error e => .error (.attestation (i + 1) batchLen e)

/-- The loop of `BatchPriceAttestation::deserialize` over the `n` attestations that are left. -/
def readAttestations (batchLen attestationSize : ℕ) : (i n : ℕ) → Read (List PriceAttestation)
  | _, 0 => return []
  | i, n + 1 => do
    let attestationBuf ← readExact attestationSize
    let attestation ← liftM (attestationOf i batchLen attestationBuf)
    let ret ← readAttestations batchLen attestationSize (i + 1) n
    return attestation :: ret

/-- The header, up to its last byte. -/
def readHeader : Read Unit := do
  let magic ← readExact P2W_MAGIC.length
  liftM (check (magic = P2W_MAGIC) (.invalidMagic magic))
  let majorVersion ← readWord 16 2
  liftM (check (majorVersion = P2W_FORMAT_VER_MAJOR) (.unsupportedMajorVersion majorVersion))
  let minorVersion ← readWord 16 2
  liftM (check (minorVersion ≥ P2W_FORMAT_VER_MINOR) (.unsupportedMinorVersion minorVersion))
  let hdrSize ← readWord 16 2
  let hdrBuf ← readExact hdrSize.toNat
  let (payloadId, _) ← liftM (readU8 hdrBuf)
  liftM (check (payloadId = PRICE_BATCH_ATTESTATION) (.invalidPayloadId payloadId))

def BatchPriceAttestation.read : Read BatchPriceAttestation := do
  readHeader
  let batchLen ← readWord 16 2
  let attestationSize ← readWord 16 2
  let priceAttestations ←
    readAttestations batchLen.toNat attestationSize.toNat 0 batchLen.toNat
  return { priceAttestations }

/-- `BatchPriceAttestation::deserialize`, which leaves what follows the batch. -/
def BatchPriceAttestation.deserialize (bytes : Bytes) : Except ErrBox BatchPriceAttestation := do
  let (batch, _) ← BatchPriceAttestation.read bytes
  return batch

/-! ## Extensions -/

/-- The bytes of a serialized attestation. -/
def ATTESTATION_SIZE : ℕ := 157

/-- The size of an attestation that `serialize` finds, which is 0 without attestations. -/
def BatchPriceAttestation.attestationSize (b : BatchPriceAttestation) : ℕ :=
  if b.priceAttestations = [] then 0 else ATTESTATION_SIZE

/-- What a later version appends to the encoding of a batch: bytes to the header, and as many to
each attestation. -/
structure Extension (b : BatchPriceAttestation) where
  minorVersion : BitVec 16
  headerExtra : Bytes
  extraSize : ℕ
  extras : List {bytes : Bytes // bytes.length = extraSize}
  newer : P2W_FORMAT_VER_MINOR ≤ minorVersion
  headerFits : headerExtra.length + 1 < 2 ^ 16
  sizeFits : b.attestationSize + extraSize < 2 ^ 16
  forEach : extras.length = b.priceAttestations.length

namespace Extension

variable {b : BatchPriceAttestation} (x : Extension b)

/-- Up to the payload id, with the larger size, and what is appended. -/
def header : Bytes :=
  P2W_MAGIC ++ (bytesBE 2 P2W_FORMAT_VER_MAJOR.toNat ++ (bytesBE 2 x.minorVersion.toNat
    ++ (bytesBE 2 (x.headerExtra.length + 1) ++ ([PRICE_BATCH_ATTESTATION] ++ x.headerExtra))))

/-- The attestations, each with what is appended to it. -/
def records : List (PriceAttestation × {bytes : Bytes // bytes.length = x.extraSize}) :=
  b.priceAttestations.zip x.extras

def encoding : Bytes :=
  x.header ++ (bytesBE 2 (BitVec.ofNat 16 b.priceAttestations.length).toNat
    ++ (bytesBE 2 (b.attestationSize + x.extraSize)
      ++ (x.records.map fun a => a.1.serialize ++ a.2.val).flatten))

/-- The attestations behind those that the number on the wire counts. -/
def uncounted : Bytes :=
  ((x.records.drop (b.priceAttestations.length % 2 ^ 16)).map
    fun a => a.1.serialize ++ a.2.val).flatten

theorem map_fst_records : x.records.map Prod.fst = b.priceAttestations :=
  List.map_fst_zip x.forEach.ge

theorem length_records : x.records.length = b.priceAttestations.length := by
  rw [← x.map_fst_records, List.length_map]

/-- A number that fits in 16 bits counts all attestations. -/
theorem uncounted_of_le (h : b.priceAttestations.length ≤ 65535) : x.uncounted = [] := by
  have hmod : b.priceAttestations.length % 2 ^ 16 = b.priceAttestations.length :=
    Nat.mod_eq_of_lt (Nat.lt_succ_of_le h)
  rw [uncounted, hmod, ← x.length_records, List.drop_length]
  rfl

end Extension

/-- The attestations that the number on the wire leaves. -/
def BatchPriceAttestation.counted (b : BatchPriceAttestation) : BatchPriceAttestation where
  priceAttestations := b.priceAttestations.take (b.priceAttestations.length % 2 ^ 16)

theorem counted_of_le {b : BatchPriceAttestation} (h : b.priceAttestations.length ≤ 65535) :
    b.counted = b := by
  have hmod : b.priceAttestations.length % 2 ^ 16 = b.priceAttestations.length :=
    Nat.mod_eq_of_lt (Nat.lt_succ_of_le h)
  rw [BatchPriceAttestation.counted, hmod, List.take_length]

/-! ## Extended batches -/

/-- A batch with bytes appended to the header and to each attestation. -/
structure ExtendedBatch where
  headerExtra : Bytes
  extraSize : ℕ
  attestations : List (PriceAttestation × {bytes : Bytes // bytes.length = extraSize})
  headerFits : headerExtra.length + 1 < 2 ^ 16
  sizeFits : ATTESTATION_SIZE + extraSize < 2 ^ 16
  countFits : attestations.length < 2 ^ 16

namespace ExtendedBatch

variable (e : ExtendedBatch)

def batch : BatchPriceAttestation where
  priceAttestations := e.attestations.map Prod.fst

/-- Without attestations their size is 0, and what is appended. -/
def attestationSize : ℕ :=
  (if e.attestations = [] then 0 else ATTESTATION_SIZE) + e.extraSize

/-- What the batch starts with, up to the first attestation. -/
def header : Bytes :=
  headerStart (BitVec.ofNat 16 (e.headerExtra.length + 1)) ++ [PRICE_BATCH_ATTESTATION]
    ++ e.headerExtra ++ bytesBE 2 e.attestations.length ++ bytesBE 2 e.attestationSize

def records : List Bytes := e.attestations.map fun a => a.1.serialize ++ a.2.val

def payload : Bytes := e.header ++ e.records.flatten

/-- The size is the one that is found, with the bytes that are appended. -/
theorem batchSize_eq : e.batch.attestationSize + e.extraSize = e.attestationSize := by
  unfold BatchPriceAttestation.attestationSize batch attestationSize
  simp only [List.map_eq_nil_iff]

theorem attestationSize_lt : e.attestationSize < 2 ^ 16 := by
  have hle : e.attestationSize ≤ ATTESTATION_SIZE + e.extraSize := by
    unfold attestationSize
    split <;> omega
  exact hle.trans_lt e.sizeFits

theorem batchSize_fits : e.batch.attestationSize + e.extraSize < 2 ^ 16 :=
  e.batchSize_eq ▸ e.attestationSize_lt

theorem length_extras :
    (e.attestations.map Prod.snd).length = e.batch.priceAttestations.length := by
  rw [batch, List.length_map, List.length_map]

end ExtendedBatch

section

@[simp] theorem length_serialize (a : PriceAttestation) :
    a.serialize.length = ATTESTATION_SIZE := by
  simp [PriceAttestation.serialize, a.productId.property, a.priceId.property, ATTESTATION_SIZE]

theorem serializeAttestations_eq (idx attestationSize : ℕ) (as : List PriceAttestation)
    (h : attestationSize = 0 ∨ attestationSize = ATTESTATION_SIZE) :
    serializeAttestations idx attestationSize as
      = .ok (if as = [] then attestationSize else ATTESTATION_SIZE,
          as.map PriceAttestation.serialize) := by
  induction as generalizing idx attestationSize with
  | nil => rfl
  | cons a as ih =>
    have hsize : checkSize idx attestationSize a.serialize.length = .ok ATTESTATION_SIZE := by
      rw [length_serialize]
      rcases h with rfl | rfl <;> rfl
    have hrest := ih (idx + 1) ATTESTATION_SIZE (.inr rfl)
    rw [ite_self] at hrest
    rw [serializeAttestations, hsize]
    show (serializeAttestations (idx + 1) ATTESTATION_SIZE as >>= _) = _
    rw [hrest, if_neg (List.cons_ne_nil a as)]
    rfl

/-! ## What is read -/

theorem readExact_append {k : ℕ} {field : Bytes} (hfield : field.length = k) (rest : Bytes) :
    readExact k (field ++ rest) = .ok (field, rest) :=
  Decoder.take_run_append hfield rest

theorem ofNat_natBE_word {w k : ℕ} (v : BitVec w) (hw : 2 ^ w = 256 ^ k) :
    BitVec.ofNat w (natBE (bytesBE k v.toNat)) = v := by
  rw [natBE_bytesBE, ← hw, Nat.mod_eq_of_lt v.isLt, BitVec.ofNat_toNat, BitVec.setWidth_eq]

theorem readWord_append {w k : ℕ} (v : BitVec w) (hw : 2 ^ w = 256 ^ k) (rest : Bytes) :
    readWord w k (bytesBE k v.toNat ++ rest) = .ok (v, rest) := by
  have hrun := Decoder.map_run_of (f := fun bytes => BitVec.ofNat w (natBE bytes))
    (readExact_append (length_bytesBE k v.toNat) rest)
  rwa [ofNat_natBE_word v hw] at hrun

theorem readIdentifier_append (id : HashArray 32) (rest : Bytes) :
    readIdentifier (id.val ++ rest) = .ok (id, rest) := by
  have hlength : PUBKEY_LEN ≤ (id.val ++ rest).length := by simp [PUBKEY_LEN, id.property]
  have hfield : (id.val ++ rest).take PUBKEY_LEN = id.val := List.take_left' id.property
  have hrest : (id.val ++ rest).drop PUBKEY_LEN = rest := List.drop_left' id.property
  rw [readIdentifier, dif_pos hlength]
  exact congrArg Except.ok (Prod.ext (Subtype.ext hfield) hrest)

theorem readU8_append (b : UInt8) (rest : Bytes) : readU8 ([b] ++ rest) = .ok (b, rest) := rfl

theorem lift_run {α : Type} {x : Except ErrBox α} {a : α} (h : x = .ok a) (bytes : Bytes) :
    (liftM x : Read α) bytes = .ok (a, bytes) := by
  rw [h]
  rfl

theorem check_run {p : Prop} [Decidable p] {e : ErrBox} (h : p) (bytes : Bytes) :
    (liftM (check p e) : Read Unit) bytes = .ok ((), bytes) :=
  lift_run (if_pos h) bytes

theorem ofU8_toU8 (status : PriceStatus) : PriceStatus.ofU8 status.toU8 = .ok status := by
  cases status <;> rfl

/-- What follows an attestation is left. -/
theorem deserialize_serialize (a : PriceAttestation) (rest : Bytes) :
    PriceAttestation.deserialize (a.serialize ++ rest) = .ok (a, rest) := by
  unfold PriceAttestation.serialize PriceAttestation.deserialize
  simp only [List.append_assoc]
  rw [Decoder.bind_run_of (readIdentifier_append a.productId _),
    Decoder.bind_run_of (readIdentifier_append a.priceId _),
    Decoder.bind_run_of (readWord_append a.price (by decide) _),
    Decoder.bind_run_of (readWord_append a.conf (by decide) _),
    Decoder.bind_run_of (readWord_append a.expo (by decide) _),
    Decoder.bind_run_of (readWord_append a.emaPrice (by decide) _),
    Decoder.bind_run_of (readWord_append a.emaConf (by decide) _),
    Decoder.bind_run_of (readU8_append a.status.toU8 _),
    Decoder.bind_run_of (lift_run (ofU8_toU8 a.status) _),
    Decoder.bind_run_of (readWord_append a.numPublishers (by decide) _),
    Decoder.bind_run_of (readWord_append a.maxNumPublishers (by decide) _),
    Decoder.bind_run_of (readWord_append a.attestationTime (by decide) _),
    Decoder.bind_run_of (readWord_append a.publishTime (by decide) _),
    Decoder.bind_run_of (readWord_append a.prevPublishTime (by decide) _),
    Decoder.bind_run_of (readWord_append a.prevPrice (by decide) _),
    Decoder.bind_run_of (readWord_append a.prevConf (by decide) _),
    Decoder.bind_run_of (readWord_append a.lastAttestedPublishTime (by decide) _)]
  rfl

/-- A header of this or a later minor version, with anything behind the payload id. -/
theorem readHeader_versioned {minorVersion hdrSize : BitVec 16} {headerExtra : Bytes}
    (hminor : minorVersion ≥ P2W_FORMAT_VER_MINOR) (hsize : headerExtra.length + 1 = hdrSize.toNat)
    (rest : Bytes) :
    readHeader (P2W_MAGIC ++ (bytesBE 2 P2W_FORMAT_VER_MAJOR.toNat
      ++ (bytesBE 2 minorVersion.toNat ++ (bytesBE 2 hdrSize.toNat
        ++ ([PRICE_BATCH_ATTESTATION] ++ (headerExtra ++ rest)))))) = .ok ((), rest) := by
  have hbuf : ([PRICE_BATCH_ATTESTATION] ++ headerExtra).length = hdrSize.toNat := hsize
  have hid : readU8 ([PRICE_BATCH_ATTESTATION] ++ headerExtra)
      = .ok (PRICE_BATCH_ATTESTATION, headerExtra) := rfl
  have hmagic : P2W_MAGIC.length = P2W_MAGIC.length := rfl
  unfold readHeader
  rw [Decoder.bind_run_of (readExact_append hmagic _),
    Decoder.bind_run_of (check_run rfl _),
    Decoder.bind_run_of (readWord_append P2W_FORMAT_VER_MAJOR (by decide) _),
    Decoder.bind_run_of (check_run rfl _),
    Decoder.bind_run_of (readWord_append minorVersion (by decide) _),
    Decoder.bind_run_of (check_run hminor _),
    Decoder.bind_run_of (readWord_append hdrSize (by decide) _), ← List.append_assoc _ headerExtra,
    Decoder.bind_run_of (readExact_append hbuf _),
    Decoder.bind_run_of (lift_run hid _)]
  exact check_run rfl rest

theorem readAttestations_records {n : ℕ}
    (as : List (PriceAttestation × {bytes : Bytes // bytes.length = n})) (batchLen i : ℕ)
    (rest : Bytes) :
    readAttestations batchLen (ATTESTATION_SIZE + n) i as.length
        ((as.map fun a => a.1.serialize ++ a.2.val).flatten ++ rest)
      = .ok (as.map Prod.fst, rest) := by
  induction as generalizing i with
  | nil => rfl
  | cons a as ih =>
    have hlength : (a.1.serialize ++ a.2.val).length = ATTESTATION_SIZE + n := by
      rw [List.length_append, length_serialize, a.2.property]
    have hattestation : attestationOf i batchLen (a.1.serialize ++ a.2.val) = .ok a.1 := by
      rw [attestationOf, deserialize_serialize]
    rw [List.length_cons, readAttestations, List.map_cons, List.flatten_cons, List.append_assoc,
      Decoder.bind_run_of (readExact_append hlength _),
      Decoder.bind_run_of (lift_run hattestation _), Decoder.bind_run_of (ih (i + 1))]
    rfl

/-- As many attestations as the number says are read. -/
theorem readAttestations_counted {b : BatchPriceAttestation} (x : Extension b) (rest : Bytes) :
    readAttestations (b.priceAttestations.length % 2 ^ 16) (b.attestationSize + x.extraSize) 0
        (b.priceAttestations.length % 2 ^ 16)
        ((x.records.map fun a => a.1.serialize ++ a.2.val).flatten ++ rest)
      = .ok (b.counted.priceAttestations, x.uncounted ++ rest) := by
  unfold Extension.uncounted BatchPriceAttestation.counted
  generalize hn : b.priceAttestations.length % 2 ^ 16 = n
  have hle : n ≤ x.records.length := by
    rw [x.length_records, ← hn]
    exact Nat.mod_le _ _
  have hsplit : (x.records.map fun a => a.1.serialize ++ a.2.val).flatten
      = ((x.records.take n).map fun a => a.1.serialize ++ a.2.val).flatten
        ++ ((x.records.drop n).map fun a => a.1.serialize ++ a.2.val).flatten := by
    rw [← List.flatten_append, ← List.map_append, List.take_append_drop]
  have hcounted : (x.records.take n).map Prod.fst = b.priceAttestations.take n := by
    rw [List.map_take, x.map_fst_records]
  rw [hsplit, List.append_assoc, ← hcounted]
  by_cases hempty : b.priceAttestations = []
  · -- then nothing is read, whatever the size
    have hzero : n = 0 := by
      rw [← hn, hempty]
      rfl
    rw [hzero]
    rfl
  · have hrun := readAttestations_records (x.records.take n) n 0
      (((x.records.drop n).map fun a => a.1.serialize ++ a.2.val).flatten ++ rest)
    rw [List.length_take_of_le hle] at hrun
    rwa [BatchPriceAttestation.attestationSize, if_neg hempty]

/-- What is appended is skipped, and what the number leaves out is not read. -/
theorem read_encoding {b : BatchPriceAttestation} (x : Extension b) (rest : Bytes) :
    BatchPriceAttestation.read (x.encoding ++ rest) = .ok (b.counted, x.uncounted ++ rest) := by
  have hhdr : x.headerExtra.length + 1 = (BitVec.ofNat 16 (x.headerExtra.length + 1)).toNat := by
    rw [BitVec.toNat_ofNat, Nat.mod_eq_of_lt x.headerFits]
  have hsize : b.attestationSize + x.extraSize
      = (BitVec.ofNat 16 (b.attestationSize + x.extraSize)).toNat := by
    rw [BitVec.toNat_ofNat, Nat.mod_eq_of_lt x.sizeFits]
  have hread := readAttestations_counted x rest
  unfold BatchPriceAttestation.read Extension.encoding Extension.header
  rw [hsize] at hread ⊢
  rw [hhdr]
  simp only [List.append_assoc]
  rw [Decoder.bind_run_of (readHeader_versioned x.newer hhdr _),
    Decoder.bind_run_of (readWord_append (BitVec.ofNat 16 b.priceAttestations.length) (by decide) _),
    Decoder.bind_run_of (readWord_append _ (by decide) _),
    BitVec.toNat_ofNat, Decoder.bind_run_of hread]
  rfl

theorem deserialize_encoding {b : BatchPriceAttestation} (x : Extension b) (rest : Bytes) :
    BatchPriceAttestation.deserialize (x.encoding ++ rest) = .ok b.counted := by
  rw [BatchPriceAttestation.deserialize, read_encoding]
  rfl

theorem minor_newer : P2W_FORMAT_VER_MINOR ≤ P2W_FORMAT_VER_MINOR := BitVec.le_refl _

/-- An extended batch is an extension of its batch, of the same minor version. -/
def ExtendedBatch.extension (e : ExtendedBatch) : Extension e.batch where
  minorVersion := P2W_FORMAT_VER_MINOR
  headerExtra := e.headerExtra
  extraSize := e.extraSize
  extras := e.attestations.map Prod.snd
  newer := minor_newer
  headerFits := e.headerFits
  sizeFits := e.batchSize_fits
  forEach := e.length_extras

theorem ExtendedBatch.payload_eq (e : ExtendedBatch) : e.payload = e.extension.encoding := by
  have hhdr : (BitVec.ofNat 16 (e.headerExtra.length + 1)).toNat = e.headerExtra.length + 1 := by
    rw [BitVec.toNat_ofNat, Nat.mod_eq_of_lt e.headerFits]
  have hcount : (BitVec.ofNat 16 e.batch.priceAttestations.length).toNat =
      e.attestations.length := by
    rw [ExtendedBatch.batch, List.length_map, BitVec.toNat_ofNat, Nat.mod_eq_of_lt e.countFits]
  have hrecords : (e.extension.records.map fun a => a.1.serialize ++ a.2.val) = e.records := by
    show ((e.attestations.map Prod.fst).zip (e.attestations.map Prod.snd)).map
      (fun a : PriceAttestation × {bytes : Bytes // bytes.length = e.extraSize} =>
        a.1.serialize ++ a.2.val) = _
    rw [List.zip_map', List.map_map]
    rfl
  have hsize : e.batch.attestationSize + e.extension.extraSize = e.attestationSize :=
    e.batchSize_eq
  unfold ExtendedBatch.payload ExtendedBatch.header Extension.encoding Extension.header
  rw [hcount, hrecords, hsize, headerStart, hhdr]
  simp only [List.append_assoc]
  rfl

/-- What is appended to the header and to the attestations is skipped. -/
theorem read_extended (e : ExtendedBatch) (rest : Bytes) :
    BatchPriceAttestation.read (e.payload ++ rest) = .ok (e.batch, rest) := by
  have hcount : e.batch.priceAttestations.length ≤ 65535 := by
    rw [ExtendedBatch.batch, List.length_map]
    exact Nat.le_of_lt_succ e.countFits
  rw [e.payload_eq, read_encoding, counted_of_le hcount, e.extension.uncounted_of_le hcount,
    List.nil_append]

theorem deserialize_extended (e : ExtendedBatch) :
    BatchPriceAttestation.deserialize e.payload = .ok e.batch := by
  have hread := read_extended e []
  rw [List.append_nil] at hread
  rw [BatchPriceAttestation.deserialize, hread]
  rfl

/-! ## What is rejected -/

open Decoder (Stable)

theorem stable_readExact (k : ℕ) : Stable (readExact k) := Decoder.stable_take _ k

theorem stable_readWord (w k : ℕ) : Stable (readWord w k) := (stable_readExact k).map _

theorem stable_readHeader : Stable readHeader := by
  refine (stable_readExact _).bind fun magic => (Decoder.stable_lift _).bind fun _ => ?_
  refine (stable_readWord _ _).bind fun major => (Decoder.stable_lift _).bind fun _ => ?_
  refine (stable_readWord _ _).bind fun minor => (Decoder.stable_lift _).bind fun _ => ?_
  refine (stable_readWord _ _).bind fun hdrSize => (stable_readExact _).bind fun hdrBuf => ?_
  exact (Decoder.stable_lift _).bind fun payloadId => Decoder.stable_lift _

theorem stable_readAttestations (batchLen attestationSize i n : ℕ) :
    Stable (readAttestations batchLen attestationSize i n) := by
  induction n generalizing i with
  | zero => exact Decoder.stable_pure []
  | succ n ih =>
    refine (stable_readExact _).bind fun buf => (Decoder.stable_lift _).bind fun attestation => ?_
    exact (ih (i + 1)).bind fun ret => Decoder.stable_pure _

theorem stable_read : Stable BatchPriceAttestation.read := by
  refine stable_readHeader.bind fun _ => (stable_readWord _ _).bind fun batchLen => ?_
  refine (stable_readWord _ _).bind fun size => (stable_readAttestations _ _ _ _).bind fun as => ?_
  exact Decoder.stable_pure _

/-- A truncated batch is rejected. -/
theorem deserialize_truncated (e : ExtendedBatch) {bytes more : Bytes}
    (h : e.payload = bytes ++ more) (hmore : more ≠ []) :
    ∃ err, BatchPriceAttestation.deserialize bytes = .error err := by
  have hread := read_extended e []
  rw [List.append_nil, h] at hread
  obtain ⟨err, herr⟩ := stable_read.fails_on_cut hread hmore
  refine ⟨err, ?_⟩
  rw [BatchPriceAttestation.deserialize, herr]
  rfl

/-- The magic number, the major version and the payload id of a batch. -/
structure Headed (bytes : Bytes) : Prop where
  magic : bytes.take 4 = P2W_MAGIC
  majorVersion : (bytes.drop 4).take 2 = bytesBE 2 P2W_FORMAT_VER_MAJOR.toNat
  payloadId : bytes[10]? = some PRICE_BATCH_ATTESTATION

theorem readExact_eq_ok {k : ℕ} {bytes field rest : Bytes} :
    readExact k bytes = .ok (field, rest) ↔ field.length = k ∧ bytes = field ++ rest := by
  unfold readExact
  rw [Decoder.reads_take, Parser.take_run]

theorem readWord_eq_ok {w k : ℕ} {v : BitVec w} {bytes rest : Bytes} :
    readWord w k bytes = .ok (v, rest) ↔
      ∃ field, field.length = k ∧ bytes = field ++ rest ∧ BitVec.ofNat w (natBE field) = v := by
  unfold readWord
  simp only [Decoder.map_run_eq_ok, readExact_eq_ok, and_assoc]

theorem check_eq_ok {p : Prop} [Decidable p] {e : ErrBox} {u : Unit} : check p e = .ok u ↔ p := by
  unfold check
  split
  · next h => exact ⟨fun _ => h, fun _ => rfl⟩
  · next h => exact ⟨nofun, fun h' => absurd h' h⟩

/-- Two bytes with a value. -/
theorem field_of_word {field : Bytes} {v : BitVec 16} (hlength : field.length = 2)
    (h : BitVec.ofNat 16 (natBE field) = v) : field = bytesBE 2 v.toNat := by
  have hlt : natBE field < 2 ^ 16 := by
    have hbound := natBE_lt field
    rwa [hlength] at hbound
  have hfield := bytesBE_natBE field
  rw [hlength] at hfield
  rw [← h, BitVec.toNat_ofNat, Nat.mod_eq_of_lt hlt, hfield]

theorem headed_of_readHeader {bytes last : Bytes} (h : readHeader bytes = .ok ((), last)) :
    Headed bytes := by
  unfold readHeader at h
  obtain ⟨⟨magic, _⟩, hmagic, h⟩ := except_bind_eq_ok.mp h
  obtain ⟨⟨_, _⟩, hvalid, h⟩ := except_bind_eq_ok.mp h
  obtain ⟨⟨majorVersion, _⟩, hmajor, h⟩ := except_bind_eq_ok.mp h
  obtain ⟨⟨_, _⟩, hsupported, h⟩ := except_bind_eq_ok.mp h
  obtain ⟨⟨minorVersion, _⟩, hminor, h⟩ := except_bind_eq_ok.mp h
  obtain ⟨⟨_, _⟩, hnewer, h⟩ := except_bind_eq_ok.mp h
  obtain ⟨⟨hdrSize, _⟩, hsize, h⟩ := except_bind_eq_ok.mp h
  obtain ⟨⟨hdrBuf, rest⟩, hbuf, h⟩ := except_bind_eq_ok.mp h
  obtain ⟨⟨⟨payloadId, _⟩, _⟩, hid, h⟩ := except_bind_eq_ok.mp h
  obtain ⟨hlength, rfl⟩ := readExact_eq_ok.mp hmagic
  obtain ⟨hmagicOk, rfl⟩ := Decoder.lift_run_eq_ok.mp hvalid
  obtain ⟨major, hmajorLength, rfl, hmajorValue⟩ := readWord_eq_ok.mp hmajor
  obtain ⟨hmajorOk, rfl⟩ := Decoder.lift_run_eq_ok.mp hsupported
  obtain ⟨minor, hminorLength, rfl, -⟩ := readWord_eq_ok.mp hminor
  obtain ⟨-, rfl⟩ := Decoder.lift_run_eq_ok.mp hnewer
  obtain ⟨size, hsizeLength, rfl, -⟩ := readWord_eq_ok.mp hsize
  obtain ⟨-, rfl⟩ := readExact_eq_ok.mp hbuf
  obtain ⟨hidRead, rfl⟩ := Decoder.lift_run_eq_ok.mp hid
  obtain ⟨hidOk, rfl⟩ := Decoder.lift_run_eq_ok.mp h
  obtain rfl := check_eq_ok.mp hmagicOk
  obtain rfl := check_eq_ok.mp hmajorOk
  obtain rfl := check_eq_ok.mp hidOk
  have hfirst := Parser.byte_run.mp ((Decoder.reads_byte _ _ _).mp hidRead)
  have hmajorBytes := field_of_word hmajorLength hmajorValue
  have hfront : (P2W_MAGIC ++ major ++ minor ++ size).length = 10 := by
    simp [hmajorLength, hminorLength, hsizeLength, P2W_MAGIC]
  constructor
  · exact List.take_left' hlength
  · have hdrop : (P2W_MAGIC ++ (major ++ (minor ++ (size ++ (hdrBuf ++ rest))))).drop 4
        = major ++ (minor ++ (size ++ (hdrBuf ++ rest))) := List.drop_left' hlength
    exact (congrArg (List.take 2) hdrop).trans ((List.take_left' hmajorLength).trans hmajorBytes)
  · rw [hfirst, ← List.append_assoc, ← List.append_assoc, ← List.append_assoc,
      List.getElem?_append_right hfront.le, hfront]
    rfl

/-- What is read has the right header. -/
theorem deserialize_headed {bytes : Bytes} {b : BatchPriceAttestation}
    (h : BatchPriceAttestation.deserialize bytes = .ok b) : Headed bytes := by
  obtain ⟨⟨b', rest⟩, hread, -⟩ := except_bind_eq_ok.mp h
  obtain ⟨⟨u, mid⟩, hheader, -⟩ := except_bind_eq_ok.mp hread
  exact headed_of_readHeader hheader

end

end PythCrosschain.PythnetSdk.Legacy
