import PythCrosschain.Fuel.WormholeLight

/-!
# The Fuel contract: accumulator updates

`pyth_merkle_proof.sw`, the messages of `price.sw`, `accumulator_update.sw`, `update_type.sw`, and
`update_fee` and `update_price_feeds` of `main.sw`. The other kind of updates, batch attestations,
is a parameter of `main.sw` here.
-/

namespace PythCrosschain.Fuel

/-- The members of `PythError` that updates raise. -/
inductive PythError where
  | feesCanOnlyBePaidInTheBaseAsset
  | incorrectMessageType
  | insufficientFee
  | invalidAttestationSize
  | invalidExponent
  | invalidHeaderSize
  | invalidMagic
  | invalidMajorVersion
  | invalidMinorVersion
  | invalidPayloadId
  | invalidPayloadLength
  | invalidPriceFeedDataLength
  | invalidProof
  | invalidUpdateDataLength
  | numberOfUpdatesIrretrievable
  | priceFeedNotFoundWithinRange
deriving DecidableEq, Repr

/-- What a call reverts with. -/
inductive Error where
  | pyth (e : PythError)
  | wormhole (e : WormholeError)
deriving DecidableEq, Repr

abbrev Result (α : Type) := Rust.Result Error α

/-- `require(condition, PythError)`. -/
def requirePyth (p : Prop) [Decidable p] (e : PythError) : Result Unit := require p (.pyth e)

theorem requirePyth_eq_ok {p : Prop} [Decidable p] {e : PythError} {u : Unit} :
    requirePyth p e = .ok u ↔ p := require_eq_ok

def okOrPyth {α : Type} (e : PythError) (o : Option α) : Result α := okOr (.pyth e) o

/-- A call of a function that reverts with a `WormholeError`. -/
def ofWormhole {α : Type} : WormholeResult α → Result α
  | .ok a => .ok a
  | .error (.error e) => .error (.error (.wormhole e))
  | .error .panic => .error .panic

/-! ## `pyth_merkle_proof.sw` -/

def MERKLE_LEAF_PREFIX : UInt8 := 0
def MERKLE_NODE_PREFIX : UInt8 := 1

section

variable (keccak256 : Bytes → Bytes32)

/-- The first 20 bytes of the hash, which has 32. -/
def leafHash (data : Bytes) : Bytes := (wordBytes (keccak256 ([MERKLE_LEAF_PREFIX] ++ data))).take 20

def nodeHash (childA childB : Bytes) : Bytes :=
  let a := intoB256 childA
  let b := intoB256 childB
  let bytes := if a > b then [MERKLE_NODE_PREFIX] ++ childB ++ childA
    else [MERKLE_NODE_PREFIX] ++ childA ++ childB
  (wordBytes (keccak256 bytes)).take 20

/-- The loop of `validate_proof` over the `n` siblings that are left. -/
def climb (encodedProof : Bytes) (currentDigest : Bytes) (proofOffset : ℕ) :
    ℕ → Result (Bytes × ℕ)
  | 0 => return (currentDigest, proofOffset)
  | n + 1 => do
    let (_, slice) ← splitAt encodedProof proofOffset
    let (siblingDigest, _) ← splitAt slice 20
    climb encodedProof (nodeHash keccak256 currentDigest siblingDigest) (proofOffset + 20) n

def validateProof (encodedProof : Bytes) (proofOffset : ℕ) (root leafData : Bytes) : Result ℕ := do
  let currentDigest := leafHash keccak256 leafData
  let proofSize ← unwrap (get encodedProof proofOffset)
  let proofOffset := proofOffset + 1
  let (currentDigest, proofOffset) ←
    climb keccak256 encodedProof currentDigest proofOffset proofSize.toNat
  requirePyth (intoB256 currentDigest = intoB256 root) .invalidProof
  return proofOffset

end

/-! ## `price.sw` -/

def TAI64_DIFFERENCE : BitVec 64 := 4611686018427387904

structure Price where
  confidence : BitVec 64
  exponent : BitVec 32
  price : BitVec 64
  publishTime : BitVec 64
deriving DecidableEq, Repr

structure PriceFeed where
  emaPrice : Price
  id : Bytes32
  price : Price
deriving DecidableEq, Repr

def absoluteOfExponent (exponent : BitVec 32) : BitVec 32 :=
  if exponent = 0 then exponent else BitVec.allOnes 32 - exponent + 1

/-- The exponent as a positive number. -/
theorem absoluteOfExponent_toNat {exponent : BitVec 32}
    (h : -255 ≤ exponent.toInt ∧ exponent.toInt ≤ 0) :
    ((absoluteOfExponent exponent).toNat : ℤ) = -exponent.toInt := by
  unfold absoluteOfExponent
  by_cases hzero : exponent = 0
  · rw [if_pos hzero, hzero]
    rfl
  · rw [if_neg hzero]
    have hlt := exponent.isLt
    have hpos : 0 < exponent.toNat := by
      by_contra hneg
      exact hzero (BitVec.eq_of_toNat_eq (Nat.eq_zero_of_not_pos hneg))
    have hone : (1 : BitVec 32).toNat = 1 := rfl
    have hnat : (BitVec.allOnes 32 - exponent + 1).toNat = 2 ^ 32 - exponent.toNat := by
      rw [BitVec.toNat_add, BitVec.toNat_sub, BitVec.toNat_allOnes, hone]
      omega
    rw [BitVec.toInt_eq_toNat_cond] at h ⊢
    rw [hnat]
    split at h
    · omega
    · next hlarge =>
      rw [if_neg hlarge]
      omega

theorem absoluteOfExponent_lt {exponent : BitVec 32}
    (h : -255 ≤ exponent.toInt ∧ exponent.toInt ≤ 0) : absoluteOfExponent exponent < 256 := by
  have habsolute := absoluteOfExponent_toNat h
  rw [BitVec.lt_def]
  show _ < 256
  omega

/-- A price is the number that it is without a sign. -/
theorem toNat_of_toInt_nonneg {price : BitVec 64} (h : 0 ≤ price.toInt) :
    (price.toNat : ℤ) = price.toInt := by
  rw [BitVec.toInt_eq_toNat_cond] at h ⊢
  have hlt := price.isLt
  split
  · rfl
  · next hlarge =>
    rw [if_neg hlarge] at h
    omega

def PriceFeed.parseMessage (encodedPriceFeed : Bytes) : Result PriceFeed := do
  let offset := 1
  let (_, slice) ← splitAt encodedPriceFeed offset
  let (priceFeedId, _) ← splitAt slice 32
  let priceFeedId := intoB256 priceFeedId
  let offset := offset + 32
  let price ← getUint 64 8 encodedPriceFeed offset
  let offset := offset + 8
  let confidence ← getUint 64 8 encodedPriceFeed offset
  let offset := offset + 8
  let exponent ← getUint 32 4 encodedPriceFeed offset
  let exponent := absoluteOfExponent exponent
  requirePyth (exponent < 256) .invalidExponent
  let offset := offset + 4
  let publishTime ← getUint 64 8 encodedPriceFeed offset
  -- the previous publish time is not used
  let offset := offset + 16
  let emaPrice ← getUint 64 8 encodedPriceFeed offset
  let offset := offset + 8
  let emaConfidence ← getUint 64 8 encodedPriceFeed offset
  let offset := offset + 8
  requirePyth (offset ≤ encodedPriceFeed.length) .invalidPriceFeedDataLength
  let publishTime ← checkedAdd publishTime TAI64_DIFFERENCE
  return {
    emaPrice := { confidence := emaConfidence, exponent, price := emaPrice, publishTime }
    id := priceFeedId
    price := { confidence, exponent, price, publishTime } }

section

variable (keccak256 : Bytes → Bytes32)

def PriceFeed.extractFromMerkleProof (digest encodedProof : Bytes) (offset : ℕ) :
    Result (ℕ × PriceFeed) := do
  let messageSize ← getUint 16 2 encodedProof offset
  let currentOffset := offset + 2
  let (_, slice) ← splitAt encodedProof currentOffset
  let (encodedMessage, _) ← splitAt slice messageSize.toNat
  let currentOffset := currentOffset + messageSize.toNat
  let endOffset ← validateProof keccak256 encodedProof currentOffset digest encodedMessage
  let messageType ← unwrap (get encodedMessage 0)
  requirePyth (messageType = 0) .incorrectMessageType
  let priceFeed ← PriceFeed.parseMessage encodedMessage
  return (endOffset, priceFeed)

end

/-! ## `accumulator_update.sw` -/

/-- The storage with the prices and the fee. -/
structure PythStorage extends Storage where
  latestPriceFeed : Bytes32 → Option PriceFeed := fun _ => none
  singleUpdateFee : BitVec 64 := 0

def MINIMUM_ALLOWED_MINOR_VERSION : BitVec 8 := 0
def MAJOR_VERSION : BitVec 8 := 1

/-- `AccumulatorUpdate`. -/
structure AccumulatorUpdate where
  data : Bytes

namespace AccumulatorUpdate

variable (self : AccumulatorUpdate)

def totalUpdates (offset : ℕ) : Result (BitVec 8) := do
  let proofSize ← getUint 16 2 self.data offset
  let offset := offset + (proofSize.toNat + 2)
  unwrap (get self.data offset)

def verify : Result ℕ := do
  let majorVersion := get self.data 4
  requirePyth (majorVersion = some MAJOR_VERSION) .invalidMajorVersion
  let minorVersion ← okOrPyth .invalidMinorVersion (get self.data 5)
  requirePyth (minorVersion ≥ MINIMUM_ALLOWED_MINOR_VERSION) .invalidMinorVersion
  let trailingHeaderSize ← okOrPyth .invalidHeaderSize (get self.data 6)
  -- skip trailing headers and update type
  let offset := 8 + trailingHeaderSize.toNat
  requirePyth (self.data.length ≥ offset) .invalidUpdateDataLength
  return offset

variable (P : WormholeHost) (timestamp : BitVec 64) (s : PythStorage)

/-- The offset behind the number of updates, the digest, the number, and the encoded part. -/
def verifyAndParse : Result (ℕ × Bytes × BitVec 8 × Bytes) := do
  let encodedOffset ← self.verify
  let (_, slice) ← splitAt self.data encodedOffset
  let (encodedSlice, _) ← splitAt slice (self.data.length - encodedOffset)
  let offset := 0
  let wormholeProofSize ← getUint 16 2 encodedSlice offset
  let offset := offset + 2
  let (_, slice) ← splitAt encodedSlice offset
  let (encodedVm, _) ← splitAt slice wormholeProofSize.toNat
  let vm ← ofWormhole
    (parseAndVerifyPythVm P s.toStorage timestamp s.wormholeGuardianSetIndex encodedVm)
  let offset := offset + wormholeProofSize.toNat
  let encodedPayload := vm.payload
  -- the magic, the update type, the slot and the size of the ring are skipped
  let payloadOffset := 17
  let (_, slice) ← splitAt encodedPayload payloadOffset
  let (digest, _) ← splitAt slice 20
  let payloadOffset := payloadOffset + 20
  requirePyth (payloadOffset ≤ encodedPayload.length) .invalidPayloadLength
  let numberOfUpdates ← okOrPyth .numberOfUpdatesIrretrievable (get encodedSlice offset)
  let offset := offset + 1
  return (offset, digest, numberOfUpdates, encodedSlice)

/-- `latest_publish_time`, of the feed that is stored. -/
def latestPublishTime (latestPriceFeed : Bytes32 → Option PriceFeed) (id : Bytes32) : BitVec 64 :=
  match latestPriceFeed id with
  | some priceFeed => priceFeed.price.publishTime
  | none => 0

/-- What the loop does with a price feed: the prices that are stored, and the ids of those that
were updated. -/
def storeFeed (stored : (Bytes32 → Option PriceFeed) × List Bytes32) (priceFeed : PriceFeed) :
    (Bytes32 → Option PriceFeed) × List Bytes32 :=
  if priceFeed.price.publishTime > latestPublishTime stored.1 priceFeed.id then
    (Function.update stored.1 priceFeed.id (some priceFeed), stored.2 ++ [priceFeed.id])
  else stored

/-- The loop over the `n` updates that are left. -/
def updateLoop (digest encodedData : Bytes) :
    (n offset : ℕ) → (Bytes32 → Option PriceFeed) × List Bytes32 →
      Result (ℕ × (Bytes32 → Option PriceFeed) × List Bytes32)
  | 0, offset, stored => return (offset, stored)
  | n + 1, offset, stored => do
    let (newOffset, priceFeed) ←
      PriceFeed.extractFromMerkleProof P.keccak256 digest encodedData offset
    updateLoop digest encodedData n newOffset (storeFeed stored priceFeed)

/-- The number of updates, the ids that were updated, and the storage. -/
def updatePriceFeeds : Result (BitVec 8 × List Bytes32 × PythStorage) := do
  let (offset, digest, numberOfUpdates, encodedData) ← self.verifyAndParse P timestamp s
  let (offset, latestPriceFeed, updatedIds) ←
    updateLoop P digest encodedData numberOfUpdates.toNat offset (s.latestPriceFeed, [])
  requirePyth (offset = encodedData.length) .invalidUpdateDataLength
  return (numberOfUpdates, updatedIds, { s with latestPriceFeed })

end AccumulatorUpdate

/-! ## `update_type.sw` and `main.sw` -/

def accumulatorMagicBytes : Bytes := bytesBE 4 0x504e4155

/-- `UpdateType`, whose constructors take the data. -/
inductive UpdateType where
  | accumulator (update : AccumulatorUpdate)
  | batchAttestation (data : Bytes)

def UpdateType.determineType (data : Bytes) : Result UpdateType := do
  let (magic, _) ← splitAt data 4
  return if data.length > 4 ∧ magic = accumulatorMagicBytes then .accumulator ⟨data⟩
    else .batchAttestation data

def totalFee (totalNumberOfUpdates : ℕ) (singleUpdateFee : BitVec 64) : Result (BitVec 64) :=
  checkedMul (BitVec.ofNat 64 totalNumberOfUpdates) singleUpdateFee

/-- The loop of `update_fee`. -/
def countUpdates (totalNumberOfUpdates : ℕ) : List Bytes → Result ℕ
  | [] => return totalNumberOfUpdates
  | data :: updateData => do
    match ← UpdateType.determineType data with
    | .accumulator update => do
      let proofSizeOffset ← update.verify
      let numberOfUpdates ← update.totalUpdates proofSizeOffset
      countUpdates (totalNumberOfUpdates + numberOfUpdates.toNat) updateData
    | .batchAttestation _ => countUpdates (totalNumberOfUpdates + 1) updateData

def updateFee (s : PythStorage) (updateData : List Bytes) : Result (BitVec 64) := do
  let totalNumberOfUpdates ← countUpdates 0 updateData
  totalFee totalNumberOfUpdates s.singleUpdateFee

section

variable (P : WormholeHost) (batchAttestation : Bytes → PythStorage → Result PythStorage)

/-- The loop of `update_price_feeds`. -/
def updateAll (timestamp : BitVec 64) (totalNumberOfUpdates : ℕ) (s : PythStorage) :
    List Bytes → Result (ℕ × PythStorage)
  | [] => return (totalNumberOfUpdates, s)
  | data :: updateData => do
    match ← UpdateType.determineType data with
    | .accumulator update => do
      let (numberOfUpdates, _, s) ← update.updatePriceFeeds P timestamp s
      updateAll timestamp (totalNumberOfUpdates + numberOfUpdates.toNat) s updateData
    | .batchAttestation data => do
      let s ← batchAttestation data s
      updateAll timestamp (totalNumberOfUpdates + 1) s updateData

/-- `msgAmount` of the asset `baseAsset` says whether it is the base asset. -/
def updatePriceFeeds (baseAsset : Bool) (msgAmount timestamp : BitVec 64) (updateData : List Bytes)
    (s : PythStorage) : Result PythStorage := do
  requirePyth (baseAsset = true) .feesCanOnlyBePaidInTheBaseAsset
  let (totalNumberOfUpdates, s) ← updateAll P batchAttestation timestamp 0 s updateData
  let requiredFee ← totalFee totalNumberOfUpdates s.singleUpdateFee
  requirePyth (msgAmount ≥ requiredFee) .insufficientFee
  return s

end

end PythCrosschain.Fuel
