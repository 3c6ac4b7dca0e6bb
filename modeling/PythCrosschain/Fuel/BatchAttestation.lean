import PythCrosschain.Fuel.AccumulatorUpdate

/-!
# The Fuel contract: batch attestations

`batch_attestation_update.sw`, and `parse_attestation` of `price.sw`. `attestationFeeds` are the
price feeds that the loop parses, and `updateAttestations_eq` is the loop in terms of them.
-/

namespace PythCrosschain.Fuel

open BytesLib (field)

/-- "P2WH". -/
def BATCH_MAGIC : BitVec 32 := 0x50325748

/-- The price, the confidence and the publish time, and the offset behind them. Without trading
they are the previous ones. -/
def latestPrice (encodedPayload : Bytes) (status : BitVec 8)
    (price confidence publishTime : BitVec 64) (attestationIndex : ℕ) :
    Result (BitVec 64 × BitVec 64 × BitVec 64 × ℕ) :=
  if status = 1 then return (price, confidence, publishTime, attestationIndex + 24)
  else do
    let publishTime ← getUint 64 8 encodedPayload attestationIndex
    let attestationIndex := attestationIndex + 8
    let price ← getUint 64 8 encodedPayload attestationIndex
    let attestationIndex := attestationIndex + 8
    let confidence ← getUint 64 8 encodedPayload attestationIndex
    let attestationIndex := attestationIndex + 8
    return (price, confidence, publishTime, attestationIndex)

def PriceFeed.parseAttestation (attestationSize : BitVec 16) (encodedPayload : Bytes)
    (index : ℕ) : Result PriceFeed := do
  -- the product id is not used
  let attestationIndex := index + 32
  let (_, slice) ← splitAt encodedPayload attestationIndex
  let (priceFeedId, _) ← splitAt slice 32
  let priceFeedId := intoB256 priceFeedId
  let attestationIndex := attestationIndex + 32
  let price ← getUint 64 8 encodedPayload attestationIndex
  let attestationIndex := attestationIndex + 8
  let confidence ← getUint 64 8 encodedPayload attestationIndex
  let attestationIndex := attestationIndex + 8
  let exponent ← getUint 32 4 encodedPayload attestationIndex
  let exponent := absoluteOfExponent exponent
  requirePyth (exponent < 256) .invalidExponent
  let attestationIndex := attestationIndex + 4
  let emaPrice ← getUint 64 8 encodedPayload attestationIndex
  let attestationIndex := attestationIndex + 8
  let emaConfidence ← getUint 64 8 encodedPayload attestationIndex
  let attestationIndex := attestationIndex + 8
  let status ← unwrap (get encodedPayload attestationIndex)
  -- the numbers of publishers and the attestation time are not used
  let attestationIndex := attestationIndex + 17
  let publishTime ← getUint 64 8 encodedPayload attestationIndex
  let attestationIndex := attestationIndex + 8
  let (price, confidence, publishTime, attestationIndex) ←
    latestPrice encodedPayload status price confidence publishTime attestationIndex
  requirePyth (attestationIndex - index ≤ attestationSize.toNat) .invalidAttestationSize
  let publishTime ← checkedAdd publishTime TAI64_DIFFERENCE
  return {
    emaPrice := { confidence := emaConfidence, exponent, price := emaPrice, publishTime }
    id := priceFeedId
    price := { confidence, exponent, price, publishTime } }

/-- The offset of the attestations, their number and their size. -/
def parseAndVerifyBatchAttestationHeader (encodedPayload : Bytes) :
    Result (ℕ × BitVec 16 × BitVec 16) := do
  let index := 0
  let magic ← getUint 32 4 encodedPayload index
  requirePyth (magic = BATCH_MAGIC) .invalidMagic
  let index := index + 4
  let majorVersion ← getUint 16 2 encodedPayload index
  requirePyth (majorVersion = 3) .invalidMajorVersion
  -- the minor version is not used
  let index := index + 4
  let headerSize ← getUint 16 2 encodedPayload index
  let index := index + 2
  let payloadId ← unwrap (get encodedPayload index)
  requirePyth (payloadId = 2) .invalidPayloadId
  let index := index + headerSize.toNat
  let numberOfAttestations ← getUint 16 2 encodedPayload index
  let index := index + 2
  let attestationSize ← getUint 16 2 encodedPayload index
  let index := index + 2
  let attestationsSize ← checkedMul attestationSize numberOfAttestations
  requirePyth (encodedPayload.length = index + attestationsSize.toNat) .invalidPayloadLength
  return (index, numberOfAttestations, attestationSize)

/-- `BatchAttestationUpdate`. -/
structure BatchAttestationUpdate where
  data : Bytes

namespace BatchAttestationUpdate

open AccumulatorUpdate (storeFeed)

/-- The loop over the `n` attestations that are left. -/
def updateAttestations (attestationSize : BitVec 16) (payload : Bytes) :
    (n attestationIndex : ℕ) → (Bytes32 → Option PriceFeed) × List Bytes32 →
      Result ((Bytes32 → Option PriceFeed) × List Bytes32)
  | 0, _, stored => return stored
  | n + 1, attestationIndex, stored => do
    let priceFeed ← PriceFeed.parseAttestation attestationSize payload attestationIndex
    updateAttestations attestationSize payload n (attestationIndex + attestationSize.toNat)
      (storeFeed stored priceFeed)

/-- The ids that were updated, and the storage. -/
def updatePriceFeeds (self : BatchAttestationUpdate) (P : WormholeHost) (timestamp : BitVec 64)
    (s : PythStorage) : Result (List Bytes32 × PythStorage) := do
  let vm ← ofWormhole
    (parseAndVerifyPythVm P s.toStorage timestamp s.wormholeGuardianSetIndex self.data)
  let (attestationIndex, numberOfAttestations, attestationSize) ←
    parseAndVerifyBatchAttestationHeader vm.payload
  let (latestPriceFeed, updatedIds) ← updateAttestations attestationSize vm.payload
    numberOfAttestations.toNat attestationIndex (s.latestPriceFeed, [])
  return (updatedIds, { s with latestPriceFeed })

/-! ## What is offered -/

/-- The price feeds of the `n` attestations that are left. -/
def attestationFeeds (attestationSize : BitVec 16) (payload : Bytes) :
    (n attestationIndex : ℕ) → Result (List PriceFeed)
  | 0, _ => return []
  | n + 1, attestationIndex => do
    let priceFeed ← PriceFeed.parseAttestation attestationSize payload attestationIndex
    let priceFeeds ←
      attestationFeeds attestationSize payload n (attestationIndex + attestationSize.toNat)
    return priceFeed :: priceFeeds

/-- The price feeds of a payload, in the order in which they are stored. -/
def priceFeeds (payload : Bytes) : Result (List PriceFeed) := do
  let (attestationIndex, numberOfAttestations, attestationSize) ←
    parseAndVerifyBatchAttestationHeader payload
  attestationFeeds attestationSize payload numberOfAttestations.toNat attestationIndex

section

variable {attestationSize : BitVec 16} {payload : Bytes} {P : WormholeHost}
  {timestamp : BitVec 64} {s : PythStorage}

theorem updateAttestations_eq {n attestationIndex : ℕ}
    {stored : (Bytes32 → Option PriceFeed) × List Bytes32} :
    updateAttestations attestationSize payload n attestationIndex stored
      = (attestationFeeds attestationSize payload n attestationIndex).map
        fun feeds => feeds.foldl storeFeed stored := by
  induction n generalizing attestationIndex stored with
  | zero => rfl
  | succ n ih =>
    rw [updateAttestations, attestationFeeds]
    cases PriceFeed.parseAttestation attestationSize payload attestationIndex with
    | error e => rfl
    | ok priceFeed =>
      show updateAttestations _ _ n _ (storeFeed stored priceFeed) = Except.map _ (_ >>= _)
      rw [ih]
      cases attestationFeeds attestationSize payload n (attestationIndex + attestationSize.toNat)
      <;> rfl

/-- The storage after the price feeds. -/
def stored (s : PythStorage) (feeds : List PriceFeed) : List Bytes32 × PythStorage :=
  let (latestPriceFeed, updatedIds) := feeds.foldl storeFeed (s.latestPriceFeed, [])
  (updatedIds, { s with latestPriceFeed })

/-- With a verified VAA, an update stores the price feeds of its payload. -/
theorem updatePriceFeeds_eq {self : BatchAttestationUpdate} {vm : WormholeVM}
    (hvm : parseAndVerifyPythVm P s.toStorage timestamp s.wormholeGuardianSetIndex self.data
      = .ok vm) :
    self.updatePriceFeeds P timestamp s = (priceFeeds vm.payload).map (stored s) := by
  rw [updatePriceFeeds, hvm]
  show (parseAndVerifyBatchAttestationHeader vm.payload >>= _) = _
  rw [priceFeeds]
  cases parseAndVerifyBatchAttestationHeader vm.payload with
  | error e => rfl
  | ok header =>
    show (updateAttestations header.2.2 vm.payload header.2.1.toNat header.1 _ >>= _)
      = Except.map _ (attestationFeeds header.2.2 vm.payload header.2.1.toNat header.1)
    rw [updateAttestations_eq]
    cases attestationFeeds header.2.2 vm.payload header.2.1.toNat header.1 <;> rfl

end

end BatchAttestationUpdate

end PythCrosschain.Fuel
