import PythCrosschain.Ton.MerkleTree
import PythCrosschain.Ton.Wormhole

/-!
# TON: `Pyth.fc`

Accumulator updates and the latest prices. `cell_hash` of a data source and `GETGASFEE` are
parameters besides those of `Wormhole.fc`. `parse_price_feeds_from_data` is split where the
Merkle root is known and where the last update is read; what it has read is kept in
`ParseState.read`, which the contract does not store.
-/

namespace PythCrosschain.Ton

open Tvm

def ERROR_INVALID_MAGIC : ℕ := 2002
def ERROR_INVALID_MAJOR_VERSION : ℕ := 2003
def ERROR_INVALID_MINOR_VERSION : ℕ := 2004
def ERROR_UPDATE_DATA_SOURCE_NOT_FOUND : ℕ := 2005
def ERROR_INVALID_UPDATE_DATA_SOURCE : ℕ := 2006
def ERROR_INVALID_UPDATE_DATA_LENGTH : ℕ := 2008
def ERROR_INVALID_UPDATE_DATA_TYPE : ℕ := 2009
def ERROR_INVALID_MESSAGE_TYPE : ℕ := 2010
def ERROR_INSUFFICIENT_FEE : ℕ := 2011
def ERROR_PRICE_FEED_NOT_FOUND_WITHIN_RANGE : ℕ := 2020
def ERROR_INSUFFICIENT_GAS : ℕ := 3000

def ACCUMULATOR_MAGIC : BitVec 32 := 0x504e4155
def ACCUMULATOR_WORMHOLE_MAGIC : BitVec 32 := 0x41555756
def MAJOR_VERSION : BitVec 8 := 1
def MINIMUM_ALLOWED_MINOR_VERSION : ℕ := 0
def WORMHOLE_MERKLE_UPDATE_TYPE : BitVec 8 := 0
def PRICE_FEED_MESSAGE_TYPE : BitVec 8 := 0

def WORKCHAIN : ℕ := 0
def UPDATE_PRICE_FEEDS_BASE_GAS : ℕ := 300000
def UPDATE_PRICE_FEEDS_PER_UPDATE_GAS : ℕ := 90000

/-- The values that `read_and_verify_message` returns. -/
structure PriceFeedMessage where
  priceId : Bytes32
  price : BitVec 64
  conf : BitVec 64
  expo : BitVec 32
  publishTime : BitVec 64
  prevPublishTime : BitVec 64
  emaPrice : BitVec 64
  emaConf : BitVec 64
deriving DecidableEq

/-- The cell of a price feed, with the two cells that it refers to. -/
structure PriceFeedCell where
  price : Bits
  emaPrice : Bits
deriving DecidableEq

/-- The storage, as far as updates read and write it. -/
structure PythStorage where
  wormhole : WormholeStorage
  singleUpdateFee : ℕ
  isValidDataSource : Bytes32 → Option Bool
  latestPriceFeeds : Bytes32 → Option PriceFeedCell

/-! ## Prices -/

def storePrice (price conf : BitVec 64) (expo : BitVec 32) (publishTime : BitVec 64) : Bits :=
  bitsBE 64 price.toNat ++ bitsBE 64 conf.toNat ++ bitsBE 32 expo.toNat
    ++ bitsBE 64 publishTime.toNat

/-- The values that `parse_price` returns. -/
structure Price where
  price : BitVec 64
  conf : BitVec 64
  expo : BitVec 32
  publishTime : BitVec 64
deriving DecidableEq

def parsePrice (priceFeed : Slice) : Result Price := do
  let (price, priceFeed) ← loadInt 64 priceFeed
  let (conf, priceFeed) ← loadInt 64 priceFeed
  let (expo, priceFeed) ← loadInt 32 priceFeed
  let (publishTime, _) ← loadInt 64 priceFeed
  return { price, conf, expo, publishTime }

/-! ## Reading an update -/

def readAndVerifyHeader (data : Slice) : Result Slice := do
  let (magic, data) ← loadInt 32 data
  throwUnless ERROR_INVALID_MAGIC (magic = ACCUMULATOR_MAGIC)
  let (majorVersion, data) ← loadInt 8 data
  throwUnless ERROR_INVALID_MAJOR_VERSION (majorVersion = MAJOR_VERSION)
  let (minorVersion, data) ← loadInt 8 data
  throwIf ERROR_INVALID_MINOR_VERSION (minorVersion.toNat < MINIMUM_ALLOWED_MINOR_VERSION)
  let (trailingHeaderSize, data) ← loadInt 8 data
  let (_, data) ← skipBits (trailingHeaderSize.toNat * 8) data
  let (updateType, data) ← loadInt 8 data
  throwUnless ERROR_INVALID_UPDATE_DATA_TYPE (updateType = WORMHOLE_MERKLE_UPDATE_TYPE)
  return data

/-- The fields of a message. -/
def parseMessage (message : Slice) : Result PriceFeedMessage := do
  let (messageType, message) ← loadInt 8 message
  throwUnless ERROR_INVALID_MESSAGE_TYPE (messageType = PRICE_FEED_MESSAGE_TYPE)
  let (priceId, message) ← loadInt 256 message
  let (price, message) ← loadInt 64 message
  let (conf, message) ← loadInt 64 message
  let (expo, message) ← loadInt 32 message
  let (publishTime, message) ← loadInt 64 message
  let (prevPublishTime, message) ← loadInt 64 message
  let (emaPrice, message) ← loadInt 64 message
  let (emaConf, _) ← loadInt 64 message
  return { priceId, price, conf, expo, publishTime, prevPublishTime, emaPrice, emaConf }

def parsePythPayloadInWormholeVm (payload : Slice) : Result (BitVec 160) := do
  let (accumulatorWormholeMagic, payload) ← loadInt 32 payload
  throwUnless ERROR_INVALID_MAGIC (accumulatorWormholeMagic = ACCUMULATOR_WORMHOLE_MAGIC)
  let (updateType, payload) ← loadInt 8 payload
  throwUnless ERROR_INVALID_UPDATE_DATA_TYPE (updateType = WORMHOLE_MERKLE_UPDATE_TYPE)
  let (_, payload) ← loadInt 64 payload
  let (_, payload) ← loadInt 32 payload
  let (rootDigest, _) ← loadInt 160 payload
  return rootDigest

/-- The index of the first such id, or -1. -/
def findPriceIdIndex (priceIds : List Bytes32) (priceId : Bytes32) : ℤ :=
  match priceIds.findIdx? (· = priceId) with
  | some i => i
  | none => -1

/-! ## The loop over the updates -/

/-- What is asked for: price ids, or none for all, and the times and uniqueness they need. -/
structure Query where
  priceIds : List Bytes32
  minPublishTime : ℕ
  maxPublishTime : ℕ
  unique : Bool

/-- No price ids are requested. -/
def allFeeds (minPublishTime maxPublishTime : ℕ) (unique : Bool) : Query :=
  ⟨[], minPublishTime, maxPublishTime, unique⟩

/-- The variables of the loop. The keys of `orderedFeeds` are bytes, and the loop counts fewer
than 256 updates and ids. `read` are the messages so far. -/
structure ParseState where
  cs : Slice
  orderedFeeds : ℕ → Option (Bytes32 × PriceFeedCell) := fun _ => none
  foundPriceIds : List Bytes32 := []
  index : ℤ := 0
  read : List PriceFeedMessage := []

def PriceFeedMessage.cell (m : PriceFeedMessage) : PriceFeedCell where
  price := storePrice m.price m.conf m.expo m.publishTime
  emaPrice := storePrice m.emaPrice m.emaConf m.expo m.publishTime

def Query.shouldInclude (q : Query) (m : PriceFeedMessage) : Prop :=
  q.priceIds.length = 0 ∨
    (q.priceIds.length > 0 ∧ m.publishTime.toNat ≥ q.minPublishTime ∧
      m.publishTime.toNat ≤ q.maxPublishTime ∧
      (q.unique = false ∨ q.minPublishTime > m.prevPublishTime.toNat))

instance (q : Query) (m : PriceFeedMessage) : Decidable (q.shouldInclude m) :=
  inferInstanceAs (Decidable (_ ∨ _))

/-- `udict_set` in `ordered_feeds`. -/
def ParseState.setFeed (s : ParseState) (index : ℤ) (m : PriceFeedMessage) : ParseState :=
  { s with orderedFeeds := Function.update s.orderedFeeds index.toNat (some (m.priceId, m.cell)) }

/-- What the loop does with a message. -/
def ParseState.process (q : Query) (s : ParseState) (m : PriceFeedMessage) : ParseState :=
  if m.priceId ∉ s.foundPriceIds ∧ q.shouldInclude m then
    let s :=
      if q.priceIds.length = 0 then { s.setFeed s.index m with index := s.index + 1 }
      else
        let index := findPriceIdIndex q.priceIds m.priceId
        if index ≥ 0 then { s.setFeed index m with index } else { s with index }
    { s with foundPriceIds := m.priceId :: s.foundPriceIds }
  else s

/-- The tuple of the feeds in the order of their keys. -/
def ParseState.priceFeeds (s : ParseState) : List (Bytes32 × PriceFeedCell) :=
  (List.range 256).filterMap s.orderedFeeds

section

variable (keccak256 : Bytes → Bytes32)
  (checkSig : Bytes32 → BitVec 8 → Bytes32 → Bytes32 → Option (Bytes32 × Bytes32))
  (cellHash : Bits → Bytes32) (getComputeFee : ℕ → ℕ → ℕ)

def readAndVerifyMessage (cs : Slice) (rootDigest : BitVec 160) :
    Result (PriceFeedMessage × Slice) := do
  let (messageSize, cs) ← loadInt 16 cs
  let (message, cs) := readAndStoreLargeData cs (messageSize.toNat * 8)
  let message ← beginParse message
  let cs ← readAndVerifyProof keccak256 rootDigest message cs
  let fields ← parseMessage message
  return (fields, cs)

/-- The loop, for `n` more updates. -/
def parseUpdates (q : Query) (rootDigest : BitVec 160) : ℕ → ParseState → Result ParseState
  | 0, s => .ok s
  | n + 1, s => do
    let (m, cs) ← readAndVerifyMessage keccak256 s.cs rootDigest
    parseUpdates q rootDigest n { s.process q m with cs, read := s.read ++ [m] }

def calculateAndValidateFees (storage : PythStorage) (msgValue numUpdates : ℕ) : Result Unit := do
  let updateFee := storage.singleUpdateFee * numUpdates
  let computeFee := getComputeFee WORKCHAIN
    (UPDATE_PRICE_FEEDS_BASE_GAS + UPDATE_PRICE_FEEDS_PER_UPDATE_GAS * numUpdates)
  throwUnless ERROR_INSUFFICIENT_GAS (msgValue ≥ computeFee)
  let remainingMsgValue := msgValue - computeFee
  throwUnless ERROR_INSUFFICIENT_FEE (remainingMsgValue ≥ updateFee)

/-- The check of the data source of a VAA. -/
def checkDataSource (storage : PythStorage) (vm : VM) : Result Unit := do
  let dataSource := bitsBE 16 vm.emitterChainId.toNat ++ bitsBE 256 vm.emitterAddress.toNat
  let found := storage.isValidDataSource (cellHash dataSource)
  throwUnless ERROR_UPDATE_DATA_SOURCE_NOT_FOUND (found.isSome = true)
  throwUnless ERROR_INVALID_UPDATE_DATA_SOURCE (found = some true)

/-- The Merkle root that the VAA of an update carries. -/
def verifiedRoot (storage : PythStorage) (now : BitVec 32) (wormholeProof : Cell) :
    Result (BitVec 160) := do
  let wormholeProof ← beginParse wormholeProof
  let vm ← parseAndVerifyWormholeVm keccak256 checkSig storage.wormhole now wormholeProof
  checkDataSource cellHash storage vm
  parsePythPayloadInWormholeVm vm.payload

/-- `parse_price_feeds_from_data` until the end of the data is checked. -/
def parseUpdateData (storage : PythStorage) (now : BitVec 32) (msgValue : ℕ) (data : Slice)
    (q : Query) : Result ParseState := do
  let cs ← readAndVerifyHeader data
  let (wormholeProofSizeBytes, cs) ← loadInt 16 cs
  let (wormholeProof, cs) := readAndStoreLargeData cs (wormholeProofSizeBytes.toNat * 8)
  let (numUpdates, cs) ← loadInt 8 cs
  calculateAndValidateFees getComputeFee storage msgValue numUpdates.toNat
  let rootDigest ← verifiedRoot keccak256 checkSig cellHash storage now wormholeProof
  let s ← parseUpdates keccak256 q rootDigest numUpdates.toNat { cs }
  throwIf ERROR_INVALID_UPDATE_DATA_LENGTH (¬s.cs.IsEmpty)
  return s

def parsePriceFeedsFromData (storage : PythStorage) (now : BitVec 32) (msgValue : ℕ)
    (data : Slice) (q : Query) : Result (List (Bytes32 × PriceFeedCell)) := do
  let s ← parseUpdateData keccak256 checkSig cellHash getComputeFee storage now msgValue data q
  throwUnless ERROR_PRICE_FEED_NOT_FOUND_WITHIN_RANGE (∀ id ∈ q.priceIds, id ∈ s.foundPriceIds)
  return s.priceFeeds

/-! ## Updating the latest prices -/

/-- The publish time of the stored price. -/
def latestPublishTime (latestPriceFeeds : Bytes32 → Option PriceFeedCell) (priceId : Bytes32) :
    Result ℕ :=
  match latestPriceFeeds priceId with
  | some priceFeed => (fun price => price.publishTime.toNat) <$> parsePrice ⟨priceFeed.price, []⟩
  | none => .ok 0

/-- What the loop of `update_price_feeds` does with a feed. -/
def updateFeed (latestPriceFeeds : Bytes32 → Option PriceFeedCell)
    (priceFeed : Bytes32 × PriceFeedCell) : Result (Bytes32 → Option PriceFeedCell) := do
  let price ← parsePrice ⟨priceFeed.2.price, []⟩
  let latestPublishTime ← latestPublishTime latestPriceFeeds priceFeed.1
  return if price.publishTime.toNat > latestPublishTime then
      Function.update latestPriceFeeds priceFeed.1 (some priceFeed.2)
    else latestPriceFeeds

def updatePriceFeeds (storage : PythStorage) (now : BitVec 32) (msgValue : ℕ) (data : Slice) :
    Result PythStorage := do
  let priceFeeds ← parsePriceFeedsFromData keccak256 checkSig cellHash getComputeFee storage now
    msgValue data (allFeeds 0 0 false)
  let latestPriceFeeds ← priceFeeds.foldlM updateFeed storage.latestPriceFeeds
  return { storage with latestPriceFeeds }

end

end PythCrosschain.Ton
