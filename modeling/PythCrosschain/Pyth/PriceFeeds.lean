import PythCrosschain.Pyth.Accumulator

/-!
# `Pyth`: updates and parsed price feeds

The entry points that take accumulator updates: `updatePriceFeeds`,
`updatePriceFeedsIfNecessary`, `parsePriceFeedUpdates` and
`parsePriceFeedUpdatesUnique`. All of them store the prices that they verify; the parse
functions also return those that the caller asked for.
-/

namespace PythCrosschain.Pyth

/-- `PythStructs.Price`. -/
structure Price where
  price : Int64Bits := 0
  conf : Uint64 := 0
  expo : Int32Bits := 0
  publishTime : Uint256 := 0
deriving DecidableEq, Repr

/-- `PythStructs.PriceFeed`. -/
structure PriceFeed where
  id : Bytes32 := 0
  price : Price := {}
  emaPrice : Price := {}
deriving DecidableEq, Repr

/-- `PythInternalStructs.ParseConfig`. -/
structure ParseConfig where
  minPublishTime : Uint64
  maxPublishTime : Uint64
  checkUniqueness : Bool
deriving DecidableEq, Repr

/-- What a call sees: its calldata and memory, the Wormhole contract, and the value sent. -/
structure CallEnv where
  machine : Machine
  parseAndVerifyPythVM : Bytes → Result VM
  value : Uint256

section

open UnsafeCalldataBytesLib

variable (keccak256 : Bytes → Bytes32) (env : CallEnv)

/-! ## Fees -/

def getTotalFee (s : State) (totalNumUpdates : Uint256) : Result Uint256 :=
  checkedMul totalNumUpdates s.singleUpdateFeeInWei

/-- This function counts the offset in checked arithmetic. -/
def parseWormholeMerkleHeaderNumUpdates (wormholeMerkleUpdate : CalldataBytes) (offset : Uint256) :
    Result Uint8 := do
  let whProofSize := toUint16 env.machine wormholeMerkleUpdate offset
  let offset ← checkedAdd offset 2
  let offset ← checkedAdd offset (whProofSize.setWidth 256)
  return toUint8 env.machine wormholeMerkleUpdate offset

/-- `updateData[i].length > 4 && toUint32(updateData[i], 0) == ACCUMULATOR_MAGIC`. -/
def isAccumulatorUpdate (update : CalldataBytes) : Bool :=
  update.length > 4 ∧ toUint32 env.machine update 0 = ACCUMULATOR_MAGIC

/-- The loop of `getUpdateFee`, with the updates counted so far. -/
def countUpdates (totalNumUpdates : Uint256) : List CalldataBytes → Result Uint256
  | [] => return totalNumUpdates
  | update :: updateData => do
    require (isAccumulatorUpdate env update = true) (.error .invalidUpdateData)
    let header ← extractUpdateTypeFromAccumulatorHeader env.machine update
    require (header.2 = .wormholeMerkle) (.error .invalidUpdateData)
    let numUpdates ← parseWormholeMerkleHeaderNumUpdates env update header.1
    let totalNumUpdates ← checkedAdd totalNumUpdates (numUpdates.setWidth 256)
    countUpdates totalNumUpdates updateData

def getUpdateFee (s : State) (updateData : List CalldataBytes) : Result Uint256 := do
  let totalNumUpdates ← countUpdates env 0 updateData
  getTotalFee s totalNumUpdates

/-! ## Updates -/

/-- The loop of `updatePriceFeeds`, with the updates counted so far. -/
def updatePriceInfosFromUpdateData (w : World) (totalNumUpdates : Uint256) :
    List CalldataBytes → Result (World × Uint256)
  | [] => return (w, totalNumUpdates)
  | update :: updateData => do
    let updated ← updatePriceInfosFromAccumulatorUpdate keccak256 env.machine
      env.parseAndVerifyPythVM update w
    let totalNumUpdates ← checkedAdd totalNumUpdates (updated.1.setWidth 256)
    updatePriceInfosFromUpdateData updated.2 totalNumUpdates updateData

def updatePriceFeeds (updateData : List CalldataBytes) (w : World) : Result World := do
  let updated ← updatePriceInfosFromUpdateData keccak256 env w 0 updateData
  let requiredFee ← getTotalFee updated.1.state updated.2
  require (env.value ≥ requiredFee) (.error .insufficientFee)
  return updated.1

def latestPriceInfoPublishTime (s : State) (priceId : Bytes32) : Uint64 :=
  (s.latestPriceInfo priceId).publishTime

/-- The loop over the price ids: whether one of them is older than the caller says. -/
def isUpdateNecessary (s : State) (priceIds : List Bytes32) (publishTimes : List Uint64) : Bool :=
  (priceIds.zip publishTimes).any fun asked => latestPriceInfoPublishTime s asked.1 < asked.2

def updatePriceFeedsIfNecessary (updateData : List CalldataBytes) (priceIds : List Bytes32)
    (publishTimes : List Uint64) (w : World) : Result World := do
  require (priceIds.length = publishTimes.length) (.error .invalidArgument)
  require (isUpdateNecessary w.state priceIds publishTimes = true) (.error .noFreshUpdate)
  updatePriceFeeds keccak256 env updateData w

/-! ## Parsing -/

/-- The first index of the price id, or the length of the list. -/
def findIndexOfPriceId (priceIds : List Bytes32) (targetPriceId : Bytes32) : Nat :=
  priceIds.findIdx (· = targetPriceId)

/-- `fillPriceFeedFromPriceInfo`, as the entry that it writes. -/
def priceFeedFromPriceInfo (priceId : Bytes32) (info : PriceInfo) (publishTime : Uint256) :
    PriceFeed where
  id := priceId
  price := { price := info.price, conf := info.conf, expo := info.expo, publishTime }
  emaPrice := { price := info.emaPrice, conf := info.emaConf, expo := info.expo, publishTime }

/-- The entry of `priceFeeds` that a verified message fills, if any. -/
def recordPriceFeed (priceIds : List Bytes32) (config : ParseConfig) (priceFeeds : List PriceFeed)
    (priceId : Bytes32) (priceInfo : PriceInfo) (prevPublishTime : Uint64) : List PriceFeed :=
  let k := findIndexOfPriceId priceIds priceId
  if k = priceIds.length ∨ (priceFeeds.getD k {}).id ≠ 0 then
    priceFeeds
  else if priceInfo.publishTime ≥ config.minPublishTime ∧
      priceInfo.publishTime ≤ config.maxPublishTime ∧
      (!config.checkUniqueness ∨ config.minPublishTime > prevPublishTime) then
    priceFeeds.set k
      (priceFeedFromPriceInfo priceId priceInfo (priceInfo.publishTime.setWidth 256))
  else
    priceFeeds

/-- The inner loop of `parsePriceFeedUpdatesInternal`, for `numUpdates` more messages. -/
def parseMessages (priceIds : List Bytes32) (config : ParseConfig) (digest : Bytes20)
    (encoded : CalldataBytes) (w : World) (priceFeeds : List PriceFeed) (offset : Uint256) :
    Nat → Result (World × List PriceFeed × Uint256)
  | 0 => return (w, priceFeeds, offset)
  | numUpdates + 1 => do
    let extracted ← extractPriceInfoFromMerkleProof keccak256 env.machine digest encoded offset
    let offset := extracted.1
    let priceInfo := extracted.2.1
    let priceId := extracted.2.2.1
    let prevPublishTime := extracted.2.2.2
    let w := updateLatestPriceIfNecessary w priceId priceInfo
    let priceFeeds := recordPriceFeed priceIds config priceFeeds priceId priceInfo prevPublishTime
    parseMessages priceIds config digest encoded w priceFeeds offset numUpdates

/-- The outer loop of `parsePriceFeedUpdatesInternal`. -/
def parseUpdateData (priceIds : List Bytes32) (config : ParseConfig) (w : World)
    (priceFeeds : List PriceFeed) : List CalldataBytes → Result (World × List PriceFeed)
  | [] => return (w, priceFeeds)
  | update :: updateData => do
    require (isAccumulatorUpdate env update = true) (.error .invalidUpdateData)
    let header ← extractUpdateTypeFromAccumulatorHeader env.machine update
    require (header.2 = .wormholeMerkle) (.error .invalidUpdateData)
    let body ← extractWormholeMerkleHeaderDigestAndNumUpdatesAndEncodedFromAccumulatorUpdate
      env.machine env.parseAndVerifyPythVM update header.1
    let offset := body.1
    let digest := body.2.1
    let numUpdates := body.2.2.1
    let encoded := body.2.2.2
    let parsed ← parseMessages keccak256 env priceIds config digest encoded w priceFeeds offset
      numUpdates.toNat
    require (parsed.2.2 = encoded.length) (.error .invalidUpdateData)
    parseUpdateData priceIds config parsed.1 parsed.2.1 updateData

def parsePriceFeedUpdatesInternal (updateData : List CalldataBytes) (priceIds : List Bytes32)
    (config : ParseConfig) (w : World) : Result (List PriceFeed × World) := do
  let requiredFee ← getUpdateFee env w.state updateData
  require (env.value ≥ requiredFee) (.error .insufficientFee)
  let priceFeeds := List.replicate priceIds.length {}
  let parsed ← parseUpdateData keccak256 env priceIds config w priceFeeds updateData
  require (∀ priceFeed ∈ parsed.2, priceFeed.id ≠ 0) (.error .priceFeedNotFoundWithinRange)
  return (parsed.2, parsed.1)

def parsePriceFeedUpdates (updateData : List CalldataBytes) (priceIds : List Bytes32)
    (minPublishTime maxPublishTime : Uint64) (w : World) : Result (List PriceFeed × World) :=
  parsePriceFeedUpdatesInternal keccak256 env updateData priceIds
    { minPublishTime, maxPublishTime, checkUniqueness := false } w

def parsePriceFeedUpdatesUnique (updateData : List CalldataBytes) (priceIds : List Bytes32)
    (minPublishTime maxPublishTime : Uint64) (w : World) : Result (List PriceFeed × World) :=
  parsePriceFeedUpdatesInternal keccak256 env updateData priceIds
    { minPublishTime, maxPublishTime, checkUniqueness := true } w

end

end PythCrosschain.Pyth
