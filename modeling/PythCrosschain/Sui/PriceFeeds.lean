import PythCrosschain.MovePackages.BatchPriceAttestation
import PythCrosschain.Sui.Accumulator

/-!
# Sui: `pyth.move`, `price_info.move` and `hot_potato_vector.move`

Price feeds are shared objects, and the state has a registry of their ids. The objects of the
chain are in `Chain`, with the ids that `object::new` has given out. Coins are amounts, and the
clock is in milliseconds.
-/

namespace PythCrosschain.Sui

open Move MovePackages
open PythnetSdk (HashArray)

def E_INVALID_DATA_SOURCE : ℕ := 1
def E_INSUFFICIENT_FEE : ℕ := 2
def E_UPDATE_AND_PRICE_INFO_OBJECT_MISMATCH : ℕ := 4
def E_PRICE_UPDATE_NOT_FOUND_FOR_PRICE_INFO_OBJECT : ℕ := 5

abbrev PriceIdentifier := HashArray 32

abbrev ObjectId := ℕ

/-! ## `price_info` -/

/-- A `PriceInfoObject`, with the coin under its key for fees. -/
structure PriceInfoObject where
  priceInfo : PriceInfo
  feeStorage : Option U64
deriving DecidableEq

/-- The state, the registry under its key, and the shared objects. No object has an id from
`nextId` on. -/
structure Chain where
  state : State
  registry : PriceIdentifier → Option ObjectId
  objects : ObjectId → Option PriceInfoObject
  nextId : ObjectId

namespace PriceInfoObject

def identifier (o : PriceInfoObject) : PriceIdentifier := o.priceInfo.identifier

def timestamp (o : PriceInfoObject) : U64 := o.priceInfo.timestamp

/-- `get_balance`. -/
def balance (o : PriceInfoObject) : U64 := o.feeStorage.getD 0

/-- `deposit_fee_coins`, which joins two coins. -/
def depositFeeCoins (o : PriceInfoObject) (feeCoins : U64) : Result PriceInfoObject :=
  match o.feeStorage with
  | none => return { o with feeStorage := some feeCoins }
  | some currentFee => do
    let joined ← Move.ofNat (currentFee.toNat + feeCoins.toNat)
    return { o with feeStorage := some joined }

end PriceInfoObject

def E_PRICE_IDENTIFIER_ALREADY_REGISTERED : ℕ := 1

/-- `state::register_price_info_object`. -/
def Chain.registerPriceInfoObject (c : Chain) (priceIdentifier : PriceIdentifier)
    (id : ObjectId) : Result Chain := do
  assert (c.registry priceIdentifier = none) E_PRICE_IDENTIFIER_ALREADY_REGISTERED
  return { c with registry := Function.update c.registry priceIdentifier (some id) }

/-- `price_info::new_price_info_object` and `transfer::public_share_object`, around the
registration. -/
def Chain.shareNewObject (c : Chain) (priceInfo : PriceInfo) : Result Chain := do
  let id := c.nextId
  let c ← c.registerPriceInfoObject priceInfo.identifier id
  return { c with
    objects := Function.update c.objects id (some { priceInfo, feeStorage := none })
    nextId := id + 1 }

/-! ## `pyth` -/

/-- The seconds of a clock. -/
def seconds (clock : U64) : U64 := clock / 1000

/-- The check of the emitter that each function makes. -/
def assertDataSource (s : State) (vaa : VAA) : Result Unit :=
  assert (vaa.source ∈ s.dataSources) E_INVALID_DATA_SOURCE

/-- A round of the loop of `create_and_share_price_feeds_using_verified_price_infos`. -/
def createAndSharePriceFeed (c : Chain) (curPriceInfo : PriceInfo) : Result Chain :=
  if c.registry curPriceInfo.identifier = none then c.shareNewObject curPriceInfo
  else return c

/-- The price infos are taken from the last one on. -/
def createAndSharePriceFeedsUsingVerifiedPriceInfos (priceInfos : List PriceInfo) (c : Chain) :
    Result Chain :=
  priceInfos.reverse.foldlM createAndSharePriceFeed c

section

variable (keccak256 : Bytes → BitVec 256)

def createPriceFeedsUsingAccumulator (accumulatorMessage : Bytes) (vaa : VAA) (clock : U64)
    (c : Chain) : Result Chain := do
  assertLatestOnly c.state
  assertDataSource c.state vaa
  let (priceInfos, _) ← Accumulator.parseAndVerifyAccumulatorMessage keccak256 vaa.payload
    (seconds clock) accumulatorMessage
  createAndSharePriceFeedsUsingVerifiedPriceInfos priceInfos c

/-- The price infos of a batch price attestation. -/
def attestedPriceInfos (s : State) (vaa : VAA) (clock : U64) : Result (List PriceInfo) := do
  assertDataSource s vaa
  let batch ← BatchPriceAttestation.deserialize errors vaa.payload (seconds clock)
  return batch.priceInfos

/-- The VAAs are taken from the last one on. -/
def createPriceFeeds (verifiedVaas : List VAA) (clock : U64) (c : Chain) : Result Chain := do
  assertLatestOnly c.state
  verifiedVaas.reverse.foldlM (fun c vaa => do
    let priceInfos ← attestedPriceInfos c.state vaa clock
    createAndSharePriceFeedsUsingVerifiedPriceInfos priceInfos c) c

/-- `HotPotatoVector<PriceInfo>`, which can be neither copied nor dropped nor stored. -/
structure HotPotatoVector where
  contents : List PriceInfo
deriving DecidableEq

def createAuthenticatedPriceInfosUsingAccumulator (s : State) (accumulatorMessage : Bytes)
    (verifiedVaa : VAA) (clock : U64) : Result HotPotatoVector := do
  assertLatestOnly s
  assertDataSource s verifiedVaa
  let priceInfos ← Cursor.all (Accumulator.parseAndVerifyAccumulatorMessage keccak256
    verifiedVaa.payload (seconds clock)) accumulatorMessage
  return { contents := priceInfos }

/-- The VAAs and their price infos are taken from the last one on. -/
def createPriceInfosHotPotato (s : State) (verifiedVaas : List VAA) (clock : U64) :
    Result HotPotatoVector := do
  assertLatestOnly s
  let priceUpdates ← verifiedVaas.reverse.mapM fun vaa => do
    let priceInfos ← attestedPriceInfos s vaa clock
    return priceInfos.reverse
  return { contents := priceUpdates.flatten }

end

def isFreshUpdate (update : PriceInfo) (o : PriceInfoObject) : Bool :=
  update.timestamp > o.timestamp

def updateCache (update : PriceInfo) (o : PriceInfoObject) : Result PriceInfoObject := do
  assert (o.identifier = update.identifier) E_UPDATE_AND_PRICE_INFO_OBJECT_MISMATCH
  if isFreshUpdate update o then return { o with priceInfo := update } else return o

/-- The first entry for the object is used. -/
def updateSinglePriceFeed (s : State) (priceUpdates : HotPotatoVector) (o : PriceInfoObject)
    (fee : U64) : Result PriceInfoObject := do
  assertLatestOnly s
  assert (s.baseUpdateFee ≤ fee) E_INSUFFICIENT_FEE
  let o ← o.depositFeeCoins fee
  match priceUpdates.contents.find? (fun update => o.identifier = update.identifier) with
  | some update => updateCache update o
  | none => .error (.code E_PRICE_UPDATE_NOT_FOUND_FOR_PRICE_INFO_OBJECT)

end PythCrosschain.Sui
