import PythCrosschain.Aptos.State

/-!
# Aptos: `pyth.move`, `merkle.move` and `keccak160.move`

The updates of the cached prices. What other packages decide is in `Env`: Wormhole verifies a
VAA, the chain has a time and an id, and a package is published or not. Coins are amounts.

An accumulator update is read as by the grammar of the EVM contract (`reads_accumulatorMessage`).
-/

namespace PythCrosschain.Aptos

open Move MovePackages
open Sui (Cursor)
open PythnetSdk (HashArray)

/-- The fields of a verified VAA that the package reads. -/
structure VAA where
  emitterChain : BitVec 16
  emitterAddress : HashArray 32
  sequence : U64
  payload : Bytes
deriving DecidableEq

/-- What a call finds outside the package: `parseAndVerify` is `wormhole::vaa::parse_and_verify`
and `publishPackage` is `code::publish_package_txn`. -/
structure Env where
  keccak256 : Bytes → BitVec 256
  parseAndVerify : Bytes → Result VAA
  publishPackage : Bytes → List Bytes → Result Unit
  now : U64
  chainId : BitVec 16

def VAA.source (vaa : VAA) : DataSource where
  emitterChain := vaa.emitterChain.setWidth 64
  emitterAddress := vaa.emitterAddress

/-! ## `keccak160` and `merkle` -/

namespace Keccak160

/-- The loop of `is_smaller`, from one byte on. -/
def isSmaller : Bytes → Bytes → Bool
  | lhsVal :: lhs, rhsVal :: rhs => if lhsVal ≠ rhsVal then lhsVal < rhsVal else isSmaller lhs rhs
  | _, _ => false

theorem length_take (keccak256 : Bytes → BitVec 256) (data : Bytes) :
    ((wordBytes (keccak256 data)).take 20).length = 20 := by simp [wordBytes]

/-- The hash without its last bytes. -/
def fromData (keccak256 : Bytes → BitVec 256) (data : Bytes) : HashArray 20 :=
  ⟨(wordBytes (keccak256 data)).take 20, length_take keccak256 data⟩

end Keccak160

namespace Merkle

def LEAF_PREFIX : UInt8 := 0
def NODE_PREFIX : UInt8 := 1

section

variable (keccak256 : Bytes → BitVec 256)

def hashLeaf (leaf : Bytes) : HashArray 20 := Keccak160.fromData keccak256 (LEAF_PREFIX :: leaf)

def hashNode (node1 node2 : HashArray 20) : HashArray 20 :=
  Keccak160.fromData keccak256
    (NODE_PREFIX :: if Keccak160.isSmaller node2.val node1.val then node2.val ++ node1.val
      else node1.val ++ node2.val)

def check (path : List (HashArray 20)) (root : HashArray 20) (leaf : Bytes) : Bool :=
  path.foldl (hashNode keccak256) (hashLeaf keccak256 leaf) = root

end

end Merkle

/-! ## Reading an update -/

section

variable (env : Env)

def verifyDataSource (s : State) (vaa : VAA) : Result Unit :=
  assert (vaa.source ∈ s.dataSources) Error.invalidDataSource

/-- A round of the loop of `parse_and_verify_accumulator_updates`. -/
def takeUpdate (merkleRoot : HashArray 20) : Cursor PriceInfo := do
  let messageSize ← deserializeU16
  let message ← deserializeVector messageSize.toNat
  let update ← liftM (parseAccumulatorUpdateMessage errors codes env.now message)
  let pathSize ← deserializeU8
  let merklePath ← Decoder.elements Sui.MerkleTree.takeBytes20 pathSize.toNat
  assert (Merkle.check env.keccak256 merklePath merkleRoot message = true) Error.invalidProof
  return update

def parseAndVerifyAccumulatorUpdates (merkleRoot : HashArray 20) : Cursor (List PriceInfo) := do
  let updateSize ← deserializeU8
  Decoder.elements (takeUpdate env merkleRoot) updateSize.toNat

/-- What follows the magic number of an accumulator message. -/
def parseAndVerifyAccumulatorMessage (s : State) : Cursor (List PriceInfo) := do
  let major ← deserializeU8
  assert (major = 1) Error.invalidAccumulatorPayload
  let _minor ← deserializeU8
  let trailingSize ← deserializeU8
  let _ ← deserializeVector trailingSize.toNat
  let proofType ← deserializeU8
  assert (proofType = 0) Error.invalidAccumulatorPayload
  let vaaSize ← deserializeU16
  let vaa ← deserializeVector vaaSize.toNat
  let msgVaa ← liftM (env.parseAndVerify vaa)
  liftM (verifyDataSource s msgVaa)
  let merkleRootHash ← liftM (parseAccumulatorMerkleRootFromVaaPayload codes msgVaa.payload)
  parseAndVerifyAccumulatorUpdates env merkleRootHash

/-- The number of updates and the updates of `update_price_feed_from_single_vaa`. The rest behind
an accumulator message is dropped. -/
def readUpdates (s : State) (vaa : Bytes) : Result (ℕ × List PriceInfo) := do
  let (header, cur) ← deserializeU32 vaa
  if header = PYTHNET_ACCUMULATOR_UPDATE_MAGIC then
    let (result, _) ← parseAndVerifyAccumulatorMessage env s cur
    return (result.length, result)
  else
    let vaa ← env.parseAndVerify vaa
    verifyDataSource s vaa
    let batch ← BatchPriceAttestation.deserialize errors vaa.payload env.now
    return (1, batch.priceInfos)

/-! ## Updating the cache -/

def isFreshUpdate (s : State) (update : PriceInfo) : Bool :=
  match s.latestPriceInfo update.identifier with
  | none => true
  | some cached => update.timestamp > cached.timestamp

/-- A round of the loop of `update_cache`. -/
def cacheUpdate (update : PriceInfo) (s : State) : State :=
  if isFreshUpdate s update then s.setLatestPriceInfo update.identifier update else s

/-- The updates are taken from the last one on. -/
def updateCache (updates : List PriceInfo) (s : State) : State := updates.foldr cacheUpdate s

/-- The number of updates, for which a fee is due. -/
def updatePriceFeedFromSingleVaa (vaa : Bytes) (s : State) : Result (ℕ × State) := do
  let (totalUpdates, updates) ← readUpdates env s vaa
  return (totalUpdates, updateCache updates s)

/-- The loop of `update_price_feeds`, over the VAAs from the last one on. -/
def updateFromVaas : List Bytes → ℕ → State → Result (ℕ × State)
  | [], totalUpdates, s => return (totalUpdates, s)
  | vaa :: vaas, totalUpdates, s => do
    let (updates, s) ← updatePriceFeedFromSingleVaa env vaa s
    updateFromVaas vaas (totalUpdates + updates) s

/-- `coin::withdraw` from an account with the amount `funds`. -/
def withdraw (funds amount : U64) : Result Unit :=
  if amount ≤ funds then .ok () else .error .external

def updatePriceFeedsWithFunder (funds : U64) (vaas : List Bytes) (s : State) : Result State := do
  let (totalUpdates, s) ← updateFromVaas env vaas.reverse 0 s
  let updateFee ← Move.ofNat (s.baseUpdateFee.toNat * totalUpdates)
  withdraw funds updateFee
  return s

def updatePriceFeeds (vaas : List Bytes) (fee : U64) (s : State) : Result State := do
  let (totalUpdates, s) ← updateFromVaas env vaas.reverse 0 s
  let updateFee ← Move.ofNat (s.baseUpdateFee.toNat * totalUpdates)
  assert (updateFee ≤ fee) Error.insufficientFee
  return s

/-- The number of updates of one element, in `get_update_fee`. -/
def countUpdates (s : State) (vaa : Bytes) : Result ℕ := do
  let (header, cur) ← deserializeU32 vaa
  if header = PYTHNET_ACCUMULATOR_UPDATE_MAGIC then
    let (updates, _) ← parseAndVerifyAccumulatorMessage env s cur
    return updates.length
  else return 1

def getUpdateFee (updateData : List Bytes) (s : State) : Result U64 := do
  let counts ← updateData.mapM (countUpdates env s)
  Move.ofNat (s.baseUpdateFee.toNat * counts.sum)

/-- `price_identifier::from_byte_vec`. -/
def priceIdentifierFromByteVec (bytes : Bytes) : Result PriceIdentifier :=
  if h : bytes.length = 32 then .ok ⟨bytes, h⟩
  else .error (.code Error.incorrectIdentifierLength)

/-- The loop of `update_price_feeds_if_fresh`. -/
def hasFreshData (s : State) : List (Bytes × U64) → Result Bool
  | [] => return false
  | (identifier, publishTime) :: rest => do
    let priceIdentifier ← priceIdentifierFromByteVec identifier
    match s.latestPriceInfo priceIdentifier with
    | none => return true
    | some cached =>
      if cached.timestamp < publishTime then return true else hasFreshData s rest

def updatePriceFeedsIfFresh (vaas priceIdentifiers : List Bytes) (publishTimes : List U64)
    (fee : U64) (s : State) : Result State := do
  assert (priceIdentifiers.length = publishTimes.length) Error.invalidPublishTimesLength
  let freshData ← hasFreshData s (priceIdentifiers.zip publishTimes)
  assert (freshData = true) Error.noFreshData
  updatePriceFeeds env vaas fee s

def updatePriceFeedsIfFreshWithFunder (funds : U64) (vaas priceIdentifiers : List Bytes)
    (publishTimes : List U64) (s : State) : Result State := do
  let fee ← getUpdateFee env vaas s
  withdraw funds fee
  updatePriceFeedsIfFresh env vaas priceIdentifiers publishTimes fee s

end

end PythCrosschain.Aptos
