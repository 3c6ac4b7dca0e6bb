import PythCrosschain.Evm.ByteArrays
import PythCrosschain.Pyth.State

/-!
# `MerkleTree` and `PythAccumulator`

The hashes of the Merkle tree library and the check of a proof that lies in the calldata, and the
unchecked parser of accumulator updates. Offsets are words and wrap around, and a
field is read wherever its offset points. `parseAndVerifyPythVM` is a parameter: a
function of the VAA that it is given.
-/

namespace PythCrosschain.Pyth.MerkleTree

def MERKLE_LEAF_PREFIX : Uint8 := 0
def MERKLE_NODE_PREFIX : Uint8 := 1

section

variable (keccak256 : Bytes → Bytes32)

/-- `bytes20(keccak256(input))`: the first 20 bytes. -/
def hash (input : Bytes) : Bytes20 := (keccak256 input >>> 96).setWidth 160

def leafHash (data : Bytes) : Bytes20 :=
  hash keccak256 (packed 1 MERKLE_LEAF_PREFIX ++ data)

def nodeHash (childA childB : Bytes20) : Bytes20 :=
  let (childA, childB) := if childA > childB then (childB, childA) else (childA, childB)
  hash keccak256 (packed 1 MERKLE_NODE_PREFIX ++ packed 20 childA ++ packed 20 childB)

/-- The loop of `isProofValid`, for `proofSize` more siblings. -/
def climb (m : Machine) (encodedProof : CalldataBytes) (currentDigest : Bytes20)
    (proofOffset : Uint256) : Nat → Bytes20 × Uint256
  | 0 => (currentDigest, proofOffset)
  | proofSize + 1 =>
    let siblingDigest := UnsafeCalldataBytesLib.toAddress m encodedProof proofOffset
    climb m encodedProof (nodeHash keccak256 currentDigest siblingDigest) (proofOffset + 20)
      proofSize

def isProofValid (m : Machine) (encodedProof : CalldataBytes) (proofOffset : Uint256)
    (root : Bytes20) (leafData : CalldataBytes) : Bool × Uint256 :=
  let currentDigest := leafHash keccak256 (leafData.bytes m)
  let proofSize := UnsafeCalldataBytesLib.toUint8 m encodedProof proofOffset
  let proofOffset := proofOffset + 1
  let top := climb keccak256 m encodedProof currentDigest proofOffset proofSize.toNat
  (top.1 = root, top.2)

end

end PythCrosschain.Pyth.MerkleTree

/-! ## `PythAccumulator` -/

namespace PythCrosschain.Pyth

def ACCUMULATOR_MAGIC : Uint32 := 0x504e4155
def ACCUMULATOR_WORMHOLE_MAGIC : Uint32 := 0x41555756
def MINIMUM_ALLOWED_MINOR_VERSION : Uint8 := 0
def MAJOR_VERSION : Uint8 := 1

inductive UpdateType where
  | wormholeMerkle
deriving DecidableEq, Repr

inductive MessageType where
  | priceFeed
deriving DecidableEq, Repr

/-- The conversion of a number to the enumeration, which panics for the others. -/
def UpdateType.ofUint8 (n : Uint8) : Result UpdateType :=
  if n = 0 then .ok .wormholeMerkle else .error (.panic 0x21)

def MessageType.ofUint8 (n : Uint8) : Result MessageType :=
  if n = 0 then .ok .priceFeed else .error (.panic 0x21)

section

open UnsafeCalldataBytesLib

variable (keccak256 : Bytes → Bytes32) (m : Machine) (parseAndVerifyPythVM : Bytes → Result VM)

def extractUpdateTypeFromAccumulatorHeader (accumulatorUpdate : CalldataBytes) :
    Result (Uint256 × UpdateType) := do
  let mut offset : Uint256 := 0
  let magic := toUint32 m accumulatorUpdate offset
  offset := offset + 4
  require (magic = ACCUMULATOR_MAGIC) (.error .invalidUpdateData)
  let majorVersion := toUint8 m accumulatorUpdate offset
  offset := offset + 1
  require (majorVersion = MAJOR_VERSION) (.error .invalidUpdateData)
  let minorVersion := toUint8 m accumulatorUpdate offset
  offset := offset + 1
  require (minorVersion ≥ MINIMUM_ALLOWED_MINOR_VERSION) (.error .invalidUpdateData)
  let trailingHeaderSize := toUint8 m accumulatorUpdate offset
  offset := offset + 1
  offset := offset + trailingHeaderSize.setWidth 256
  let updateType ← UpdateType.ofUint8 (toUint8 m accumulatorUpdate offset)
  offset := offset + 1
  require (accumulatorUpdate.length ≥ offset) (.error .invalidUpdateData)
  return (offset, updateType)

/-- The part of `extractWormholeMerkleHeaderDigestAndNumUpdatesAndEncodedFromAccumulatorUpdate`
that reads the payload of the VAA. -/
def extractDigestFromPayload (encodedPayload : MemoryBytes) : Result Bytes20 := do
  let mut payloadOffset : Uint256 := 0
  let magic := UnsafeBytesLib.toUint32 encodedPayload payloadOffset
  payloadOffset := payloadOffset + 4
  require (magic = ACCUMULATOR_WORMHOLE_MAGIC) (.error .invalidUpdateData)
  let updateType ← UpdateType.ofUint8 (UnsafeBytesLib.toUint8 encodedPayload payloadOffset)
  payloadOffset := payloadOffset + 1
  require (updateType = .wormholeMerkle) (.error .invalidUpdateData)
  -- the slot and the size of the ring are not used
  payloadOffset := payloadOffset + 8
  payloadOffset := payloadOffset + 4
  let digest := UnsafeBytesLib.toAddress encodedPayload payloadOffset
  payloadOffset := payloadOffset + 20
  require (payloadOffset.toNat ≤ encodedPayload.content.length) (.error .invalidUpdateData)
  return digest

def extractWormholeMerkleHeaderDigestAndNumUpdatesAndEncodedFromAccumulatorUpdate
    (accumulatorUpdate : CalldataBytes) (encodedOffset : Uint256) :
    Result (Uint256 × Bytes20 × Uint8 × CalldataBytes) := do
  let encoded ← slice m accumulatorUpdate encodedOffset (accumulatorUpdate.length - encodedOffset)
  let mut offset : Uint256 := 0
  let whProofSize := toUint16 m encoded offset
  offset := offset + 2
  let encodedVm ← slice m encoded offset (whProofSize.setWidth 256)
  let vm ← parseAndVerifyPythVM (encodedVm.bytes m)
  offset := offset + whProofSize.setWidth 256
  let digest ← extractDigestFromPayload (m.returned vm.payload)
  let numUpdates := toUint8 m encoded offset
  offset := offset + 1
  return (offset, digest, numUpdates, encoded)

def parsePriceFeedMessage (encodedPriceFeed : CalldataBytes) (offset : Uint256) :
    Result (PriceInfo × Bytes32 × Uint64) := do
  let mut offset := offset
  let priceId := toBytes32 m encodedPriceFeed offset
  offset := offset + 32
  let price := toUint64 m encodedPriceFeed offset
  offset := offset + 8
  let conf := toUint64 m encodedPriceFeed offset
  offset := offset + 8
  let expo := toUint32 m encodedPriceFeed offset
  offset := offset + 4
  let publishTime := toUint64 m encodedPriceFeed offset
  offset := offset + 8
  -- `UnsafeBytesLib` reads a copy of the message in memory
  let prevPublishTime := UnsafeBytesLib.toUint64 (encodedPriceFeed.toMemory m) offset
  offset := offset + 8
  let emaPrice := toUint64 m encodedPriceFeed offset
  offset := offset + 8
  let emaConf := toUint64 m encodedPriceFeed offset
  offset := offset + 8
  require (offset ≤ encodedPriceFeed.length) (.error .invalidUpdateData)
  return ({ publishTime, expo, price, conf, emaPrice, emaConf }, priceId, prevPublishTime)

def extractPriceInfoFromMerkleProof (digest : Bytes20) (encoded : CalldataBytes)
    (offset : Uint256) : Result (Uint256 × PriceInfo × Bytes32 × Uint64) := do
  let mut offset := offset
  let messageSize := toUint16 m encoded offset
  offset := offset + 2
  let encodedMessage ← slice m encoded offset (messageSize.setWidth 256)
  offset := offset + messageSize.setWidth 256
  let proof := MerkleTree.isProofValid keccak256 m encoded offset digest encodedMessage
  let valid := proof.1
  let endOffset := proof.2
  require (valid = true) (.error .invalidUpdateData)
  let messageType ← MessageType.ofUint8 (toUint8 m encodedMessage 0)
  require (messageType = .priceFeed) (.error .invalidUpdateData)
  let (priceInfo, priceId, prevPublishTime) ← parsePriceFeedMessage m encodedMessage 1
  return (endOffset, priceInfo, priceId, prevPublishTime)

/-- The loop of `updatePriceInfosFromAccumulatorUpdate`, for `numUpdates` more updates. -/
def updatePriceInfos (digest : Bytes20) (encoded : CalldataBytes) (w : World) (offset : Uint256) :
    Nat → Result (World × Uint256)
  | 0 => return (w, offset)
  | numUpdates + 1 => do
    let (offset, priceInfo, priceId, _) ←
      extractPriceInfoFromMerkleProof keccak256 m digest encoded offset
    let w := updateLatestPriceIfNecessary w priceId priceInfo
    updatePriceInfos digest encoded w offset numUpdates

def updatePriceInfosFromAccumulatorUpdate (accumulatorUpdate : CalldataBytes) (w : World) :
    Result (Uint8 × World) := do
  let (encodedOffset, updateType) ← extractUpdateTypeFromAccumulatorHeader m accumulatorUpdate
  require (updateType = .wormholeMerkle) (.error .invalidUpdateData)
  let (offset, digest, numUpdates, encoded) ←
    extractWormholeMerkleHeaderDigestAndNumUpdatesAndEncodedFromAccumulatorUpdate m
      parseAndVerifyPythVM accumulatorUpdate encodedOffset
  let (w, offset) ← updatePriceInfos keccak256 m digest encoded w offset numUpdates.toNat
  require (offset = encoded.length) (.error .invalidUpdateData)
  return (numUpdates, w)

end

end PythCrosschain.Pyth
