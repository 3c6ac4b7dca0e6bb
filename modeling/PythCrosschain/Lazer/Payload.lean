import PythCrosschain.Lib.Rust
import PythCrosschain.PythnetSdk.Wire

/-!
# Lazer: the signable payload

`payload.rs`: what a payload holds, and its encoding in either byte order. A writer is the
list of the bytes written so far, a reader a cursor over a byte string.
-/

namespace PythCrosschain.Lazer

open PythnetSdk (ByteOrder IntWidth writeInt)

inductive LazerError where
  /-- `std::io::Error`: the end of the buffer. -/
  | io
  /-- `TryFromIntError`. -/
  | tryFromInt
  /-- `TryFromSliceError`. -/
  | tryFromSlice
  | json
  | magicMismatch
  | unknownProperty
  | dataTooShort
  | unrecognizedFormatMagic
  | binaryUpdateFormatMagicMismatch
deriving DecidableEq, Repr

/-- `anyhow::Result`. -/
abbrev Anyhow (α : Type) := Rust.Result LazerError α

/-- What is read with `impl Read`. -/
abbrev Reader (α : Type) := Decoder (Rust.Failure LazerError) α

/-! ## Reading and writing -/

/-- The `read_*::<B>` methods of `byteorder`. A signed integer is its two's complement
word. -/
def readInt (B : ByteOrder) (width : IntWidth) : Reader (BitVec width.bits) := fun bs =>
  (PythnetSdk.readInt B width bs).mapError fun _ => .error .io

def readU8 : Reader UInt8 := Decoder.byte (.error .io)

def readU16 (B : ByteOrder) : Reader (BitVec 16) := readInt B .w16

def readU32 (B : ByteOrder) : Reader (BitVec 32) := readInt B .w32

def readU64 (B : ByteOrder) : Reader (BitVec 64) := readInt B .w64

def writeU16 (B : ByteOrder) (v : BitVec 16) : Bytes := writeInt B .w16 v

def writeU32 (B : ByteOrder) (v : BitVec 32) : Bytes := writeInt B .w32 v

def writeU64 (B : ByteOrder) (v : BitVec 64) : Bytes := writeInt B .w64 v

/-- `[u8; N]`. -/
abbrev U8Array (n : Nat) := {bytes : Bytes // bytes.length = n}

/-- `read_exact` into a buffer of `n` bytes. -/
def readExact (n : Nat) : Reader (U8Array n) := fun bs =>
  if h : n ≤ bs.length then .ok (⟨bs.take n, List.length_take_of_le h⟩, bs.drop n)
  else .error (.error .io)

/-- `u8::try_from`. -/
def tryIntoU8 (n : Nat) : Anyhow UInt8 :=
  if n < 256 then .ok (UInt8.ofNat n) else .error (.error .tryFromInt)

/-- `u16::try_from`. -/
def tryIntoU16 (n : Nat) : Anyhow (BitVec 16) :=
  if n < 65536 then .ok (BitVec.ofNat 16 n) else .error (.error .tryFromInt)

/-! ## What a payload holds -/

/-- `NonZeroI64`. -/
abbrev Price := {v : BitVec 64 // v ≠ 0}

abbrev Rate := BitVec 64

abbrev TimestampUs := BitVec 64

abbrev PriceFeedId := BitVec 32

abbrev ChannelId := UInt8

/-- `FixedRate::ALL`, in milliseconds. -/
def FixedRate.ALL : List Nat := [1, 50, 200]

/-- `Channel::id` of the channel with a fixed rate; any other rate is a panic. -/
def Channel.id (valueMs : Nat) : Anyhow ChannelId :=
  match valueMs with
  | 1 => .ok 1
  | 50 => .ok 2
  | 200 => .ok 3
  | _ => .error .panic

inductive PriceFeedProperty where
  | price
  | bestBidPrice
  | bestAskPrice
  | publisherCount
  | exponent
  | confidence
  | fundingRate
  | fundingTimestamp
deriving DecidableEq, Repr

/-- `as u8`. -/
def PriceFeedProperty.toU8 : PriceFeedProperty → UInt8
  | .price => 0
  | .bestBidPrice => 1
  | .bestAskPrice => 2
  | .publisherCount => 3
  | .exponent => 4
  | .confidence => 5
  | .fundingRate => 6
  | .fundingTimestamp => 7

inductive PayloadPropertyValue where
  | price (price : Option Price)
  | bestBidPrice (price : Option Price)
  | bestAskPrice (price : Option Price)
  | publisherCount (count : BitVec 16)
  | exponent (exponent : BitVec 16)
  | confidence (confidence : Option Price)
  | fundingRate (rate : Option Rate)
  | fundingTimestamp (timestamp : Option TimestampUs)
deriving DecidableEq

structure PayloadFeedData where
  feedId : PriceFeedId
  properties : List PayloadPropertyValue
deriving DecidableEq

structure PayloadData where
  timestampUs : TimestampUs
  channelId : ChannelId
  feeds : List PayloadFeedData
deriving DecidableEq

def PAYLOAD_FORMAT_MAGIC : BitVec 32 := 2479346549

/-! ## Serialization -/

section Serialize

variable (B : ByteOrder)

def writeOptionPrice (value : Option Price) : Bytes :=
  writeU64 B (value.elim 0 fun v => v.val)

def writeOptionRate : Option Rate → Bytes
  | some value => [1] ++ writeU64 B value
  | none => [0]

def writeOptionTimestamp : Option TimestampUs → Bytes
  | some value => [1] ++ writeU64 B value
  | none => [0]

/-- One round of the loop over `feed.properties`. -/
def PayloadPropertyValue.serialize : PayloadPropertyValue → Bytes
  | .price value => [PriceFeedProperty.price.toU8] ++ writeOptionPrice B value
  | .bestBidPrice value => [PriceFeedProperty.bestBidPrice.toU8] ++ writeOptionPrice B value
  | .bestAskPrice value => [PriceFeedProperty.bestAskPrice.toU8] ++ writeOptionPrice B value
  | .publisherCount count => [PriceFeedProperty.publisherCount.toU8] ++ writeU16 B count
  | .exponent value => [PriceFeedProperty.exponent.toU8] ++ writeU16 B value
  | .confidence value => [PriceFeedProperty.confidence.toU8] ++ writeOptionPrice B value
  | .fundingRate rate => [PriceFeedProperty.fundingRate.toU8] ++ writeOptionRate B rate
  | .fundingTimestamp timestamp =>
    [PriceFeedProperty.fundingTimestamp.toU8] ++ writeOptionTimestamp B timestamp

/-- One round of the loop over `self.feeds`. -/
def PayloadFeedData.serialize (feed : PayloadFeedData) : Anyhow Bytes := do
  let numProperties ← tryIntoU8 feed.properties.length
  return writeU32 B feed.feedId ++ [numProperties] ++
    feed.properties.flatMap (PayloadPropertyValue.serialize B)

def PayloadData.serialize (self : PayloadData) : Anyhow Bytes := do
  let numFeeds ← tryIntoU8 self.feeds.length
  let feeds ← encodeElements (PayloadFeedData.serialize B) self.feeds
  return writeU32 B PAYLOAD_FORMAT_MAGIC ++ writeU64 B self.timestampUs ++
    [self.channelId] ++ [numFeeds] ++ feeds

end Serialize

/-! ## Deserialization -/

section Deserialize

variable (B : ByteOrder)

def readOptionPrice : Reader (Option Price) := do
  let value ← readU64 B
  return if h : value ≠ 0 then some ⟨value, h⟩ else none

def readOptionRate : Reader (Option Rate) := do
  let present ← readU8
  if present ≠ 0 then some <$> readU64 B else return none

def readOptionTimestamp : Reader (Option TimestampUs) := do
  let present ← readU8
  if present ≠ 0 then some <$> readU64 B else return none

def PayloadPropertyValue.deserialize : Reader PayloadPropertyValue := do
  let property ← readU8
  if property = PriceFeedProperty.price.toU8 then .price <$> readOptionPrice B
  else if property = PriceFeedProperty.bestBidPrice.toU8 then .bestBidPrice <$> readOptionPrice B
  else if property = PriceFeedProperty.bestAskPrice.toU8 then .bestAskPrice <$> readOptionPrice B
  else if property = PriceFeedProperty.publisherCount.toU8 then .publisherCount <$> readU16 B
  else if property = PriceFeedProperty.exponent.toU8 then .exponent <$> readU16 B
  else if property = PriceFeedProperty.confidence.toU8 then .confidence <$> readOptionPrice B
  else if property = PriceFeedProperty.fundingRate.toU8 then .fundingRate <$> readOptionRate B
  else if property = PriceFeedProperty.fundingTimestamp.toU8 then
    .fundingTimestamp <$> readOptionTimestamp B
  else throw (.error .unknownProperty)

def PayloadFeedData.deserialize : Reader PayloadFeedData := do
  let feedId ← readU32 B
  let numProperties ← readU8
  let properties ← Decoder.elements (PayloadPropertyValue.deserialize B) numProperties.toNat
  return { feedId, properties }

def PayloadData.deserialize : Reader PayloadData := do
  let magic ← readU32 B
  if magic ≠ PAYLOAD_FORMAT_MAGIC then throw (.error .magicMismatch)
  let timestampUs ← readU64 B
  let channelId ← readU8
  let numFeeds ← readU8
  let feeds ← Decoder.elements (PayloadFeedData.deserialize B) numFeeds.toNat
  return { timestampUs, channelId, feeds }

/-- `deserialize_slice_le` and `deserialize_slice_be`. -/
def PayloadData.deserializeSlice (data : Bytes) : Anyhow PayloadData :=
  Prod.fst <$> PayloadData.deserialize B data

end Deserialize

end PythCrosschain.Lazer
