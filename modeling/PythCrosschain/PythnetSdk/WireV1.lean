import PythCrosschain.PythnetSdk.Messages
import PythCrosschain.PythnetSdk.WireRoundTrip

/-!
# The types of the transfer format

`wire.rs`'s `v1` and the messages. `Schema` is what deriving `Serialize` and
`Deserialize` generates for a type: the wire type that serde maps it to.

The result is `wire_round_trip`: every value of every supported type is read back
from its bytes, whatever follows them, and the types of the transfer format and
the messages are among the supported ones.
-/

namespace PythCrosschain.PythnetSdk

/-! ## Data model -/

structure MerklePriceUpdate where
  /-- `PrefixedVec<u16, u8>`. -/
  message : Bytes
  proof : MerklePath 20
deriving DecidableEq

inductive Proof where
  | wormholeMerkle (vaa : Bytes) (updates : List MerklePriceUpdate)
deriving DecidableEq

structure AccumulatorUpdateData where
  magic : HashArray 4
  majorVersion : UInt8
  minorVersion : UInt8
  trailing : Bytes
  proof : Proof
deriving DecidableEq

structure WormholeMerkleRoot where
  slot : BitVec 64
  ringSize : BitVec 32
  root : HashArray 20
deriving DecidableEq

inductive WormholePayload where
  | merkle (root : WormholeMerkleRoot)
deriving DecidableEq

structure WormholeMessage where
  magic : HashArray 4
  payload : WormholePayload
deriving DecidableEq

/-- `b"PNAU"`. -/
def PYTHNET_ACCUMULATOR_UPDATE_MAGIC : HashArray 4 := ⟨[0x50, 0x4e, 0x41, 0x55], rfl⟩

/-- `b"AUWV"`. -/
def ACCUMULATOR_UPDATE_WORMHOLE_VERIFICATION_MAGIC : HashArray 4 :=
  ⟨[0x41, 0x55, 0x57, 0x56], rfl⟩

/-- `WormholeMessage::new`. -/
def WormholeMessage.new (payload : WormholePayload) : WormholeMessage where
  magic := ACCUMULATOR_UPDATE_WORMHOLE_VERIFICATION_MAGIC
  payload := payload

/-- `AccumulatorUpdateData::new`. -/
def AccumulatorUpdateData.new (proof : Proof) : AccumulatorUpdateData where
  magic := PYTHNET_ACCUMULATOR_UPDATE_MAGIC
  majorVersion := 1
  minorVersion := 0
  trailing := []
  proof := proof

/-! ## Derived implementations -/

/-- The wire type of a Rust type, and its values as values of that type. -/
structure Schema (α : Type) where
  type : WireType
  supported : type.Supported
  toWire : α → type.Value
  ofWire : type.Value → α
  ofWire_toWire : ∀ x, ofWire (toWire x) = x

namespace Schema

variable {α : Type} (schema : Schema α) (B : ByteOrder)

/-- `to_vec::<T, B>`. -/
def toVec (x : α) : Except SerializerError Bytes :=
  schema.type.serialize B (schema.toWire x)

/-- `from_slice::<B, T>`, with the bytes it leaves unread. -/
def fromSlice : Deserializer α :=
  schema.ofWire <$> schema.type.deserialize B

theorem roundTrips : RoundTrips (schema.toVec B) (schema.fromSlice B) :=
  (schema.type.roundTrips B schema.supported).map schema.ofWire_toWire

/-- `Vec<T>`. -/
def vec : Schema (List α) where
  type := .seq schema.type
  supported := schema.supported
  toWire xs := xs.map schema.toWire
  ofWire vs := List.map schema.ofWire vs
  ofWire_toWire xs := by
    rw [List.map_map, funext schema.ofWire_toWire (f := schema.ofWire ∘ schema.toWire) (g := id)]
    exact List.map_id xs

/-- `PrefixedVec<u16, T>`. -/
def prefixedVec : Schema (List α) where
  type := .prefixedVec schema.type
  supported := schema.supported
  toWire := schema.vec.toWire
  ofWire := schema.vec.ofWire
  ofWire_toWire := schema.vec.ofWire_toWire

end Schema

/-- A struct or a struct variant, as the tuple of its fields. -/
def WireType.struct (fields : List WireType) : WireType :=
  .tuple (fields.foldr .cons .nil)

def WireType.enumOf (variants : List WireType) : WireType :=
  .enum (variants.foldr .cons .nil)

def WireType.u16 : WireType := .int .w16
def WireType.u32 : WireType := .int .w32
def WireType.u64 : WireType := .int .w64
def WireType.u128 : WireType := .int .w128
def WireType.i32 : WireType := .int .w32
def WireType.i64 : WireType := .int .w64
def WireType.i128 : WireType := .int .w128

def MerklePriceUpdate.schema : Schema MerklePriceUpdate where
  type := .struct [.prefixedVec .u8, .seq (.array 20 .u8)]
  supported := by decide
  toWire x := (x.message, x.proof, ())
  ofWire v := ⟨v.1, v.2.1⟩
  ofWire_toWire _ := rfl

def Proof.schema : Schema Proof where
  type := .enumOf [.struct [.prefixedVec .u8, MerklePriceUpdate.schema.vec.type]]
  supported := by decide
  toWire
    | .wormholeMerkle vaa updates => .inl (vaa, MerklePriceUpdate.schema.vec.toWire updates, ())
  ofWire
    | .inl v => .wormholeMerkle v.1 (MerklePriceUpdate.schema.vec.ofWire v.2.1)
  ofWire_toWire
    | .wormholeMerkle vaa updates =>
      congrArg (Proof.wormholeMerkle vaa) (MerklePriceUpdate.schema.vec.ofWire_toWire updates)

def AccumulatorUpdateData.schema : Schema AccumulatorUpdateData where
  type := .struct [.array 4 .u8, .u8, .u8, .seq .u8, Proof.schema.type]
  supported := by decide
  toWire x :=
    (x.magic, x.majorVersion, x.minorVersion, x.trailing, Proof.schema.toWire x.proof, ())
  ofWire v := ⟨v.1, v.2.1, v.2.2.1, v.2.2.2.1, Proof.schema.ofWire v.2.2.2.2.1⟩
  ofWire_toWire x :=
    congrArg (AccumulatorUpdateData.mk x.magic x.majorVersion x.minorVersion x.trailing)
      (Proof.schema.ofWire_toWire x.proof)

def WormholeMerkleRoot.schema : Schema WormholeMerkleRoot where
  type := .struct [.u64, .u32, .array 20 .u8]
  supported := by decide
  toWire x := (x.slot, x.ringSize, x.root, ())
  ofWire v := ⟨v.1, v.2.1, v.2.2.1⟩
  ofWire_toWire _ := rfl

def WormholePayload.schema : Schema WormholePayload where
  type := .enumOf [WormholeMerkleRoot.schema.type]
  supported := by decide
  toWire
    | .merkle root => .inl (WormholeMerkleRoot.schema.toWire root)
  ofWire
    | .inl v => .merkle (WormholeMerkleRoot.schema.ofWire v)
  ofWire_toWire
    | .merkle _ => rfl

def WormholeMessage.schema : Schema WormholeMessage where
  type := .struct [.array 4 .u8, WormholePayload.schema.type]
  supported := by decide
  toWire x := (x.magic, WormholePayload.schema.toWire x.payload, ())
  ofWire v := ⟨v.1, WormholePayload.schema.ofWire v.2.1⟩
  ofWire_toWire _ := rfl

def PriceFeedMessage.schema : Schema PriceFeedMessage where
  type := .struct [.array 32 .u8, .i64, .u64, .i32, .i64, .i64, .i64, .u64]
  supported := by decide
  toWire x := (x.feedId, x.price, x.conf, x.exponent, x.publishTime, x.prevPublishTime, x.emaPrice,
    x.emaConf, ())
  ofWire v := ⟨v.1, v.2.1, v.2.2.1, v.2.2.2.1, v.2.2.2.2.1, v.2.2.2.2.2.1, v.2.2.2.2.2.2.1,
    v.2.2.2.2.2.2.2.1⟩
  ofWire_toWire _ := rfl

def TwapMessage.schema : Schema TwapMessage where
  type := .struct [.array 32 .u8, .i128, .u128, .u64, .i32, .i64, .i64, .u64]
  supported := by decide
  toWire x := (x.feedId, x.cumulativePrice, x.cumulativeConf, x.numDownSlots, x.exponent,
    x.publishTime, x.prevPublishTime, x.publishSlot, ())
  ofWire v := ⟨v.1, v.2.1, v.2.2.1, v.2.2.2.1, v.2.2.2.2.1, v.2.2.2.2.2.1, v.2.2.2.2.2.2.1,
    v.2.2.2.2.2.2.2.1⟩
  ofWire_toWire _ := rfl

def PublisherStakeCap.schema : Schema PublisherStakeCap where
  type := .struct [.array 32 .u8, .u64]
  supported := by decide
  toWire x := (x.publisher, x.cap, ())
  ofWire v := ⟨v.1, v.2.1⟩
  ofWire_toWire _ := rfl

def PublisherStakeCapsMessage.schema : Schema PublisherStakeCapsMessage where
  type := .struct [.i64, PublisherStakeCap.schema.prefixedVec.type]
  supported := by decide
  toWire x := (x.publishTime, PublisherStakeCap.schema.prefixedVec.toWire x.caps, ())
  ofWire v := ⟨v.1, PublisherStakeCap.schema.prefixedVec.ofWire v.2.1⟩
  ofWire_toWire x := congrArg (PublisherStakeCapsMessage.mk x.publishTime)
    (PublisherStakeCap.schema.prefixedVec.ofWire_toWire x.caps)

def Message.schema : Schema Message where
  type := .enumOf [PriceFeedMessage.schema.type, TwapMessage.schema.type,
    PublisherStakeCapsMessage.schema.type]
  supported := by decide
  toWire
    | .priceFeedMessage msg => .inl (PriceFeedMessage.schema.toWire msg)
    | .twapMessage msg => .inr (.inl (TwapMessage.schema.toWire msg))
    | .publisherStakeCapsMessage msg =>
      .inr (.inr (.inl (PublisherStakeCapsMessage.schema.toWire msg)))
  ofWire
    | .inl v => .priceFeedMessage (PriceFeedMessage.schema.ofWire v)
    | .inr (.inl v) => .twapMessage (TwapMessage.schema.ofWire v)
    | .inr (.inr (.inl v)) =>
      .publisherStakeCapsMessage (PublisherStakeCapsMessage.schema.ofWire v)
  ofWire_toWire
    | .priceFeedMessage _ => rfl
    | .twapMessage _ => rfl
    | .publisherStakeCapsMessage msg => congrArg Message.publisherStakeCapsMessage
        (PublisherStakeCapsMessage.schema.ofWire_toWire msg)

/-! ## Parsing an update -/

inductive Error where
  | deserializationError
  | invalidMagic
  | invalidVersion
deriving DecidableEq, Repr

def CURRENT_MINOR_VERSION : UInt8 := 0

/-- `AccumulatorUpdateData::try_from_slice`. -/
def AccumulatorUpdateData.tryFromSlice (bytes : Bytes) : Except Error AccumulatorUpdateData :=
  match AccumulatorUpdateData.schema.fromSlice .BE bytes with
  | .error _ => .error .deserializationError
  | .ok (message, _) =>
    if message.magic ≠ PYTHNET_ACCUMULATOR_UPDATE_MAGIC then .error .invalidMagic
    else if message.majorVersion ≠ 1 then .error .invalidVersion
    else if message.minorVersion < CURRENT_MINOR_VERSION then .error .invalidVersion
    else .ok message

/-- `WormholeMessage::try_from_bytes`. -/
def WormholeMessage.tryFromBytes (bytes : Bytes) : Except Error WormholeMessage :=
  match WormholeMessage.schema.fromSlice .BE bytes with
  | .error _ => .error .deserializationError
  | .ok (message, _) =>
    if message.magic ≠ ACCUMULATOR_UPDATE_WORMHOLE_VERIFICATION_MAGIC then .error .invalidMagic
    else .ok message

/-- What `new` and `to_vec` made is parsed, whatever follows it. -/
theorem AccumulatorUpdateData.tryFromSlice_new {proof : Proof} {bytes : Bytes}
    (h : AccumulatorUpdateData.schema.toVec .BE (.new proof) = .ok bytes) (rest : Bytes) :
    AccumulatorUpdateData.tryFromSlice (bytes ++ rest) = .ok (.new proof) := by
  unfold AccumulatorUpdateData.tryFromSlice
  rw [AccumulatorUpdateData.schema.roundTrips .BE _ bytes h rest]
  rfl

/-! ## Round trip -/

/-- A value of any supported type is read back from its bytes, in both byte
orders and whatever follows them; so two values never have the same bytes, and
the bytes of one never begin those of another. -/
theorem wire_round_trip :
    (∀ (B : ByteOrder) (t : WireType), t.Supported →
      ∀ (v : t.Value) (bytes : Bytes), t.serialize B v = .ok bytes →
        (∀ rest, t.deserialize B (bytes ++ rest) = .ok (v, rest)) ∧
        (∀ v', t.serialize B v' = .ok bytes → v = v') ∧
        ∀ v' rest, t.serialize B v' = .ok (bytes ++ rest) → v = v' ∧ rest = []) ∧
    (∀ B, RoundTrips (AccumulatorUpdateData.schema.toVec B)
      (AccumulatorUpdateData.schema.fromSlice B)) ∧
    (∀ B, RoundTrips (MerklePriceUpdate.schema.toVec B) (MerklePriceUpdate.schema.fromSlice B)) ∧
    (∀ B, RoundTrips (WormholeMessage.schema.toVec B) (WormholeMessage.schema.fromSlice B)) ∧
    (∀ B, RoundTrips (Message.schema.toVec B) (Message.schema.fromSlice B)) := by
  refine ⟨fun B t ht v bytes hv => ⟨?_, ?_, ?_⟩, AccumulatorUpdateData.schema.roundTrips,
    MerklePriceUpdate.schema.roundTrips, WormholeMessage.schema.roundTrips,
    Message.schema.roundTrips⟩
  · exact t.roundTrips B ht v bytes hv
  · intro v' hv'
    exact (t.roundTrips B ht).injective hv hv'
  · intro v' rest hv'
    exact (t.roundTrips B ht).prefixFree hv hv'

/-! The struct of the source's golden test. -/

def exGoldenEnum : WireType :=
  .enumOf [.unit, .u8, .struct [.u8, .u16], .struct [.u8, .u16]]

def exGoldenType : WireType :=
  .struct [.unit, .bool, .u8, .u16, .u32, .u64, .str, .str,
    .seq .u8, .seq .u8, .seq (.seq .u8), .seq (.seq .u8), .bytes, .bytes,
    .struct [.u8, .u16, .u32, .u64, .str, .seq .u8, .bytes],
    .struct [.struct [.u8, .u16], .struct [.u32, .u64]],
    exGoldenEnum, exGoldenEnum, exGoldenEnum, exGoldenEnum,
    .struct [.u8, .struct [.u8, .u8]], .prefixedVec .u8]

def exGolden : exGoldenType.Value :=
  ((), true, (1 : UInt8), (2 : BitVec 16), (3 : BitVec 32), (4 : BitVec 64), "9", "10",
    ([11, 12, 13] : Bytes), ([] : Bytes), ([[14, 15, 16], [17, 18, 19]] : List Bytes),
    ([[], []] : List Bytes), ([20, 21, 22] : Bytes), ([] : Bytes),
    ((29 : UInt8), (30 : BitVec 16), (31 : BitVec 32), (32 : BitVec 64), "10",
      ([35, 36, 37] : Bytes), ([38, 39, 40] : Bytes), ()),
    (((41 : UInt8), (42 : BitVec 16), ()), ((43 : BitVec 32), (44 : BitVec 64), ()), ()),
    .inl (), .inr (.inl (45 : UInt8)), .inr (.inr (.inl ((46 : UInt8), (47 : BitVec 16), ()))),
    .inr (.inr (.inr (.inl ((48 : UInt8), (49 : BitVec 16), ())))),
    ((50 : UInt8), ((51 : UInt8), (52 : UInt8), ()), ()), List.replicate 512 (0 : UInt8), ())

def exGoldenBytes : Bytes :=
  [1, 1, 2, 0, 3, 0, 0, 0, 4, 0, 0, 0, 0, 0, 0, 0, 1, 57, 2, 49, 48,
    3, 11, 12, 13, 0, 2, 3, 14, 15, 16, 3, 17, 18, 19, 2, 0, 0, 3, 20, 21, 22, 0,
    29, 30, 0, 31, 0, 0, 0, 32, 0, 0, 0, 0, 0, 0, 0, 2, 49, 48, 3, 35, 36, 37, 3, 38, 39, 40,
    41, 42, 0, 43, 0, 0, 0, 44, 0, 0, 0, 0, 0, 0, 0,
    0, 1, 45, 2, 46, 47, 0, 3, 48, 49, 0, 50, 51, 52, 0, 2] ++ List.replicate 512 0

theorem exGolden_serialize : exGoldenType.serialize .LE exGolden = .ok exGoldenBytes := by
  decide +kernel

theorem wire_round_trip_golden :
    exGoldenType.serialize .LE exGolden = .ok exGoldenBytes ∧
    ∀ rest, exGoldenType.deserialize .LE (exGoldenBytes ++ rest) = .ok (exGolden, rest) :=
  ⟨exGolden_serialize,
    (wire_round_trip.1 .LE exGoldenType (by decide) exGolden exGoldenBytes exGolden_serialize).1⟩

end PythCrosschain.PythnetSdk
