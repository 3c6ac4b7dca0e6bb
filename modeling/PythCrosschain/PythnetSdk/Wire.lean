import PythCrosschain.Lib.Codec

/-!
# The Pyth wire format

`ser.rs`, `de.rs` and `prefixed_vec.rs`. `WireType` lists the types that the
format supports: those that serde maps to the methods of the two halves.
Structs and tuples are `tuple`, a newtype struct is the type it wraps, and an
enum has one payload type for each variant (`unit` for a unit variant).

A `SequenceIterator` counts down the elements that a visitor may still ask for;
the visitors below are given that count and fail when it is used up.
-/

namespace PythCrosschain.PythnetSdk

/-- The type parameter `B: ByteOrder`. -/
inductive ByteOrder where
  | BE
  | LE
deriving DecidableEq

inductive SerializerError where
  | sequenceTooLarge (len : Nat)
  | invalidEnumVariant (variantIndex : Nat)
  /-- `unwrap` of a length that does not fit its prefix. -/
  | panic
deriving DecidableEq, Repr

inductive DeserializerError where
  /-- `std::io::Error`: the end of the buffer. -/
  | io
  | utf8
  /-- The message of `serde::de::Error::invalid_length`. -/
  | invalidLength (len : Nat)
  | invalidEnumVariant
  | eof
deriving DecidableEq, Repr

abbrev Deserializer (α : Type) := Decoder DeserializerError α

/-! ## Types -/

/-- The integers of more than one byte, signed or not. -/
inductive IntWidth where
  | w16
  | w32
  | w64
  | w128
deriving DecidableEq

def IntWidth.bits : IntWidth → Nat
  | .w16 => 16
  | .w32 => 32
  | .w64 => 64
  | .w128 => 128

def IntWidth.bytes : IntWidth → Nat
  | .w16 => 2
  | .w32 => 4
  | .w64 => 8
  | .w128 => 16

mutual

inductive WireType where
  | unit
  | bool
  /-- `u8`, and `i8` as its two's complement byte. -/
  | u8
  /-- Unsigned integers, and signed ones as their two's complement words. -/
  | int (width : IntWidth)
  | str
  /-- What `serialize_bytes` writes. -/
  | bytes
  | seq (t : WireType)
  /-- `PrefixedVec<u16, T>`. -/
  | prefixedVec (t : WireType)
  /-- `[T; N]`. -/
  | array (n : Nat) (t : WireType)
  | tuple (fields : WireTypes)
  | enum (variants : WireTypes)

inductive WireTypes where
  | nil
  | cons (t : WireType) (ts : WireTypes)

end

def WireTypes.length : WireTypes → Nat
  | .nil => 0
  | .cons _ ts => ts.length + 1

mutual

/-- The values of a type. -/
def WireType.Value : WireType → Type
  | .unit => Unit
  | .bool => Bool
  | .u8 => UInt8
  | .int width => BitVec width.bits
  | .str => String
  | .bytes => Bytes
  | .seq t => List t.Value
  | .prefixedVec t => List t.Value
  | .array n t => {vs : List t.Value // vs.length = n}
  | .tuple fields => fields.Tuple
  | .enum variants => variants.Variant

/-- The fields of a tuple or a struct. -/
def WireTypes.Tuple : WireTypes → Type
  | .nil => Unit
  | .cons t ts => t.Value × ts.Tuple

/-- A variant of an enum with its payload. -/
def WireTypes.Variant : WireTypes → Type
  | .nil => Empty
  | .cons t ts => t.Value ⊕ ts.Variant

end

mutual

/-- Every enum in the type has at most 255 variants. -/
def WireType.Supported : WireType → Prop
  | .unit | .bool | .u8 | .int _ | .str | .bytes => True
  | .seq t => t.Supported
  | .prefixedVec t => t.Supported
  | .array _ t => t.Supported
  | .tuple fields => fields.Supported
  | .enum variants => variants.length ≤ 255 ∧ variants.Supported

def WireTypes.Supported : WireTypes → Prop
  | .nil => True
  | .cons t ts => t.Supported ∧ ts.Supported

end

mutual

def WireType.decSupported : (t : WireType) → Decidable t.Supported
  | .unit | .bool | .u8 | .int _ | .str | .bytes => isTrue trivial
  | .seq t => t.decSupported
  | .prefixedVec t => t.decSupported
  | .array _ t => t.decSupported
  | .tuple fields => fields.decSupported
  | .enum variants =>
    have := variants.decSupported
    inferInstanceAs (Decidable (variants.length ≤ 255 ∧ variants.Supported))

def WireTypes.decSupported : (ts : WireTypes) → Decidable ts.Supported
  | .nil => isTrue trivial
  | .cons t ts =>
    have := t.decSupported
    have := ts.decSupported
    inferInstanceAs (Decidable (t.Supported ∧ ts.Supported))

end

instance (t : WireType) : Decidable t.Supported := t.decSupported

/-! ## Serializer -/

/-- The `write_*::<B>` methods of `byteorder`. -/
def writeInt (B : ByteOrder) (width : IntWidth) (v : BitVec width.bits) : Bytes :=
  match B with
  | .BE => bytesBE width.bytes v.toNat
  | .LE => (bytesBE width.bytes v.toNat).reverse

/-- `u8::try_from(len)`. -/
def lenU8 (len : Nat) : Except SerializerError UInt8 :=
  if len < 256 then .ok (UInt8.ofNat len) else .error (.sequenceTooLarge len)

/-- `u16::try_from(len).unwrap()`. -/
def lenU16 (len : Nat) : Except SerializerError (BitVec 16) :=
  if len < 65536 then .ok (BitVec.ofNat 16 len) else .error .panic

/-- `u8::try_from(variant_index)`. -/
def variantU8 (variantIndex : Nat) : Except SerializerError UInt8 :=
  if variantIndex < 256 then .ok (UInt8.ofNat variantIndex)
  else .error (.invalidEnumVariant variantIndex)

def utf8Bytes (v : String) : Bytes := v.toByteArray.data.toList

def serializeBytes (v : Bytes) : Except SerializerError Bytes := do
  let len ← lenU8 v.length
  return len :: v

def serializeStr (v : String) : Except SerializerError Bytes := serializeBytes (utf8Bytes v)

mutual

def WireType.serialize (B : ByteOrder) : (t : WireType) → t.Value → Except SerializerError Bytes
  | .unit, _ => return []
  | .bool, v => return [Bool.toUInt8 v]
  | .u8, v => return [v]
  | .int width, v => return writeInt B width v
  | .str, v => serializeStr v
  | .bytes, v => serializeBytes v
  | .seq t, vs => do
    let len ← lenU8 (List.length vs)
    let data ← encodeElements (t.serialize B) vs
    return len :: data
  | .prefixedVec t, vs => do
    let len ← lenU16 (List.length vs)
    let data ← encodeElements (t.serialize B) vs
    return writeInt B .w16 len ++ data
  | .array _ t, vs => encodeElements (t.serialize B) (Subtype.val vs)
  | .tuple fields, v => fields.serializeFields B v
  | .enum variants, v => variants.serializeVariant B 0 v

/-- `serialize_field` for every field. -/
def WireTypes.serializeFields (B : ByteOrder) :
    (ts : WireTypes) → ts.Tuple → Except SerializerError Bytes
  | .nil, _ => return []
  | .cons t ts, v => do
    let field ← t.serialize B v.1
    let fields ← ts.serializeFields B v.2
    return field ++ fields

/-- `serialize_*_variant`, where the first of the variants has the index
`variantIndex`. -/
def WireTypes.serializeVariant (B : ByteOrder) (variantIndex : Nat) :
    (ts : WireTypes) → ts.Variant → Except SerializerError Bytes
  | .nil, v => nomatch v
  | .cons t _, .inl v => do
    let variant ← variantU8 variantIndex
    let payload ← t.serialize B v
    return variant :: payload
  | .cons _ ts, .inr v => ts.serializeVariant B (variantIndex + 1) v

end

/-! ## Deserializer -/

/-- The `read_*::<B>` methods of `byteorder`. -/
def readInt (B : ByteOrder) (width : IntWidth) : Deserializer (BitVec width.bits) := do
  let field ← Decoder.take .io width.bytes
  return BitVec.ofNat width.bits
    (match B with
    | .BE => natBE field
    | .LE => natBE field.reverse)

def readU8 : Deserializer UInt8 := Decoder.byte .io

def deserializeBool : Deserializer Bool := do
  let value ← readU8
  return value != 0

def deserializeBytes : Deserializer Bytes := do
  let len ← readU8
  Decoder.take .eof len.toNat

def deserializeStr : Deserializer String := do
  let buf ← deserializeBytes
  match String.fromUTF8? ⟨buf.toArray⟩ with
  | some v => return v
  | none => throw .utf8

/-- A visitor that asks for `n` elements, from index `i` on, of a
`SequenceIterator` with `len` elements. -/
def visitExactly {α : Type} (element : Deserializer α) (i : Nat) :
    Nat → Nat → Deserializer (List α)
  | 0, _ => return []
  | _ + 1, 0 => throw (.invalidLength i)
  | n + 1, len + 1 => do
    let value ← element
    let values ← visitExactly element (i + 1) n len
    return value :: values

/-- `ArrayVisitor`, on a `SequenceIterator` with `n` elements. -/
def visitArray {α : Type} (element : Deserializer α) (n : Nat) :
    Deserializer {vs : List α // vs.length = n} := do
  let vs ← visitExactly element 0 n n
  if h : vs.length = n then return ⟨vs, h⟩ else throw (.invalidLength vs.length)

mutual

def WireType.deserialize (B : ByteOrder) : (t : WireType) → Deserializer t.Value
  | .unit => (return () : Deserializer Unit)
  | .bool => deserializeBool
  | .u8 => readU8
  | .int width => readInt B width
  | .str => deserializeStr
  | .bytes => deserializeBytes
  | .seq t => do
    let len ← readU8
    -- `Vec`'s visitor asks until the iterator is used up.
    Decoder.elements (t.deserialize B) len.toNat
  | .prefixedVec t => do
    let len ← readInt B .w16
    visitExactly (t.deserialize B) 0 len.toNat len.toNat
  | .array n t => visitArray (t.deserialize B) n
  | .tuple fields => fields.visitFields B 0 fields.length
  | .enum variants => do
    let variant ← readU8
    if UInt8.ofNat variants.length ≤ variant then throw .invalidEnumVariant
    else variants.visitVariant B variant.toNat

/-- The derived visitor of a struct or a tuple: it asks for every field, from
index `i` on, of a `SequenceIterator` with `len` elements. -/
def WireTypes.visitFields (B : ByteOrder) (i : Nat) :
    (ts : WireTypes) → Nat → Deserializer ts.Tuple
  | .nil, _ => (return () : Deserializer Unit)
  | .cons _ _, 0 => throw (.invalidLength i)
  | .cons t ts, len + 1 => do
    let field ← t.deserialize B
    let fields ← ts.visitFields B (i + 1) len
    return (field, fields)

/-- The derived visitor of an enum, on the variant with an index. -/
def WireTypes.visitVariant (B : ByteOrder) :
    (ts : WireTypes) → Nat → Deserializer ts.Variant
  | .nil, _ => throw .invalidEnumVariant
  | .cons t _, 0 => Sum.inl <$> t.deserialize B
  | .cons _ ts, variant + 1 => Sum.inr <$> ts.visitVariant B variant

end

end PythCrosschain.PythnetSdk
