import PythCrosschain.Lazer.Payload

/-!
# Lazer: signature envelopes and binary updates

`message.rs` and `binary_update.rs`. The four envelopes write a magic, their own fields, the
length of the payload and the payload. A JSON message is a magic and the text that
`serde_json` makes of a `ParsedPayload`; here the type and the two functions are parameters,
as nothing reads its fields.
-/

namespace PythCrosschain.Lazer

open PythnetSdk (ByteOrder)

def JSON_FORMAT_MAGIC : BitVec 32 := 3302625434
def EVM_FORMAT_MAGIC : BitVec 32 := 2593727018
def SOLANA_FORMAT_MAGIC : BitVec 32 := 2182742457
def LE_ECDSA_FORMAT_MAGIC : BitVec 32 := 1296547300
def LE_UNSIGNED_FORMAT_MAGIC : BitVec 32 := 1499680012

/-! ## Envelopes -/

/-- What all envelopes do: `fields` are the bytes between the magic and the length, which
is written in the byte order `B`. -/
def serializeEnvelope (magic : BitVec 32) (fields : Bytes) (B : ByteOrder) (payload : Bytes) :
    Anyhow Bytes := do
  let len ← tryIntoU16 payload.length
  return writeU32 .LE magic ++ fields ++ writeU16 B len ++ payload

def deserializeEnvelope {α : Type} (magic : BitVec 32) (fields : Reader α) (B : ByteOrder) :
    Reader (α × Bytes) := do
  let read ← readU32 .LE
  if read ≠ magic then throw (.error .magicMismatch)
  let values ← fields
  let payloadLen ← readU16 B
  let payload ← readExact payloadLen.toNat
  return (values, payload.val)

structure EvmMessage where
  payload : Bytes
  signature : U8Array 64
  recoveryId : UInt8
deriving DecidableEq

structure SolanaMessage where
  payload : Bytes
  signature : U8Array 64
  publicKey : U8Array 32
deriving DecidableEq

structure LeEcdsaMessage where
  payload : Bytes
  signature : U8Array 64
  recoveryId : UInt8
deriving DecidableEq

structure LeUnsignedMessage where
  payload : Bytes
deriving DecidableEq

/-- The signature and the recovery id of an ECDSA envelope. -/
def readEcdsaFields : Reader (U8Array 64 × UInt8) := do
  let signature ← readExact 64
  let recoveryId ← readU8
  return (signature, recoveryId)

def readSolanaFields : Reader (U8Array 64 × U8Array 32) := do
  let signature ← readExact 64
  let publicKey ← readExact 32
  return (signature, publicKey)

def EvmMessage.serialize (self : EvmMessage) : Anyhow Bytes :=
  serializeEnvelope EVM_FORMAT_MAGIC (self.signature.val ++ [self.recoveryId]) .BE self.payload

def EvmMessage.deserialize : Reader EvmMessage := do
  let ((signature, recoveryId), payload) ← deserializeEnvelope EVM_FORMAT_MAGIC readEcdsaFields .BE
  return { payload, signature, recoveryId }

def SolanaMessage.serialize (self : SolanaMessage) : Anyhow Bytes :=
  serializeEnvelope SOLANA_FORMAT_MAGIC (self.signature.val ++ self.publicKey.val) .LE self.payload

def SolanaMessage.deserialize : Reader SolanaMessage := do
  let ((signature, publicKey), payload) ←
    deserializeEnvelope SOLANA_FORMAT_MAGIC readSolanaFields .LE
  return { payload, signature, publicKey }

def LeEcdsaMessage.serialize (self : LeEcdsaMessage) : Anyhow Bytes :=
  serializeEnvelope LE_ECDSA_FORMAT_MAGIC (self.signature.val ++ [self.recoveryId]) .LE self.payload

def LeEcdsaMessage.deserialize : Reader LeEcdsaMessage := do
  let ((signature, recoveryId), payload) ←
    deserializeEnvelope LE_ECDSA_FORMAT_MAGIC readEcdsaFields .LE
  return { payload, signature, recoveryId }

def LeUnsignedMessage.serialize (self : LeUnsignedMessage) : Anyhow Bytes :=
  serializeEnvelope LE_UNSIGNED_FORMAT_MAGIC [] .LE self.payload

def LeUnsignedMessage.deserialize : Reader LeUnsignedMessage := do
  let (_, payload) ← deserializeEnvelope LE_UNSIGNED_FORMAT_MAGIC (pure ()) .LE
  return { payload }

def EvmMessage.deserializeSlice (data : Bytes) : Anyhow EvmMessage :=
  Prod.fst <$> EvmMessage.deserialize data

def SolanaMessage.deserializeSlice (data : Bytes) : Anyhow SolanaMessage :=
  Prod.fst <$> SolanaMessage.deserialize data

def LeEcdsaMessage.deserializeSlice (data : Bytes) : Anyhow LeEcdsaMessage :=
  Prod.fst <$> LeEcdsaMessage.deserialize data

def LeUnsignedMessage.deserializeSlice (data : Bytes) : Anyhow LeUnsignedMessage :=
  Prod.fst <$> LeUnsignedMessage.deserialize data

/-! ## Messages -/

inductive Message (ParsedPayload : Type) where
  | evm (message : EvmMessage)
  | solana (message : SolanaMessage)
  | leEcdsa (message : LeEcdsaMessage)
  | leUnsigned (message : LeUnsignedMessage)
  | json (message : ParsedPayload)
deriving DecidableEq

section

variable {ParsedPayload : Type}
  -- `serde_json::to_writer` and `serde_json::from_slice`.
  (toWriter : ParsedPayload → Bytes) (fromSlice : Bytes → Option ParsedPayload)

def Message.serialize : Message ParsedPayload → Anyhow Bytes
  | .evm message => message.serialize
  | .solana message => message.serialize
  | .leEcdsa message => message.serialize
  | .leUnsigned message => message.serialize
  | .json message => return writeU32 .LE JSON_FORMAT_MAGIC ++ toWriter message

/-- The `match` on the magic. -/
def Message.deserializeFormat (magic : BitVec 32) (data : Bytes) :
    Anyhow (Message ParsedPayload) :=
  if magic = JSON_FORMAT_MAGIC then do
    let rest ← Rust.unwrap (Rust.slice data 4 data.length)
    .json <$> Rust.okOr .json (fromSlice rest)
  else if magic = EVM_FORMAT_MAGIC then .evm <$> EvmMessage.deserializeSlice data
  else if magic = SOLANA_FORMAT_MAGIC then .solana <$> SolanaMessage.deserializeSlice data
  else if magic = LE_ECDSA_FORMAT_MAGIC then .leEcdsa <$> LeEcdsaMessage.deserializeSlice data
  else if magic = LE_UNSIGNED_FORMAT_MAGIC then
    .leUnsigned <$> LeUnsignedMessage.deserializeSlice data
  else throw (.error .unrecognizedFormatMagic)

def Message.deserializeSlice (data : Bytes) : Anyhow (Message ParsedPayload) := do
  let header ← Rust.okOr .dataTooShort (Rust.slice data 0 4)
  Message.deserializeFormat fromSlice (BitVec.ofNat 32 (natLE header)) data

/-! ## Binary updates -/

def BINARY_UPDATE_FORMAT_MAGIC : BitVec 32 := 461928307

structure BinaryWsUpdate (ParsedPayload : Type) where
  subscriptionId : BitVec 64
  messages : List (Message ParsedPayload)
deriving DecidableEq

/-- `out[start..stop].copy_from_slice(src)`: a panic when the lengths differ or the range
is not in `out`. -/
def copyFromSlice (out : Bytes) (start stop : Nat) (src : Bytes) : Anyhow Bytes := do
  let dst ← Rust.unwrap (Rust.slice out start stop)
  if dst.length = src.length then return out.take start ++ src ++ out.drop stop
  else throw .panic

def writeWithLenHeader (out : Bytes) (f : Bytes → Anyhow Bytes) : Anyhow Bytes := do
  let lenIndex := out.length
  let out := out ++ [0] ++ [0]
  let dataStartIndex := out.length
  let out ← f out
  let len ← tryIntoU16 (out.length - dataStartIndex)
  copyFromSlice out lenIndex dataStartIndex (writeU16 .BE len)

/-- The loop over `self.messages`. -/
def writeMessages (buf : Bytes) : List (Message ParsedPayload) → Anyhow Bytes
  | [] => return buf
  | message :: messages => do
    let buf ← writeWithLenHeader buf fun buf => return buf ++ (← message.serialize toWriter)
    writeMessages buf messages

/-- The buffer after the call. -/
def BinaryWsUpdate.serialize (self : BinaryWsUpdate ParsedPayload) (buf : Bytes) : Anyhow Bytes :=
  writeMessages toWriter (buf ++ writeU32 .LE BINARY_UPDATE_FORMAT_MAGIC ++
    writeU64 .BE self.subscriptionId) self.messages

/-- `data.get(start..stop).context("data too short")?.try_into::<[u8; n]>()?` -/
def arrayAt (data : Bytes) (start stop n : Nat) : Anyhow (U8Array n) := do
  let field ← Rust.okOr .dataTooShort (Rust.slice data start stop)
  if h : field.length = n then return ⟨field, h⟩ else throw (.error .tryFromSlice)

/-- The loop of `deserialize_slice`. -/
def readMessages (data : Bytes) (pos : Nat) (messages : List (Message ParsedPayload)) :
    Anyhow (List (Message ParsedPayload)) :=
  if pos < data.length then do
    let field ← arrayAt data pos (pos + 2) 2
    let len := natBE field.val
    let pos' := pos + 2
    let messageData ← Rust.okOr .dataTooShort (Rust.slice data pos' (pos' + len))
    let message ← Message.deserializeSlice fromSlice messageData
    readMessages data (pos' + len) (messages ++ [message])
  else return messages
termination_by data.length - pos

def BinaryWsUpdate.deserializeSlice (data : Bytes) : Anyhow (BinaryWsUpdate ParsedPayload) := do
  let field ← arrayAt data 0 (0 + 4) 4
  if BitVec.ofNat 32 (natLE field.val) ≠ BINARY_UPDATE_FORMAT_MAGIC then
    throw (.error .binaryUpdateFormatMagicMismatch)
  let field ← arrayAt data 4 (4 + 8) 8
  let subscriptionId := BitVec.ofNat 64 (natBE field.val)
  let messages ← readMessages fromSlice data 12 []
  return { subscriptionId, messages }

end

end PythCrosschain.Lazer
