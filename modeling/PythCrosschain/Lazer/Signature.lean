import PythCrosschain.Lazer.Storage

/-!
# Lazer on Solana: verifying a message

`verify_message` of `signature.rs`, and the native program that has verified the signatures
by then. The program is given the instructions of the transaction; the entries of an
instruction of the native program say where in them the signatures, the keys and the
messages lie.
-/

namespace PythCrosschain.Lazer

open Solana

abbrev U16 := BitVec 16

def ED25519_PROGRAM_INPUT_HEADER_LEN : Nat := 2

def SIGNATURE_LEN : U16 := 64
def PUBKEY_LEN : U16 := 32
def MAGIC_LEN : U16 := 4
def MESSAGE_SIZE_LEN : U16 := 2

def SOLANA_FORMAT_MAGIC_LE : Nat := 2182742457

/-- `ed25519_program::ID`. -/
def ED25519_PROGRAM_ID : Pubkey :=
  ⟨[3, 125, 70, 214, 124, 147, 251, 190, 18, 249, 66, 143, 131, 141, 64, 255, 5, 112, 116, 73, 39,
    244, 138, 100, 252, 202, 112, 68, 128, 0, 0, 0], rfl⟩

structure Ed25519SignatureOffsets where
  signatureOffset : U16
  signatureInstructionIndex : U16
  publicKeyOffset : U16
  publicKeyInstructionIndex : U16
  messageDataOffset : U16
  messageDataSize : U16
  messageInstructionIndex : U16
deriving DecidableEq

/-- The size of an entry. -/
def ENTRY_LEN : Nat := 14

/-- The little-endian `u16` at an index. -/
def u16At (data : Bytes) (index : Nat) : U16 := BitVec.ofNat 16 (natLE ((data.drop index).take 2))

/-- The entry at the front of the data. -/
def Ed25519SignatureOffsets.ofBytes (data : Bytes) : Ed25519SignatureOffsets where
  signatureOffset := u16At data 0
  signatureInstructionIndex := u16At data 2
  publicKeyOffset := u16At data 4
  publicKeyInstructionIndex := u16At data 6
  messageDataOffset := u16At data 8
  messageDataSize := u16At data 10
  messageInstructionIndex := u16At data 12

/-- The entry of a number, of an instruction of the native program. -/
def entryAt (data : Bytes) (i : Nat) : Ed25519SignatureOffsets :=
  .ofBytes (data.drop (ED25519_PROGRAM_INPUT_HEADER_LEN + ENTRY_LEN * i))

/-- `try_cast_slice`, of the data after the header. -/
def tryCastSlice (data : Bytes) : Option (List Ed25519SignatureOffsets) :=
  let len := data.length - ED25519_PROGRAM_INPUT_HEADER_LEN
  if len % ENTRY_LEN = 0 then some ((List.range (len / ENTRY_LEN)).map (entryAt data)) else none

structure Instruction where
  programId : Pubkey
  data : Bytes
deriving DecidableEq

/-- The data of the account with the instructions of the transaction, whose number is a
`u16`. -/
structure InstructionsSysvar where
  instructions : List Instruction
  currentIndex : U16
  size : instructions.length < 2 ^ 16

structure VerifiedMessage where
  publicKey : Pubkey
  payload : Bytes
deriving DecidableEq

inductive SignatureVerificationError where
  | ed25519InstructionMustPrecedeCurrentInstruction
  | loadInstructionAtFailed
  | loadCurrentIndexFailed
  | clockGetFailed
  | invalidEd25519InstructionProgramId
  | invalidEd25519InstructionDataLength
  | invalidSignatureIndex
  | invalidSignatureOffset
  | invalidPublicKeyOffset
  | invalidMessageOffset
  | invalidMessageDataSize
  | invalidInstructionIndex
  | messageOffsetOverflow
  | formatMagicMismatch
  | invalidStorageAccountId
  | invalidStorageData
  | notTrustedSigner
  | invalidMessageData
deriving DecidableEq, Repr

abbrev SigResult (α : Type) := Rust.Result SignatureVerificationError α

/-! ## `verify_message` -/

/-- The first part: the entry of the signature index. -/
def loadOffsets (sysvar : InstructionsSysvar) (ed25519InstructionIndex : U16)
    (signatureIndex : UInt8) : SigResult Ed25519SignatureOffsets := do
  Rust.require (¬ed25519InstructionIndex ≥ sysvar.currentIndex)
    .ed25519InstructionMustPrecedeCurrentInstruction
  let ed25519Instruction ← Rust.okOr .loadInstructionAtFailed
    sysvar.instructions[ed25519InstructionIndex.toNat]?
  Rust.require (¬ed25519Instruction.programId ≠ ED25519_PROGRAM_ID)
    .invalidEd25519InstructionProgramId
  Rust.require (¬ed25519Instruction.data.length < ED25519_PROGRAM_INPUT_HEADER_LEN)
    .invalidEd25519InstructionDataLength
  let numSignatures ← Rust.unwrap ed25519Instruction.data[0]?
  Rust.require (¬signatureIndex ≥ numSignatures) .invalidSignatureIndex
  let args ← Rust.okOr .invalidEd25519InstructionDataLength
    (tryCastSlice ed25519Instruction.data)
  -- `try_into` for a `u8`
  Rust.require (args.length < 2 ^ 8) .invalidEd25519InstructionDataLength
  Rust.require (¬signatureIndex.toNat ≥ args.length) .invalidSignatureIndex
  Rust.unwrap args[signatureIndex.toNat]?

/-- The second part: the offset of the message, which is what the entry covers. -/
def coverMessage (sysvar : InstructionsSysvar) (offsets : Ed25519SignatureOffsets)
    (messageData : Bytes) : SigResult U16 := do
  let messageOffset ← Rust.okOr .messageOffsetOverflow
    (Rust.checkedSub offsets.signatureOffset MAGIC_LEN)
  let selfInstruction ← Rust.okOr .loadInstructionAtFailed
    sysvar.instructions[sysvar.currentIndex.toNat]?
  let messageEndOffset ← Rust.okOr .messageOffsetOverflow
    (Rust.checkedAdd offsets.messageDataOffset offsets.messageDataSize)
  let expectedMessageData ← Rust.okOr .invalidMessageOffset
    (Rust.slice selfInstruction.data messageOffset.toNat messageEndOffset.toNat)
  Rust.require (¬expectedMessageData ≠ messageData) .invalidMessageData
  return messageOffset

/-- The last part: what lies at the positions of the format. -/
def readMessage (storage : Storage) (now : Option I64) (selfInstructionIndex : U16)
    (offsets : Ed25519SignatureOffsets) (messageOffset : U16) (messageData : Bytes) :
    SigResult VerifiedMessage := do
  let magic ← Rust.unwrap (Rust.slice messageData 0 MAGIC_LEN.toNat)
  Rust.require (¬natLE magic ≠ SOLANA_FORMAT_MAGIC_LE) .formatMagicMismatch
  let expectedPublicKeyOffset ← Rust.okOr .messageOffsetOverflow
    (Rust.checkedAdd offsets.signatureOffset SIGNATURE_LEN)
  Rust.require (¬offsets.publicKeyOffset ≠ expectedPublicKeyOffset) .invalidPublicKeyOffset
  let expectedMessageSizeOffset ← Rust.okOr .messageOffsetOverflow
    (Rust.checkedAdd expectedPublicKeyOffset PUBKEY_LEN)
  let expectedMessageDataOffset ← Rust.okOr .messageOffsetOverflow
    (Rust.checkedAdd expectedMessageSizeOffset MESSAGE_SIZE_LEN)
  Rust.require (¬offsets.messageDataOffset ≠ expectedMessageDataOffset) .invalidMessageOffset
  let sizeStart ← Rust.unwrap (Rust.checkedSub expectedMessageSizeOffset messageOffset)
  let sizeEnd ← Rust.unwrap (Rust.checkedSub expectedMessageDataOffset messageOffset)
  let size ← Rust.unwrap (Rust.slice messageData sizeStart.toNat sizeEnd.toNat)
  let expectedMessageSize := natLE size
  Rust.require (¬offsets.messageDataSize.toNat ≠ expectedMessageSize) .invalidMessageDataSize
  Rust.require (¬(offsets.signatureInstructionIndex ≠ selfInstructionIndex ∨
      offsets.publicKeyInstructionIndex ≠ selfInstructionIndex ∨
      offsets.messageInstructionIndex ≠ selfInstructionIndex)) .invalidInstructionIndex
  let keyStart ← Rust.unwrap (Rust.checkedSub expectedPublicKeyOffset messageOffset)
  let publicKey ← Rust.unwrap (Rust.slice messageData keyStart.toNat (keyStart.toNat + 32))
  let now ← Rust.okOr .clockGetFailed now
  let signers ← storage.initializedTrustedSigners
  Rust.require (signers.any fun s => s.pubkey.val = publicKey ∧ s.expiresAt.toInt > now.toInt)
    .notTrustedSigner
  let payloadStart ← Rust.unwrap (Rust.checkedSub expectedMessageDataOffset messageOffset)
  let payload ← Rust.unwrap (Rust.slice messageData payloadStart.toNat
    (payloadStart.toNat + expectedMessageSize))
  let publicKey ← Rust.unwrap (if h : publicKey.length = 32 then some ⟨publicKey, h⟩ else none)
  return { publicKey, payload }

/-- `verify_message`. `sysvar` is missing where another account was passed for it, `now` where
the clock is not available. -/
def verifyMessage (storage : Storage) (sysvar : Option InstructionsSysvar) (now : Option I64)
    (messageData : Bytes) (ed25519InstructionIndex : U16) (signatureIndex : UInt8) :
    SigResult VerifiedMessage := do
  let sysvar ← Rust.okOr .loadCurrentIndexFailed sysvar
  let offsets ← loadOffsets sysvar ed25519InstructionIndex signatureIndex
  let messageOffset ← coverMessage sysvar offsets messageData
  readMessage storage now sysvar.currentIndex offsets messageOffset messageData

/-! ## The native program -/

/-- What the native program reads for an entry, from the instruction of an index or from its
own data. -/
def getDataSlice (sysvar : InstructionsSysvar) (own : Bytes) (index offset : U16) (size : Nat) :
    Option Bytes := do
  let data ← if index = BitVec.allOnes 16 then some own
    else (sysvar.instructions[index.toNat]?).map Instruction.data
  Rust.slice data offset.toNat (offset.toNat + size)

/-- The signature of an entry verifies. `verify` takes a signature, a key and a message. -/
def EntryVerifies (verify : Bytes → Bytes → Bytes → Bool) (sysvar : InstructionsSysvar)
    (own : Bytes) (offsets : Ed25519SignatureOffsets) : Prop :=
  ∃ signature key message,
    getDataSlice sysvar own offsets.signatureInstructionIndex offsets.signatureOffset 64 =
      some signature ∧
    getDataSlice sysvar own offsets.publicKeyInstructionIndex offsets.publicKeyOffset 32 =
      some key ∧
    getDataSlice sysvar own offsets.messageInstructionIndex offsets.messageDataOffset
      offsets.messageDataSize.toNat = some message ∧
    verify signature key message = true

/-- Every instruction of the native program before the current one has succeeded: its data
hold as many entries as they say, and the signature of each verifies. -/
def NativeSucceeded (verify : Bytes → Bytes → Bytes → Bool) (sysvar : InstructionsSysvar) : Prop :=
  ∀ i < sysvar.currentIndex.toNat, ∀ instruction, sysvar.instructions[i]? = some instruction →
    instruction.programId = ED25519_PROGRAM_ID → ∀ count, instruction.data[0]? = some count →
      ED25519_PROGRAM_INPUT_HEADER_LEN + ENTRY_LEN * count.toNat ≤ instruction.data.length ∧
      ∀ k < count.toNat, EntryVerifies verify sysvar instruction.data (entryAt instruction.data k)

end PythCrosschain.Lazer
