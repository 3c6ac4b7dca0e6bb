import PythCrosschain.MessageBuffer.Whitelist

/-!
# Message buffer: the buffers

`message_buffer.rs` and the instructions on buffers. A buffer account holds a header of
fixed size and a body; its data are the bytes of both (`data`), and `ofBytes` is the view of
the header that `bytemuck` gives. An account stands under the seeds of its address. Bytes
that a reallocation adds to an account are arbitrary.

The program is built with overflow checks, so an addition that does not fit panics.
-/

set_option linter.dupNamespace false

namespace PythCrosschain.MessageBuffer

open Solana

abbrev U16 := BitVec 16

/-- The header of a buffer account, without the discriminator. -/
structure MessageBuffer where
  bump : UInt8
  version : UInt8
  headerLen : U16
  endOffsets : Vector U16 255
deriving DecidableEq

def HEADER_LEN : Nat := 522

def CURRENT_VERSION : UInt8 := 1

/-- The end offsets are `u16`. -/
def MAX_LEN : Nat := 65535 + HEADER_LEN

/-- The most that one instruction may add to the data of an account. -/
def MAX_PERMITTED_DATA_INCREASE : Nat := 10240

/-- The first eight bytes of the data of a buffer account. -/
def DISCRIMINATOR : Bytes := [25, 244, 3, 5, 225, 165, 29, 250]

namespace MessageBuffer

def new (bump : UInt8) : MessageBuffer where
  bump := bump
  version := CURRENT_VERSION
  headerLen := BitVec.ofNat 16 HEADER_LEN
  endOffsets := Vector.replicate 255 0

def refreshHeader (self : MessageBuffer) : MessageBuffer :=
  { self with
    headerLen := BitVec.ofNat 16 HEADER_LEN
    version := CURRENT_VERSION
    endOffsets := Vector.replicate 255 0 }

/-- `destination[start..][..v.len()].copy_from_slice(v)`. -/
def copyFromSlice (destination : Bytes) (start : Nat) (v : Bytes) : Bytes :=
  destination.take start ++ v ++ destination.drop (start + v.length)

/-- The loop of `put_all_in_buffer` from message `i` on: the header and the destination, the
number of messages written, and the end offset of the last one. -/
def putAllFrom (self : MessageBuffer) (destination : Bytes) (i offset : Nat) :
    List Bytes → MessageBuffer × Bytes × Nat × Nat
  | [] => (self, destination, i, offset)
  | v :: values =>
    if hi : i < 255 then
      if v.length < 2 ^ 16 then
        let stop := offset + v.length
        if stop < 2 ^ 16 then
          if stop ≤ destination.length then
            putAllFrom { self with endOffsets := self.endOffsets.set i (BitVec.ofNat 16 stop) }
              (copyFromSlice destination offset v) (i + 1) stop values
          else (self, destination, i, offset)
        else (self, destination, i, offset)
      else (self, destination, i, offset)
    else (self, destination, i, offset)

def putAllInBuffer (self : MessageBuffer) (destination : Bytes) (values : List Bytes) :
    MessageBuffer × Bytes × Nat × Nat :=
  putAllFrom self destination 0 0 values

/-- The bytes of the header, after the discriminator. -/
def toBytes (self : MessageBuffer) : Bytes :=
  self.bump :: self.version :: bytesLE 2 self.headerLen.toNat ++
    self.endOffsets.toList.flatMap fun offset => bytesLE 2 offset.toNat

/-- The `u16` at an index of the data of an account. -/
def u16At (data : Bytes) (index : Nat) : U16 := BitVec.ofNat 16 (natLE ((data.drop index).take 2))

/-- The header in the data of an account. -/
def ofBytes (data : Bytes) : MessageBuffer where
  bump := data.getD 8 0
  version := data.getD 9 0
  headerLen := u16At data 10
  endOffsets := Vector.ofFn fun i => u16At data (12 + 2 * i)

end MessageBuffer

/-- A buffer account. -/
structure BufferAccount where
  header : MessageBuffer
  body : Bytes
deriving DecidableEq

namespace BufferAccount

/-- `account_info.data`. -/
def data (account : BufferAccount) : Bytes :=
  DISCRIMINATOR ++ account.header.toBytes ++ account.body

/-- The size of the account's data. -/
def size (account : BufferAccount) : Nat := HEADER_LEN + account.body.length

/-- What `put_all` does to the account, and how many messages it wrote. -/
def putAll (account : BufferAccount) (messages : List Bytes) : BufferAccount × Nat :=
  let header := account.header.refreshHeader
  let (header, body, numMsgs, _) := header.putAllInBuffer account.body messages
  ({ header, body }, numMsgs)

/-- `realloc`. New bytes are whatever `fill` says. -/
def realloc (account : BufferAccount) (fill : Nat → UInt8) (targetSize : Nat) : BufferAccount :=
  let length := account.body.length
  { account with
    body := account.body.take (targetSize - HEADER_LEN) ++
      (List.range (targetSize - HEADER_LEN - length)).map fill }

end BufferAccount

/-! ## Instructions -/

/-- The seeds of the address of a buffer account. -/
structure BufferSeeds where
  allowedProgramAuth : Pubkey
  baseAccountKey : Pubkey
deriving DecidableEq

structure Accounts where
  whitelist : Option Whitelist := none
  buffers : BufferSeeds → Option BufferAccount := fun _ => none

def Accounts.setBuffer (accounts : Accounts) (seeds : BufferSeeds)
    (account : Option BufferAccount) : Accounts :=
  { accounts with buffers := Function.update accounts.buffers seeds account }

/-- The bumps of the addresses of the program's accounts. -/
structure Bumps where
  whitelist : UInt8
  buffer : BufferSeeds → UInt8

/-- The whitelist, in an instruction that does not change it. -/
def loadWhitelist (accounts : Accounts) : Result Whitelist :=
  Rust.okOr (.anchor .accountNotInitialized) accounts.whitelist

def loadBuffer (accounts : Accounts) (seeds : BufferSeeds) : Result BufferAccount :=
  Rust.okOr (.anchor .accountNotInitialized) (accounts.buffers seeds)

def putAll (cpiCallerAuth : AccountMeta) (baseAccountKey : Pubkey) (messages : List Bytes)
    (accounts : Accounts) : Result Accounts := do
  let seeds : BufferSeeds := { allowedProgramAuth := cpiCallerAuth.pubkey, baseAccountKey }
  let whitelist ← loadWhitelist accounts
  cpiCallerAuth.signer
  let messageBuffer ← loadBuffer accounts seeds
  whitelist.isAllowedProgramAuth cpiCallerAuth.pubkey
  return accounts.setBuffer seeds (messageBuffer.putAll messages).1

/-- `create_buffer`. `bufferAccount` is the first of the remaining accounts. -/
def createBuffer (bumps : Bumps) (admin payer : AccountMeta) (bufferAccount : Option BufferSeeds)
    (seeds : BufferSeeds) (targetSize : Nat) (accounts : Accounts) : Result Accounts := do
  let whitelist ← updateWhitelist admin accounts.whitelist
  payer.signer
  check (seeds.baseAccountKey ≠ default) .requireKeysNeqViolated
  let bufferAccount ← Rust.okOr (.custom .messageBufferNotProvided) bufferAccount
  whitelist.isAllowedProgramAuth seeds.allowedProgramAuth
  require (targetSize ≥ HEADER_LEN) .messageBufferTooSmall
  require (MAX_PERMITTED_DATA_INCREASE ≥ targetSize) .targetSizeDeltaExceeded
  match accounts.buffers bufferAccount with
  | none => do
    check (bufferAccount = seeds) .requireKeysEqViolated
    return accounts.setBuffer seeds (some
      { header := .new (bumps.buffer seeds), body := List.replicate (targetSize - HEADER_LEN) 0 })
  | some _ => return accounts

/-- `resize_buffer`. The account is reallocated before the code of the instruction runs. -/
def resizeBuffer (admin payer : AccountMeta) (seeds : BufferSeeds) (targetSize : Nat)
    (fill : Nat → UInt8) (accounts : Accounts) : Result Accounts := do
  let whitelist ← updateWhitelist admin accounts.whitelist
  payer.signer
  let account ← loadBuffer accounts seeds
  check (targetSize ≤ account.size + MAX_PERMITTED_DATA_INCREASE) .accountReallocExceedsLimit
  let account := account.realloc fill targetSize
  whitelist.isAllowedProgramAuth seeds.allowedProgramAuth
  -- `load` reads the header, which a smaller account does not hold.
  Rust.unwrap (if targetSize < HEADER_LEN then none else some ())
  let maxEndOffset := account.header.endOffsets.toList.foldl (fun m offset => max m offset.toNat) 0
  let minimumSize ← Rust.unwrap (if maxEndOffset + account.header.headerLen.toNat < 2 ^ 16 then
    some (maxEndOffset + account.header.headerLen.toNat) else none)
  require (targetSize ≥ minimumSize) .messageBufferTooSmall
  require (MAX_LEN ≥ targetSize) .targetSizeExceedsMaxLen
  return accounts.setBuffer seeds account

def deleteBuffer (admin payer : AccountMeta) (seeds : BufferSeeds) (accounts : Accounts) :
    Result Accounts := do
  let _ ← updateWhitelist admin accounts.whitelist
  payer.signer
  let _ ← loadBuffer accounts seeds
  return accounts.setBuffer seeds none

inductive Call where
  | whitelist (call : WhitelistCall)
  | putAll (cpiCallerAuth : AccountMeta) (baseAccountKey : Pubkey) (messages : List Bytes)
  | createBuffer (admin payer : AccountMeta) (bufferAccount : Option BufferSeeds)
      (seeds : BufferSeeds) (targetSize : Nat)
  | resizeBuffer (admin payer : AccountMeta) (seeds : BufferSeeds) (targetSize : Nat)
      (fill : Nat → UInt8)
  | deleteBuffer (admin payer : AccountMeta) (seeds : BufferSeeds)

def Call.exec (bumps : Bumps) : Call → Accounts → Result Accounts
  | .whitelist call, accounts => do
    let whitelist ← call.exec bumps.whitelist accounts.whitelist
    return { accounts with whitelist }
  | .putAll cpiCallerAuth baseAccountKey messages, accounts =>
    MessageBuffer.putAll cpiCallerAuth baseAccountKey messages accounts
  | .createBuffer admin payer bufferAccount seeds targetSize, accounts =>
    MessageBuffer.createBuffer bumps admin payer bufferAccount seeds targetSize accounts
  | .resizeBuffer admin payer seeds targetSize fill, accounts =>
    MessageBuffer.resizeBuffer admin payer seeds targetSize fill accounts
  | .deleteBuffer admin payer seeds, accounts =>
    MessageBuffer.deleteBuffer admin payer seeds accounts

end PythCrosschain.MessageBuffer
