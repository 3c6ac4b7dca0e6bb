import PythCrosschain.Evm.Solidity
import PythCrosschain.Lib.Rust

/-!
# Lazer on EVM

`PythLazerLib.sol`: the parsers of a payload, which return the value at a position and the
position after it; positions are 16-bit words. `PythLazer.sol`: the trusted signers and
`verifyUpdate`, where `keccak256`, the first result of `ECDSA.tryRecover` and the transfer of
the refund are parameters.
-/

namespace PythCrosschain.PythLazer

variable {ε : Type}

/-! ## Calldata -/

/-- `update[start:stop]`. -/
def calldataSlice (update : Bytes) (start stop : Nat) : Exec ε Bytes :=
  match Rust.slice update start stop with
  | some bytes => .ok bytes
  | none => .error .noData

/-- `update[pos]`. -/
def calldataByte (update : Bytes) (pos : Nat) : Exec ε Uint8 :=
  match update[pos]? with
  | some byte => .ok byte.toBitVec
  | none => .error (.panic 0x32)

/-- `uintN(bytesK(update[pos:pos + k]))` and `pos += k`. -/
def parseWord (w : Nat) (k : Uint16) (update : Bytes) (pos : Uint16) :
    Exec ε (BitVec w × Uint16) := do
  let stop ← checkedAdd pos k
  let bytes ← calldataSlice update pos.toNat stop.toNat
  let pos ← checkedAdd pos k
  return (BitVec.ofNat w (natBE bytes), pos)

/-- `uint8(update[pos])` and `pos += 1`. -/
def parseByte (update : Bytes) (pos : Uint16) : Exec ε (Uint8 × Uint16) := do
  let byte ← calldataByte update pos.toNat
  let pos ← checkedAdd pos 1
  return (byte, pos)

/-! ## PythLazerLib -/

inductive PriceFeedProperty where
  | price
  | bestBidPrice
  | bestAskPrice
  | publisherCount
  | exponent
deriving DecidableEq, Repr

inductive Channel where
  | invalid
  | realTime
  | fixedRate50
  | fixedRate200
deriving DecidableEq, Repr

/-- The conversion of a `uint8` to an enum with these members, which panics when there is no
such member. -/
def toEnum {α : Type} (members : List α) (value : Uint8) : Exec ε α :=
  match members[value.toNat]? with
  | some member => .ok member
  | none => .error (.panic 0x21)

def PriceFeedProperty.members : List PriceFeedProperty :=
  [.price, .bestBidPrice, .bestAskPrice, .publisherCount, .exponent]

def Channel.members : List Channel := [.invalid, .realTime, .fixedRate50, .fixedRate200]

def PriceFeedProperty.toUint8 : PriceFeedProperty → Uint8
  | .price => 0
  | .bestBidPrice => 1
  | .bestAskPrice => 2
  | .publisherCount => 3
  | .exponent => 4

def Channel.toUint8 : Channel → Uint8
  | .invalid => 0
  | .realTime => 1
  | .fixedRate50 => 2
  | .fixedRate200 => 3

def FORMAT_MAGIC : Uint32 := 2479346549

structure PayloadHeader where
  timestamp : Uint64
  channel : Channel
  feedsLen : Uint8
  pos : Uint16
deriving DecidableEq

def parsePayloadHeader (update : Bytes) : Exec ε PayloadHeader := do
  let (magic, pos) ← parseWord 32 4 update 0
  require (magic = FORMAT_MAGIC) (.reason "invalid magic")
  let (timestamp, pos) ← parseWord 64 8 update pos
  let (channel, pos) ← parseByte update pos
  let channel ← toEnum Channel.members channel
  let (feedsLen, pos) ← parseByte update pos
  return { timestamp, channel, feedsLen, pos }

def parseFeedHeader (update : Bytes) (pos : Uint16) : Exec ε (Uint32 × Uint8 × Uint16) := do
  let (feedId, pos) ← parseWord 32 4 update pos
  let (numProperties, pos) ← parseByte update pos
  return (feedId, numProperties, pos)

def parseFeedProperty (update : Bytes) (pos : Uint16) :
    Exec ε (PriceFeedProperty × Uint16) := do
  let (property, pos) ← parseByte update pos
  let property ← toEnum PriceFeedProperty.members property
  return (property, pos)

def parseFeedValueUint64 (update : Bytes) (pos : Uint16) : Exec ε (Uint64 × Uint16) :=
  parseWord 64 8 update pos

def parseFeedValueUint16 (update : Bytes) (pos : Uint16) : Exec ε (Uint16 × Uint16) :=
  parseWord 16 2 update pos

/-- An `int16`, as its two's complement. -/
def parseFeedValueInt16 (update : Bytes) (pos : Uint16) : Exec ε (Uint16 × Uint16) :=
  parseWord 16 2 update pos

/-! ## PythLazer -/

structure TrustedSignerInfo where
  pubkey : Address := 0
  expiresAt : Uint256 := 0
deriving DecidableEq

structure State where
  trustedSigners : Vector TrustedSignerInfo 100
  verificationFee : Uint256

/-- The first slot of the signer decides. -/
def isValidSigner (s : State) (timestamp : Uint256) (signer : Address) : Bool :=
  match s.trustedSigners.toList.find? fun info => info.pubkey = signer with
  | some info => timestamp < info.expiresAt
  | none => false

/-- The errors of `OwnableUpgradeable`. -/
inductive OwnableError where
  | ownableUnauthorizedAccount (account : Address)
  | ownableInvalidOwner (owner : Address)
deriving DecidableEq, Repr

/-- The contract with its owner. -/
structure Contract extends State where
  owner : Address

/-- `initialize`. -/
def initializeLazer (topAuthority : Address) : Exec OwnableError Contract := do
  require (topAuthority ≠ 0) (.error (.ownableInvalidOwner 0))
  return {
    trustedSigners := Vector.replicate 100 {}
    verificationFee := 1
    owner := topAuthority }

/-- The slot of the first signer with a key. -/
def findSlot (trustedSigners : Vector TrustedSignerInfo 100) (pubkey : Address) : Option ℕ :=
  trustedSigners.toList.findIdx? fun info => info.pubkey = pubkey

/-- The slots with one cleared, modified or taken. -/
def updateSlots (trustedSigner : Address) (expiresAt : Uint256)
    (trustedSigners : Vector TrustedSignerInfo 100) : Exec ε (Vector TrustedSignerInfo 100) :=
  if expiresAt = 0 then
    match findSlot trustedSigners trustedSigner with
    | some i => return trustedSigners.setIfInBounds i { pubkey := 0, expiresAt := 0 }
    | none => .error (.reason "no such pubkey")
  else
    match findSlot trustedSigners trustedSigner with
    | some i => return trustedSigners.setIfInBounds i { pubkey := trustedSigner, expiresAt }
    | none =>
      -- Signer not found: adding a new signer.
      match findSlot trustedSigners 0 with
      | some i => return trustedSigners.setIfInBounds i { pubkey := trustedSigner, expiresAt }
      | none => .error (.reason "no space for new signer")

def updateTrustedSigner (sender trustedSigner : Address) (expiresAt : Uint256) (c : Contract) :
    Exec OwnableError Contract := do
  require (c.owner = sender) (.error (.ownableUnauthorizedAccount sender))
  let trustedSigners ← updateSlots trustedSigner expiresAt c.trustedSigners
  return { c with trustedSigners }

section

variable (keccak256 : Bytes → Bytes32)
  (tryRecover : Bytes32 → Uint8 → Bytes32 → Bytes32 → Address)
  (transfer : Address → Uint256 → Option Unit)

/-- `require(msg.value >= verification_fee)` and the refund. -/
def takeFee (s : State) (env : Env) : Exec ε Unit := do
  require (s.verificationFee ≤ env.value) (.reason "Insufficient fee provided")
  if s.verificationFee < env.value then
    let refund ← checkedSub env.value s.verificationFee
    callResult (transfer env.sender refund)

def EVM_FORMAT_MAGIC : Uint32 := 706910618

/-- The checks on the layout, and the payload. -/
def payloadOf (update : Bytes) : Exec ε Bytes := do
  require (¬ update.length < 71) (.reason "input too short")
  let magic ← calldataSlice update 0 4
  require (BitVec.ofNat 32 (natBE magic) = EVM_FORMAT_MAGIC) (.reason "invalid evm magic")
  let len ← calldataSlice update 69 71
  let payloadLen : Uint16 := BitVec.ofNat 16 (natBE len)
  -- `71 + payload_len` is a `uint16`, both times.
  let stop ← checkedAdd 71 payloadLen
  require (¬ update.length < stop.toNat) (.reason "input too short")
  let stop ← checkedAdd 71 payloadLen
  calldataSlice update 71 stop.toNat

def recoverSigner (update payload : Bytes) : Exec ε Address := do
  let recoveryId ← calldataByte update 68
  let v ← checkedAdd recoveryId 27
  let r ← calldataSlice update 4 36
  let s ← calldataSlice update 36 68
  return tryRecover (keccak256 payload) v (BitVec.ofNat 256 (natBE r)) (BitVec.ofNat 256 (natBE s))

def verifyUpdate (s : State) (env : Env) (update : Bytes) : Exec ε (Bytes × Address) := do
  takeFee transfer s env
  let payload ← payloadOf update
  let signer ← recoverSigner keccak256 tryRecover update payload
  require (signer ≠ 0) (.reason "invalid signature")
  require (isValidSigner s env.block.timestamp signer) (.reason "invalid signer")
  return (payload, signer)

end

end PythCrosschain.PythLazer
