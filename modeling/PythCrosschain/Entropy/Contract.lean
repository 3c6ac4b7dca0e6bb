import Mathlib.Data.List.Range
import PythCrosschain.Entropy.State
import PythCrosschain.Lib.CallStack

/-!
# Entropy: the contract's functions

`Entropy.sol` and `EntropyGovernance.sol`, one definition per source function.
An internal function takes the storage and returns it changed; a public one
takes the whole world. Besides each function that hashes stands the list of the
byte strings it hashes.

The functions that pay out or call back stop at the external call and leave a
`Pending` continuation; `resume` is the rest of their code.
-/

namespace PythCrosschain.Entropy

/-! ## Keys and hashes -/

/-- `hash[0] & NUM_REQUESTS_MASK`: the low bits of the most significant byte. -/
def shortHash (hash : Bytes32) : ShortKey :=
  ⟨(hash.extractLsb' 248 8 &&& NUM_REQUESTS_MASK).toNat,
    Nat.lt_of_le_of_lt Nat.and_le_right (by decide)⟩

/-- `abi.encodePacked(provider, sequenceNumber)`. -/
def requestKeyPreimage (provider : Address) (sequenceNumber : Uint64) : Bytes :=
  packed 20 provider ++ packed 8 sequenceNumber

/-- The commitment of a request: both parties' commitments, concatenated. -/
def commitmentPreimage (userCommitment providerCommitment : Bytes32) : Bytes :=
  wordBytes userCommitment ++ wordBytes providerCommitment

def combinePreimage (userRandomness providerRandomness blockHash : Bytes32) : Bytes :=
  wordBytes userRandomness ++ wordBytes providerRandomness ++ wordBytes blockHash

section

variable (keccak256 : Bytes → Bytes32)

def requestKey (provider : Address) (sequenceNumber : Uint64) : Bytes32 × ShortKey :=
  let hash := keccak256 (requestKeyPreimage provider sequenceNumber)
  (hash, shortHash hash)

/-- One step of the providers' hash chains. -/
def hashWord (x : Bytes32) : Bytes32 := keccak256 (wordBytes x)

def constructUserCommitment (userRandomness : Bytes32) : Bytes32 :=
  keccak256 (wordBytes userRandomness)

def combineRandomValues (userRandomness providerRandomness blockHash : Bytes32) : Bytes32 :=
  keccak256 (combinePreimage userRandomness providerRandomness blockHash)

/-- The `while (numHashes > 0)` loop hashes `numHashes` times. -/
def constructProviderCommitment (numHashes : Uint64) (revelation : Bytes32) : Bytes32 :=
  (hashWord keccak256)^[numHashes.toNat] revelation

/-- What `constructProviderCommitment` hashes. -/
def chainPreimages (numHashes : Nat) (revelation : Bytes32) : List Bytes :=
  (List.range numHashes).map fun i => wordBytes ((hashWord keccak256)^[i] revelation)

/-! ## The request table -/

/-- `isActive`. -/
def isActive (req : Request) : Bool := req.sequenceNumber != 0

def findRequest (provider : Address) (sequenceNumber : Uint64) (s : State) : RequestRef :=
  let key := requestKey keccak256 provider sequenceNumber
  let req := s.requests key.2
  if req.provider = provider ∧ req.sequenceNumber = sequenceNumber then .slot key.2
  else .overflow key.1

def findActiveRequest (provider : Address) (sequenceNumber : Uint64) (s : State) :
    Result RequestRef := do
  let ref := findRequest keccak256 provider sequenceNumber s
  let req := s.load ref
  require (isActive req ∧ req.provider = provider ∧ req.sequenceNumber = sequenceNumber)
    (.error .noSuchRequest)
  return ref

def clearRequest (provider : Address) (sequenceNumber : Uint64) (s : State) : State :=
  let key := requestKey keccak256 provider sequenceNumber
  let req := s.requests key.2
  if req.provider = provider ∧ req.sequenceNumber = sequenceNumber then
    s.store (.slot key.2) { req with sequenceNumber := 0 }
  else s.store (.overflow key.1) {}

/-- Move an active request out of the slot, and return the slot. -/
def allocRequest (provider : Address) (sequenceNumber : Uint64) (s : State) :
    RequestRef × State :=
  let key := requestKey keccak256 provider sequenceNumber
  let req := s.requests key.2
  let s :=
    if isActive req then
      s.store (.overflow (requestKey keccak256 req.provider req.sequenceNumber).1) req
    else s
  (.slot key.2, s)

/-- What `allocRequest` hashes. -/
def allocPreimages (provider : Address) (sequenceNumber : Uint64) (s : State) : List Bytes :=
  let req := s.requests (requestKey keccak256 provider sequenceNumber).2
  requestKeyPreimage provider sequenceNumber ::
    if isActive req then [requestKeyPreimage req.provider req.sequenceNumber] else []

/-! ## Requests -/

/-- `getFee`. -/
def getFee (provider : Address) (s : State) : Result Uint128 :=
  checkedAdd (s.providers provider).feeInWei s.pythFeeInWei

/-- `requestHelper`: assign the provider's next sequence number. -/
def assignSequenceNumber (provider : Address) (s : State) : Result (Uint64 × State) := do
  require ((s.providers provider).sequenceNumber ≠ 0) (.error .noSuchProvider)
  let assignedSequenceNumber := (s.providers provider).sequenceNumber
  require (assignedSequenceNumber < (s.providers provider).endSequenceNumber)
    (.error .outOfRandomness)
  let sequenceNumber ← checkedAdd assignedSequenceNumber 1
  return (assignedSequenceNumber,
    s.setProvider provider { s.providers provider with sequenceNumber })

/-- `requestHelper`: check that fees were paid and increment the Pyth and
provider balances. -/
def collectFee (env : Env) (provider : Address) (s : State) : Result State := do
  let requiredFee ← getFee provider s
  require (requiredFee.toNat ≤ env.value.toNat) (.error .insufficientFee)
  let accruedFeesInWei ←
    checkedAdd (s.providers provider).accruedFeesInWei (s.providers provider).feeInWei
  let value ← safeCast 128 env.value
  let pythFee ← checkedSub value (s.providers provider).feeInWei
  let accruedPythFeesInWei ← checkedAdd s.accruedPythFeesInWei pythFee
  return { s.setProvider provider { s.providers provider with accruedFeesInWei } with
    accruedPythFeesInWei }

/-- `requestHelper`: store the request in the slot that `allocRequest` gives.
Every field is overwritten, since the slot may hold anything. -/
def writeRequest (env : Env) (provider : Address) (userCommitment : Bytes32)
    (useBlockhash isRequestWithCallback : Bool) (assignedSequenceNumber : Uint64) (s : State) :
    Result (RequestRef × State) := do
  let (req, s) := allocRequest keccak256 provider assignedSequenceNumber s
  let providerInfo := s.providers provider
  let distance ←
    checkedSub assignedSequenceNumber providerInfo.currentCommitmentSequenceNumber
  let numHashes ← safeCast 32 distance
  require (¬(providerInfo.maxNumHashes ≠ 0 ∧ providerInfo.maxNumHashes < numHashes))
    (.error .lastRevealedTooOld)
  let blockNumber ← safeCast 64 env.block.number
  return (req, s.store req
    { provider
      sequenceNumber := assignedSequenceNumber
      numHashes
      commitment := keccak256 (commitmentPreimage userCommitment providerInfo.currentCommitment)
      blockNumber
      requester := env.sender
      useBlockhash
      isRequestWithCallback })

def requestHelper (env : Env) (provider : Address) (userCommitment : Bytes32)
    (useBlockhash isRequestWithCallback : Bool) (s : State) : Result (RequestRef × State) := do
  let (assignedSequenceNumber, s) ← assignSequenceNumber provider s
  let s ← collectFee env provider s
  writeRequest keccak256 env provider userCommitment useBlockhash isRequestWithCallback
    assignedSequenceNumber s

/-- What `requestHelper` hashes. -/
def requestPreimages (provider : Address) (userCommitment : Bytes32) (s : State) : List Bytes :=
  commitmentPreimage userCommitment (s.providers provider).currentCommitment ::
    allocPreimages keccak256 provider (s.providers provider).sequenceNumber s

def request (env : Env) (provider : Address) (userCommitment : Bytes32) (useBlockHash : Bool)
    (w : World) : Result (Uint64 × World) := do
  let (ref, state) ←
    requestHelper keccak256 env provider userCommitment useBlockHash false w.state
  let req := state.load ref
  let w :=
    { w with
      state
      balance := w.balance + env.value.toNat
      hashed := requestPreimages keccak256 provider userCommitment w.state ++ w.hashed }
  return (req.sequenceNumber, w.emit (.requested req))

def requestWithCallback (env : Env) (provider : Address) (userRandomNumber : Bytes32)
    (w : World) : Result (Uint64 × World) := do
  let userCommitment := constructUserCommitment keccak256 userRandomNumber
  let (ref, state) ← requestHelper keccak256 env provider userCommitment false true w.state
  let req := state.load ref
  let w :=
    { w with
      state
      balance := w.balance + env.value.toNat
      hashed := wordBytes userRandomNumber ::
        requestPreimages keccak256 provider userCommitment w.state ++ w.hashed }
  return (req.sequenceNumber,
    w.emit (.requestedWithCallback provider req.requester req.sequenceNumber userRandomNumber req))

/-! ## Reveals -/

/-- What `revealHelper` returns: the random number and the block hash. -/
structure Revelation where
  randomNumber : Bytes32
  blockHash : Bytes32

/-- `revealHelper`: the block hash that goes into the random number. -/
def revealBlockHash (env : Env) (req : Request) : Result Bytes32 :=
  if req.useBlockhash then do
    let blockHash := env.block.blockhash (req.blockNumber.setWidth 256)
    require (blockHash ≠ 0) (.error .blockhashUnavailable)
    return blockHash
  else return 0

def revealHelper (env : Env) (req : Request) (userRevelation providerRevelation : Bytes32)
    (s : State) : Result (Revelation × State) := do
  let providerCommitment :=
    constructProviderCommitment keccak256 (req.numHashes.setWidth 64) providerRevelation
  let userCommitment := constructUserCommitment keccak256 userRevelation
  require (keccak256 (commitmentPreimage userCommitment providerCommitment) = req.commitment)
    (.error .incorrectRevelation)
  let blockHash ← revealBlockHash env req
  let randomNumber := combineRandomValues keccak256 userRevelation providerRevelation blockHash
  let providerInfo := s.providers req.provider
  let s :=
    if providerInfo.currentCommitmentSequenceNumber < req.sequenceNumber then
      s.setProvider req.provider
        { providerInfo with
          currentCommitmentSequenceNumber := req.sequenceNumber
          currentCommitment := providerRevelation }
    else s
  return (⟨randomNumber, blockHash⟩, s)

/-- What a reveal hashes: the keys, the user's number, the hash chain, the
commitment and the result. -/
def revealPreimages (provider : Address) (sequenceNumber : Uint64) (req : Request)
    (userRevelation providerRevelation blockHash : Bytes32) : List Bytes :=
  [requestKeyPreimage provider sequenceNumber, wordBytes userRevelation,
    commitmentPreimage (constructUserCommitment keccak256 userRevelation)
      (constructProviderCommitment keccak256 (req.numHashes.setWidth 64) providerRevelation),
    combinePreimage userRevelation providerRevelation blockHash] ++
    chainPreimages keccak256 req.numHashes.toNat providerRevelation

def reveal (env : Env) (provider : Address) (sequenceNumber : Uint64)
    (userRevelation providerRevelation : Bytes32) (w : World) : Result (Bytes32 × World) := do
  let ref ← findActiveRequest keccak256 provider sequenceNumber w.state
  let req := w.state.load ref
  require (req.isRequestWithCallback = false) (.error .invalidRevealCall)
  require (req.requester = env.sender) (.error .unauthorized)
  let (revelation, state) ←
    revealHelper keccak256 env req userRevelation providerRevelation w.state
  let w := w.emit (.revealed (state.load ref) userRevelation providerRevelation
    revelation.blockHash revelation.randomNumber)
  return (revelation.randomNumber,
    { w with
      state := clearRequest keccak256 provider sequenceNumber state
      hashed := revealPreimages keccak256 provider sequenceNumber req userRevelation
        providerRevelation revelation.blockHash ++ w.hashed })

/-- What is left to do after an external call. -/
inductive Pending where
  /-- `withdraw` and `withdrawAsFeeManager`, after the transfer. -/
  | withdrawal (provider recipient : Address) (amount : Uint128)
  /-- `revealWithCallback`, after `_entropyCallback` on the requester. -/
  | entropyCallback (requester : Address) (sequenceNumber : Uint64) (provider : Address)
      (randomNumber : Bytes32)

def revealWithCallback (env : Env) (provider : Address) (sequenceNumber : Uint64)
    (userRandomNumber providerRevelation : Bytes32) (w : World) :
    Result (Outcome World Pending) := do
  let ref ← findActiveRequest keccak256 provider sequenceNumber w.state
  let req := w.state.load ref
  require (req.isRequestWithCallback = true) (.error .invalidRevealCall)
  let (revelation, state) ←
    revealHelper keccak256 env req userRandomNumber providerRevelation w.state
  let callAddress := (state.load ref).requester
  let w := w.emit (.revealedWithCallback (state.load ref) userRandomNumber providerRevelation
    revelation.randomNumber)
  let w :=
    { w with
      state := clearRequest keccak256 provider sequenceNumber state
      hashed := revealPreimages keccak256 provider sequenceNumber req userRandomNumber
        providerRevelation revelation.blockHash ++ w.hashed }
  if env.extcodesize callAddress ≠ 0 then
    return .external w
      (.entropyCallback callAddress sequenceNumber provider revelation.randomNumber)
  else return .done w

/-- `advanceProviderCommitment`: the next sequence number after an advance. An
advance to a number that was not requested yet skips the numbers up to it. -/
def bumpSequenceNumber (sequenceNumber advancedSequenceNumber : Uint64) : Result Uint64 :=
  if sequenceNumber ≤ advancedSequenceNumber then checkedAdd advancedSequenceNumber 1
  else return sequenceNumber

def advanceProviderCommitment (provider : Address) (advancedSequenceNumber : Uint64)
    (providerRevelation : Bytes32) (w : World) : Result World := do
  let providerInfo := w.state.providers provider
  require (providerInfo.currentCommitmentSequenceNumber < advancedSequenceNumber)
    (.error .updateTooOld)
  require (advancedSequenceNumber < providerInfo.endSequenceNumber) (.error .assertionFailure)
  let distance ←
    checkedSub advancedSequenceNumber providerInfo.currentCommitmentSequenceNumber
  let numHashes ← safeCast 32 distance
  let providerCommitment :=
    constructProviderCommitment keccak256 (numHashes.setWidth 64) providerRevelation
  require (providerCommitment = providerInfo.currentCommitment) (.error .incorrectRevelation)
  let sequenceNumber ← bumpSequenceNumber providerInfo.sequenceNumber advancedSequenceNumber
  let providerInfo :=
    { providerInfo with
      currentCommitmentSequenceNumber := advancedSequenceNumber
      currentCommitment := providerRevelation
      sequenceNumber }
  return { w with
    state := w.state.setProvider provider providerInfo
    hashed := chainPreimages keccak256 numHashes.toNat providerRevelation ++ w.hashed }

end

/-! ## Providers -/

def register (env : Env) (feeInWei : Uint128) (commitment : Bytes32)
    (commitmentMetadata : Bytes) (chainLength : Uint64) (uri : Bytes) (w : World) :
    Result World := do
  require (chainLength ≠ 0) (.error .assertionFailure)
  let provider := w.state.providers env.sender
  let endSequenceNumber ← checkedAdd provider.sequenceNumber chainLength
  let sequenceNumber ← checkedAdd provider.sequenceNumber 1
  let provider :=
    { provider with
      feeInWei
      originalCommitment := commitment
      originalCommitmentSequenceNumber := provider.sequenceNumber
      currentCommitment := commitment
      currentCommitmentSequenceNumber := provider.sequenceNumber
      commitmentMetadata
      endSequenceNumber
      uri
      sequenceNumber }
  let w := { w with state := w.state.setProvider env.sender provider }
  return w.emit (.registered provider)

/-- The common part of `withdraw` and `withdrawAsFeeManager`, up to the call. -/
def startWithdrawal (env : Env) (provider : Address) (amount : Uint128) (w : World) :
    Result (Outcome World Pending) := do
  let providerInfo := w.state.providers provider
  require (amount ≤ providerInfo.accruedFeesInWei) (.reason "Insufficient balance")
  let accruedFeesInWei ← checkedSub providerInfo.accruedFeesInWei amount
  -- The call fails when the contract does not hold the amount.
  require (amount.toNat ≤ w.balance) (.reason "withdrawal to msg.sender failed")
  return .external
    { w with
      state := w.state.setProvider provider { providerInfo with accruedFeesInWei }
      balance := w.balance - amount.toNat }
    (.withdrawal provider env.sender amount)

def withdraw (env : Env) (amount : Uint128) (w : World) : Result (Outcome World Pending) :=
  startWithdrawal env env.sender amount w

/-- The checks of the functions that a fee manager may call. -/
def requireFeeManager (env : Env) (provider : Address) (w : World) : Result Unit := do
  require ((w.state.providers provider).sequenceNumber ≠ 0) (.error .noSuchProvider)
  require ((w.state.providers provider).feeManager = env.sender) (.error .unauthorized)

def withdrawAsFeeManager (env : Env) (provider : Address) (amount : Uint128) (w : World) :
    Result (Outcome World Pending) := do
  requireFeeManager env provider w
  startWithdrawal env provider amount w

/-- A setter of `msg.sender`'s provider entry, which must be registered. -/
def updateOwnProvider (env : Env) (update : ProviderInfo → ProviderInfo)
    (event : ProviderInfo → Event) (w : World) : Result World := do
  let provider := w.state.providers env.sender
  require (provider.sequenceNumber ≠ 0) (.error .noSuchProvider)
  return { w with state := w.state.setProvider env.sender (update provider) }.emit
    (event provider)

def setProviderFee (env : Env) (newFeeInWei : Uint128) (w : World) : Result World :=
  updateOwnProvider env ({ · with feeInWei := newFeeInWei })
    (fun old => .providerFeeUpdated env.sender old.feeInWei newFeeInWei) w

def setProviderFeeAsFeeManager (env : Env) (provider : Address) (newFeeInWei : Uint128)
    (w : World) : Result World := do
  requireFeeManager env provider w
  let providerInfo := w.state.providers provider
  let w := { w with
    state := w.state.setProvider provider { providerInfo with feeInWei := newFeeInWei } }
  return w.emit (.providerFeeUpdated provider providerInfo.feeInWei newFeeInWei)

def setProviderUri (env : Env) (newUri : Bytes) (w : World) : Result World :=
  updateOwnProvider env ({ · with uri := newUri })
    (fun old => .providerUriUpdated env.sender old.uri newUri) w

def setFeeManager (env : Env) (manager : Address) (w : World) : Result World :=
  updateOwnProvider env ({ · with feeManager := manager })
    (fun old => .providerFeeManagerUpdated env.sender old.feeManager manager) w

def setMaxNumHashes (env : Env) (maxNumHashes : Uint32) (w : World) : Result World :=
  updateOwnProvider env ({ · with maxNumHashes := maxNumHashes })
    (fun old => .providerMaxNumHashesAdvanced env.sender old.maxNumHashes maxNumHashes) w

/-! ## Governance -/

/-- `_authoriseAdminAction`; `owner` is what `owner()` returns. -/
def authoriseAdminAction (env : Env) (owner : Address) (s : State) : Result Unit :=
  require (env.sender = owner ∨ env.sender = s.admin) (.error .unauthorized)

def proposeAdmin (env : Env) (owner newAdmin : Address) (w : World) : Result World := do
  require (newAdmin ≠ 0) (.reason "newAdmin is zero address")
  authoriseAdminAction env owner w.state
  return { w with state := { w.state with proposedAdmin := newAdmin } }.emit
    (.newAdminProposed w.state.admin newAdmin)

def acceptAdmin (env : Env) (w : World) : Result World := do
  require (env.sender = w.state.proposedAdmin) (.error .unauthorized)
  return { w with state := { w.state with admin := env.sender, proposedAdmin := 0 } }.emit
    (.newAdminAccepted w.state.admin env.sender)

def setPythFee (env : Env) (owner : Address) (newPythFee : Uint128) (w : World) :
    Result World := do
  authoriseAdminAction env owner w.state
  return { w with state := { w.state with pythFeeInWei := newPythFee } }.emit
    (.pythFeeSet w.state.pythFeeInWei newPythFee)

def setDefaultProvider (env : Env) (owner newDefaultProvider : Address) (w : World) :
    Result World := do
  require (newDefaultProvider ≠ 0) (.reason "newDefaultProvider is zero address")
  authoriseAdminAction env owner w.state
  return { w with state := { w.state with defaultProvider := newDefaultProvider } }.emit
    (.defaultProviderSet w.state.defaultProvider newDefaultProvider)

/-! ## Initialization -/

/-- `EntropyUpgradable.initialize` with `Entropy._initialize`. The prefill loop
runs over all of `requests`; `hex"0123"` is left-aligned in its word. -/
def initializeEntropy (owner admin : Address) (pythFeeInWei : Uint128) (defaultProvider : Address)
    (prefillRequestStorage : Bool) (s : State) : Result State := do
  require (owner ≠ 0) (.reason "owner is zero address")
  require (admin ≠ 0) (.reason "admin is zero address")
  require (defaultProvider ≠ 0) (.reason "defaultProvider is zero address")
  let s := { s with admin, accruedPythFeesInWei := 0, pythFeeInWei, defaultProvider }
  if prefillRequestStorage then
    return { s with
      requests := fun i =>
        { s.requests i with provider := 1, blockNumber := 1234, commitment := 0x0123 <<< 240 } }
  else return s

end PythCrosschain.Entropy
