import PythCrosschain.Lib.CallStack
import PythCrosschain.Pulse.State

/-!
# Pulse: the contract's functions

`Pulse.sol`, one definition per source function. `executeCallback` and the
withdrawals stop at their external call and leave a `Pending` continuation;
`resume` is the rest of their code.

`executeCallback` keeps the storage reference of the request across
`clearRequest`: the requester and the gas limit of the callback are read through
it afterwards.
-/

namespace PythCrosschain.Pulse

/-! ## The request table -/

/-- `hash[0] & NUM_REQUESTS_MASK`: the low bits of the most significant byte. -/
def shortHash (hash : Bytes32) : ShortKey :=
  ⟨(hash.extractLsb' 248 8 &&& NUM_REQUESTS_MASK).toNat,
    Nat.lt_of_le_of_lt Nat.and_le_right (by decide)⟩

/-- `isActive`. -/
def isActive (req : Request) : Bool := req.sequenceNumber != 0

section

variable (keccak256 : Bytes → Bytes32)

def requestKey (sequenceNumber : Uint64) : Bytes32 × ShortKey :=
  let hash := keccak256 (packed 8 sequenceNumber)
  (hash, shortHash hash)

def findRequest (sequenceNumber : Uint64) (s : State) : RequestRef :=
  let key := requestKey keccak256 sequenceNumber
  if (s.requests key.2).sequenceNumber = sequenceNumber then .slot key.2 else .overflow key.1

def findActiveRequest (sequenceNumber : Uint64) (s : State) : Result RequestRef := do
  let ref := findRequest keccak256 sequenceNumber s
  let req := s.load ref
  require (isActive req ∧ req.sequenceNumber = sequenceNumber) (.error .noSuchRequest)
  return ref

def clearRequest (sequenceNumber : Uint64) (s : State) : State :=
  let key := requestKey keccak256 sequenceNumber
  let req := s.requests key.2
  if req.sequenceNumber = sequenceNumber then s.store (.slot key.2) { req with sequenceNumber := 0 }
  else s.store (.overflow key.1) {}

/-- Move an active request out of the slot, and return the slot. -/
def allocRequest (sequenceNumber : Uint64) (s : State) : RequestRef × State :=
  let key := requestKey keccak256 sequenceNumber
  let req := s.requests key.2
  let s :=
    if isActive req then s.store (.overflow (requestKey keccak256 req.sequenceNumber).1) req
    else s
  (.slot key.2, s)

/-! ## Requests -/

/-- `getFee`. -/
def getFee (callbackGasLimit : Uint256) (s : State) : Result Uint128 := do
  let providerFeeInWei := (s.providers s.defaultProvider).feeInWei
  let gasFee ← checkedMul callbackGasLimit (providerFeeInWei.setWidth 256)
  let gasFee ← safeCast 128 gasFee
  checkedAdd s.pythFeeInWei gasFee

/-- The loop that copies the price ids into the request; the rest of the array
keeps what was there. -/
def copyPriceIds (stored : Vector Bytes32 MAX_PRICE_IDS) (priceIds : List Bytes32) :
    Vector Bytes32 MAX_PRICE_IDS :=
  Vector.ofFn fun i => if h : i < priceIds.length then priceIds[i] else stored[i]

/-- `requestPriceUpdatesWithCallback`: the accounting of the fee. -/
def collectFee (env : PulseEnv) (provider : Address) (s : State) : Result State := do
  let surplus ← checkedSub env.value (s.pythFeeInWei.setWidth 256)
  let surplus ← safeCast 128 surplus
  let providerInfo := s.providers provider
  let providerFees ← checkedAdd providerInfo.accruedFeesInWei surplus
  let accruedFeesInWei ← checkedAdd s.accruedFeesInWei s.pythFeeInWei
  return { s.setProvider provider { providerInfo with accruedFeesInWei := providerFees } with
    accruedFeesInWei }

/-- `requestPriceUpdatesWithCallback`: store the request in the slot that
`allocRequest` gives. -/
def writeRequest (env : PulseEnv) (requestSequenceNumber : Uint64) (publishTime : Uint256)
    (priceIds : List Bytes32) (callbackGasLimit : Uint256) (s : State) : Request × State :=
  let (ref, s) := allocRequest keccak256 requestSequenceNumber s
  let req : Request :=
    { sequenceNumber := requestSequenceNumber
      publishTime
      priceIds := copyPriceIds (s.load ref).priceIds priceIds
      numPriceIds := BitVec.ofNat 8 priceIds.length
      callbackGasLimit
      requester := env.sender
      provider := s.defaultProvider }
  (req, s.store ref req)

def requestPriceUpdatesWithCallback (env : PulseEnv) (publishTime : Uint256)
    (priceIds : List Bytes32) (callbackGasLimit : Uint256) (w : World) : Result World := do
  let s := w.state
  let provider := s.defaultProvider
  require ((s.providers provider).isRegistered = true) (.reason "Provider not registered")
  let latest ← checkedAdd env.block.timestamp 60
  require (publishTime ≤ latest) (.reason "Too far in future")
  require (priceIds.length ≤ MAX_PRICE_IDS)
    (.error (.tooManyPriceIds priceIds.length MAX_PRICE_IDS))
  let requestSequenceNumber := s.currentSequenceNumber
  let currentSequenceNumber ← checkedAdd s.currentSequenceNumber 1
  let requiredFee ← getFee callbackGasLimit s
  require (requiredFee.toNat ≤ env.value.toNat) (.error .insufficientFee)
  let (req, s) := writeRequest keccak256 env requestSequenceNumber publishTime priceIds
    callbackGasLimit { s with currentSequenceNumber }
  let s ← collectFee env provider s
  return { w with state := s, balance := w.balance + env.value.toNat }.emit
    (.priceUpdateRequested req priceIds)

/-! ## Callbacks -/

/-- The loop that compares the price ids with the stored ones, from index `i`
on. -/
def checkPriceIds (req : Request) : Nat → List Bytes32 → Result Unit
  | _, [] => return ()
  | i, priceId :: priceIds =>
    if h : i < MAX_PRICE_IDS then do
      require (priceId = req.priceIds[i]) (.error (.invalidPriceIds priceId req.priceIds[i]))
      checkPriceIds req (i + 1) priceIds
    else .error (.panic 0x32)

/-- What is left to do after an external call. -/
inductive Pending where
  /-- `withdrawFees` and `withdrawAsFeeManager`, after the transfer. -/
  | withdrawal (recipient : Address) (amount : Uint128)
  /-- `executeCallback`, after `pulseCallback`. -/
  | pulseCallback (req : RequestRef) (sequenceNumber : Uint64) (sender : Address)
      (priceIds : List Bytes32) (priceFeeds : List PriceFeed) (callbackError : Option String)

/-- `executeCallback`, up to `clearRequest`: the checks, and the price feeds
that the Pyth contract parses. -/
def checkExecution (env : PulseEnv) (sequenceNumber : Uint64) (updateData : List Bytes)
    (priceIds : List Bytes32) (s : State) : Result (RequestRef × List PriceFeed) := do
  let ref ← findActiveRequest keccak256 sequenceNumber s
  let req := s.load ref
  let exclusiveUntil ← checkedAdd req.publishTime s.exclusivityPeriodSeconds
  require (env.block.timestamp < exclusiveUntil → env.sender = req.provider)
    (.reason "Only assigned provider during exclusivity period")
  require (priceIds.length = req.numPriceIds.toNat) (.reason "Price IDs length mismatch")
  checkPriceIds req 0 priceIds
  let publishTime ← safeCast 64 req.publishTime
  let priceFeeds ←
    callResult (env.parsePriceFeedUpdates s.pyth updateData priceIds publishTime publishTime)
  return (ref, priceFeeds)

def executeCallback (env : PulseEnv) (sequenceNumber : Uint64) (updateData : List Bytes)
    (priceIds : List Bytes32) (w : World) : Result (Outcome World Pending) := do
  let (ref, priceFeeds) ←
    checkExecution keccak256 env sequenceNumber updateData priceIds w.state
  let s := clearRequest keccak256 sequenceNumber w.state
  let req := s.load ref
  -- A call to an account without code reverts before the call, outside of `catch`.
  require (env.extcodesize req.requester ≠ 0) .noData
  return .external
    { w with
      state := s
      balance := w.balance + env.value.toNat
      attempts := ⟨sequenceNumber, req.requester, req.callbackGasLimit⟩ :: w.attempts }
    (.pulseCallback ref sequenceNumber env.sender priceIds priceFeeds env.callbackError)

/-- The loop over `firstUnfulfilledSeq`, `fuel` rounds of it. -/
def firstUnfulfilledFrom (s : State) : Nat → Uint64 → Uint64
  | 0, seq => seq
  | fuel + 1, seq =>
    if seq < s.currentSequenceNumber ∧ isActive (s.load (findRequest keccak256 seq s)) = false then
      firstUnfulfilledFrom s fuel (seq + 1)
    else seq

/-- The loop ends after at most `currentSequenceNumber - firstUnfulfilledSeq`
rounds, with its first condition false. -/
def updateFirstUnfulfilled (s : State) : State :=
  { s with
    firstUnfulfilledSeq := firstUnfulfilledFrom keccak256 s
      (s.currentSequenceNumber.toNat - s.firstUnfulfilledSeq.toNat) s.firstUnfulfilledSeq }

/-- `emitPriceUpdate`. -/
def emitPriceUpdate (sender : Address) (sequenceNumber : Uint64) (priceIds : List Bytes32)
    (priceFeeds : List PriceFeed) (w : World) : World :=
  w.emit (.priceUpdateExecuted sequenceNumber sender priceIds
    (priceFeeds.map (·.price.price)) (priceFeeds.map (·.price.conf))
    (priceFeeds.map (·.price.expo)) (priceFeeds.map (·.price.publishTime)))

/-- The code after an external call: a withdrawal requires that the transfer
went through, while `executeCallback` goes on after a failed `pulseCallback`. -/
def resume : Pending → Bool → World → Option (Outcome World Pending)
  | .withdrawal recipient amount, true, w =>
    some (.done (w.emit (.feesWithdrawn recipient amount)))
  | .withdrawal .., false, _ => none
  | .pulseCallback _ sequenceNumber sender priceIds priceFeeds _, true, w =>
    let w := emitPriceUpdate sender sequenceNumber priceIds priceFeeds w
    some (.done { w with state := updateFirstUnfulfilled keccak256 w.state })
  | .pulseCallback ref sequenceNumber sender priceIds _ callbackError, false, w =>
    let w := w.emit (.priceUpdateCallbackFailed sequenceNumber sender priceIds
      (w.state.load ref).requester
      (callbackError.getD "low-level error (possibly out of gas)"))
    some (.done { w with state := updateFirstUnfulfilled keccak256 w.state })

/-- `getFirstActiveRequests`: the loop from `seq` on, `fuel` rounds of it. -/
def activeRequestsFrom (s : State) (count : Nat) : Nat → Uint64 → List Request → List Request
  | 0, _, found => found
  | fuel + 1, seq, found =>
    if found.length < count ∧ seq < s.currentSequenceNumber then
      let req := s.load (findRequest keccak256 seq s)
      activeRequestsFrom s count fuel (seq + 1) (if isActive req then found ++ [req] else found)
    else found

def getFirstActiveRequests (count : Nat) (s : State) : List Request :=
  activeRequestsFrom keccak256 s count
    (s.currentSequenceNumber.toNat - s.firstUnfulfilledSeq.toNat) s.firstUnfulfilledSeq []

end

/-! ## Fees and providers -/

def withdrawFees (env : PulseEnv) (amount : Uint128) (w : World) :
    Result (Outcome World Pending) := do
  require (env.sender = w.state.admin) (.reason "Only admin can withdraw fees")
  require (amount ≤ w.state.accruedFeesInWei) (.reason "Insufficient balance")
  let accruedFeesInWei ← checkedSub w.state.accruedFeesInWei amount
  -- The call fails when the contract does not hold the amount.
  require (amount.toNat ≤ w.balance) (.reason "Failed to send fees")
  return .external
    { w with
      state := { w.state with accruedFeesInWei }
      balance := w.balance - amount.toNat }
    (.withdrawal env.sender amount)

def withdrawAsFeeManager (env : PulseEnv) (provider : Address) (amount : Uint128) (w : World) :
    Result (Outcome World Pending) := do
  let providerInfo := w.state.providers provider
  require (env.sender = providerInfo.feeManager) (.reason "Only fee manager")
  require (amount ≤ providerInfo.accruedFeesInWei) (.reason "Insufficient balance")
  let accruedFeesInWei ← checkedSub providerInfo.accruedFeesInWei amount
  require (amount.toNat ≤ w.balance) (.reason "Failed to send fees")
  return .external
    { w with
      state := w.state.setProvider provider { providerInfo with accruedFeesInWei }
      balance := w.balance - amount.toNat }
    (.withdrawal env.sender amount)

def registerProvider (env : PulseEnv) (feeInWei : Uint128) (w : World) : Result World := do
  let provider := w.state.providers env.sender
  require (provider.isRegistered = false) (.reason "Provider already registered")
  let provider := { provider with feeInWei, isRegistered := true }
  return { w with state := w.state.setProvider env.sender provider }.emit
    (.providerRegistered env.sender feeInWei)

/-- A setter of `msg.sender`'s provider entry, which must be registered. -/
def updateOwnProvider (env : PulseEnv) (update : ProviderInfo → ProviderInfo)
    (event : ProviderInfo → Event) (w : World) : Result World := do
  let provider := w.state.providers env.sender
  require (provider.isRegistered = true) (.reason "Provider not registered")
  return { w with state := w.state.setProvider env.sender (update provider) }.emit
    (event provider)

def setFeeManager (env : PulseEnv) (manager : Address) (w : World) : Result World :=
  updateOwnProvider env ({ · with feeManager := manager })
    (fun old => .feeManagerUpdated env.sender old.feeManager manager) w

def setProviderFee (env : PulseEnv) (newFeeInWei : Uint128) (w : World) : Result World :=
  updateOwnProvider env ({ · with feeInWei := newFeeInWei })
    (fun old => .providerFeeUpdated env.sender old.feeInWei newFeeInWei) w

def setDefaultProvider (env : PulseEnv) (provider : Address) (w : World) : Result World := do
  require (env.sender = w.state.admin) (.reason "Only admin can set default provider")
  require ((w.state.providers provider).isRegistered = true) (.reason "Provider not registered")
  return { w with state := { w.state with defaultProvider := provider } }.emit
    (.defaultProviderUpdated w.state.defaultProvider provider)

def setExclusivityPeriod (env : PulseEnv) (periodSeconds : Uint256) (w : World) :
    Result World := do
  require (env.sender = w.state.admin) (.reason "Only admin can set exclusivity period")
  return { w with state := { w.state with exclusivityPeriodSeconds := periodSeconds } }.emit
    (.exclusivityPeriodUpdated w.state.exclusivityPeriodSeconds periodSeconds)

/-! ## Initialization -/

/-- `PulseUpgradeable.initialize` with `Pulse._initialize`. The prefill loop
runs over all of `requests`. -/
def initializePulse (owner admin : Address) (pythFeeInWei : Uint128)
    (pythAddress defaultProvider : Address) (prefillRequestStorage : Bool)
    (exclusivityPeriodSeconds : Uint256) (s : State) : Result State := do
  require (owner ≠ 0) (.reason "owner is zero address")
  require (admin ≠ 0) (.reason "admin is zero address")
  require (pythAddress ≠ 0) (.reason "pyth is zero address")
  require (defaultProvider ≠ 0) (.reason "defaultProvider is zero address")
  let s := { s with
    admin
    accruedFeesInWei := 0
    pythFeeInWei
    pyth := pythAddress
    currentSequenceNumber := 1
    defaultProvider
    exclusivityPeriodSeconds }
  if prefillRequestStorage then
    return { s with
      requests := fun i =>
        { s.requests i with
          sequenceNumber := 0
          publishTime := 1
          callbackGasLimit := 1
          requester := 1
          numPriceIds := 0
          priceIds := Vector.replicate MAX_PRICE_IDS 0 } }
  else return s

end PythCrosschain.Pulse
