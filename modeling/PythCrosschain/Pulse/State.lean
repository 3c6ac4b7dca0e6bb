import PythCrosschain.Evm.Solidity
import PythCrosschain.Lib.SlotTable

/-!
# Pulse: storage, errors and events

The storage of the Pulse contract (`PulseState`), its errors and its events.
Besides these, a `World` counts the callbacks that were attempted; a call that
reverts takes its attempt back.
-/

namespace PythCrosschain.Pulse

/-- The errors of `PulseErrors` that the modelled functions use. -/
inductive PulseError where
  | noSuchRequest
  | insufficientFee
  | invalidPriceIds (providedPriceId storedPriceId : Bytes32)
  | tooManyPriceIds (provided maximum : Nat)
deriving DecidableEq, Repr

abbrev Result (α : Type) := Exec PulseError α

/-- The size of the `requests` array. -/
def NUM_REQUESTS : Nat := 32

def NUM_REQUESTS_MASK : Uint8 := 0x1f

/-- The number of price ids that a request has room for. -/
def MAX_PRICE_IDS : Nat := 10

/-- `PulseState.Request`. -/
structure Request where
  sequenceNumber : Uint64 := 0
  publishTime : Uint256 := 0
  priceIds : Vector Bytes32 MAX_PRICE_IDS := Vector.replicate MAX_PRICE_IDS 0
  numPriceIds : Uint8 := 0
  callbackGasLimit : Uint256 := 0
  requester : Address := 0
  provider : Address := 0
deriving DecidableEq, Repr

/-- `PulseState.ProviderInfo`. -/
structure ProviderInfo where
  feeInWei : Uint128 := 0
  accruedFeesInWei : Uint128 := 0
  feeManager : Address := 0
  isRegistered : Bool := false
deriving DecidableEq, Repr

/-- An index of the `requests` array. -/
abbrev ShortKey := Fin NUM_REQUESTS

/-- A storage reference to a request. -/
abbrev RequestRef := SlotRef Bytes32 ShortKey

/-- `PulseState.State`. -/
structure State where
  admin : Address := 0
  pythFeeInWei : Uint128 := 0
  accruedFeesInWei : Uint128 := 0
  pyth : Address := 0
  currentSequenceNumber : Uint64 := 0
  defaultProvider : Address := 0
  exclusivityPeriodSeconds : Uint256 := 0
  requests : ShortKey → Request := fun _ => {}
  requestsOverflow : Bytes32 → Request := fun _ => {}
  providers : Address → ProviderInfo := fun _ => {}
  firstUnfulfilledSeq : Uint64 := 0

namespace State

/-- The two levels of the request table. -/
def table (s : State) : Table Request Bytes32 ShortKey := ⟨s.requests, s.requestsOverflow⟩

/-- Read through a storage reference. -/
def load (s : State) (ref : RequestRef) : Request := s.table.load ref

/-- Write through a storage reference. -/
def store (s : State) (ref : RequestRef) (req : Request) : State :=
  match ref with
  | .slot i => { s with requests := Function.update s.requests i req }
  | .overflow key => { s with requestsOverflow := Function.update s.requestsOverflow key req }

/-- Overwrite the entry of a provider. -/
def setProvider (s : State) (provider : Address) (info : ProviderInfo) : State :=
  { s with providers := Function.update s.providers provider info }

end State

/-- `PythStructs.Price`; the signed fields are two's complement words. -/
structure Price where
  price : Uint64
  conf : Uint64
  expo : Uint32
  publishTime : Uint256
deriving DecidableEq, Repr

/-- `PythStructs.PriceFeed`. -/
structure PriceFeed where
  id : Bytes32
  price : Price
  emaPrice : Price
deriving DecidableEq, Repr

/-- `PulseEvents`. -/
inductive Event where
  | priceUpdateRequested (request : Request) (priceIds : List Bytes32)
  | priceUpdateExecuted (sequenceNumber : Uint64) (provider : Address) (priceIds : List Bytes32)
      (prices conf : List Uint64) (expos : List Uint32) (publishTimes : List Uint256)
  | priceUpdateCallbackFailed (sequenceNumber : Uint64) (provider : Address)
      (priceIds : List Bytes32) (requester : Address) (reason : String)
  | feesWithdrawn (recipient : Address) (amount : Uint128)
  | feeManagerUpdated (admin oldFeeManager newFeeManager : Address)
  | providerRegistered (provider : Address) (feeInWei : Uint128)
  | providerFeeUpdated (provider : Address) (oldFee newFee : Uint128)
  | defaultProviderUpdated (oldProvider newProvider : Address)
  | exclusivityPeriodUpdated (oldPeriodSeconds newPeriodSeconds : Uint256)
deriving DecidableEq, Repr

/-- The request that an event announces. -/
def Event.request? : Event → Option Request
  | .priceUpdateRequested request _ => some request
  | _ => none

/-- A call of `pulseCallback`: for which request, on whom, and with which gas. -/
structure Attempt where
  sequenceNumber : Uint64
  requester : Address
  gas : Uint256
deriving DecidableEq, Repr

/-- What a call of the contract works on: its storage, its balance, the events
emitted so far and the callbacks attempted so far (newest first). All of it is
rolled back when a call reverts. -/
structure World where
  state : State := {}
  balance : Nat := 0
  logs : List Event := []
  attempts : List Attempt := []

namespace World

/-- The requests made so far, newest first. -/
def requests (w : World) : List Request := w.logs.filterMap Event.request?

/-- `emit`. -/
def emit (w : World) (e : Event) : World := { w with logs := e :: w.logs }

end World

/-- What a call sees of its caller, of the chain and of the Pyth contract.
`parsePriceFeedUpdates` is what `IPyth(pyth).parsePriceFeedUpdates` returns on
the given update data, price ids and time range, `none` if it reverts. Should
`pulseCallback` fail, `callbackError` is its error message, if it has one. -/
structure PulseEnv extends Env where
  parsePriceFeedUpdates :
    Address → List Bytes → List Bytes32 → Uint64 → Uint64 → Option (List PriceFeed)
  callbackError : Option String

end PythCrosschain.Pulse
