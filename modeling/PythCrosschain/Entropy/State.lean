import PythCrosschain.Evm.Solidity
import PythCrosschain.Lib.SlotTable

/-!
# Entropy: storage, errors and events

The storage of the Entropy contract (`EntropyStructs`, `EntropyState`), its
errors and its events. Storage starts from zero, so the default value of every
field is its zero. A storage reference to a request is a `RequestRef`: a slot of
the `requests` array or an entry of the `requestsOverflow` mapping.
-/

namespace PythCrosschain.Entropy

/-- `EntropyErrors`, as far as the modelled functions use them. -/
inductive EntropyError where
  | assertionFailure
  | noSuchProvider
  | noSuchRequest
  | outOfRandomness
  | insufficientFee
  | incorrectRevelation
  | unauthorized
  | blockhashUnavailable
  | invalidRevealCall
  | lastRevealedTooOld
  | updateTooOld
deriving DecidableEq, Repr

abbrev Result (α : Type) := Exec EntropyError α

/-- `EntropyStructs.ProviderInfo`. -/
structure ProviderInfo where
  feeInWei : Uint128 := 0
  accruedFeesInWei : Uint128 := 0
  originalCommitment : Bytes32 := 0
  originalCommitmentSequenceNumber : Uint64 := 0
  commitmentMetadata : Bytes := []
  uri : Bytes := []
  endSequenceNumber : Uint64 := 0
  sequenceNumber : Uint64 := 0
  currentCommitment : Bytes32 := 0
  currentCommitmentSequenceNumber : Uint64 := 0
  feeManager : Address := 0
  maxNumHashes : Uint32 := 0
deriving DecidableEq, Repr

/-- `EntropyStructs.Request`. -/
structure Request where
  provider : Address := 0
  sequenceNumber : Uint64 := 0
  numHashes : Uint32 := 0
  commitment : Bytes32 := 0
  blockNumber : Uint64 := 0
  requester : Address := 0
  useBlockhash : Bool := false
  isRequestWithCallback : Bool := false
deriving DecidableEq, Repr

/-- The size of the `requests` array. -/
def NUM_REQUESTS : Nat := 32

def NUM_REQUESTS_MASK : Uint8 := 0x1f

/-- An index of the `requests` array. -/
abbrev ShortKey := Fin NUM_REQUESTS

/-- A storage reference to a request. -/
abbrev RequestRef := SlotRef Bytes32 ShortKey

/-- `EntropyInternalStructs.State`. -/
structure State where
  admin : Address := 0
  pythFeeInWei : Uint128 := 0
  accruedPythFeesInWei : Uint128 := 0
  defaultProvider : Address := 0
  requests : ShortKey → Request := fun _ => {}
  requestsOverflow : Bytes32 → Request := fun _ => {}
  providers : Address → ProviderInfo := fun _ => {}
  proposedAdmin : Address := 0

namespace State

/-- The two levels of the request table. -/
def table (s : State) : Table Request Bytes32 ShortKey := ⟨s.requests, s.requestsOverflow⟩

/-- Read through a storage reference. -/
def load (s : State) (ref : RequestRef) : Request := s.table.load ref

/-- Write through a storage reference. -/
def store (s : State) (ref : RequestRef) (req : Request) : State :=
  match ref with
  | .slot i => { s with requests := Function.update s.requests i req }
  | .overflow key => { s with requestsOverflow := Function.update s.requestsOverflow key req }

/-- Overwrite the entry of a provider. -/
def setProvider (s : State) (provider : Address) (info : ProviderInfo) : State :=
  { s with providers := Function.update s.providers provider info }

@[simp] theorem table_setProvider (s : State) (p : Address) (info : ProviderInfo) :
    (s.setProvider p info).table = s.table := rfl

@[simp] theorem load_setProvider (s : State) (p : Address) (info : ProviderInfo)
    (ref : RequestRef) : (s.setProvider p info).load ref = s.load ref := rfl

@[simp] theorem providers_setProvider (s : State) (p : Address) (info : ProviderInfo) :
    (s.setProvider p info).providers = Function.update s.providers p info := rfl

@[simp] theorem providers_store (s : State) (ref : RequestRef) (req : Request) :
    (s.store ref req).providers = s.providers := by
  cases ref <;> rfl

end State

/-- `EntropyEvents` and the events of `EntropyGovernance`. -/
inductive Event where
  | registered (provider : ProviderInfo)
  | requested (request : Request)
  | requestedWithCallback (provider requestor : Address) (sequenceNumber : Uint64)
      (userRandomNumber : Bytes32) (request : Request)
  | revealed (request : Request)
      (userRevelation providerRevelation blockHash randomNumber : Bytes32)
  | revealedWithCallback (request : Request)
      (userRandomNumber providerRevelation randomNumber : Bytes32)
  | providerFeeUpdated (provider : Address) (oldFee newFee : Uint128)
  | providerUriUpdated (provider : Address) (oldUri newUri : Bytes)
  | providerFeeManagerUpdated (provider oldFeeManager newFeeManager : Address)
  | providerMaxNumHashesAdvanced (provider : Address) (oldMaxNumHashes newMaxNumHashes : Uint32)
  | withdrawal (provider recipient : Address) (withdrawnAmount : Uint128)
  | pythFeeSet (oldPythFee newPythFee : Uint128)
  | defaultProviderSet (oldDefaultProvider newDefaultProvider : Address)
  | newAdminProposed (oldAdmin newAdmin : Address)
  | newAdminAccepted (oldAdmin newAdmin : Address)
deriving DecidableEq, Repr

/-- A successful reveal, as its event reports it. -/
structure Reveal where
  request : Request
  userRevelation : Bytes32
  providerRevelation : Bytes32
  randomNumber : Bytes32
deriving DecidableEq, Repr

/-- The request that an event announces. -/
def Event.request? : Event → Option Request
  | .requested request => some request
  | .requestedWithCallback _ _ _ _ request => some request
  | _ => none

/-- The reveal that an event reports. -/
def Event.reveal? : Event → Option Reveal
  | .revealed request userRevelation providerRevelation _ randomNumber =>
    some ⟨request, userRevelation, providerRevelation, randomNumber⟩
  | .revealedWithCallback request userRandomNumber providerRevelation randomNumber =>
    some ⟨request, userRandomNumber, providerRevelation, randomNumber⟩
  | _ => none

/-- The provider entry that a registration reports. -/
def Event.registered? : Event → Option ProviderInfo
  | .registered provider => some provider
  | _ => none

/-- What a call of the contract works on: its storage, its balance, the events
emitted so far (newest first), and the byte strings hashed so far. All of it is
rolled back when a call reverts. -/
structure World where
  state : State := {}
  balance : Nat := 0
  logs : List Event := []
  hashed : List Bytes := []

namespace World

/-- The requests made so far, newest first. -/
def requests (w : World) : List Request := w.logs.filterMap Event.request?

/-- The reveals made so far, newest first. -/
def reveals (w : World) : List Reveal := w.logs.filterMap Event.reveal?

/-- The registrations made so far, newest first. -/
def registrations (w : World) : List ProviderInfo := w.logs.filterMap Event.registered?

/-- `emit`. -/
def emit (w : World) (e : Event) : World := { w with logs := e :: w.logs }

end World

end PythCrosschain.Entropy
