import PythCrosschain.MovePackages.Accumulator
import PythCrosschain.MovePackages.BatchPriceAttestation

/-!
# Aptos: `state.move`, `error.move` and `data_source.move`

The resources under the account of the package, after its initialization, and the functions of
`state` that write them. A table is a function.
-/

namespace PythCrosschain.Aptos

open Move MovePackages
open Sui (Cursor)
open PythnetSdk (HashArray)

/-! ## `error` -/

namespace Error

/-- The categories of `std::error`. -/
def invalidArgument (reason : ℕ) : ℕ := 0x10000 + reason
def permissionDenied (reason : ℕ) : ℕ := 0x50000 + reason
def alreadyExists (reason : ℕ) : ℕ := 0x80000 + reason

def invalidDataSource : ℕ := invalidArgument 3
def invalidPublishTimesLength : ℕ := invalidArgument 5
def incorrectIdentifierLength : ℕ := invalidArgument 2
def insufficientFee : ℕ := invalidArgument 6
def noFreshData : ℕ := alreadyExists 7
def unauthorizedUpgrade : ℕ := permissionDenied 9
def invalidUpgradeHash : ℕ := invalidArgument 10
def invalidGovernanceModule : ℕ := invalidArgument 12
def invalidGovernanceTargetChainId : ℕ := invalidArgument 13
def invalidGovernanceDataSource : ℕ := invalidArgument 14
def invalidGovernanceSequenceNumber : ℕ := invalidArgument 15
def invalidGovernanceAction : ℕ := invalidArgument 16
def invalidBatchAttestationHeaderSize : ℕ := invalidArgument 18
def invalidGovernanceMagicValue : ℕ := invalidArgument 20
def magnitudeTooLarge : ℕ := invalidArgument 21
def governanceContractUpgradeChainIdZero : ℕ := invalidArgument 22
def invalidPriceStatus : ℕ := invalidArgument 23
def invalidAttestationMagicValue : ℕ := invalidArgument 24
def dataSourceEmitterAddressAndChainIdsDifferentLengths : ℕ := invalidArgument 25
def invalidAccumulatorPayload : ℕ := invalidArgument 26
def invalidAccumulatorMessage : ℕ := invalidArgument 27
def invalidWormholeMessage : ℕ := invalidArgument 28
def invalidProof : ℕ := invalidArgument 29

end Error

def errors : Errors where
  magnitudeTooLarge := Error.magnitudeTooLarge
  invalidPriceStatus := Error.invalidPriceStatus
  invalidAttestationMagicValue := Error.invalidAttestationMagicValue
  invalidBatchAttestationHeaderSize := Error.invalidBatchAttestationHeaderSize

def codes : AccumulatorErrors where
  invalidAccumulatorPayload := Error.invalidAccumulatorPayload
  invalidAccumulatorMessage := Error.invalidAccumulatorMessage
  invalidWormholeMessage := Error.invalidWormholeMessage
  invalidProof := Error.invalidProof

/-! ## Resources -/

structure DataSource where
  emitterChain : U64
  emitterAddress : HashArray 32
deriving DecidableEq

/-- `contract_upgrade_hash::Hash`. -/
abbrev Hash := HashArray 32

abbrev PriceIdentifier := HashArray 32

/-- The resources, each under its name: `contractUpgradeAuthorized` is the only one that may be
absent. -/
structure State where
  dataSources : List DataSource
  stalePriceThreshold : U64
  baseUpdateFee : U64
  latestPriceInfo : PriceIdentifier → Option PriceInfo
  governanceDataSource : DataSource
  lastExecutedGovernanceSequence : U64
  contractUpgradeAuthorized : Option Hash

namespace State

/-- `get_contract_upgrade_authorized_hash`, which moves the resource out. -/
def getContractUpgradeAuthorizedHash (s : State) : Result (Hash × State) := do
  let hash ← orAbort (.code Error.unauthorizedUpgrade) s.contractUpgradeAuthorized
  return (hash, { s with contractUpgradeAuthorized := none })

/-- `set_contract_upgrade_authorized_hash`, which drops a hash that is there. -/
def setContractUpgradeAuthorizedHash (s : State) (hash : Hash) : State :=
  { s with contractUpgradeAuthorized := some hash }

/-- The loop of `set_data_sources`, over the sources from the last one on. -/
def addDataSources : List DataSource → List DataSource → Result (List DataSource)
  | sources, [] => return sources
  | sources, source :: newSources =>
    if source ∈ sources then .error .resourceAlreadyExists
    else addDataSources (sources ++ [source]) newSources

def setDataSources (s : State) (newSources : List DataSource) : Result State := do
  let sources ← addDataSources [] newSources.reverse
  return { s with dataSources := sources }

def setLatestPriceInfo (s : State) (priceIdentifier : PriceIdentifier) (priceInfo : PriceInfo) :
    State :=
  { s with latestPriceInfo := Function.update s.latestPriceInfo priceIdentifier (some priceInfo) }

end State

end PythCrosschain.Aptos
