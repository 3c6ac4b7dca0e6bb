import PythCrosschain.Evm.Solidity

/-!
# Pyth: storage, errors and events

The storage of the Pyth contract (`PythStorage.State`), its setters, and the messages
it gets from the Wormhole contract. Besides these, a `World` lists the calls of
`updateLatestPriceIfNecessary`, whether or not they changed a price, and the VAAs whose
governance actions were executed; a call that reverts takes its entries back.
-/

namespace PythCrosschain.Pyth

/-- The errors of `PythErrors` that the modelled functions use. -/
inductive PythError where
  | invalidUpdateDataSource
  | invalidUpdateData
  | invalidWormholeVaa
  | invalidGovernanceMessage
  | invalidGovernanceTarget
  | invalidGovernanceDataSource
  | oldGovernanceMessage
  | invalidWormholeAddressToSet
  | insufficientFee
  | invalidArgument
  | noFreshUpdate
  | priceFeedNotFoundWithinRange
deriving DecidableEq, Repr

abbrev Result (α : Type) := Exec PythError α

/-- The fields of `IWormhole.VM` that the contract reads. -/
structure VM where
  emitterChainId : Uint16
  emitterAddress : Bytes32
  sequence : Uint64
  payload : Bytes
deriving DecidableEq, Repr

/-- `PythInternalStructs.PriceInfo`. -/
structure PriceInfo where
  publishTime : Uint64 := 0
  expo : Int32Bits := 0
  price : Int64Bits := 0
  conf : Uint64 := 0
  emaPrice : Int64Bits := 0
  emaConf : Uint64 := 0
deriving DecidableEq, Repr

/-- `PythInternalStructs.DataSource`. -/
structure DataSource where
  chainId : Uint16 := 0
  emitterAddress : Bytes32 := 0
deriving DecidableEq, Repr

/-- `PythStorage.State`, and the implementation slot of the proxy. -/
structure State where
  wormhole : Address := 0
  validDataSources : List DataSource := []
  isValidDataSource : Bytes32 → Bool := fun _ => false
  singleUpdateFeeInWei : Uint256 := 0
  validTimePeriodSeconds : Uint256 := 0
  governanceDataSource : DataSource := {}
  lastExecutedGovernanceSequence : Uint64 := 0
  governanceDataSourceIndex : Uint32 := 0
  latestPriceInfo : Bytes32 → PriceInfo := fun _ => {}
  implementation : Address := 0

inductive Event where
  | priceFeedUpdate (id : Bytes32) (publishTime : Uint64) (price : Int64Bits) (conf : Uint64)
  | contractUpgraded (oldImplementation newImplementation : Address)
  | governanceDataSourceSet (oldDataSource newDataSource : DataSource) (initialSequence : Uint64)
  | dataSourcesSet (oldDataSources newDataSources : List DataSource)
  | feeSet (oldFee newFee : Uint256)
  | validPeriodSet (oldValidPeriod newValidPeriod : Uint256)
  | wormholeAddressSet (oldWormholeAddress newWormholeAddress : Address)
deriving DecidableEq, Repr

/-- What identifies a VAA. -/
structure VaaId where
  emitterChainId : Uint16
  emitterAddress : Bytes32
  sequence : Uint64
deriving DecidableEq, Repr

def VM.id (vm : VM) : VaaId where
  emitterChainId := vm.emitterChainId
  emitterAddress := vm.emitterAddress
  sequence := vm.sequence

/-- The contract, its events, the updates that were applied to its prices, and the VAAs
whose governance actions were executed. -/
structure World where
  state : State := {}
  events : List Event := []
  applied : List (Bytes32 × PriceInfo) := []
  executed : List VaaId := []

/-- `PythSetters.updateLatestPriceIfNecessary`. -/
def updateLatestPriceIfNecessary (w : World) (priceId : Bytes32) (info : PriceInfo) : World :=
  let w := { w with applied := w.applied ++ [(priceId, info)] }
  let latestPublishTime := (w.state.latestPriceInfo priceId).publishTime
  if info.publishTime > latestPublishTime then
    { w with
      state := { w.state with
        latestPriceInfo := Function.update w.state.latestPriceInfo priceId info }
      events := w.events ++ [.priceFeedUpdate priceId info.publishTime info.price info.conf] }
  else w

/-- A list of updates, one after the other. -/
def applyUpdates (w : World) (updates : List (Bytes32 × PriceInfo)) : World :=
  updates.foldl (fun w update => updateLatestPriceIfNecessary w update.1 update.2) w

@[simp] theorem updateLatestPriceIfNecessary_applied (w : World) (priceId : Bytes32)
    (info : PriceInfo) :
    (updateLatestPriceIfNecessary w priceId info).applied = w.applied ++ [(priceId, info)] := by
  unfold updateLatestPriceIfNecessary
  dsimp only
  split <;> rfl

theorem latestPriceInfo_eq (w : World) (priceId : Bytes32) (info : PriceInfo) :
    (updateLatestPriceIfNecessary w priceId info).state.latestPriceInfo =
      if info.publishTime > (w.state.latestPriceInfo priceId).publishTime then
        Function.update w.state.latestPriceInfo priceId info
      else
        w.state.latestPriceInfo := by
  unfold updateLatestPriceIfNecessary
  dsimp only
  split <;> rfl

@[simp] theorem applyUpdates_applied (w : World) (updates : List (Bytes32 × PriceInfo)) :
    (applyUpdates w updates).applied = w.applied ++ updates := by
  induction updates generalizing w with
  | nil => simp [applyUpdates]
  | cons update updates ih =>
    have hstep : applyUpdates w (update :: updates)
        = applyUpdates (updateLatestPriceIfNecessary w update.1 update.2) updates := rfl
    rw [hstep, ih, updateLatestPriceIfNecessary_applied, List.append_assoc, List.singleton_append]

end PythCrosschain.Pyth
