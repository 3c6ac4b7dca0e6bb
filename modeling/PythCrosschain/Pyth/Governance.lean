import PythCrosschain.Pyth.GovernanceInstructions

/-!
# `PythGovernance`

The execution of governance instructions. The Wormhole contracts and the candidates for a
new implementation are parameters of each call, as they are at its block.
-/

namespace PythCrosschain.Pyth

/-- What the contract sees of a Wormhole contract. -/
structure Wormhole where
  chainId : Result Uint16
  parseAndVerifyVM : Bytes → Result (VM × Bool)

/-- The other contracts at the block of a call: the Wormhole contract at each address, and
the implementation at each address, by whether the proxy accepts it and by the magic that
it returns. -/
structure Contracts where
  wormholeAt : Address → Wormhole
  upgradeTo : Address → Result Unit
  pythUpgradableMagic : Address → Result Uint32

section

variable (keccak256 : Bytes → Bytes32) (c : Contracts)

def hashDataSource (ds : DataSource) : Bytes32 :=
  keccak256 (packed 2 ds.chainId ++ packed 32 ds.emitterAddress)

def isValidGovernanceDataSource (s : State) (governanceChainId : Uint16)
    (governanceEmitterAddress : Bytes32) : Bool :=
  s.governanceDataSource.chainId = governanceChainId ∧
    s.governanceDataSource.emitterAddress = governanceEmitterAddress

/-- `wormhole().parseAndVerifyVM(encodedVM)`. -/
def parseAndVerifyVM (s : State) (encodedVM : Bytes) : Result (VM × Bool) :=
  (c.wormholeAt s.wormhole).parseAndVerifyVM encodedVM

/-- `wormhole().chainId()`. -/
def chainId (s : State) : Result Uint16 := (c.wormholeAt s.wormhole).chainId

def verifyGovernanceVM (encodedVM : Bytes) (w : World) : Result (VM × World) := do
  let (vm, valid) ← parseAndVerifyVM c w.state encodedVM
  require (valid = true) (.error .invalidWormholeVaa)
  require (isValidGovernanceDataSource w.state vm.emitterChainId vm.emitterAddress = true)
    (.error .invalidGovernanceDataSource)
  require (vm.sequence > w.state.lastExecutedGovernanceSequence) (.error .oldGovernanceMessage)
  let w := { w with state := { w.state with lastExecutedGovernanceSequence := vm.sequence } }
  return (vm, w)

/-- `gi.targetChainId != chainId() && gi.targetChainId != 0`. -/
def requireTarget (s : State) (gi : GovernanceInstruction) : Result Unit := do
  let chainId ← chainId c s
  require (gi.targetChainId = chainId ∨ gi.targetChainId = 0) (.error .invalidGovernanceTarget)

/-- `PythUpgradable.upgradeUpgradableContract`. -/
def upgradeContract (newImplementation : Address) (w : World) : Result World := do
  let oldImplementation := w.state.implementation
  c.upgradeTo newImplementation
  let w := { w with state := { w.state with implementation := newImplementation } }
  let magic ← c.pythUpgradableMagic w.state.implementation
  require (magic = 0x97a6f304) (.error .invalidGovernanceMessage)
  return { w with
    events := w.events ++ [.contractUpgraded oldImplementation w.state.implementation] }

def AuthorizeGovernanceDataSourceTransfer (claimVaa : Bytes) (w : World) : Result World := do
  let oldGovernanceDataSource := w.state.governanceDataSource
  let (vm, valid) ← parseAndVerifyVM c w.state claimVaa
  require (valid = true) (.error .invalidWormholeVaa)
  let gi ← parseGovernanceInstruction vm.payload
  requireTarget c w.state gi
  require (gi.action = .requestGovernanceDataSourceTransfer) (.error .invalidGovernanceMessage)
  let governanceDataSourceIndex ← parseRequestGovernanceDataSourceTransferPayload gi.payload
  require (w.state.governanceDataSourceIndex < governanceDataSourceIndex)
    (.error .oldGovernanceMessage)
  let newGovernanceDS : DataSource :=
    { chainId := vm.emitterChainId, emitterAddress := vm.emitterAddress }
  let s := { w.state with
    governanceDataSourceIndex := governanceDataSourceIndex
    governanceDataSource := newGovernanceDS
    lastExecutedGovernanceSequence := vm.sequence }
  return { w with
    state := s
    events := w.events ++ [.governanceDataSourceSet oldGovernanceDataSource s.governanceDataSource
      s.lastExecutedGovernanceSequence] }

def setDataSources (dataSources : List DataSource) (w : World) : World :=
  let oldDataSources := w.state.validDataSources
  let cleared := oldDataSources.foldl
    (fun valid ds => Function.update valid (hashDataSource keccak256 ds) false)
    w.state.isValidDataSource
  let isValidDataSource := dataSources.foldl
    (fun valid ds => Function.update valid (hashDataSource keccak256 ds) true) cleared
  { w with
    state := { w.state with
      validDataSources := dataSources, isValidDataSource := isValidDataSource }
    events := w.events ++ [.dataSourcesSet oldDataSources dataSources] }

def setFee (newFee : Uint256) (w : World) : World :=
  let oldFee := w.state.singleUpdateFeeInWei
  { w with
    state := { w.state with singleUpdateFeeInWei := newFee }
    events := w.events ++ [.feeSet oldFee newFee] }

def setValidPeriod (newValidPeriod : Uint256) (w : World) : World :=
  let oldValidPeriod := w.state.validTimePeriodSeconds
  { w with
    state := { w.state with validTimePeriodSeconds := newValidPeriod }
    events := w.events ++ [.validPeriodSet oldValidPeriod newValidPeriod] }

def setWormholeAddress (newWormholeAddress : Address) (encodedVM : Bytes) (w : World) :
    Result World := do
  let oldWormholeAddress := w.state.wormhole
  let w := { w with state := { w.state with wormhole := newWormholeAddress } }
  let (vm, valid) ← parseAndVerifyVM c w.state encodedVM
  require (valid = true) (.error .invalidGovernanceMessage)
  require (isValidGovernanceDataSource w.state vm.emitterChainId vm.emitterAddress = true)
    (.error .invalidGovernanceMessage)
  require (vm.sequence = w.state.lastExecutedGovernanceSequence)
    (.error .invalidWormholeAddressToSet)
  let gi ← parseGovernanceInstruction vm.payload
  require (gi.action = .setWormholeAddress) (.error .invalidWormholeAddressToSet)
  let newPayload ← parseSetWormholeAddressPayload gi.payload
  require (newPayload = newWormholeAddress) (.error .invalidWormholeAddressToSet)
  return { w with
    events := w.events ++ [.wormholeAddressSet oldWormholeAddress w.state.wormhole] }

/-- The action of a governance instruction. -/
def executeAction (encodedVM : Bytes) (gi : GovernanceInstruction) (w : World) :
    Result World :=
  match gi.action with
  | .upgradeContract => do
    require (gi.targetChainId ≠ 0) (.error .invalidGovernanceTarget)
    let newImplementation ← parseUpgradeContractPayload gi.payload
    upgradeContract c newImplementation w
  | .authorizeGovernanceDataSourceTransfer => do
    let claimVaa ← parseAuthorizeGovernanceDataSourceTransferPayload gi.payload
    AuthorizeGovernanceDataSourceTransfer c claimVaa w
  | .setDataSources => do
    let dataSources ← parseSetDataSourcesPayload gi.payload
    return setDataSources keccak256 dataSources w
  | .setFee => do
    let newFee ← parseSetFeePayload gi.payload
    return setFee newFee w
  | .setValidPeriod => do
    let newValidPeriod ← parseSetValidPeriodPayload gi.payload
    return setValidPeriod newValidPeriod w
  | .requestGovernanceDataSourceTransfer => .error (.error .invalidGovernanceMessage)
  | .setWormholeAddress => do
    require (gi.targetChainId ≠ 0) (.error .invalidGovernanceTarget)
    let newWormholeAddress ← parseSetWormholeAddressPayload gi.payload
    setWormholeAddress c newWormholeAddress encodedVM w

def executeGovernanceInstruction (encodedVM : Bytes) (w : World) : Result World := do
  let (vm, w) ← verifyGovernanceVM c encodedVM w
  let gi ← parseGovernanceInstruction vm.payload
  requireTarget c w.state gi
  let w := { w with executed := w.executed ++ [vm.id] }
  executeAction keccak256 c encodedVM gi w

end

end PythCrosschain.Pyth
