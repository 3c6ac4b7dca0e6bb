import PythCrosschain.Lib.CallStack
import PythCrosschain.Pyth.GovernanceInstructions

/-!
# `Executor.sol`

A contract that performs the calls of governance messages. `execute` stops at the call of another
contract, which may do anything, and reverts with it. The record of the performed calls is not in
the source; a call that reverts takes its entries back.
-/

namespace PythCrosschain.Executor

open Pyth (VM GovernanceModule MAGIC)
open BytesLib

/-- `ExecutorErrors`, as far as `execute` raises them. -/
inductive ExecutorError where
  | invalidWormholeVaa
  | unauthorizedEmitter
  | messageOutOfOrder
  | executionReverted
  | deserializationError
  | invalidGovernanceTarget
  | invalidContractTarget
deriving DecidableEq, Repr

abbrev Result (α : Type) := Exec ExecutorError α

inductive ExecutorAction where
  | execute
deriving DecidableEq, Repr

structure GovernanceInstruction where
  governanceModule : GovernanceModule
  action : ExecutorAction
  targetChainId : Uint16
  executorAddress : Address
  callAddress : Address
  value : Uint256
  callData : Bytes
deriving DecidableEq, Repr

def MODULE : GovernanceModule := .evmExecutor

/-- The conversion of a number to an enumeration, given its values in order. -/
def enumOfUint8 {α : Type} (values : List α) (n : Uint8) : Result α :=
  match values[n.toNat]? with
  | none => .error (.panic 0x21)
  | some a => .ok a

/-- `BytesLib.toUint256`. -/
def toUint256 (_bytes : Bytes) (_start : ℕ) : Result Uint256 :=
  toField _bytes _start 256 32 "toUint256"

def parseGovernanceInstruction (encodedInstruction : Bytes) : Result GovernanceInstruction := do
  let mut index := 0
  let magic ← toUint32 encodedInstruction index
  require (magic = MAGIC) (.error .deserializationError)
  index := index + 4
  let modNumber ← toUint8 encodedInstruction index
  let governanceModule ← enumOfUint8 [.executor, .target, .evmExecutor, .stacksTarget] modNumber
  index := index + 1
  require (governanceModule = MODULE) (.error .invalidGovernanceTarget)
  let actionNumber ← toUint8 encodedInstruction index
  let action ← enumOfUint8 [.execute] actionNumber
  index := index + 1
  let targetChainId ← toUint16 encodedInstruction index
  index := index + 2
  let executorAddress ← toAddress encodedInstruction index
  index := index + 20
  let callAddress ← toAddress encodedInstruction index
  index := index + 20
  let value ← toUint256 encodedInstruction index
  index := index + 32
  let callData ← sliceToEnd encodedInstruction index
  return { governanceModule, action, targetChainId, executorAddress, callAddress, value, callData }

/-- What `_initialize` stores, and the address of the contract. -/
structure ExecutorConfig where
  address : Address
  chainId : Uint16
  ownerEmitterChainId : Uint16
  ownerEmitterAddress : Bytes32

/-- A call that the contract has performed, and the message that asked for it. -/
structure PerformedCall where
  encodedVm : Bytes
  vm : VM
  callAddress : Address
  value : Uint256
  callData : Bytes
deriving DecidableEq, Repr

structure State where
  lastExecutedSequence : Uint64
  performed : List PerformedCall := []
deriving DecidableEq, Repr

/-- A call of `execute`: whether Wormhole finds the message valid, and which addresses have code
at that moment. -/
structure Execute where
  encodedVm : Bytes
  valid : Bool
  hasCode : Address → Bool

section

variable (cfg : ExecutorConfig) (parseVM : Bytes → Option VM)

/-- `wormhole.parseAndVerifyVM`, which reverts on what it cannot parse. -/
def parseAndVerifyVM (call : Execute) : Result (VM × Bool) := do
  let vm ← callResult (parseVM call.encodedVm)
  return (vm, call.valid)

def verifyGovernanceVM (call : Execute) (s : State) : Result (VM × State) := do
  let (vm, valid) ← parseAndVerifyVM parseVM call
  require (valid = true) (.error .invalidWormholeVaa)
  require (vm.emitterChainId = cfg.ownerEmitterChainId ∧
    vm.emitterAddress = cfg.ownerEmitterAddress) (.error .unauthorizedEmitter)
  require (vm.sequence > s.lastExecutedSequence) (.error .messageOutOfOrder)
  return (vm, { s with lastExecutedSequence := vm.sequence })

/-- `execute` up to the call of `callAddress`, which it records. -/
def execute (call : Execute) (s : State) : Result State := do
  let (vm, s) ← verifyGovernanceVM cfg parseVM call s
  let gi ← parseGovernanceInstruction vm.payload
  require (gi.targetChainId = cfg.chainId ∨ gi.targetChainId = 0) (.error .invalidGovernanceTarget)
  require (gi.action = .execute ∧ gi.executorAddress = cfg.address) (.error .deserializationError)
  require (call.hasCode gi.callAddress = true) (.error .invalidContractTarget)
  let performed := {
    encodedVm := call.encodedVm
    vm
    callAddress := gi.callAddress
    value := gi.value
    callData := gi.callData }
  return { s with performed := s.performed ++ [performed] }

/-- The contract, with any sequence to start from. `execute` reverts if the call fails. -/
def executor : Component State Execute Unit where
  init s := s.performed = []
  start call s := (execute cfg parseVM call s).toOption.map fun s => .external s ()
  resume _ ok s := if ok then some (.done s) else none

end

end PythCrosschain.Executor
