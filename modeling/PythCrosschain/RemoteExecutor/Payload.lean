import PythCrosschain.Lib.Borsh
import PythCrosschain.Solana.Anchor

/-!
# Remote executor: governance payloads

`governance_payload.rs`: what the payload of a VAA asks the program to execute. The chain
id is a feature of the build, so it is a parameter.
-/

namespace PythCrosschain.RemoteExecutor

open Solana

export Solana (require require_eq_ok)

inductive ExecutorError where
  | emitterChainNotSolana
  | nonIncreasingSequence
  | governanceHeaderInvalidMagicNumber
  | governanceHeaderInvalidModule
  | governanceHeaderInvalidAction
  | governanceHeaderInvalidReceiverChain
  | postedVaaHeaderWrongMagicNumber
deriving DecidableEq, Repr

abbrev Result (α : Type) := Solana.Result ExecutorError α

def MAGIC_NUMBER : Nat := 0x4d475450

inductive Module where
  | executor
  | target
deriving DecidableEq

inductive Action where
  | executePostedVaa
deriving DecidableEq

structure GovernanceHeader where
  magicNumber : Nat
  module : Module
  action : Action
  chain : Nat
deriving DecidableEq

structure InstructionData where
  programId : Pubkey
  accounts : List AccountMeta
  data : Bytes
deriving DecidableEq

structure ExecutorPayload where
  header : GovernanceHeader
  instructions : List InstructionData
deriving DecidableEq

/-! ## Reading -/

/-- `BigEndianU16`. -/
def bigEndianU16 : Borsh.Reader Nat := natBE <$> Decoder.take .unexpectedLength 2

def GovernanceHeader.deserialize : Borsh.Reader GovernanceHeader := do
  let magicNumber ← Borsh.uint 4
  let module ← Borsh.variant [Module.executor, .target]
  let action ← Borsh.variant [Action.executePostedVaa]
  let chain ← bigEndianU16
  return { magicNumber, module, action, chain }

/-- `AccountMetaData`. -/
def accountMetaData : Borsh.Reader AccountMeta := do
  let pubkey ← Borsh.array 32
  let isSigner ← Borsh.bool
  let isWritable ← Borsh.bool
  return { pubkey, isSigner, isWritable }

def InstructionData.deserialize : Borsh.Reader InstructionData := do
  let programId ← Borsh.array 32
  let accounts ← Borsh.vec accountMetaData
  let data ← Borsh.byteVec
  return { programId, accounts, data }

def ExecutorPayload.deserialize : Borsh.Reader ExecutorPayload := do
  let header ← GovernanceHeader.deserialize
  let instructions ← Borsh.vec InstructionData.deserialize
  return { header, instructions }

/-- `try_from_slice`, with `?`. -/
def ExecutorPayload.tryFromSlice (bytes : Bytes) : Result ExecutorPayload :=
  match Borsh.tryFromSlice ExecutorPayload.deserialize bytes with
  | .ok payload => .ok payload
  | .error _ => .error (.error .borshIo)

def ExecutorPayload.checkHeader (chainId : Nat) (self : ExecutorPayload) : Result Unit := do
  require (self.header.magicNumber = MAGIC_NUMBER) .governanceHeaderInvalidMagicNumber
  require (self.header.module = .executor) .governanceHeaderInvalidModule
  require (self.header.action = .executePostedVaa) .governanceHeaderInvalidAction
  require (self.header.chain = chainId) .governanceHeaderInvalidReceiverChain

end PythCrosschain.RemoteExecutor
