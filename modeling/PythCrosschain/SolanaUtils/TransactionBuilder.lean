import Mathlib.Data.Finset.Union
import PythCrosschain.Lib.Batches
import PythCrosschain.XcAdmin.ExecutorBatches

/-!
# Solana utils: `transaction.ts`

`TransactionBuilder` packs instructions into transactions, by `getSizeOfTransaction`. The
instructions of the web3 library are a parameter, and so is the account that `getRandomTipAccount`
draws in each call.
-/

namespace PythCrosschain.SolanaUtils

open Solana (AccountMeta Pubkey)
open XcAdmin (TransactionInstruction PACKET_DATA_SIZE)

def DEFAULT_COMPUTE_BUDGET_UNITS : ℕ := 200000

/-- `SystemProgram.transfer` and the two instructions of `ComputeBudgetProgram`, with the
programs, accounts and lengths that the library documents. -/
structure Web3 where
  systemProgram : Pubkey
  computeBudgetProgram : Pubkey
  transfer : (fromPubkey toPubkey : Pubkey) → (lamports : ℕ) → TransactionInstruction
  setComputeUnitLimit : (units : ℕ) → TransactionInstruction
  setComputeUnitPrice : (microLamports : ℕ) → TransactionInstruction
  transfer_programId : ∀ source target lamports,
    (transfer source target lamports).programId = systemProgram
  transfer_keys : ∀ source target lamports,
    (transfer source target lamports).keys = [⟨source, true, true⟩, ⟨target, false, true⟩]
  transfer_data : ∀ source target lamports, (transfer source target lamports).data.length = 12
  limit_programId : ∀ units, (setComputeUnitLimit units).programId = computeBudgetProgram
  limit_keys : ∀ units, (setComputeUnitLimit units).keys = []
  limit_data : ∀ units, (setComputeUnitLimit units).data.length = 5
  price_programId : ∀ price, (setComputeUnitPrice price).programId = computeBudgetProgram
  price_keys : ∀ price, (setComputeUnitPrice price).keys = []
  price_data : ∀ price, (setComputeUnitPrice price).data.length = 9

/-- `jito.ts`, where `tipAccount` is the account that was drawn. -/
def buildJitoTipInstruction (web3 : Web3) (tipAccount payer : Pubkey) (lamports : ℕ) :
    TransactionInstruction :=
  web3.transfer payer tipAccount lamports

/-! ## Sizes -/

def getSizeOfCompressedU16 (n : ℕ) : ℕ :=
  1 + (if n ≥ 128 then 1 else 0) + (if n ≥ 16384 then 1 else 0)

/-- The size that an instruction adds to `instruction_sizes`. -/
def instructionSize (ix : TransactionInstruction) : ℕ :=
  1 + getSizeOfCompressedU16 ix.keys.length + ix.keys.length +
    getSizeOfCompressedU16 ix.data.length + ix.data.length

def programs (instructions : List TransactionInstruction) : Finset Pubkey :=
  (instructions.map (·.programId)).toFinset

def signers (instructions : List TransactionInstruction) : Finset Pubkey :=
  (instructions.flatMap fun ix => (ix.keys.filter (·.isSigner)).map (·.pubkey)).toFinset

def accounts (instructions : List TransactionInstruction) : Finset Pubkey :=
  (instructions.flatMap fun ix => ix.programId :: ix.keys.map (·.pubkey)).toFinset

/-- The accounts whose addresses the transaction holds: with a lookup table, only those that the
table has not, the programs and the signers. -/
def storedAccounts (instructions : List TransactionInstruction)
    (addressLookupTable : Option (List Pubkey)) : Finset Pubkey :=
  match addressLookupTable with
  | none => accounts instructions
  | some addresses =>
    ((accounts instructions).filter fun account => !addresses.contains account) ∪
      programs instructions ∪ signers instructions

def getSizeOfTransaction (instructions : List TransactionInstruction) (versionedTransaction : Bool)
    (addressLookupTable : Option (List Pubkey)) : ℕ :=
  let stored := storedAccounts instructions addressLookupTable
  let numberOfAddressLookups := (accounts instructions).card - stored.card
  getSizeOfCompressedU16 (signers instructions).card +
    (signers instructions).card * 64 +
    3 +
    getSizeOfCompressedU16 stored.card +
    32 * stored.card +
    32 +
    getSizeOfCompressedU16 instructions.length +
    (instructions.map instructionSize).sum +
    (if versionedTransaction then 1 + getSizeOfCompressedU16 0 else 0) +
    (if versionedTransaction && addressLookupTable.isSome then 32 else 0) +
    (if versionedTransaction && addressLookupTable.isSome then 2 else 0) +
    numberOfAddressLookups

/-! ## `TransactionBuilder` -/

variable {Signer : Type}

structure InstructionWithEphemeralSigners (Signer : Type) where
  instruction : TransactionInstruction
  signers : List Signer
  computeUnits : Option ℕ

structure PriorityFeeConfig where
  computeUnitPriceMicroLamports : Option ℕ
  tightComputeBudget : Bool
  jitoTipLamports : Option ℕ
  jitoBundleSize : Option ℕ

/-- An entry of `transactionInstructions`. -/
structure TransactionInstructions (Signer : Type) where
  instructions : List TransactionInstruction
  signers : List Signer
  computeUnits : ℕ

structure TransactionBuilder (Signer : Type) where
  transactionInstructions : List (TransactionInstructions Signer) := []
  payer : Pubkey
  addressLookupTable : Option (List Pubkey)

/-- A transaction that is built, with the signers that have to sign it. -/
structure BuiltTransaction (Signer : Type) where
  instructions : List TransactionInstruction
  signers : List Signer

/-- The value of an optional number that is neither missing nor zero. -/
def truthy (n : Option ℕ) : Option ℕ :=
  n.filter (· != 0)

namespace TransactionBuilder

def addInstruction (web3 : Web3) (σ : TransactionBuilder Signer) (tipAccount : Pubkey)
    (args : InstructionWithEphemeralSigners Signer) : TransactionBuilder Signer :=
  let fresh := ⟨[args.instruction], args.signers, args.computeUnits.getD 0⟩
  let transactionInstructions :=
    match σ.transactionInstructions.getLast? with
    | none => σ.transactionInstructions ++ [fresh]
    | some last =>
      let sizeWithComputeUnits := getSizeOfTransaction
        (last.instructions ++ [args.instruction,
          buildJitoTipInstruction web3 tipAccount σ.payer 1, web3.setComputeUnitLimit 1])
        true σ.addressLookupTable
      if sizeWithComputeUnits ≤ PACKET_DATA_SIZE then
        σ.transactionInstructions.dropLast ++
          [⟨last.instructions ++ [args.instruction], last.signers ++ args.signers,
            last.computeUnits + args.computeUnits.getD 0⟩]
      else σ.transactionInstructions ++ [fresh]
  { σ with transactionInstructions }

/-- `addInstructions`, where each instruction comes with the account that its call draws. -/
def addInstructions (web3 : Web3) (σ : TransactionBuilder Signer)
    (instructions : List (Pubkey × InstructionWithEphemeralSigners Signer)) :
    TransactionBuilder Signer :=
  instructions.foldl (fun σ args => σ.addInstruction web3 args.1 args.2) σ

/-- The compute budget instructions of an entry. -/
def computeBudget (web3 : Web3) (args : PriorityFeeConfig)
    (entry : TransactionInstructions Signer) : List TransactionInstruction :=
  (if entry.computeUnits > DEFAULT_COMPUTE_BUDGET_UNITS * entry.instructions.length ||
      args.tightComputeBudget then [web3.setComputeUnitLimit entry.computeUnits] else []) ++
    (truthy args.computeUnitPriceMicroLamports).toList.map web3.setComputeUnitPrice

/-- The jito tip of the transaction at an index, if it is the first one of a bundle. -/
def jitoTip (web3 : Web3) (args : PriorityFeeConfig) (payer tipAccount : Pubkey)
    (numberOfTransactions index : ℕ) : List TransactionInstruction :=
  let jitoBundleSize := (truthy args.jitoBundleSize).getD numberOfTransactions
  if index % jitoBundleSize = 0 then
    (truthy args.jitoTipLamports).toList.map (buildJitoTipInstruction web3 tipAccount payer)
  else []

def instructionsWithComputeBudget (web3 : Web3) (σ : TransactionBuilder Signer)
    (args : PriorityFeeConfig) (tipAccount : Pubkey) (index : ℕ)
    (entry : TransactionInstructions Signer) : List TransactionInstruction :=
  entry.instructions ++ computeBudget web3 args entry ++
    jitoTip web3 args σ.payer tipAccount σ.transactionInstructions.length index

/-- `buildVersionedTransactions`, where `tipAccount` is the account that is drawn for each
transaction. -/
def buildVersionedTransactions (web3 : Web3) (σ : TransactionBuilder Signer)
    (args : PriorityFeeConfig) (tipAccount : ℕ → Pubkey) : List (BuiltTransaction Signer) :=
  σ.transactionInstructions.mapIdx fun index entry =>
    let instructionsToSend := takeFitting
      (fun sent => getSizeOfTransaction sent true σ.addressLookupTable ≤ PACKET_DATA_SIZE) []
      (σ.instructionsWithComputeBudget web3 args (tipAccount index) index entry)
    ⟨instructionsToSend, entry.signers⟩

def tooBig (size : ℕ) : String :=
  "An instruction is too big to be sent in a transaction (" ++ toString size ++ " > " ++
    toString PACKET_DATA_SIZE ++ " bytes)"

/-- The loop of `buildLegacyTransactions`, which throws on a first instruction that is too big. -/
def sendLegacy : (instructionsToSend instructions : List TransactionInstruction) →
    Except String (List TransactionInstruction)
  | instructionsToSend, [] => .ok instructionsToSend
  | instructionsToSend, instruction :: rest =>
    let sizeWithInstruction := getSizeOfTransaction (instructionsToSend ++ [instruction]) false none
    if sizeWithInstruction > PACKET_DATA_SIZE then
      if instructionsToSend.length = 0 then .error (tooBig sizeWithInstruction)
      else .ok instructionsToSend
    else sendLegacy (instructionsToSend ++ [instruction]) rest

/-- The transaction of the entry at an index. -/
def legacyTransaction (web3 : Web3) (σ : TransactionBuilder Signer) (args : PriorityFeeConfig)
    (tipAccount : ℕ → Pubkey) (entry : TransactionInstructions Signer × ℕ) :
    Except String (BuiltTransaction Signer) := do
  let instructionsToSend ← sendLegacy []
    (σ.instructionsWithComputeBudget web3 args (tipAccount entry.2) entry.2 entry.1)
  return ⟨instructionsToSend, entry.1.signers⟩

def buildLegacyTransactions (web3 : Web3) (σ : TransactionBuilder Signer)
    (args : PriorityFeeConfig) (tipAccount : ℕ → Pubkey) :
    Except String (List (BuiltTransaction Signer)) :=
  σ.transactionInstructions.zipIdx.mapM (σ.legacyTransaction web3 args tipAccount)

end TransactionBuilder

end PythCrosschain.SolanaUtils
