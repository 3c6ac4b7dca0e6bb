import PythCrosschain.Lib.Transactions
import PythCrosschain.RemoteExecutor.Payload
import Mathlib.Logic.Function.Basic

/-!
# Remote executor: the program

`lib.rs`, `claim_record.rs` and `posted_vaa.rs`, with what Anchor generates for them. The
program reads the claim record from the data of its account when it is entered
(`tryAccounts`) and writes it back when it exits (`Frame.exit`). Between the two it invokes
the instructions of the payload, each of which may be a call of the program itself. It is
not called through another program: the runtime refuses that.

A run is a list of moves. A move that fails undoes its transaction. A claim record stands
under the emitter of its seeds. The ledger also records the VAAs that were executed and
the sequences that were written to claim records, the newest first.
-/

namespace PythCrosschain.RemoteExecutor

open Solana

def ID : Pubkey :=
  ⟨[9, 185, 102, 218, 112, 238, 176, 139, 24, 64, 198, 61, 195, 154, 195, 101, 111, 230, 109, 114,
    191, 78, 20, 184, 77, 79, 105, 63, 253, 28, 89, 64], rfl⟩

/-- `"CLAIM_RECORD"`. -/
def CLAIM_RECORD_SEED : Bytes := [67, 76, 65, 73, 77, 95, 82, 69, 67, 79, 82, 68]

/-- The first eight bytes of the data of the instruction. -/
def EXECUTE_POSTED_VAA : Bytes := [160, 108, 182, 121, 23, 204, 226, 27]

/-- The first eight bytes of the instructions that Anchor adds to a program. They work on
accounts of their own. -/
def IDL_IX_TAG : Bytes := [64, 244, 188, 120, 167, 233, 105, 10]

/-- `Chain::Solana`. -/
def SOLANA : Nat := 1

/-- `AnchorVaa`, the fields that the program reads. -/
structure AnchorVaa where
  magic : Bytes
  sequence : PythnetSdk.U64
  emitterChain : Nat
  emitterAddress : Pubkey
  payload : Bytes
deriving DecidableEq

structure ClaimRecord where
  sequence : PythnetSdk.U64
deriving DecidableEq

/-- The account of a claim record: there is none, its data are still zero, or they hold a
record. -/
inductive ClaimAccount where
  | missing
  | allocated
  | initialised (record : ClaimRecord)
deriving DecidableEq

structure Account where
  owner : Pubkey
  data : Bytes
deriving DecidableEq

abbrev Accounts := Pubkey → Option Account

structure Ledger where
  claims : Pubkey → ClaimAccount := fun _ => .missing
  accounts : Accounts
  executed : List (Pubkey × Nat) := []
  stored : List (Pubkey × Nat) := []

/-- A call of the program that has not returned: the accounts that it was called with, its
claim record, and the instructions that it has not invoked yet. -/
structure Frame where
  height : Nat
  accounts : List AccountMeta
  remainingAccounts : List AccountMeta
  emitterAddress : Pubkey
  claimRecord : ClaimRecord
  instructions : List InstructionData
deriving DecidableEq

/-- What a build of the program fixes, the functions of other crates, and the check of the
runtime on an instruction that a call invokes. -/
structure Env where
  owner : Pubkey
  chainId : Nat
  findProgramAddress : List Bytes → Pubkey
  deserializeVaa : Bytes → Option AnchorVaa
  invokable : Frame → InstructionData → Bool

section

variable (env : Env)

/-! ## Entering the program -/

/-- `Account<AnchorVaa>`. -/
def loadVaa (ledger : Ledger) (key : Pubkey) : Result AnchorVaa := do
  let account ← Rust.okOr (.anchor .accountNotInitialized) (ledger.accounts key)
  check (account.owner = env.owner) .accountOwnedByWrongProgram
  Rust.okOr (.anchor .accountDidNotDeserialize) (env.deserializeVaa account.data)

/-- `init_if_needed`: an account that is created has zero in its data, which is only read
where the call itself created it. -/
def loadClaim (ledger : Ledger) (emitter : Pubkey) : Result (Ledger × ClaimRecord) :=
  match ledger.claims emitter with
  | .missing =>
    return ({ ledger with claims := Function.update ledger.claims emitter .allocated },
      { sequence := 0 })
  | .allocated => .error (.error (.anchor .accountDiscriminatorMismatch))
  | .initialised record => return (ledger, record)

/-- The accounts `ExecutePostedVaa`: what they hold, and the remaining accounts. -/
def tryAccounts (accounts : List AccountMeta) (ledger : Ledger) :
    Result (Ledger × AnchorVaa × ClaimRecord × List AccountMeta) :=
  match accounts with
  | payer :: postedVaa :: claimRecord :: systemProgram :: remaining => do
    payer.signer
    let vaa ← loadVaa env ledger postedVaa.pubkey
    check (systemProgram.pubkey = default) .invalidProgramId
    check (claimRecord.pubkey =
      env.findProgramAddress [CLAIM_RECORD_SEED, vaa.emitterAddress.val]) .constraintSeeds
    let (ledger, record) ← loadClaim ledger vaa.emitterAddress
    check (claimRecord.isWritable = true) .constraintMut
    check (payer.isWritable = true) .constraintMut
    require (vaa.emitterChain = SOLANA) .emitterChainNotSolana
    require (vaa.sequence > record.sequence) .nonIncreasingSequence
    -- `b"vaa"`, `b"msg"` and `b"msu"`.
    require (vaa.magic = [118, 97, 97] ∨ vaa.magic = [109, 115, 103] ∨
      vaa.magic = [109, 115, 117]) .postedVaaHeaderWrongMagicNumber
    return (ledger, vaa, record, remaining)
  | _ => .error (.error (.anchor .accountNotEnoughKeys))

/-- A call of the program, up to the first instruction that it invokes. -/
def executePostedVaa (height : Nat) (accounts : List AccountMeta) (data : Bytes)
    (ledger : Ledger) : Result (Ledger × Frame) := do
  check (data.take 8 = EXECUTE_POSTED_VAA) .instructionFallbackNotFound
  let (ledger, vaa, record, remainingAccounts) ← tryAccounts env accounts ledger
  let claimRecord := { record with sequence := vaa.sequence }
  let payload ← ExecutorPayload.tryFromSlice vaa.payload
  payload.checkHeader env.chainId
  let executed := (vaa.emitterAddress, vaa.sequence.toNat) :: ledger.executed
  return ({ ledger with executed },
    { height, accounts, remainingAccounts, emitterAddress := vaa.emitterAddress, claimRecord,
      instructions := payload.instructions })

end

/-- The end of a call: Anchor writes the claim record to its account. -/
def Frame.exit (frame : Frame) (ledger : Ledger) : Ledger :=
  { ledger with
    claims := Function.update ledger.claims frame.emitterAddress (.initialised frame.claimRecord)
    stored := (frame.emitterAddress, frame.claimRecord.sequence.toNat) :: ledger.stored }

/-! ## Runs -/

/-- The ledger after the committed transactions, the ledger in the one that runs, and the
calls that have not returned, the innermost first. -/
structure State where
  committed : Ledger
  working : Ledger
  stack : List Frame

/-- The state before the first transaction. -/
def State.new (accounts : Accounts) : State where
  committed := { accounts }
  working := { accounts }
  stack := []

/-- `execute` is a call of the program by a transaction, or by another program that runs at
the height below; `other` is an instruction of another program, which fails or leaves other
accounts than claim records as it likes. In `advance` the innermost call invokes its next
instruction, or exits; `outcome` is for an instruction of another program. -/
inductive Move where
  | execute (height : Nat) (accounts : List AccountMeta) (data : Bytes)
  | other (outcome : Option Accounts)
  | advance (outcome : Option Accounts)
  | commit

/-- A move that is not possible in the state does nothing. -/
def Move.exec (env : Env) : Move → State → Result State
  | .execute height accounts data, s =>
    match s.stack with
    | [] => do
      let (working, frame) ← executePostedVaa env height accounts data s.working
      return { s with working, stack := [frame] }
    | _ :: _ => return s
  | .other outcome, s =>
    match s.stack with
    | [] => do
      let accounts ← Rust.unwrap outcome
      return { s with working := { s.working with accounts } }
    | _ :: _ => return s
  | .advance outcome, s =>
    match s.stack with
    | [] => return s
    | frame :: frames =>
      match frame.instructions with
      | [] => return { s with working := frame.exit s.working, stack := frames }
      | instruction :: instructions => do
        let caller := { frame with instructions }
        Rust.unwrap (if env.invokable caller instruction then some () else none)
        if instruction.programId = ID ∧ instruction.data.take 8 ≠ IDL_IX_TAG then do
          let (working, callee) ← executePostedVaa env (frame.height + 1) instruction.accounts
            instruction.data s.working
          return { s with working, stack := callee :: caller :: frames }
        else do
          let accounts ← Rust.unwrap outcome
          return { s with working := { s.working with accounts }, stack := caller :: frames }
  | .commit, s =>
    match s.stack with
    | [] => return { s with committed := s.working }
    | _ :: _ => return s

/-- The state after a move. -/
def next (env : Env) (m : Move) (s : State) : Except Empty State :=
  match m.exec env s with
  | .ok s' => .ok s'
  | .error _ => .ok { s with working := s.committed, stack := [] }

end PythCrosschain.RemoteExecutor
