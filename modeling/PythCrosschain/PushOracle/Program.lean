import PythCrosschain.Lib.Borsh
import PythCrosschain.SolanaReceiver.Program

/-!
# Push oracle

`update_price_feed` of the push oracle program: it signs for the address of a shard and a
feed id, and posts an update to the account there by a call of the Solana receiver.
-/

namespace PythCrosschain.PushOracle

export Solana (require require_eq_ok)
export SolanaReceiver (Env)

open Solana SolanaReceiver
open PythnetSdk hiding Pubkey

/-- `PYTH_PUSH_ORACLE_ID`. -/
def ID : Pubkey :=
  ⟨[12, 74, 160, 18, 142, 149, 211, 225, 98, 42, 165, 1, 197, 133, 169, 235, 7, 179, 115, 84, 193,
    8, 234, 11, 121, 27, 69, 109, 199, 238, 163, 54], rfl⟩

inductive PushOracleError where
  | updatesNotMonotonic
  | priceFeedMessageMismatch
  | unsupportedMessageType
  | deserializeMessageFailed
deriving DecidableEq, Repr

/-- A failure of the program, or one of the receiver that it calls. -/
inductive CallError where
  | pushOracle (e : ProgramError PushOracleError)
  | receiver (e : ProgramError ReceiverError)
deriving DecidableEq, Repr

abbrev Result (α : Type) := Rust.Result CallError α

structure UpdatePriceFeed where
  payer : AccountMeta
  pythSolanaReceiver : AccountMeta
  encodedVaa : AccountMeta
  config : AccountMeta
  treasury : AccountMeta
  priceFeedAccount : AccountMeta
  systemProgram : AccountMeta
deriving DecidableEq

/-- The errors of the program itself. -/
def ofPushOracle {α : Type} : Solana.Result PushOracleError α → Result α
  | .ok a => .ok a
  | .error (.error e) => .error (.error (.pushOracle e))
  | .error .panic => .error .panic

/-- The call of the receiver. -/
def ofReceiver {α : Type} : SolanaReceiver.Result α → Result α
  | .ok a => .ok a
  | .error (.error e) => .error (.error (.receiver e))
  | .error .panic => .error .panic

section

variable (env : Env)

/-- The address of the price feed account of a shard and a feed. -/
def priceFeedAddress (shardId : BitVec 16) (feedId : FeedId) : Pubkey :=
  env.findProgramAddress [bytesLE 2 shardId.toNat, feedId.val] ID

/-- The accounts of the call of the receiver. The price feed account signs with its seeds. -/
def UpdatePriceFeed.cpiAccounts (accounts : UpdatePriceFeed) : PostUpdate where
  payer := { pubkey := accounts.payer.pubkey, isSigner := true, isWritable := true }
  encodedVaa := { pubkey := accounts.encodedVaa.pubkey, isSigner := false }
  config := { pubkey := accounts.config.pubkey, isSigner := false }
  treasury := { pubkey := accounts.treasury.pubkey, isSigner := false, isWritable := true }
  priceUpdateAccount :=
    { pubkey := accounts.priceFeedAccount.pubkey, isSigner := true, isWritable := true }
  systemProgram := { pubkey := accounts.systemProgram.pubkey, isSigner := false }
  writeAuthority := { pubkey := accounts.priceFeedAccount.pubkey, isSigner := true }

/-- The checks of the accounts `UpdatePriceFeed`. -/
def UpdatePriceFeed.tryAccounts (accounts : UpdatePriceFeed) (shardId : BitVec 16)
    (feedId : FeedId) : Solana.Result PushOracleError Unit := do
  accounts.payer.signer
  check (accounts.pythSolanaReceiver.pubkey = SolanaReceiver.ID) .invalidProgramId
  check (accounts.systemProgram.pubkey = SYSTEM_PROGRAM_ID) .invalidProgramId
  check (accounts.payer.isWritable = true) .constraintMut
  check (accounts.treasury.isWritable = true) .constraintMut
  check (accounts.priceFeedAccount.pubkey = priceFeedAddress env shardId feedId) .constraintSeeds
  check (accounts.priceFeedAccount.isWritable = true) .constraintMut

/-- `PriceUpdateV2::try_deserialize`. -/
def tryDeserialize (ledger : ReceiverLedger) (key : Pubkey) :
    Solana.Result PushOracleError PriceUpdateV2 :=
  match (ledger key).data with
  | .value (.priceUpdate update) => .ok update
  | _ => .error (.error (.anchor .accountDiscriminatorMismatch))

/-- The timestamp of the price that is stored in the price feed account. -/
def currentTimestamp (ledger : ReceiverLedger) (key : Pubkey) :
    Solana.Result PushOracleError I64 :=
  if ledger.Empty key then return 0
  else do
    let priceFeedAccount ← tryDeserialize ledger key
    return priceFeedAccount.priceMessage.publishTime

/-- The timestamp of the price in the arguments. -/
def nextTimestamp (params : PostUpdateParams) : Solana.Result PushOracleError I64 :=
  match Message.schema.fromSlice .BE params.merklePriceUpdate.message with
  | .error _ => .error (.error (.custom .deserializeMessageFailed))
  | .ok (.priceFeedMessage priceFeedMessage, _) => .ok priceFeedMessage.publishTime
  | .ok _ => .error (.error (.custom .unsupportedMessageType))

def updatePriceFeed (clock : Clock) (accounts : UpdatePriceFeed) (params : PostUpdateParams)
    (shardId : BitVec 16) (feedId : FeedId) (ledger : ReceiverLedger) : Result ReceiverLedger := do
  ofPushOracle (accounts.tryAccounts env shardId feedId)
  let key := accounts.priceFeedAccount.pubkey
  let current ← ofPushOracle (currentTimestamp ledger key)
  let next ← ofPushOracle (nextTimestamp params)
  -- Pushing a stale price succeeds without changing the on-chain state.
  if next.toInt > current.toInt then do
    let ledger ← ofReceiver (postUpdate env clock accounts.cpiAccounts params ledger)
    let priceFeedAccount ← ofPushOracle (tryDeserialize ledger key)
    ofPushOracle (require (priceFeedAccount.priceMessage.feedId = feedId) .priceFeedMessageMismatch)
    return ledger
  else return ledger

/-! ## Runs -/

/-- A call of the push oracle, or of the receiver. -/
inductive Call where
  | updatePriceFeed (clock : Clock) (accounts : UpdatePriceFeed) (params : PostUpdateParams)
      (shardId : BitVec 16) (feedId : FeedId)
  | receiver (call : SolanaReceiver.Call)

def Call.exec (call : Call) (ledger : ReceiverLedger) : Result ReceiverLedger :=
  match call with
  | .updatePriceFeed clock accounts params shardId feedId =>
    PushOracle.updatePriceFeed env clock accounts params shardId feedId ledger
  | .receiver call => ofReceiver (call.exec env ledger)

end

end PythCrosschain.PushOracle
