import PythCrosschain.Lib.Transactions
import PythCrosschain.PythnetSdk.WireV1
import PythCrosschain.SolanaReceiver.State

/-!
# Solana receiver: the program

The instructions of `lib.rs` that work on the configuration and on price updates, with what
Anchor generates for their accounts. `post_twap_update` and `reclaim_twap_rent` work on
accounts of another type.

Parsing a VAA, the accounts of the Wormhole program, hashing and the recovery of public keys
are outside of this repository, so `Env` has them.
-/

namespace PythCrosschain.SolanaReceiver

open Solana
open PythnetSdk hiding Pubkey

/-! ## Data model -/

def ID : Pubkey :=
  ⟨[12, 183, 250, 187, 82, 247, 166, 72, 187, 91, 49, 125, 154, 1, 139, 144, 87, 203, 2, 71, 116,
    250, 254, 1, 230, 196, 223, 152, 204, 56, 88, 129], rfl⟩

/-- `"config"`. -/
def CONFIG_SEED : Bytes := [99, 111, 110, 102, 105, 103]

/-- `"treasury"`. -/
def TREASURY_SEED : Bytes := [116, 114, 101, 97, 115, 117, 114, 121]

structure DataSource where
  chain : BitVec 16
  emitter : Pubkey
deriving DecidableEq

structure Config where
  governanceAuthority : Pubkey
  targetGovernanceAuthority : Option Pubkey
  wormhole : Pubkey
  validDataSources : List DataSource
  singleUpdateFeeInLamports : U64
  minimumSignatures : UInt8
deriving DecidableEq

def Config.LEN : Nat := 370

/-- What the program keeps in its accounts. -/
inductive ReceiverData where
  | config (config : Config)
  | priceUpdate (update : PriceUpdateV2)
deriving DecidableEq

abbrev ReceiverLedger := Ledger ReceiverData

/-- The account holds a price update. -/
def HoldsUpdate (ledger : ReceiverLedger) (key : Pubkey) (update : PriceUpdateV2) : Prop :=
  (ledger key).owner = ID ∧ (ledger key).data = .value (.priceUpdate update)

instance (ledger : ReceiverLedger) (key : Pubkey) (update : PriceUpdateV2) :
    Decidable (HoldsUpdate ledger key update) :=
  inferInstanceAs (Decidable (_ ∧ _))

structure GuardianSetSig where
  guardianIndex : UInt8
  rs : Bytes
  recoveryId : UInt8
deriving DecidableEq

/-- A parsed VAA, with the fields that the program reads. -/
structure Vaa where
  version : UInt8
  guardianSetIndex : BitVec 32
  signatureCount : UInt8
  signatures : List GuardianSetSig
  body : Bytes
  emitterAddress : Pubkey
  emitterChain : BitVec 16
  payload : Bytes
deriving DecidableEq

structure GuardianSet where
  index : BitVec 32
  keys : List (HashArray 20)
  expirationTime : BitVec 32
deriving DecidableEq

/-- The account of a VAA that the Wormhole program has verified. -/
structure VaaAccount where
  tryEmitterAddress : Result Pubkey
  tryEmitterChain : Result (BitVec 16)
  tryPayload : Result Bytes

/-- `wormhole_raw_vaas`, `wormhole_core_bridge_solana` and the functions of the runtime. -/
structure Env where
  findProgramAddress : List Bytes → Pubkey → Pubkey
  minimumBalance : Nat → Nat
  parseVaa : Bytes → Option Vaa
  quorum : Nat → Nat
  tryDeserializeGuardianSet : AccountData ReceiverData → Result GuardianSet
  isActive : GuardianSet → I64 → Bool
  loadVaa : AccountData ReceiverData → Result VaaAccount
  keccak : Bytes → Bytes
  secp256k1Recover : Bytes → UInt8 → Bytes → Option Bytes
  hasher : Hasher 20

structure PostUpdateParams where
  merklePriceUpdate : MerklePriceUpdate
  treasuryId : UInt8
deriving DecidableEq

structure PostUpdateAtomicParams extends PostUpdateParams where
  vaa : Bytes
deriving DecidableEq

/-- The accounts that `PostUpdate` and `PostUpdateAtomic` share. -/
structure PostAccounts where
  payer : AccountMeta
  config : AccountMeta
  treasury : AccountMeta
  priceUpdateAccount : AccountMeta
  systemProgram : AccountMeta
  writeAuthority : AccountMeta
deriving DecidableEq

structure PostUpdate extends PostAccounts where
  encodedVaa : AccountMeta
deriving DecidableEq

structure PostUpdateAtomic extends PostAccounts where
  guardianSet : AccountMeta
deriving DecidableEq

structure ReclaimRent where
  payer : AccountMeta
  priceUpdateAccount : AccountMeta
deriving DecidableEq

structure Initialize where
  payer : AccountMeta
  config : AccountMeta
  systemProgram : AccountMeta
deriving DecidableEq

/-- The accounts of `Governance` and `AcceptGovernanceAuthorityTransfer`. -/
structure Governance where
  payer : AccountMeta
  config : AccountMeta
deriving DecidableEq

section

variable (env : Env)

/-! ## Accounts -/

def configAddress : Pubkey := env.findProgramAddress [CONFIG_SEED] ID

def treasuryAddress (treasuryId : UInt8) : Pubkey :=
  env.findProgramAddress [TREASURY_SEED, [treasuryId]] ID

/-- `Account<Config>`. -/
def loadConfig (ledger : ReceiverLedger) (key : Pubkey) : Result Config := do
  check ((ledger key).owner = ID) .accountOwnedByWrongProgram
  match (ledger key).data with
  | .value (.config config) => return config
  | _ => .error (.error (.anchor .accountDiscriminatorMismatch))

/-- `Account<PriceUpdateV2>`. -/
def loadPriceUpdate (ledger : ReceiverLedger) (key : Pubkey) : Result PriceUpdateV2 := do
  check ((ledger key).owner = ID) .accountOwnedByWrongProgram
  match (ledger key).data with
  | .value (.priceUpdate update) => return update
  | _ => .error (.error (.anchor .accountDiscriminatorMismatch))

def PriceUpdateV2.zero : PriceUpdateV2 where
  writeAuthority := default
  verificationLevel := .partially 0
  priceMessage := ⟨default, 0, 0, 0, 0, 0, 0, 0⟩
  postedSlot := 0

/-- `init_if_needed`: the data of an account that is created are read as they are. -/
def initPriceUpdate (ledger : ReceiverLedger) (payer target : AccountMeta) :
    Result (ReceiverLedger × PriceUpdateV2) :=
  if (ledger target.pubkey).owner = SYSTEM_PROGRAM_ID then do
    let ledger ← ledger.initAccount payer target ID (env.minimumBalance PriceUpdateV2.LEN)
      PriceUpdateV2.LEN
    return (ledger, .zero)
  else do
    let update ← loadPriceUpdate ledger target.pubkey
    return (ledger, update)

/-- The checks of `PostUpdate` and `PostUpdateAtomic`: `source` is the account that the
Wormhole program has to own. -/
def PostAccounts.tryAccounts (accounts : PostAccounts) (source : AccountMeta)
    (wrongOwner : ReceiverError) (treasuryId : UInt8) (ledger : ReceiverLedger) :
    Result (ReceiverLedger × Config × PriceUpdateV2) := do
  accounts.payer.signer
  let config ← loadConfig ledger accounts.config.pubkey
  check (accounts.systemProgram.pubkey = SYSTEM_PROGRAM_ID) .invalidProgramId
  accounts.writeAuthority.signer
  let (ledger, update) ← initPriceUpdate env ledger accounts.payer accounts.priceUpdateAccount
  check (accounts.payer.isWritable = true) .constraintMut
  require ((ledger source.pubkey).owner = config.wormhole) wrongOwner
  check (accounts.config.pubkey = configAddress env) .constraintSeeds
  check (accounts.treasury.pubkey = treasuryAddress env treasuryId) .constraintSeeds
  check (accounts.treasury.isWritable = true) .constraintMut
  check (accounts.priceUpdateAccount.isWritable = true) .constraintMut
  require (update.writeAuthority = default ∨
    update.writeAuthority = accounts.writeAuthority.pubkey) .wrongWriteAuthority
  return (ledger, config, update)

/-! ## Posting a price update -/

structure VaaComponents where
  verificationLevel : VerificationLevel
  emitterAddress : Pubkey
  emitterChain : BitVec 16
deriving DecidableEq

def dataLen (data : AccountData ReceiverData) : Nat :=
  match data with
  | .raw bytes => bytes.length
  | .value (.config _) => Config.LEN
  | .value (.priceUpdate _) => PriceUpdateV2.LEN

def paySingleUpdateFee (config : Config) (treasury payer : AccountMeta) (ledger : ReceiverLedger) :
    Result ReceiverLedger := do
  let fee := config.singleUpdateFeeInLamports.toNat
  let amountToPay := if (ledger treasury.pubkey).lamports = 0 then max (env.minimumBalance 0) fee
    else fee
  let needed := min (env.minimumBalance (dataLen (ledger payer.pubkey).data) + amountToPay)
    (2 ^ 64 - 1)
  require (¬(ledger payer.pubkey).lamports < needed) .insufficientFunds
  ledger.transfer payer treasury.pubkey amountToPay

def verifyVaaDataSource (config : Config) (vaaComponents : VaaComponents) : Result Unit :=
  require (⟨vaaComponents.emitterChain, vaaComponents.emitterAddress⟩ ∈ config.validDataSources)
    .invalidDataSource

def verifyMerkleProof (vaaPayload : Bytes) (priceUpdate : MerklePriceUpdate) : Result Message :=
  match WormholeMessage.tryFromBytes vaaPayload with
  | .error _ => .error (.error (.custom .invalidWormholeMessage))
  | .ok wormholeMessage =>
    match wormholeMessage.payload with
    | .merkle merkleRoot =>
      if ¬MerkleTree.check env.hasher merkleRoot.root priceUpdate.proof priceUpdate.message then
        .error (.error (.custom .invalidPriceUpdate))
      else
        match Message.schema.fromSlice .BE priceUpdate.message with
        | .error _ => .error (.error (.custom .deserializeMessageFailed))
        | .ok (message, _) => .ok message

/-- `post_price_update_from_vaa`, and the write to the account when the instruction exits. -/
def postPriceUpdateFromVaa (clock : Clock) (config : Config) (accounts : PostAccounts)
    (vaaComponents : VaaComponents) (vaaPayload : Bytes) (priceUpdate : MerklePriceUpdate)
    (ledger : ReceiverLedger) : Result ReceiverLedger := do
  let ledger ← paySingleUpdateFee env config accounts.treasury accounts.payer ledger
  verifyVaaDataSource config vaaComponents
  let message ← verifyMerkleProof env vaaPayload priceUpdate
  match message with
  | .priceFeedMessage priceFeedMessage =>
    let key := accounts.priceUpdateAccount.pubkey
    return Function.update ledger key
      { ledger key with
        data := .value (.priceUpdate {
          writeAuthority := accounts.writeAuthority.pubkey
          verificationLevel := vaaComponents.verificationLevel
          priceMessage := priceFeedMessage
          postedSlot := clock.slot }) }
  | _ => .error (.error (.custom .unsupportedMessageType))

def postUpdate (clock : Clock) (accounts : PostUpdate) (params : PostUpdateParams)
    (ledger : ReceiverLedger) : Result ReceiverLedger := do
  let (ledger, config, _) ← accounts.tryAccounts env accounts.encodedVaa .wrongVaaOwner
    params.treasuryId ledger
  let encodedVaa ← env.loadVaa (ledger accounts.encodedVaa.pubkey).data
  let emitterAddress ← encodedVaa.tryEmitterAddress
  let emitterChain ← encodedVaa.tryEmitterChain
  let payload ← encodedVaa.tryPayload
  postPriceUpdateFromVaa env clock config accounts.toPostAccounts
    { verificationLevel := .full, emitterAddress, emitterChain } payload params.merklePriceUpdate
    ledger

/-! ## Posting with the signatures of the VAA -/

/-- `wormhole_core_bridge_solana`'s seed `"GuardianSet"`, and the big-endian index. -/
def guardianSetAddress (index : BitVec 32) (wormhole : Pubkey) : Pubkey :=
  env.findProgramAddress
    [[71, 117, 97, 114, 100, 105, 97, 110, 83, 101, 116], bytesBE 4 index.toNat] wormhole

def deserializeGuardianSetChecked (clock : Clock) (ledger : ReceiverLedger) (key wormhole : Pubkey) :
    Result GuardianSet := do
  let guardianSet ← env.tryDeserializeGuardianSet (ledger key).data
  require (guardianSetAddress env guardianSet.index wormhole = key) .invalidGuardianSetPda
  require (env.isActive guardianSet clock.unixTimestamp = true) .guardianSetExpired
  return guardianSet

/-- The last 20 bytes of the hash of the public key that is recovered. -/
def recoverKey (digest : Bytes) (sig : GuardianSetSig) : Option Bytes :=
  (env.secp256k1Recover digest sig.recoveryId sig.rs).map fun pubkey =>
    (env.keccak pubkey).drop 12

def verifyGuardianSignature (sig : GuardianSetSig) (guardianPubkey : HashArray 20)
    (digest : Bytes) : Result Unit := do
  let recovered ← Rust.okOr (.custom .invalidSignature) (recoverKey env digest sig)
  require (recovered = guardianPubkey.val) .invalidGuardianKeyRecovery

/-- The loop over the signatures. -/
def verifySignatures (guardianKeys : List (HashArray 20)) (digest : Bytes) :
    Option Nat → List GuardianSetSig → Result Unit
  | _, [] => .ok ()
  | lastGuardianIndex, sig :: signatures => do
    let index := sig.guardianIndex.toNat
    -- We do not allow for non-increasing guardian signature indices.
    require (∀ lastIndex ∈ lastGuardianIndex, index > lastIndex) .invalidGuardianOrder
    let guardianPubkey ← Rust.okOr (.custom .invalidGuardianIndex) guardianKeys[index]?
    verifyGuardianSignature env sig guardianPubkey digest
    verifySignatures guardianKeys digest (some index) signatures

/-- The digest that the guardians sign. -/
def Vaa.digest (vaa : Vaa) : Bytes := env.keccak (env.keccak vaa.body)

/-- The body of `post_update_atomic` up to the price update: the VAA and how far it is
verified. -/
def verifyVaa (clock : Clock) (config : Config) (guardianSetKey : Pubkey) (vaaBytes : Bytes)
    (ledger : ReceiverLedger) : Result (Vaa × VerificationLevel) := do
  let guardianSet ← deserializeGuardianSetChecked env clock ledger guardianSetKey config.wormhole
  let vaa ← Rust.okOr (.custom .deserializeVaaFailed) (env.parseVaa vaaBytes)
  require (vaa.version = 1) .invalidVaaVersion
  require (vaa.guardianSetIndex = guardianSet.index) .guardianSetMismatch
  require (vaa.signatureCount ≥ config.minimumSignatures) .insufficientGuardianSignatures
  let verificationLevel : VerificationLevel :=
    if vaa.signatureCount.toNat ≥ env.quorum guardianSet.keys.length then .full
    else .partially vaa.signatureCount
  verifySignatures env guardianSet.keys (vaa.digest env) none vaa.signatures
  return (vaa, verificationLevel)

def postUpdateAtomic (clock : Clock) (accounts : PostUpdateAtomic) (params : PostUpdateAtomicParams)
    (ledger : ReceiverLedger) : Result ReceiverLedger := do
  let (ledger, config, _) ← accounts.tryAccounts env accounts.guardianSet .wrongGuardianSetOwner
    params.treasuryId ledger
  let (vaa, verificationLevel) ← verifyVaa env clock config accounts.guardianSet.pubkey params.vaa
    ledger
  postPriceUpdateFromVaa env clock config accounts.toPostAccounts
    { verificationLevel, emitterAddress := vaa.emitterAddress, emitterChain := vaa.emitterChain }
    vaa.payload params.merklePriceUpdate ledger

/-! ## Closing an account -/

def reclaimRent (accounts : ReclaimRent) (ledger : ReceiverLedger) : Result ReceiverLedger := do
  accounts.payer.signer
  let update ← loadPriceUpdate ledger accounts.priceUpdateAccount.pubkey
  check (accounts.payer.isWritable = true) .constraintMut
  check (accounts.priceUpdateAccount.isWritable = true) .constraintMut
  require (update.writeAuthority = accounts.payer.pubkey) .wrongWriteAuthority
  check (accounts.priceUpdateAccount.pubkey ≠ accounts.payer.pubkey) .constraintClose
  return ledger.close accounts.priceUpdateAccount.pubkey accounts.payer.pubkey

/-! ## The configuration -/

def setConfig (ledger : ReceiverLedger) (key : Pubkey) (config : Config) : ReceiverLedger :=
  Function.update ledger key { ledger key with data := .value (.config config) }

/-- `initialize`. -/
def initializeConfig (accounts : Initialize) (initialConfig : Config) (ledger : ReceiverLedger) :
    Result ReceiverLedger := do
  accounts.payer.signer
  check (accounts.systemProgram.pubkey = SYSTEM_PROGRAM_ID) .invalidProgramId
  check (accounts.config.pubkey = configAddress env) .constraintSeeds
  -- The program signs for its own address.
  let ledger ← ledger.initAccount accounts.payer { accounts.config with isSigner := true } ID
    (env.minimumBalance Config.LEN) Config.LEN
  check (accounts.payer.isWritable = true) .constraintMut
  require (initialConfig.minimumSignatures > 0) .zeroMinimumSignatures
  return setConfig ledger accounts.config.pubkey initialConfig

inductive GovernanceAction where
  | requestGovernanceAuthorityTransfer (targetGovernanceAuthority : Pubkey)
  | cancelGovernanceAuthorityTransfer
  | setDataSources (validDataSources : List DataSource)
  | setFee (singleUpdateFeeInLamports : U64)
  | setWormholeAddress (wormhole : Pubkey)
  | setMinimumSignatures (minimumSignatures : UInt8)
deriving DecidableEq

def GovernanceAction.apply (config : Config) : GovernanceAction → Result Config
  | .requestGovernanceAuthorityTransfer targetGovernanceAuthority =>
    .ok { config with targetGovernanceAuthority := some targetGovernanceAuthority }
  | .cancelGovernanceAuthorityTransfer => .ok { config with targetGovernanceAuthority := none }
  | .setDataSources validDataSources => .ok { config with validDataSources }
  | .setFee singleUpdateFeeInLamports => .ok { config with singleUpdateFeeInLamports }
  | .setWormholeAddress wormhole => .ok { config with wormhole }
  | .setMinimumSignatures minimumSignatures => do
    require (minimumSignatures > 0) .zeroMinimumSignatures
    return { config with minimumSignatures }

/-- The accounts of an instruction of the governance. -/
def Governance.tryAccounts (accounts : Governance) (ledger : ReceiverLedger) : Result Config := do
  accounts.payer.signer
  let config ← loadConfig ledger accounts.config.pubkey
  check (accounts.config.pubkey = configAddress env) .constraintSeeds
  check (accounts.config.isWritable = true) .constraintMut
  return config

def governance (accounts : Governance) (action : GovernanceAction) (ledger : ReceiverLedger) :
    Result ReceiverLedger := do
  let config ← accounts.tryAccounts env ledger
  require (accounts.payer.pubkey = config.governanceAuthority) .governanceAuthorityMismatch
  let config ← action.apply config
  return setConfig ledger accounts.config.pubkey config

def acceptGovernanceAuthorityTransfer (accounts : Governance) (ledger : ReceiverLedger) :
    Result ReceiverLedger := do
  let config ← accounts.tryAccounts env ledger
  let target ← Rust.okOr (.custom .nonexistentGovernanceAuthorityTransferRequest)
    config.targetGovernanceAuthority
  require (accounts.payer.pubkey = target) .targetGovernanceAuthorityMismatch
  return setConfig ledger accounts.config.pubkey
    { config with governanceAuthority := target, targetGovernanceAuthority := none }

/-! ## Runs -/

/-- `other` is what other programs do: they leave the accounts of this program alone, but
for the lamports that they send, and the accounts that they make over to it hold zeros. -/
inductive Instruction where
  | initializeConfig (accounts : Initialize) (initialConfig : Config)
  | governance (accounts : Governance) (action : GovernanceAction)
  | acceptGovernanceAuthorityTransfer (accounts : Governance)
  | postUpdate (accounts : PostUpdate) (params : PostUpdateParams)
  | postUpdateAtomic (accounts : PostUpdateAtomic) (params : PostUpdateAtomicParams)
  | reclaimRent (accounts : ReclaimRent)
  | other (outcome : ReceiverLedger)

/-- The accounts after other programs have run. -/
def afterOthers (ledger outcome : ReceiverLedger) : ReceiverLedger := fun key =>
  if (ledger key).owner = ID then
    { ledger key with lamports := (ledger key).lamports + (outcome key).lamports }
  else if (outcome key).owner = ID then
    { outcome key with data := .raw (List.replicate (dataLen (outcome key).data) 0) }
  else outcome key

/-- An instruction, and the time at which it is executed. -/
structure Call where
  clock : Clock
  instruction : Instruction

def Call.exec (call : Call) (ledger : ReceiverLedger) : Result ReceiverLedger :=
  match call.instruction with
  | .initializeConfig accounts initialConfig => initializeConfig env accounts initialConfig ledger
  | .governance accounts action => SolanaReceiver.governance env accounts action ledger
  | .acceptGovernanceAuthorityTransfer accounts =>
    SolanaReceiver.acceptGovernanceAuthorityTransfer env accounts ledger
  | .postUpdate accounts params =>
    SolanaReceiver.postUpdate env call.clock accounts params ledger
  | .postUpdateAtomic accounts params =>
    SolanaReceiver.postUpdateAtomic env call.clock accounts params ledger
  | .reclaimRent accounts => SolanaReceiver.reclaimRent accounts ledger
  | .other outcome => .ok (afterOthers ledger outcome)

end

end PythCrosschain.SolanaReceiver
