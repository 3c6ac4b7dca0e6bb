import Mathlib.Data.Finset.Basic
import Mathlib.Logic.Function.Basic
import PythCrosschain.PythnetSdk.VerifiedUpdate

/-!
# The CosmWasm contract: price updates

`contract.rs` and `state.rs`: `apply_updates` and what it calls. The Wormhole contract that
the querier reaches is a parameter, and so is `BatchPriceAttestation::deserialize`, which
accumulator updates do not use. A function that writes returns the new storage.
-/

namespace PythCrosschain.CosmWasm

open PythnetSdk

/-! ## Errors -/

/-- The errors of `PythContractError` that updates return. -/
inductive PythContractError where
  | invalidUpdateEmitter
  | invalidUpdatePayload
  | invalidAccumulatorPayload
  | invalidAccumulatorMessageType
  | invalidAccumulatorMessage
  | invalidWormholeMessage
  | invalidMerkleProof
deriving DecidableEq, Repr

/-- The text of the `#[error]` attribute. -/
def PythContractError.text : PythContractError → String
  | .invalidUpdateEmitter => "InvalidUpdateMessageEmitter"
  | .invalidUpdatePayload => "InvalidUpdatePayload"
  | .invalidAccumulatorPayload => "InvalidAccumulatorPayload"
  | .invalidAccumulatorMessageType => "InvalidAccumulatorMessageType"
  | .invalidAccumulatorMessage => "InvalidAccumulatorMessage"
  | .invalidWormholeMessage => "InvalidWormholeMessage"
  | .invalidMerkleProof => "InvalidMerkleProof"

inductive StdError where
  | genericErr (msg : String)
  | notFound
deriving DecidableEq, Repr

abbrev StdResult (α : Type) := Except StdError α

/-- `Err(e)?`, which converts the error. -/
def fail {α : Type} (e : PythContractError) : StdResult α := .error (.genericErr e.text)

/-- `map_err(|_| e)?`. -/
def mapErr {ε α : Type} (e : PythContractError) : Except ε α → StdResult α
  | .ok a => .ok a
  | .error _ => fail e

/-! ## State -/

abbrev PriceIdentifier := HashArray 32

structure Price where
  price : I64
  conf : U64
  expo : I32
  publishTime : I64
deriving DecidableEq

structure PriceFeed where
  id : PriceIdentifier
  price : Price
  emaPrice : Price
deriving DecidableEq

def PriceFeed.getPriceUnchecked (feed : PriceFeed) : Price := feed.price

/-- The emitter is a `Binary` of any length. -/
structure PythDataSource where
  emitter : Bytes
  chainId : BitVec 16
deriving DecidableEq, Repr

/-- The fields of `ConfigInfo` that updates read. -/
structure ConfigInfo where
  wormholeContract : String
  dataSources : Finset PythDataSource

/-- The singleton under `CONFIG_KEY`, which `instantiate` writes, and the bucket under
`PRICE_FEED_KEY`. -/
structure Storage where
  config : Option ConfigInfo := none
  priceFeedBucket : PriceIdentifier → Option PriceFeed := fun _ => none

/-- `config_read(storage).load()`. -/
def Storage.loadConfig (storage : Storage) : StdResult ConfigInfo :=
  match storage.config with
  | some config => .ok config
  | none => .error .notFound

/-- The fields of the `ParsedVAA` of the Wormhole contract that updates read. -/
structure ParsedVAA where
  emitterChain : BitVec 16
  emitterAddress : Bytes
  payload : Bytes
deriving DecidableEq, Repr

/-- What the contract is called with. `verifyVAA` is the answer of the contract at an address
to the query `VerifyVAA` with a VAA and a block time. -/
structure Env where
  blockTime : Nat
  verifyVAA : String → Bytes → Nat → StdResult ParsedVAA

/-! ## Updates -/

inductive PriceStatus where
  | unknown
  | trading
  | halted
  | auction
deriving DecidableEq, Repr

/-- The fields of `PriceAttestation` that a price feed takes. -/
structure PriceAttestation where
  priceId : PriceIdentifier
  price : I64
  conf : U64
  expo : I32
  emaPrice : I64
  emaConf : U64
  status : PriceStatus
  publishTime : I64
  prevPublishTime : I64
  prevPrice : I64
  prevConf : U64
deriving DecidableEq

section

variable (H : Hasher 20) (deserializeBatch : Bytes → Option (List PriceAttestation)) (env : Env)

def parseAndVerifyVaa (storage : Storage) (data : Bytes) : StdResult ParsedVAA := do
  let cfg ← storage.loadConfig
  env.verifyVAA cfg.wormholeContract data env.blockTime

def verifyVaaFromDataSource (state : ConfigInfo) (vaa : ParsedVAA) : StdResult Unit :=
  if (⟨vaa.emitterAddress, vaa.emitterChain⟩ : PythDataSource) ∈ state.dataSources then .ok ()
  else fail .invalidUpdateEmitter

/-- The price feed of a message. -/
def priceFeedOf (msg : PriceFeedMessage) : PriceFeed where
  id := msg.feedId
  price := ⟨msg.price, msg.conf, msg.exponent, msg.publishTime⟩
  emaPrice := ⟨msg.emaPrice, msg.emaConf, msg.exponent, msg.publishTime⟩

/-- One round of the loop of `parse_accumulator`. -/
def parseMerklePriceUpdate (root : HashArray 20) (update : MerklePriceUpdate) :
    StdResult PriceFeed :=
  if MerkleTree.check H root update.proof update.message then do
    let msg ← mapErr .invalidAccumulatorMessage (Message.schema.fromSlice .BE update.message)
    match msg.1 with
    | .priceFeedMessage priceFeedMessage => return priceFeedOf priceFeedMessage
    | _ => fail .invalidAccumulatorMessageType
  else fail .invalidMerkleProof

/-- The loop of `parse_accumulator`. -/
def parseUpdates (root : HashArray 20) : List MerklePriceUpdate → StdResult (List PriceFeed)
  | [] => return []
  | update :: updates => do
    let feed ← parseMerklePriceUpdate H root update
    let feeds ← parseUpdates root updates
    return feed :: feeds

def parseAccumulator (storage : Storage) (data : Bytes) : StdResult (List PriceFeed) := do
  let updateData ← mapErr .invalidAccumulatorPayload (AccumulatorUpdateData.tryFromSlice data)
  match updateData.proof with
  | .wormholeMerkle vaa updates => do
    let parsedVaa ← parseAndVerifyVaa env storage vaa
    let state ← storage.loadConfig
    verifyVaaFromDataSource state parsedVaa
    let msg ← mapErr .invalidWormholeMessage (WormholeMessage.tryFromBytes parsedVaa.payload)
    match msg.payload with
    | .merkle merkleRoot => parseUpdates H merkleRoot.root updates

def createPriceFeedFromPriceAttestation (priceAttestation : PriceAttestation) : PriceFeed :=
  match priceAttestation.status with
  | .trading =>
    { id := priceAttestation.priceId
      price := ⟨priceAttestation.price, priceAttestation.conf, priceAttestation.expo,
        priceAttestation.publishTime⟩
      emaPrice := ⟨priceAttestation.emaPrice, priceAttestation.emaConf, priceAttestation.expo,
        priceAttestation.publishTime⟩ }
  | _ =>
    { id := priceAttestation.priceId
      price := ⟨priceAttestation.prevPrice, priceAttestation.prevConf, priceAttestation.expo,
        priceAttestation.prevPublishTime⟩
      emaPrice := ⟨priceAttestation.emaPrice, priceAttestation.emaConf, priceAttestation.expo,
        priceAttestation.prevPublishTime⟩ }

def parseBatchAttestation (storage : Storage) (data : Bytes) : StdResult (List PriceFeed) := do
  let vaa ← parseAndVerifyVaa env storage data
  let state ← storage.loadConfig
  verifyVaaFromDataSource state vaa
  match deserializeBatch vaa.payload with
  | none => fail .invalidUpdatePayload
  | some priceAttestations => return priceAttestations.map createPriceFeedFromPriceAttestation

def parseUpdate (storage : Storage) (data : Bytes) : StdResult (List PriceFeed) :=
  if data.take 4 = PYTHNET_ACCUMULATOR_UPDATE_MAGIC.val then parseAccumulator H env storage data
  else parseBatchAttestation deserializeBatch env storage data

/-- The storage, and whether the price feed is newer than the stored one. -/
def updatePriceFeedIfNew (storage : Storage) (newPriceFeed : PriceFeed) : Storage × Bool :=
  let save (feed : PriceFeed) : Storage :=
    { storage with
      priceFeedBucket := Function.update storage.priceFeedBucket newPriceFeed.id (some feed) }
  match storage.priceFeedBucket newPriceFeed.id with
  | some priceFeed =>
    if priceFeed.getPriceUnchecked.publishTime.slt newPriceFeed.getPriceUnchecked.publishTime then
      (save newPriceFeed, true)
    else (save priceFeed, false)
  | none => (save newPriceFeed, true)

/-- The inner loop of `apply_updates`, which collects the new price feeds. -/
def applyFeeds : Storage → List PriceFeed → Storage × List PriceFeed
  | storage, [] => (storage, [])
  | storage, feed :: feeds =>
    let (storage, isNew) := updatePriceFeedIfNew storage feed
    let (storage, newFeeds) := applyFeeds storage feeds
    (storage, if isNew then feed :: newFeeds else newFeeds)

/-- The storage, the number of all price feeds and the new ones. -/
def applyUpdates : Storage → List Bytes → StdResult (Storage × Nat × List PriceFeed)
  | storage, [] => return (storage, 0, [])
  | storage, datum :: data => do
    let feeds ← parseUpdate H deserializeBatch env storage datum
    let (storage, newFeeds) := applyFeeds storage feeds
    let (storage, numAttestations, moreNewFeeds) ← applyUpdates storage data
    return (storage, feeds.length + numAttestations, newFeeds ++ moreNewFeeds)

end

/-! ## What an accumulator update gives -/

section

variable {H : Hasher 20} {env : Env} {storage : Storage}

theorem mapErr_eq_ok {ε α : Type} {e : PythContractError} {x : Except ε α} {a : α} :
    mapErr e x = .ok a ↔ x = .ok a := by
  cases x with
  | error e' => exact ⟨nofun, nofun⟩
  | ok b => simp only [mapErr, Except.ok.injEq]

theorem parseMerklePriceUpdate_eq_ok {root : HashArray 20} {update : MerklePriceUpdate}
    {feed : PriceFeed} :
    parseMerklePriceUpdate H root update = .ok feed ↔
      ∃ msg, update.Proves H root msg ∧ feed = priceFeedOf msg := by
  unfold parseMerklePriceUpdate
  split
  · next hproof =>
    rw [except_bind_eq_ok]
    constructor
    · rintro ⟨⟨msg, rest⟩, hmsg, hfeed⟩
      cases msg with
      | priceFeedMessage msg =>
        cases hfeed
        exact ⟨msg, ⟨hproof, rest, mapErr_eq_ok.mp hmsg⟩, rfl⟩
      | twapMessage msg => cases hfeed
      | publisherStakeCapsMessage msg => cases hfeed
    · rintro ⟨msg, ⟨-, rest, hmsg⟩, rfl⟩
      exact ⟨_, mapErr_eq_ok.mpr hmsg, rfl⟩
  · next hproof =>
    refine iff_of_false nofun ?_
    rintro ⟨msg, ⟨hcheck, -⟩, -⟩
    exact hproof hcheck

theorem parseUpdates_eq_ok {root : HashArray 20} {updates : List MerklePriceUpdate}
    {feeds : List PriceFeed} :
    parseUpdates H root updates = .ok feeds ↔
      ∃ msgs, List.Forall₂ (MerklePriceUpdate.Proves H root) updates msgs ∧
        feeds = msgs.map priceFeedOf := by
  induction updates generalizing feeds with
  | nil =>
    constructor
    · rintro ⟨⟩
      exact ⟨[], .nil, rfl⟩
    · rintro ⟨_, ⟨⟩, rfl⟩
      rfl
  | cons update updates ih =>
    simp only [parseUpdates, except_bind_eq_ok, parseMerklePriceUpdate_eq_ok, ih]
    constructor
    · rintro ⟨_, ⟨msg, hmsg, rfl⟩, _, ⟨msgs, hmsgs, rfl⟩, hfeeds⟩
      cases hfeeds
      exact ⟨msg :: msgs, .cons hmsg hmsgs, rfl⟩
    · rintro ⟨_, hall, rfl⟩
      cases hall with
      | cons hmsg hmsgs => exact ⟨_, ⟨_, hmsg, rfl⟩, _, ⟨_, hmsgs, rfl⟩, rfl⟩

/-- The VAA is valid for the Wormhole contract and comes from a data source. -/
def AcceptsVaa (env : Env) (storage : Storage) (vaa : Bytes) (parsedVaa : ParsedVAA) : Prop :=
  parseAndVerifyVaa env storage vaa = .ok parsedVaa ∧
    ∃ state, storage.loadConfig = .ok state ∧ verifyVaaFromDataSource state parsedVaa = .ok ()

/-- The contract accepts an update exactly when the SDK reads one that verifies with the
payload of the VAA, and it takes the messages that are proven. -/
theorem parseAccumulator_eq_ok {data : Bytes} {feeds : List PriceFeed} :
    parseAccumulator H env storage data = .ok feeds ↔
      ∃ updateData rest parsedVaa msgs,
        Grammar.accumulatorUpdateData data = some (updateData, rest) ∧
        AcceptsVaa env storage updateData.proof.vaa parsedVaa ∧
        updateData.Verifies H parsedVaa.payload msgs ∧ feeds = msgs.map priceFeedOf := by
  simp only [parseAccumulator, except_bind_eq_ok, mapErr_eq_ok,
    AccumulatorUpdateData.tryFromSlice_eq_ok]
  constructor
  · rintro ⟨⟨magic, majorVersion, minorVersion, trailing, ⟨vaa, updates⟩⟩, ⟨⟨rest, hparse⟩, hmagic,
      hmajor⟩, h⟩
    dsimp only at h
    obtain ⟨parsedVaa, hvaa, state, hstate, _, hsource, ⟨msgMagic, ⟨root⟩⟩, hmsg, h⟩ := h
    obtain ⟨msgs, hproves, rfl⟩ := parseUpdates_eq_ok.mp h
    exact ⟨_, rest, parsedVaa, msgs, hparse, ⟨hvaa, state, hstate, hsource⟩,
      ⟨hmagic, hmajor, root.root, ⟨_, hmsg, rfl⟩, hproves⟩, rfl⟩
  · rintro ⟨⟨magic, majorVersion, minorVersion, trailing, ⟨vaa, updates⟩⟩, rest, parsedVaa, msgs,
      hparse, ⟨hvaa, state, hstate, hsource⟩, ⟨hmagic, hmajor, _, ⟨⟨msgMagic, ⟨root⟩⟩, hmsg, rfl⟩,
      hproves⟩, rfl⟩
    refine ⟨_, ⟨⟨rest, hparse⟩, hmagic, hmajor⟩, ?_⟩
    exact ⟨parsedVaa, hvaa, state, hstate, (), hsource, _, hmsg,
      parseUpdates_eq_ok.mpr ⟨msgs, hproves, rfl⟩⟩

end

end PythCrosschain.CosmWasm
