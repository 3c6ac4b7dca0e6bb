import Mathlib.Data.List.AList
import Mathlib.Data.List.ReduceOption
import PythCrosschain.Hermes.PriceFeeds
import PythCrosschain.Hermes.StoreUpdate
import PythCrosschain.Hermes.Wormhole
import PythCrosschain.Lib.Hex

/-!
# Hermes: the streams of price updates

`ws.rs` and `sse.rs`. Both streams answer an event of a slot with a query for that slot, and
such a query fails as a whole when one feed has no message there. A stream then asks for the
feeds that are in the cache at all, which says nothing about the slot of the event.

Tasks that store updates go on while an event is handled, so that each lookup of a handler
has a message cache of its own.

`Service` is the tasks with one WebSocket subscriber, and `Service.Clear` the condition under which
an event delivers what the streams owe.
-/

namespace PythCrosschain.Hermes

open PythnetSdk

/-! ## What clients are sent -/

structure RpcPrice where
  price : I64
  conf : U64
  expo : I32
  publishTime : I64
deriving DecidableEq

def RpcPrice.ofPrice (price : Price) : RpcPrice where
  price := price.price
  conf := price.conf
  expo := price.expo
  publishTime := price.publishTime

structure RpcPriceFeedMetadata where
  slot : Option Slot
  emitterChain : BitVec 16
  priceServiceReceiveTime : Option UnixTimestamp
  prevPublishTime : Option I64
deriving DecidableEq

structure RpcPriceFeedMetadataV2 where
  slot : Option Slot
  proofAvailableTime : Option UnixTimestamp
  prevPublishTime : Option I64
deriving DecidableEq

/-- A text is the list of its characters. -/
structure RpcPriceFeed where
  id : FeedId
  price : RpcPrice
  emaPrice : RpcPrice
  metadata : Option RpcPriceFeedMetadata
  vaa : Option (List Char)
deriving DecidableEq

structure ParsedPriceUpdate where
  id : FeedId
  price : RpcPrice
  emaPrice : RpcPrice
  metadata : RpcPriceFeedMetadataV2
deriving DecidableEq

def ParsedPriceUpdate.ofPriceFeedUpdate (priceFeedUpdate : PriceFeedUpdate) :
    ParsedPriceUpdate where
  id := priceFeedUpdate.priceFeed.id
  price := .ofPrice priceFeedUpdate.priceFeed.price
  emaPrice := .ofPrice priceFeedUpdate.priceFeed.emaPrice
  metadata := {
    slot := priceFeedUpdate.slot
    proofAvailableTime := priceFeedUpdate.receivedAt
    prevPublishTime := priceFeedUpdate.prevPublishTime }

/-- The filter of `benchmarks_only`. -/
def ParsedPriceUpdate.isBenchmark (priceFeed : ParsedPriceUpdate) : Bool :=
  priceFeed.metadata.prevPublishTime.any (· ≠ priceFeed.price.publishTime)

inductive EncodingType where
  | hex
  | base64
deriving DecidableEq

structure BinaryUpdate where
  encoding : EncodingType
  data : List (List Char)

structure PriceUpdate where
  binary : BinaryUpdate
  parsed : Option (List ParsedPriceUpdate)

structure PriceFeedClientConfig where
  verbose : Bool
  binary : Bool
  allowOutOfOrder : Bool
deriving DecidableEq

inductive ClientMessage where
  | subscribe (ids : List FeedId) (config : PriceFeedClientConfig)
  | unsubscribe (ids : List FeedId)

inductive ServerResponseMessage where
  | success
  | priceFeedsNotFound (ids : List FeedId)
deriving DecidableEq

inductive ServerMessage where
  | response (response : ServerResponseMessage)
  | priceUpdate (priceFeed : RpcPriceFeed)
deriving DecidableEq

/-- What is outside of the repository: the standard base64 encoding, and the answers of the
benchmarks service. -/
structure Api where
  base64 : Bytes → List Char
  benchmarks : List FeedId → UnixTimestamp → Except QueryError PriceFeedsWithUpdateData

namespace Api

variable (api : Api)

def encodeStr (encoding : EncodingType) (data : Bytes) : List Char :=
  match encoding with
  | .base64 => api.base64 data
  | .hex => Hex.encode data

/-- `RpcPriceFeed::from_price_feed_update`. -/
def fromPriceFeedUpdate (priceFeedUpdate : PriceFeedUpdate) (verbose binary : Bool) :
    RpcPriceFeed where
  id := priceFeedUpdate.priceFeed.id
  price := .ofPrice priceFeedUpdate.priceFeed.price
  emaPrice := .ofPrice priceFeedUpdate.priceFeed.emaPrice
  metadata :=
    if verbose then some {
      emitterChain := CHAIN_PYTHNET
      priceServiceReceiveTime := priceFeedUpdate.receivedAt
      slot := priceFeedUpdate.slot
      prevPublishTime := priceFeedUpdate.prevPublishTime }
    else none
  vaa := if binary then priceFeedUpdate.updateData.map api.base64 else none

def getPriceFeedsWithUpdateData (messageCaches : Nat → MessageCache) (priceIds : List FeedId)
    (requestTime : RequestTime) : Except QueryError PriceFeedsWithUpdateData :=
  match getVerifiedPriceFeeds messageCaches priceIds requestTime with
  | .ok answer => .ok answer
  | .error e =>
    match requestTime with
    | .firstAfter publishTime => api.benchmarks priceIds publishTime
    | _ => .error e

end Api

/-- The set of the price feed ids in the cache, whatever the types of their messages. -/
def getPriceFeedIds (messageCache : MessageCache) (id : FeedId) : Bool :=
  id ≠ PUBLISHER_STAKE_CAPS_MESSAGE_FEED_ID &&
    MessageStateFilter.all.messageTypes.any fun type => (messageCache ⟨id, type⟩).isSome

namespace AggregationEvent

def slot : AggregationEvent → Slot
  | .new slot => slot
  | .outOfOrder slot => slot

def isOutOfOrder : AggregationEvent → Bool
  | .new _ => false
  | .outOfOrder _ => true

end AggregationEvent

/-! ## The WebSocket subscriber -/

/-- A `HashMap`: the order of its keys is one that iterating over it may have. -/
abbrev PriceFeedsWithConfig := AList fun _ : FeedId => PriceFeedClientConfig

namespace PriceFeedsWithConfig

def retain (p : FeedId → Bool) (feeds : PriceFeedsWithConfig) : PriceFeedsWithConfig where
  entries := feeds.entries.filter fun entry => p entry.1
  nodupKeys := feeds.nodupKeys.sublist List.filter_sublist

end PriceFeedsWithConfig

/-- In which order a loop visits the keys of a map. -/
structure IterationOrder where
  order : List FeedId → List FeedId
  perm : ∀ ids, (order ids).Perm ids

/-- The feeds after a message of the client, and the response to it. -/
def handleClientMessage (messageCache : MessageCache) (message : ClientMessage)
    (feeds : PriceFeedsWithConfig) : PriceFeedsWithConfig × ServerResponseMessage :=
  match message with
  | .subscribe ids config =>
    let notFoundPriceIds := ids.filter fun id => !getPriceFeedIds messageCache id
    -- If a single price id is not found, we don't subscribe to any of them.
    if notFoundPriceIds ≠ [] then (feeds, .priceFeedsNotFound notFoundPriceIds)
    else (ids.foldl (fun feeds id => feeds.insert id config) feeds, .success)
  | .unsubscribe ids => (ids.foldl (fun feeds id => feeds.erase id) feeds, .success)

inductive SubscriberError where
  | query (e : QueryError)
  | configMissing
deriving DecidableEq

namespace Api

variable (api : Api) (order : IterationOrder)

/-- The query of `handle_price_feeds_update`, and the feeds that it leaves. -/
def queryFeeds (messageCaches : Nat → MessageCache) (slot : Slot) (feeds : PriceFeedsWithConfig) :
    Except SubscriberError (PriceFeedsWithConfig × PriceFeedsWithUpdateData) :=
  let priceFeedIds := order.order feeds.keys
  match api.getPriceFeedsWithUpdateData messageCaches priceFeedIds (.atSlot slot) with
  | .ok updates => .ok (feeds, updates)
  | .error _ =>
    -- In this case we just remove the non-existing price feeds.
    let feeds := feeds.retain (getPriceFeedIds (messageCaches priceFeedIds.length))
    match api.getPriceFeedsWithUpdateData (fun n => messageCaches (priceFeedIds.length + 1 + n))
        (order.order feeds.keys) (.atSlot slot) with
    | .ok updates => .ok (feeds, updates)
    | .error e => .error (.query e)

/-- One round of the loop of `handle_price_feeds_update`, without the rate limit. -/
def priceUpdateMessage (event : AggregationEvent) (feeds : PriceFeedsWithConfig)
    (update : PriceFeedUpdate) : Except SubscriberError (Option ServerMessage) :=
  match feeds.lookup update.priceFeed.id with
  | none => .error .configMissing
  | some config =>
    if event.isOutOfOrder && !config.allowOutOfOrder then .ok none
    else .ok (some (.priceUpdate (api.fromPriceFeedUpdate update config.verbose config.binary)))

/-- The feeds after an event, and the messages to the client. -/
def handlePriceFeedsUpdate (messageCaches : Nat → MessageCache) (event : AggregationEvent)
    (feeds : PriceFeedsWithConfig) :
    Except SubscriberError (PriceFeedsWithConfig × List ServerMessage) := do
  let (feeds, updates) ← api.queryFeeds order messageCaches event.slot feeds
  let messages ← updates.priceFeeds.mapM (api.priceUpdateMessage event feeds)
  return (feeds, messages.reduceOption)

end Api

/-! ## The SSE stream -/

structure StreamOptions where
  encoding : EncodingType
  parsed : Bool
  benchmarksOnly : Bool
  allowUnordered : Bool

inductive SseEvent where
  | update (update : PriceUpdate)
  /-- The comment `No update available`. -/
  | noUpdate
  | error (e : QueryError)

namespace Api

variable (api : Api)

/-- The feeds that stay with `benchmarks_only`, and the second query for these. -/
def retainBenchmarks (messageCaches : Nat → MessageCache) (slot : Slot) (benchmarksOnly : Bool)
    (priceIds : List FeedId) (parsedPriceUpdates : List ParsedPriceUpdate)
    (answer : PriceFeedsWithUpdateData) :
    Except QueryError (List FeedId × List ParsedPriceUpdate × PriceFeedsWithUpdateData) :=
  if benchmarksOnly then do
    let parsedPriceUpdates := parsedPriceUpdates.filter ParsedPriceUpdate.isBenchmark
    let priceIds := priceIds.filter fun priceId => parsedPriceUpdates.any (·.id = priceId)
    let answer ← api.getPriceFeedsWithUpdateData messageCaches priceIds (.atSlot slot)
    return (priceIds, parsedPriceUpdates, answer)
  else .ok (priceIds, parsedPriceUpdates, answer)

def handleAggregationEvent (messageCaches : Nat → MessageCache) (event : AggregationEvent)
    (priceIds : List FeedId) (options : StreamOptions) : Except QueryError (Option PriceUpdate) :=
  if event.isOutOfOrder && !options.allowUnordered then .ok none
  else do
    -- Price feeds can be removed.
    let priceIds := priceIds.filter (getPriceFeedIds (messageCaches 0))
    let answer ← api.getPriceFeedsWithUpdateData (fun n => messageCaches (1 + n)) priceIds
      (.atSlot event.slot)
    let parsedPriceUpdates := answer.priceFeeds.map ParsedPriceUpdate.ofPriceFeedUpdate
    let (priceIds, parsedPriceUpdates, answer) ←
      api.retainBenchmarks (fun n => messageCaches (1 + priceIds.length + n)) event.slot
        options.benchmarksOnly priceIds parsedPriceUpdates answer
    if priceIds = [] then return none
    return some {
      binary := {
        encoding := options.encoding
        data := answer.updateData.map (api.encodeStr options.encoding) }
      parsed := if options.parsed then some parsedPriceUpdates else none }

/-- What the stream yields for an event. -/
def sseEvent (messageCaches : Nat → MessageCache) (event : AggregationEvent)
    (priceIds : List FeedId) (options : StreamOptions) : SseEvent :=
  match api.handleAggregationEvent messageCaches event priceIds options with
  | .ok (some update) => .update update
  | .ok none => .noUpdate
  | .error e => .error e

end Api

/-! ## Runs -/

/-- The tasks that store updates, and one WebSocket subscriber. `stored` is every message state
that a task has stored, and `subscribed` what the client has asked for with success. -/
structure Service (ι : Type) where
  system : System ι
  stored : List MessageState := []
  unread : List AggregationEvent := []
  subscribed : FeedId → Option PriceFeedClientConfig := fun _ => none
  priceFeedsWithConfig : PriceFeedsWithConfig := ∅
  sent : List ServerMessage := []
  closed : Bool := false

/-- What the client has asked for after a message. -/
def ClientMessage.ask (message : ClientMessage)
    (subscribed : FeedId → Option PriceFeedClientConfig) (id : FeedId) :
    Option PriceFeedClientConfig :=
  match message with
  | .subscribe ids config => if ids.contains id then some config else subscribed id
  | .unsubscribe ids => if ids.contains id then none else subscribed id

namespace Service

variable {ι : Type} [DecidableEq ι] (P : Params) (api : Api)

def start (updates : ι → Update) : Service ι where
  system := .start updates

/-- The task `i` takes its next step. Its event goes to the subscriber. -/
def task (i : ι) (now : UnixTimestamp) (σ : Service ι) : Service ι :=
  let system := σ.system.step P i now
  let before := σ.system.shared.events.length
  let events := system.shared.events
  { σ with
    system
    stored := σ.stored ++ (((σ.system.tasks i).building P now).map (·.2)).getD []
    unread := σ.unread ++ (events.take (events.length - before)).reverse }

def message (message : ClientMessage) (σ : Service ι) : Service ι :=
  let result := handleClientMessage σ.system.shared.messageCache message σ.priceFeedsWithConfig
  { σ with
    subscribed := if result.2 = .success then message.ask σ.subscribed else σ.subscribed
    priceFeedsWithConfig := result.1
    sent := σ.sent ++ [.response result.2] }

/-- An error ends the loop of `Subscriber::run`, and the connection with it. -/
def handle (order : IterationOrder) (messageCaches : Nat → MessageCache)
    (event : AggregationEvent) (σ : Service ι) : Service ι :=
  match api.handlePriceFeedsUpdate order messageCaches event σ.priceFeedsWithConfig with
  | .ok (feeds, messages) =>
    { σ with
      unread := σ.unread.tail
      priceFeedsWithConfig := feeds
      sent := σ.sent ++ messages }
  | .error _ => { σ with unread := σ.unread.tail, closed := true }

/-- Steps of tasks only. -/
def TaskRun : Service ι → Service ι → Prop :=
  Relation.ReflTransGen fun σ σ' => ∃ i now, σ' = σ.task P i now

/-- While tasks go from `σ` to `σ'`, each lookup finds the cache of a state in between. -/
structure Looks (σ : Service ι) (messageCaches : Nat → MessageCache) (σ' : Service ι) : Prop where
  run : TaskRun P σ σ'
  seen : ∀ n, ∃ between, TaskRun P σ between ∧ TaskRun P between σ' ∧
    messageCaches n = between.system.shared.messageCache

/-- The subscriber reads an event, and its lookups find these caches. -/
structure Reads (σ : Service ι) (event : AggregationEvent) (messageCaches : Nat → MessageCache)
    (σ' : Service ι) : Prop extends Looks P σ messageCaches σ' where
  connected : σ.closed = false
  next : σ.unread.head? = some event

/-- What may happen, where events are only handled if the condition holds. -/
inductive Step
    (condition : Service ι → AggregationEvent → (Nat → MessageCache) → Service ι → Prop) :
    Service ι → Service ι → Prop
  | task (σ : Service ι) (i : ι) (now : UnixTimestamp) : Step condition σ (σ.task P i now)
  | message {σ : Service ι} (message : ClientMessage) : σ.closed = false →
      Step condition σ (σ.message message)
  | handle {σ σ' : Service ι} {event : AggregationEvent} {messageCaches : Nat → MessageCache}
      (order : IterationOrder) : Reads P σ event messageCaches σ' →
      condition σ event messageCaches σ' →
      Step condition σ (σ'.handle api order messageCaches event)

/-- The states of all runs. -/
def Reachable (updates : ι → Update) : Service ι → Prop :=
  Relation.ReflTransGen (Step P api fun _ _ _ _ => True) (start updates)

end Service

/-! ## What the streams owe -/

section Owed

variable (messageCaches : Nat → MessageCache) (stored : List MessageState) (slot : Slot)

/-- The feed has a price message at the slot. -/
def FeedAt (id : FeedId) : Prop :=
  ∃ m ∈ stored, m.key = ⟨id, .priceFeedMessage⟩ ∧ m.slot = slot

instance (id : FeedId) : Decidable (FeedAt stored slot id) :=
  inferInstanceAs (Decidable (∃ m ∈ stored, _))

/-- The price message of the feed at the slot: no other one that was stored is newer. -/
structure PriceMessageAt (id : FeedId) (m : MessageState) : Prop where
  mem : m ∈ stored
  key : m.key = ⟨id, .priceFeedMessage⟩
  atSlot : m.slot = slot
  newest : ∀ m' ∈ stored, m'.key = m.key → m'.slot = slot → m'.time ≤ m.time

/-- None of the price messages that were stored for the slot is gone at any lookup. -/
def SlotCached : Prop :=
  ∀ m ∈ stored, m.slot = slot → m.message.type = .priceFeedMessage →
    ∀ n, m.time ∈ ((messageCaches n).of m.key).keys

/-- Every lookup finds the same price message of the feed at the slot, and its lengths fit. -/
structure Found (id : FeedId) (m : MessageState) : Prop where
  found : ∀ n,
    retrieveMessageState (messageCaches n) ⟨id, .priceFeedMessage⟩ (.atSlot slot) = some m
  limits : (RawMessageWithMerkleProof.fromMessageState m).WithinLimits

/-- The feed has a message at the slot, or no message at all. -/
def Answerable (id : FeedId) : Prop :=
  (∃ m, Found messageCaches slot id m) ∨ ∀ n, getPriceFeedIds (messageCaches n) id = false

end Owed

namespace Api

variable (api : Api)

/-- The price feed is the message. -/
def Carries (config : PriceFeedClientConfig) (m : MessageState) (priceFeed : RpcPriceFeed) : Prop :=
  ∃ msg updateData, m.message = .priceFeedMessage msg ∧ Delivers [.fromMessageState m] updateData ∧
    priceFeed = {
      id := msg.feedId
      price := ⟨msg.price, msg.conf, msg.exponent, msg.publishTime⟩
      emaPrice := ⟨msg.emaPrice, msg.emaConf, msg.exponent, msg.publishTime⟩
      metadata :=
        if config.verbose then
          some ⟨some m.slot, CHAIN_PYTHNET, some m.receivedAt, some msg.prevPublishTime⟩
        else none
      vaa := if config.binary then some (api.base64 updateData) else none }

/-- One price feed for each feed that was asked for and has a price message at the slot, and
that the client wants out of order where the event is. -/
structure SentExactly (stored : List MessageState)
    (subscribed : FeedId → Option PriceFeedClientConfig) (event : AggregationEvent)
    (priceFeeds : List RpcPriceFeed) : Prop where
  once : (priceFeeds.map (·.id)).Nodup
  feeds : ∀ id, id ∈ priceFeeds.map (·.id) ↔ FeedAt stored event.slot id ∧
    ∃ config, subscribed id = some config ∧
      (event.isOutOfOrder = true → config.allowOutOfOrder = true)
  carries : ∀ priceFeed ∈ priceFeeds, ∃ config m, subscribed priceFeed.id = some config ∧
    PriceMessageAt stored event.slot priceFeed.id m ∧ api.Carries config m priceFeed

/-- The connection stays open, and the event sends the price feeds and nothing else. -/
def WsDelivers {ι : Type} (order : IterationOrder) (messageCaches : Nat → MessageCache)
    (event : AggregationEvent) (σ : Service ι) : Prop :=
  (σ.handle api order messageCaches event).closed = false ∧ ∃ priceFeeds,
    (σ.handle api order messageCaches event).sent = σ.sent ++ priceFeeds.map .priceUpdate ∧
    api.SentExactly σ.stored σ.subscribed event priceFeeds

end Api

/-- The parsed update is the message. -/
def ParsedPriceUpdate.Parses (m : MessageState) (parsed : ParsedPriceUpdate) : Prop :=
  ∃ msg, m.message = .priceFeedMessage msg ∧
    parsed = {
      id := msg.feedId
      price := ⟨msg.price, msg.conf, msg.exponent, msg.publishTime⟩
      emaPrice := ⟨msg.emaPrice, msg.emaConf, msg.exponent, msg.publishTime⟩
      metadata := ⟨some m.slot, some m.receivedAt, some msg.prevPublishTime⟩ }

namespace StreamOptions

variable (options : StreamOptions)

def allows (event : AggregationEvent) : Bool := !event.isOutOfOrder || options.allowUnordered

/-- With `benchmarks_only`, the message is the first one of its second. -/
def wants (m : MessageState) : Bool :=
  match m.message with
  | .priceFeedMessage msg => !options.benchmarksOnly || msg.prevPublishTime ≠ msg.publishTime
  | _ => false

end StreamOptions

namespace Api

variable (api : Api)

/-- Both parts of the update list the messages, in their order. -/
structure Lists (options : StreamOptions) (messages : List MessageState) (update : PriceUpdate) :
    Prop where
  encoding : update.binary.encoding = options.encoding
  binary : ∃ batches updateData,
    update.binary.data = updateData.map (api.encodeStr options.encoding) ∧
    batches.flatten = messages.map RawMessageWithMerkleProof.fromMessageState ∧
    List.Forall₂ Delivers batches updateData
  parsed : if options.parsed then
      ∃ parsed, update.parsed = some parsed ∧ List.Forall₂ ParsedPriceUpdate.Parses messages parsed
    else update.parsed = none

/-- One update with the messages of those feeds that have one at the slot, or none where there
are no such feeds or the stream does not allow the event. -/
def SseDelivers (messageCaches : Nat → MessageCache) (stored : List MessageState)
    (event : AggregationEvent) (priceIds : List FeedId) (options : StreamOptions) : Prop :=
  ∃ messages, List.Forall₂ (PriceMessageAt stored event.slot)
      (priceIds.filter fun id => FeedAt stored event.slot id) messages ∧
    if options.allows event ∧ messages.filter options.wants ≠ [] then
      ∃ update, api.sseEvent messageCaches event priceIds options = .update update ∧
        api.Lists options (messages.filter options.wants) update
    else api.sseEvent messageCaches event priceIds options = .noUpdate

end Api

/-! ## The condition -/

namespace Service

variable {ι : Type} [DecidableEq ι] (P : Params) (api : Api)

/-- Each feed that the subscriber has is answerable, and no feed with a message was removed from
what the client has asked for. -/
structure Clear (σ : Service ι) (event : AggregationEvent) (messageCaches : Nat → MessageCache)
    (σ' : Service ι) : Prop where
  answerable : ∀ id ∈ σ.priceFeedsWithConfig, Answerable messageCaches event.slot id
  kept : ∀ id, σ.subscribed id ≠ none → FeedAt σ'.stored event.slot id → id ∈ σ.priceFeedsWithConfig

/-- The states of the runs in which the condition holds for all events. -/
def ClearlyReachable (updates : ι → Update) : Service ι → Prop :=
  Relation.ReflTransGen (Step P api Clear) (start updates)

end Service

end PythCrosschain.Hermes
