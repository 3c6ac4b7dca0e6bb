import PythCrosschain.Hermes.Twap
import PythCrosschain.Hermes.UpdateData

/-!
# Hermes: price queries

`get_verified_price_feeds` of `aggregate.rs`, on top of `fetch_message_states` of `cache.rs`.
The lookups of a query do not share a lock: `store_update` may run between any two of them, so
each lookup has a message cache of its own.

`mem_allUpdateData` says what the updates of an answer are made of.
-/

namespace PythCrosschain.Hermes

open PythnetSdk

inductive MessageStateFilter where
  | all
  | only (type : MessageType)

/-- `MessageType::iter`, or the one type. -/
def MessageStateFilter.messageTypes : MessageStateFilter → List MessageType
  | .all => [.priceFeedMessage, .twapMessage, .publisherStakeCapsMessage]
  | .only type => [type]

inductive QueryError where
  | messageNotFound
  | invalidMessageStateType
  | missingUpdateData
  | serializer (e : SerializerError)
deriving DecidableEq

structure PriceFeed where
  id : FeedId
  price : Price
  emaPrice : Price
deriving DecidableEq

structure PriceFeedUpdate where
  priceFeed : PriceFeed
  slot : Option Slot
  receivedAt : Option UnixTimestamp
  updateData : Option Bytes
  prevPublishTime : Option I64
deriving DecidableEq

structure PriceFeedsWithUpdateData where
  priceFeeds : List PriceFeedUpdate
  updateData : List Bytes
deriving DecidableEq

/-- The updates of an answer: those for all of the feeds, and one for each feed. -/
def PriceFeedsWithUpdateData.allUpdateData (answer : PriceFeedsWithUpdateData) : List Bytes :=
  answer.updateData ++ answer.priceFeeds.filterMap PriceFeedUpdate.updateData

/-! ## The query -/

/-- The `n`-th lookup finds the message cache `messageCaches n`. -/
def fetchMessageStates (messageCaches : Nat → MessageCache) (ids : List FeedId)
    (requestTime : RequestTime) (filter : MessageStateFilter) :
    Except QueryError (List MessageState) :=
  let keys := ids.flatMap fun id => filter.messageTypes.map fun type => ⟨id, type⟩
  keys.zipIdx.mapM fun (key, n) =>
    match retrieveMessageState (messageCaches n) key requestTime with
    | some messageState => .ok messageState
    | none => .error .messageNotFound

/-- `construct_update_data`, with its error as one of the query. -/
def updateDataOf (messages : List MessageState) : Except QueryError (List Bytes) :=
  match constructUpdateData (messages.map RawMessageWithMerkleProof.fromMessageState) with
  | .error e => .error (.serializer e)
  | .ok updateData => .ok updateData

/-- One price feed of the answer. -/
def priceFeedUpdate (messageState : MessageState) : Except QueryError PriceFeedUpdate :=
  match messageState.message with
  | .priceFeedMessage priceFeed => do
    let updateData ← updateDataOf [messageState]
    match updateData.head? with
    | none => .error .missingUpdateData
    | some updateData => return {
        priceFeed := {
          id := priceFeed.feedId
          price := {
            price := priceFeed.price
            conf := priceFeed.conf
            expo := priceFeed.exponent
            publishTime := priceFeed.publishTime }
          emaPrice := {
            price := priceFeed.emaPrice
            conf := priceFeed.emaConf
            expo := priceFeed.exponent
            publishTime := priceFeed.publishTime } }
        receivedAt := some messageState.receivedAt
        slot := some messageState.slot
        updateData := some updateData
        prevPublishTime := some priceFeed.prevPublishTime }
  | _ => .error .invalidMessageStateType

def getVerifiedPriceFeeds (messageCaches : Nat → MessageCache) (priceIds : List FeedId)
    (requestTime : RequestTime) : Except QueryError PriceFeedsWithUpdateData := do
  let messages ← fetchMessageStates messageCaches priceIds requestTime (.only .priceFeedMessage)
  let priceFeeds ← messages.mapM priceFeedUpdate
  let updateData ← updateDataOf messages
  return { priceFeeds, updateData }

/-! ## What an answer is made of -/

theorem updateDataOf_eq_ok {messages : List MessageState} {updateData : List Bytes} :
    updateDataOf messages = .ok updateData ↔
      constructUpdateData (messages.map RawMessageWithMerkleProof.fromMessageState) = .ok updateData := by
  unfold updateDataOf
  cases constructUpdateData (messages.map RawMessageWithMerkleProof.fromMessageState) with
  | error e => exact ⟨nofun, nofun⟩
  | ok data => simp only [Except.ok.injEq]

/-- Each message state that a query fetches was found in one of the message caches, under
the key that it was looked up with. -/
theorem mem_fetchMessageStates {messageCaches : Nat → MessageCache} {ids : List FeedId}
    {requestTime : RequestTime} {type : MessageType} {messages : List MessageState}
    (h : fetchMessageStates messageCaches ids requestTime (.only type) = .ok messages)
    {m : MessageState} (hm : m ∈ messages) :
    ∃ n, ∃ id ∈ ids, retrieveMessageState (messageCaches n) ⟨id, type⟩ requestTime = some m := by
  obtain ⟨⟨key, n⟩, hlookup, hfound⟩ := exists_of_mem_mapM h hm
  obtain ⟨id, hid, hkey⟩ := List.mem_flatMap.mp (List.fst_mem_of_mem_zipIdx hlookup)
  obtain rfl : key = ⟨id, type⟩ := List.mem_singleton.mp hkey
  dsimp only at hfound
  split at hfound
  · next messageState hretrieved =>
    cases hfound
    exact ⟨n, id, hid, hretrieved⟩
  · cases hfound

/-- The update data of one price feed is made of its message state. -/
theorem priceFeedUpdate_eq_ok {m : MessageState} {update : PriceFeedUpdate}
    (h : priceFeedUpdate m = .ok update) :
    ∃ updateData ∈ update.updateData, ∃ rest,
      constructUpdateData [RawMessageWithMerkleProof.fromMessageState m] = .ok (updateData :: rest) := by
  unfold priceFeedUpdate at h
  split at h
  · obtain ⟨updateData, hdata, h⟩ := except_bind_eq_ok.mp h
    split at h
    · cases h
    · next first hfirst =>
      cases h
      obtain ⟨rest, rfl⟩ := List.head?_eq_some_iff.mp hfirst
      exact ⟨first, rfl, rest, updateDataOf_eq_ok.mp hdata⟩
  · cases h

/-- Every update of an answer is one of the update data of message states that were fetched. -/
theorem mem_allUpdateData {messageCaches : Nat → MessageCache} {priceIds : List FeedId}
    {requestTime : RequestTime} {answer : PriceFeedsWithUpdateData}
    (h : getVerifiedPriceFeeds messageCaches priceIds requestTime = .ok answer)
    {updateData : Bytes} (hmem : updateData ∈ answer.allUpdateData) :
    ∃ (messages : List MessageState) (result : List Bytes),
      constructUpdateData (messages.map RawMessageWithMerkleProof.fromMessageState) =
        .ok result ∧ updateData ∈ result ∧ ∀ m ∈ messages, ∃ n, ∃ id ∈ priceIds,
        retrieveMessageState (messageCaches n) ⟨id, .priceFeedMessage⟩ requestTime = some m := by
  obtain ⟨messages, hfetch, h⟩ := except_bind_eq_ok.mp h
  obtain ⟨priceFeeds, hfeeds, h⟩ := except_bind_eq_ok.mp h
  obtain ⟨result, hresult, h⟩ := except_bind_eq_ok.mp h
  cases h
  rcases List.mem_append.mp hmem with hmem | hmem
  · exact ⟨messages, result, updateDataOf_eq_ok.mp hresult, hmem,
      fun m hm => mem_fetchMessageStates hfetch hm⟩
  · obtain ⟨update, hupdate, hsome⟩ := List.mem_filterMap.mp hmem
    obtain ⟨m, hm, hmade⟩ := exists_of_mem_mapM hfeeds hupdate
    obtain ⟨data, hdata, rest, hconstruct⟩ := priceFeedUpdate_eq_ok hmade
    cases Option.some.inj (hsome.symm.trans hdata)
    refine ⟨[m], updateData :: rest, hconstruct, List.mem_cons_self, fun m' hm' => ?_⟩
    obtain rfl := List.mem_singleton.mp hm'
    exact mem_fetchMessageStates hfetch hm

/-! ## When a query answers -/

theorem exists_constructUpdateData {messages : List RawMessageWithMerkleProof}
    (hne : messages ≠ []) (hlimits : ∀ m ∈ messages, m.WithinLimits) :
    ∃ updateData rest, constructUpdateData messages = .ok (updateData :: rest) := by
  obtain ⟨batches, result, hresult, hsorted, hdelivers⟩ := construct_update_data_exact hlimits
  cases hdelivers with
  | nil => exact absurd hsorted.perm.nil_eq.symm hne
  | cons _ _ => exact ⟨_, _, hresult⟩

theorem exists_priceFeedUpdate {m : MessageState} (htype : m.message.type = .priceFeedMessage)
    (hlimits : (RawMessageWithMerkleProof.fromMessageState m).WithinLimits) :
    ∃ update, priceFeedUpdate m = .ok update := by
  obtain ⟨updateData, rest, hresult⟩ := exists_constructUpdateData
    (List.cons_ne_nil (RawMessageWithMerkleProof.fromMessageState m) [])
    fun m' hm' => List.mem_singleton.mp hm' ▸ hlimits
  have hdata : updateDataOf [m] = .ok (updateData :: rest) := updateDataOf_eq_ok.mpr hresult
  unfold priceFeedUpdate
  cases hmessage : m.message with
  | priceFeedMessage msg =>
    simp only [hdata, except_ok_bind, List.head?_cons]
    exact ⟨_, rfl⟩
  | twapMessage msg =>
    rw [hmessage] at htype
    cases htype
  | publisherStakeCapsMessage msg =>
    rw [hmessage] at htype
    cases htype

/-- A query whose lookups all find something has an answer, with one price feed for each
of them, as long as the lengths fit in the format. -/
theorem exists_answer {messageCaches : Nat → MessageCache} {priceIds : List FeedId}
    {requestTime : RequestTime} {messages : List MessageState}
    (hfetch : fetchMessageStates messageCaches priceIds requestTime (.only .priceFeedMessage) =
      .ok messages)
    (htype : ∀ m ∈ messages, m.message.type = .priceFeedMessage)
    (hlimits : ∀ m ∈ messages, (RawMessageWithMerkleProof.fromMessageState m).WithinLimits) :
    ∃ answer, getVerifiedPriceFeeds messageCaches priceIds requestTime = .ok answer ∧
      answer.priceFeeds.length = messages.length := by
  obtain ⟨priceFeeds, hfeeds⟩ := exists_mapM_eq_ok fun m hm =>
    exists_priceFeedUpdate (htype m hm) (hlimits m hm)
  obtain ⟨-, updateData, hresult, -⟩ := construct_update_data_exact
    (List.forall_mem_map.mpr hlimits)
  have hdata : updateDataOf messages = .ok updateData := updateDataOf_eq_ok.mpr hresult
  refine ⟨{ priceFeeds, updateData }, ?_, (except_mapM_eq_ok.mp hfeeds).length_eq.symm⟩
  simp only [getVerifiedPriceFeeds, hfetch, hfeeds, hdata, except_ok_bind]
  rfl

end PythCrosschain.Hermes
