import PythCrosschain.Hermes.Streams

/-!
# Hermes: what the streams deliver

A lookup at a slot finds the newest message of the slot (`HoldsStored.retrieve_atSlot`), so a query
for feeds that all have one answers with these messages (`query_answers`), and a query with a feed
that has none fails (`query_fails`).

Results:
1. `streams_deliver`: in a run where every feed of the client that is in the cache has a message
   at the slot of each event, the connection stays open and every event delivers all of them.
2. `late_event_breaks`: an event of a slot where a feed that is in the cache has no message ends
   the connection.
-/

namespace PythCrosschain.Hermes

open PythnetSdk

/-! ## What a lookup finds -/

/-- What a cache holds was stored, and lies under its own key and time. -/
def HoldsStored (stored : List MessageState) (messageCache : MessageCache) : Prop :=
  ∀ key, ∀ e ∈ (messageCache.of key).entries, e.1 = e.2.time ∧ e.2.key = key ∧ e.2 ∈ stored

section Lookup

variable {messageCache : MessageCache} {stored stored' : List MessageState} {slot : Slot}
  {id : FeedId} {m : MessageState}

theorem HoldsStored.mono (h : HoldsStored stored messageCache) (hsub : stored ⊆ stored') :
    HoldsStored stored' messageCache := by
  intro key e he
  obtain ⟨htime, hkey, hmem⟩ := h key e he
  exact ⟨htime, hkey, hsub hmem⟩

theorem HoldsStored.store (h : HoldsStored stored messageCache) (messageStates : List MessageState)
    (cacheSize : Nat) :
    HoldsStored (stored ++ messageStates)
      (storeMessageStates cacheSize messageStates messageCache) := by
  intro key e he
  rcases mem_storeMessageStates he with hin | ⟨s, hs, hkey, rfl⟩
  · exact h.mono (List.subset_append_left _ _) key e hin
  · exact ⟨rfl, hkey, List.mem_append_right _ hs⟩

theorem HoldsStored.prune (h : HoldsStored stored messageCache)
    (currentKeys : List MessageStateKey) :
    HoldsStored stored (pruneRemovedKeys currentKeys messageCache) :=
  fun key e he => h key e (mem_pruneRemovedKeys he)

/-- The lookup at a slot finds the newest entry of the slot. -/
theorem HoldsStored.retrieve_atSlot (h : HoldsStored stored messageCache) {key : MessageStateKey}
    (hm : retrieveMessageState messageCache key (.atSlot slot) = some m) :
    m ∈ stored ∧ m.key = key ∧ m.slot = slot ∧
      ∀ t ∈ (messageCache.of key).keys, t.slot = slot → t ≤ m.time := by
  rw [retrieve_of] at hm
  obtain ⟨e, hfind, rfl⟩ := Option.map_eq_some_iff.mp hm
  obtain ⟨hin, hslot, hgreatest⟩ := SortedMap.findLast_greatest hfind
  obtain ⟨htime, hkey, hstored⟩ := h key e hin
  have hatslot : e.1.slot = slot := of_decide_eq_true hslot
  rw [htime] at hatslot
  refine ⟨hstored, hkey, hatslot, fun t ht hsame => ?_⟩
  obtain ⟨v, hv⟩ := SortedMap.mem_keys.mp ht
  rw [← htime]
  exact hgreatest _ hv (decide_eq_true hsame)

/-- A feed with a message of any type is one of the price feeds. -/
theorem getPriceFeedIds_of_isSome {type : MessageType}
    (hid : id ≠ PUBLISHER_STAKE_CAPS_MESSAGE_FEED_ID)
    (h : (messageCache ⟨id, type⟩).isSome = true) : getPriceFeedIds messageCache id = true := by
  have htype : type ∈ MessageStateFilter.all.messageTypes := by
    cases type <;> decide
  exact Bool.and_eq_true_iff.mpr ⟨decide_eq_true hid, List.any_eq_true.mpr ⟨type, htype, h⟩⟩

theorem isSome_of_retrieve {key : MessageStateKey} {requestTime : RequestTime}
    (h : retrieveMessageState messageCache key requestTime = some m) :
    (messageCache key).isSome = true := by
  unfold retrieveMessageState at h
  split at h
  · next keyCache hcache => rw [hcache, Option.isSome_some]
  · cases h

theorem isSome_of_mem_keys {key : MessageStateKey} {time : MessageStateTime}
    (h : time ∈ (messageCache.of key).keys) : (messageCache key).isSome = true := by
  unfold MessageCache.of at h
  cases hcache : messageCache key with
  | none =>
    rw [hcache] at h
    cases h
  | some keyCache => rfl

end Lookup

section Lookups

variable {messageCaches : Nat → MessageCache} {stored : List MessageState} {slot : Slot}
  {id : FeedId} {m : MessageState}

theorem Found.unique {m' : MessageState} (h : Found messageCaches slot id m)
    (h' : Found messageCaches slot id m') : m = m' :=
  Option.some.inj ((h.found 0).symm.trans (h'.found 0))

theorem Found.available (h : Found messageCaches slot id m)
    (hid : id ≠ PUBLISHER_STAKE_CAPS_MESSAGE_FEED_ID) (n : Nat) :
    getPriceFeedIds (messageCaches n) id = true :=
  getPriceFeedIds_of_isSome hid (isSome_of_retrieve (h.found n))

theorem Found.feedId (h : Found messageCaches slot id m)
    (hheld : ∀ n, HoldsStored stored (messageCaches n)) : m.message.feedId = id := by
  obtain ⟨-, hkey, -⟩ := (hheld 0).retrieve_atSlot (h.found 0)
  exact congrArg MessageStateKey.feedId hkey

theorem Found.priceMessageAt (h : Found messageCaches slot id m)
    (hheld : ∀ n, HoldsStored stored (messageCaches n))
    (hcached : SlotCached messageCaches stored slot) : PriceMessageAt stored slot id m := by
  obtain ⟨hmem, hkey, hslot, hnewest⟩ := (hheld 0).retrieve_atSlot (h.found 0)
  refine ⟨hmem, hkey, hslot, fun m' hm' hsame hslot' => ?_⟩
  have htype : m'.message.type = .priceFeedMessage :=
    congrArg MessageStateKey.type (hsame.trans hkey)
  have hin := hcached m' hm' hslot' htype 0
  rw [hsame, hkey] at hin
  exact hnewest m'.time hin hslot'

/-- An answerable feed with a message at the slot is one that all lookups find. -/
theorem Answerable.found (h : Answerable messageCaches slot id)
    (hid : id ≠ PUBLISHER_STAKE_CAPS_MESSAGE_FEED_ID)
    (hcached : SlotCached messageCaches stored slot) (hat : FeedAt stored slot id) :
    ∃ m, Found messageCaches slot id m := by
  rcases h with hfound | hgone
  · exact hfound
  · obtain ⟨m, hm, hkey, hslot⟩ := hat
    have htype : m.message.type = .priceFeedMessage := congrArg MessageStateKey.type hkey
    have hin := hcached m hm hslot htype 0
    rw [hkey] at hin
    have havailable := getPriceFeedIds_of_isSome hid (isSome_of_mem_keys hin)
    rw [hgone 0] at havailable
    cases havailable

theorem Found.feedAt (h : Found messageCaches slot id m)
    (hheld : ∀ n, HoldsStored stored (messageCaches n)) : FeedAt stored slot id := by
  obtain ⟨hmem, hkey, hslot, -⟩ := (hheld 0).retrieve_atSlot (h.found 0)
  exact ⟨m, hmem, hkey, hslot⟩

end Lookups

/-! ## What a query answers -/

section Query

variable {messageCaches : Nat → MessageCache} {stored : List MessageState} {slot : Slot}
  {ids : List FeedId}

/-- The messages of an answer were found one by one. -/
theorem fetchMessageStates_eq_ok {type : MessageType} {requestTime : RequestTime}
    {messages : List MessageState}
    (h : fetchMessageStates messageCaches ids requestTime (.only type) = .ok messages) :
    List.Forall₂ (fun id m => ∃ n, retrieveMessageState (messageCaches n) ⟨id, type⟩ requestTime =
      some m) ids messages := by
  have hkeys : ids.flatMap (fun id => (MessageStateFilter.only type).messageTypes.map
      fun type => (⟨id, type⟩ : MessageStateKey)) = ids.map (⟨·, type⟩) :=
    List.flatMap_pure_eq_map _ ids
  have hall := except_mapM_eq_ok.mp h
  rw [hkeys] at hall
  have hfound : List.Forall₂ (fun key m => ∃ n,
      retrieveMessageState (messageCaches n) key requestTime = some m)
      (((ids.map (⟨·, type⟩)).zipIdx).map Prod.fst) messages := by
    refine List.forall₂_map_left_iff.mpr (hall.imp ?_)
    rintro ⟨key, n⟩ m hm
    dsimp only at hm
    split at hm
    · next found hfound =>
      cases hm
      exact ⟨n, hfound⟩
    · cases hm
  rwa [List.zipIdx_map_fst, List.forall₂_map_left_iff] at hfound

/-- Feeds that all lookups find are fetched, at whatever lookups. -/
theorem exists_fetched (h : ∀ id ∈ ids, ∃ m, Found messageCaches slot id m) (look : Nat → Nat) :
    ∃ messages, fetchMessageStates (fun n => messageCaches (look n)) ids (.atSlot slot)
        (.only .priceFeedMessage) = .ok messages ∧
      List.Forall₂ (Found messageCaches slot) ids messages := by
  obtain ⟨messages, hfetch⟩ : ∃ messages, fetchMessageStates (fun n => messageCaches (look n)) ids
      (.atSlot slot) (.only .priceFeedMessage) = .ok messages := by
    refine exists_mapM_eq_ok ?_
    rintro ⟨key, n⟩ hlookup
    obtain ⟨id, hid, hkey⟩ := List.mem_flatMap.mp (List.fst_mem_of_mem_zipIdx hlookup)
    obtain rfl : key = ⟨id, .priceFeedMessage⟩ := List.mem_singleton.mp hkey
    obtain ⟨m, hm⟩ := h id hid
    exact ⟨m, by simp only [hm.found]⟩
  have hall := (List.forall₂_and_left ids messages).mpr ⟨h, fetchMessageStates_eq_ok hfetch⟩
  refine ⟨messages, hfetch, hall.imp ?_⟩
  rintro id m ⟨⟨m', hm'⟩, n, hm⟩
  obtain rfl : m' = m := Option.some.inj ((hm'.found (look n)).symm.trans hm)
  exact hm'

/-- The price feed of a message state is its message. -/
theorem priceFeedUpdate_delivers {m : MessageState} {update : PriceFeedUpdate}
    (hlimits : (RawMessageWithMerkleProof.fromMessageState m).WithinLimits)
    (h : priceFeedUpdate m = .ok update) :
    ∃ msg updateData, m.message = .priceFeedMessage msg ∧
      Delivers [.fromMessageState m] updateData ∧
      update = {
        priceFeed := {
          id := msg.feedId
          price := ⟨msg.price, msg.conf, msg.exponent, msg.publishTime⟩
          emaPrice := ⟨msg.emaPrice, msg.emaConf, msg.exponent, msg.publishTime⟩ }
        receivedAt := some m.receivedAt
        slot := some m.slot
        updateData := some updateData
        prevPublishTime := some msg.prevPublishTime } := by
  unfold priceFeedUpdate at h
  split at h
  · next msg hmessage =>
    obtain ⟨updateData, hdata, h⟩ := except_bind_eq_ok.mp h
    split at h
    · cases h
    · next first hfirst =>
      cases h
      obtain ⟨batches, result, hresult, hsorted, hdelivers⟩ :=
        construct_update_data_exact (List.forall_mem_singleton.mpr hlimits)
      cases (updateDataOf_eq_ok.mp hdata).symm.trans hresult
      have hflatten : batches.flatten = [.fromMessageState m] := List.perm_singleton.mp hsorted.perm
      obtain ⟨rest, rfl⟩ := List.head?_eq_some_iff.mp hfirst
      cases hdelivers with
      | cons hbatch hrest =>
        rename_i batch batches
        -- The first batch is not empty, so it has the one message.
        obtain ⟨first', hhead, -⟩ := hbatch.parsed
        obtain ⟨tail, rfl⟩ := List.head?_eq_some_iff.mp hhead
        rw [List.flatten_cons, List.cons_append] at hflatten
        obtain ⟨rfl, hnil⟩ := List.cons.inj hflatten
        obtain ⟨rfl, -⟩ := List.append_eq_nil_iff.mp hnil
        exact ⟨msg, first, hmessage, hbatch, rfl⟩
  · cases h

/-- The answer to a query that found the messages. -/
structure Answers (messages : List MessageState) (answer : PriceFeedsWithUpdateData) : Prop where
  priceFeeds : List.Forall₂ (fun m update => priceFeedUpdate m = .ok update) messages
    answer.priceFeeds
  updateData : ∃ batches,
    batches.flatten = messages.map RawMessageWithMerkleProof.fromMessageState ∧
    List.Forall₂ Delivers batches answer.updateData

variable (api : Api)

theorem query_answers (hheld : ∀ n, HoldsStored stored (messageCaches n))
    (h : ∀ id ∈ ids, ∃ m, Found messageCaches slot id m) (look : Nat → Nat) :
    ∃ messages answer, List.Forall₂ (Found messageCaches slot) ids messages ∧
      Answers messages answer ∧
      api.getPriceFeedsWithUpdateData (fun n => messageCaches (look n)) ids (.atSlot slot) =
        .ok answer := by
  obtain ⟨messages, hfetch, hfound⟩ := exists_fetched h look
  have hlimits : ∀ m ∈ messages, (RawMessageWithMerkleProof.fromMessageState m).WithinLimits ∧
      m.message.type = .priceFeedMessage ∧ m.slot = slot := by
    intro m hm
    obtain ⟨id, -, hid⟩ := exists_left_of_forall₂ hfound hm
    obtain ⟨-, hkey, hslot, -⟩ := (hheld 0).retrieve_atSlot (hid.found 0)
    exact ⟨hid.limits, congrArg MessageStateKey.type hkey, hslot⟩
  obtain ⟨priceFeeds, hfeeds⟩ := exists_mapM_eq_ok fun m hm =>
    exists_priceFeedUpdate (hlimits m hm).2.1 (hlimits m hm).1
  obtain ⟨batches, updateData, hresult, hsorted, hdelivers⟩ := construct_update_data_exact
    (List.forall_mem_map.mpr fun m hm => (hlimits m hm).1)
  have hdata : updateDataOf messages = .ok updateData := updateDataOf_eq_ok.mpr hresult
  refine ⟨messages, { priceFeeds, updateData }, hfound,
    ⟨except_mapM_eq_ok.mp hfeeds, batches, ?_, hdelivers⟩, ?_⟩
  · exact hsorted.eq_of_forall (List.forall_mem_map.mpr fun m hm => (hlimits m hm).2.2)
  · simp only [Api.getPriceFeedsWithUpdateData, getVerifiedPriceFeeds, hfetch, hfeeds, hdata,
      except_ok_bind]
    rfl

/-- One feed that no lookup finds is enough for the query to fail. -/
theorem query_fails {id : FeedId} (hid : id ∈ ids)
    (h : ∀ n,
      retrieveMessageState (messageCaches n) ⟨id, .priceFeedMessage⟩ (.atSlot slot) = none) :
    ∃ e, api.getPriceFeedsWithUpdateData messageCaches ids (.atSlot slot) = .error e := by
  refine except_eq_error.mpr fun answer hanswer => ?_
  have hverified : getVerifiedPriceFeeds messageCaches ids (.atSlot slot) = .ok answer := by
    unfold Api.getPriceFeedsWithUpdateData at hanswer
    split at hanswer
    · next answer' hok =>
      cases hanswer
      exact hok
    · cases hanswer
  obtain ⟨messages, hfetch, -⟩ := except_bind_eq_ok.mp hverified
  obtain ⟨m, -, n, hm⟩ := exists_right_of_forall₂ (fetchMessageStates_eq_ok hfetch) hid
  rw [h n] at hm
  cases hm

end Query

/-! ## One event for the subscriber -/

theorem PriceFeedsWithConfig.lookup_retain {p : FeedId → Bool} {feeds : PriceFeedsWithConfig}
    {id : FeedId} {config : PriceFeedClientConfig} :
    (feeds.retain p).lookup id = some config ↔ feeds.lookup id = some config ∧ p id = true := by
  have hmem : ∀ feeds : PriceFeedsWithConfig, feeds.lookup id = some config ↔
      (⟨id, config⟩ : Sigma fun _ => PriceFeedClientConfig) ∈ feeds.entries :=
    fun feeds => AList.mem_lookup_iff
  rw [hmem, hmem, retain, List.mem_filter]

theorem mem_iff_lookup {feeds : PriceFeedsWithConfig} {id : FeedId} :
    id ∈ feeds ↔ ∃ config, feeds.lookup id = some config := by
  rw [← AList.lookup_isSome, Option.isSome_iff_exists]

section Handle

variable {api : Api} {order : IterationOrder} {messageCaches : Nat → MessageCache}
  {stored : List MessageState} {slot : Slot} {event : AggregationEvent}
  {feeds : PriceFeedsWithConfig}

variable (api order) in
/-- The query answers for the feeds that the lookups find, and only these stay. -/
theorem queryFeeds_answers (hheld : ∀ n, HoldsStored stored (messageCaches n))
    (hids : ∀ id ∈ feeds, id ≠ PUBLISHER_STAKE_CAPS_MESSAGE_FEED_ID)
    (hanswerable : ∀ id ∈ feeds, Answerable messageCaches slot id) :
    ∃ feeds' messages answer, api.queryFeeds order messageCaches slot feeds = .ok (feeds', answer) ∧
      (∀ id config, feeds'.lookup id = some config ↔
        feeds.lookup id = some config ∧ ∃ m, Found messageCaches slot id m) ∧
      List.Forall₂ (Found messageCaches slot) (order.order feeds'.keys) messages ∧
      Answers messages answer := by
  unfold Api.queryFeeds
  by_cases hall : ∀ id ∈ feeds, ∃ m, Found messageCaches slot id m
  · have hfound : ∀ id ∈ order.order feeds.keys, ∃ m, Found messageCaches slot id m :=
      fun id hid => hall id (AList.mem_keys.mpr ((order.perm _).mem_iff.mp hid))
    obtain ⟨messages, answer, hmessages, hanswers, hquery⟩ :=
      query_answers api hheld hfound fun n => n
    refine ⟨feeds, messages, answer, by simp only [hquery], fun id config => ?_, hmessages,
      hanswers⟩
    exact ⟨fun h => ⟨h, hall id (mem_iff_lookup.mpr ⟨config, h⟩)⟩, And.left⟩
  · -- The first query fails for a feed that is gone, and the second leaves out all such feeds.
    obtain ⟨id, hid⟩ := not_forall.mp hall
    obtain ⟨hid, hmissing⟩ := Classical.not_imp.mp hid
    have hgone := (hanswerable id hid).resolve_left hmissing
    have hnone : ∀ n, retrieveMessageState (messageCaches n) ⟨id, .priceFeedMessage⟩
        (.atSlot slot) = none := by
      refine fun n => Option.eq_none_iff_forall_ne_some.mpr fun m hm => ?_
      have havailable := getPriceFeedIds_of_isSome (hids id hid) (isSome_of_retrieve hm)
      rw [hgone n] at havailable
      cases havailable
    obtain ⟨e, he⟩ := query_fails api
      ((order.perm feeds.keys).mem_iff.mpr (AList.mem_keys.mp hid)) hnone
    simp only [he]
    have hretained : ∀ id config n,
        (feeds.retain (getPriceFeedIds (messageCaches n))).lookup id = some config ↔
          feeds.lookup id = some config ∧ ∃ m, Found messageCaches slot id m := by
      intro id config n
      rw [PriceFeedsWithConfig.lookup_retain]
      refine and_congr_right fun hlookup => ?_
      have hmem := mem_iff_lookup.mpr ⟨config, hlookup⟩
      constructor
      · intro havailable
        refine (hanswerable id hmem).resolve_right fun hgone => ?_
        rw [hgone n] at havailable
        cases havailable
      · rintro ⟨m, hm⟩
        exact hm.available (hids id hmem) n
    have hfound : ∀ id ∈ order.order (feeds.retain (getPriceFeedIds
        (messageCaches (order.order feeds.keys).length))).keys,
        ∃ m, Found messageCaches slot id m := by
      intro id hid
      obtain ⟨config, hlookup⟩ := mem_iff_lookup.mp
        (AList.mem_keys.mpr ((order.perm _).mem_iff.mp hid))
      exact ((hretained id config _).mp hlookup).2
    obtain ⟨messages, answer, hmessages, hanswers, hquery⟩ := query_answers api hheld hfound
      fun n => (order.order feeds.keys).length + 1 + n
    exact ⟨_, messages, answer, by simp only [hquery], fun id config => hretained id config _,
      hmessages, hanswers⟩

variable (api event messageCaches feeds) in
/-- What the event sends for one feed. -/
def Sends (id : FeedId) (sent : Option RpcPriceFeed) : Prop :=
  ∃ m config priceFeed, Found messageCaches event.slot id m ∧ feeds.lookup id = some config ∧
    api.Carries config m priceFeed ∧ priceFeed.id = id ∧
    sent = if event.isOutOfOrder && !config.allowOutOfOrder then none else some priceFeed

variable (api) in
theorem priceUpdateMessage_sends (hheld : ∀ n, HoldsStored stored (messageCaches n)) {id : FeedId}
    {m : MessageState} {update : PriceFeedUpdate} {config : PriceFeedClientConfig}
    (hfound : Found messageCaches event.slot id m) (hupdate : priceFeedUpdate m = .ok update)
    (hlookup : feeds.lookup id = some config) :
    ∃ sent, api.priceUpdateMessage event feeds update = .ok (sent.map .priceUpdate) ∧
      Sends api messageCaches event feeds id sent := by
  obtain ⟨msg, updateData, hmessage, hdelivers, rfl⟩ :=
    priceFeedUpdate_delivers hfound.limits hupdate
  have hid : msg.feedId = id := by
    have hfeed := hfound.feedId hheld
    rwa [hmessage] at hfeed
  refine ⟨_, ?_, m, config, _, hfound, hlookup, ⟨msg, updateData, hmessage, hdelivers, rfl⟩, hid,
    rfl⟩
  have hconfig : feeds.lookup msg.feedId = some config := by
    rw [hid]
    exact hlookup
  simp only [Api.priceUpdateMessage, hconfig]
  split
  · rfl
  · rfl

variable (api) in
/-- The loop sends for each of the feeds. -/
theorem messages_send (hheld : ∀ n, HoldsStored stored (messageCaches n)) {ids : List FeedId}
    {messages : List MessageState} {answer : PriceFeedsWithUpdateData}
    (hfound : List.Forall₂ (Found messageCaches event.slot) ids messages)
    (hanswers : Answers messages answer) (hids : ∀ id ∈ ids, id ∈ feeds) :
    ∃ sent : List (Option RpcPriceFeed),
      answer.priceFeeds.mapM (api.priceUpdateMessage event feeds) =
        .ok (sent.map (Option.map .priceUpdate)) ∧
      List.Forall₂ (Sends api messageCaches event feeds) ids sent := by
  have hall := (List.forall₂_and_left ids answer.priceFeeds).mpr
    ⟨hids, forall₂_comp hfound hanswers.priceFeeds⟩
  simp only [except_mapM_eq_ok, List.forall₂_map_right_iff]
  generalize answer.priceFeeds = updates at hall
  clear hfound hanswers hids
  induction hall with
  | nil => exact ⟨[], .nil, .nil⟩
  | cons h _ ih =>
    obtain ⟨hid, m, hm, hupdate⟩ := h
    obtain ⟨config, hlookup⟩ := mem_iff_lookup.mp hid
    obtain ⟨sent, hsent, hsends⟩ := priceUpdateMessage_sends api hheld hm hupdate hlookup
    obtain ⟨rest, hrest, hsendsRest⟩ := ih
    exact ⟨sent :: rest, .cons hsent hrest, .cons hsends hsendsRest⟩

/-- At most one price feed is sent for each feed. -/
theorem Sends.sublist {ids : List FeedId} {sent : List (Option RpcPriceFeed)}
    (h : List.Forall₂ (Sends api messageCaches event feeds) ids sent) :
    (sent.reduceOption.map (·.id)).Sublist ids := by
  induction h with
  | nil => exact .slnil
  | cons h _ ih =>
    obtain ⟨m, config, priceFeed, -, -, -, rfl, rfl⟩ := h
    split
    · rw [List.reduceOption_cons_of_none]
      exact ih.cons _
    · rw [List.reduceOption_cons_of_some]
      exact ih.cons_cons _

/-- The event sends exactly what it owes, if the subscriber still has all feeds of the client
that have a message at the slot. -/
theorem sentExactly (hheld : ∀ n, HoldsStored stored (messageCaches n))
    (hcached : SlotCached messageCaches stored event.slot) {ids : List FeedId} (hnodup : ids.Nodup)
    {subscribed : FeedId → Option PriceFeedClientConfig}
    (hids : ∀ id, id ∈ ids ↔ subscribed id ≠ none ∧ ∃ m, Found messageCaches event.slot id m)
    (hconfig : ∀ id config, feeds.lookup id = some config → subscribed id = some config)
    (hfeedAt : ∀ id, subscribed id ≠ none → FeedAt stored event.slot id →
      ∃ m, Found messageCaches event.slot id m)
    {sent : List (Option RpcPriceFeed)}
    (hsends : List.Forall₂ (Sends api messageCaches event feeds) ids sent) :
    api.SentExactly stored subscribed event sent.reduceOption := by
  have hsent : ∀ priceFeed ∈ sent.reduceOption, ∃ id ∈ ids,
      Sends api messageCaches event feeds id (some priceFeed) := fun priceFeed hmem =>
    exists_left_of_forall₂ hsends (List.reduceOption_mem_iff.mp hmem)
  refine ⟨(Sends.sublist hsends).nodup hnodup, fun id => ?_, fun priceFeed hmem => ?_⟩
  · constructor
    · intro hmem
      obtain ⟨priceFeed, hin, rfl⟩ := List.mem_map.mp hmem
      obtain ⟨id, -, m, config, priceFeed', hfound, hlookup, -, hid, heq⟩ := hsent priceFeed hin
      split at heq
      · cases heq
      · next hallowed =>
        cases heq
        rw [hid]
        refine ⟨hfound.feedAt hheld, config, hconfig _ _ hlookup, fun houtOfOrder => ?_⟩
        simpa [houtOfOrder] using hallowed
    · rintro ⟨hat, config, hsubscribed, hallowed⟩
      have hsome : subscribed id ≠ none := by
        rw [hsubscribed]
        exact nofun
      have hin := (hids id).mpr ⟨hsome, hfeedAt id hsome hat⟩
      obtain ⟨out, hout, m, config', priceFeed, hfound, hlookup, hcarries, hid, rfl⟩ :=
        exists_right_of_forall₂ hsends hin
      cases hsubscribed.symm.trans (hconfig _ _ hlookup)
      rw [if_neg (by simpa using hallowed)] at hout
      exact List.mem_map.mpr ⟨priceFeed, List.reduceOption_mem_iff.mpr hout, hid⟩
  · obtain ⟨id, -, m, config, priceFeed', hfound, hlookup, hcarries, hid, heq⟩ :=
      hsent priceFeed hmem
    split at heq
    · cases heq
    · cases heq
      rw [hid]
      exact ⟨config, m, hconfig _ _ hlookup, hfound.priceMessageAt hheld hcached, hcarries⟩

end Handle

/-! ## One event for the SSE stream -/

section Sse

variable {api : Api} {messageCaches : Nat → MessageCache} {stored : List MessageState}
  {slot : Slot} {event : AggregationEvent} {options : StreamOptions} {messages : List MessageState}
  {answer : PriceFeedsWithUpdateData} {ids : List FeedId}

theorem Answers.parses (h : Answers messages answer)
    (hlimits : ∀ m ∈ messages, (RawMessageWithMerkleProof.fromMessageState m).WithinLimits) :
    List.Forall₂ ParsedPriceUpdate.Parses messages
      (answer.priceFeeds.map ParsedPriceUpdate.ofPriceFeedUpdate) := by
  refine List.forall₂_map_right_iff.mpr ?_
  refine ((List.forall₂_and_left messages answer.priceFeeds).mpr ⟨hlimits, h.priceFeeds⟩).imp ?_
  rintro m update ⟨hm, hupdate⟩
  obtain ⟨msg, updateData, hmessage, -, rfl⟩ := priceFeedUpdate_delivers hm hupdate
  exact ⟨msg, hmessage, rfl⟩

theorem StreamOptions.wants_of_benchmarksOnly (h : options.benchmarksOnly = true)
    {m : MessageState} {parsed : ParsedPriceUpdate} (hparses : parsed.Parses m) :
    options.wants m = parsed.isBenchmark := by
  obtain ⟨msg, hmessage, rfl⟩ := hparses
  simp [wants, hmessage, h, ParsedPriceUpdate.isBenchmark]

variable (messageCaches slot) in
/-- The feeds of an update, their messages, and the answers for these. -/
structure Selects (ids : List FeedId) (messages : List MessageState)
    (parsed : List ParsedPriceUpdate) (answer : PriceFeedsWithUpdateData) : Prop where
  found : List.Forall₂ (Found messageCaches slot) ids messages
  parses : List.Forall₂ ParsedPriceUpdate.Parses messages parsed
  answers : Answers messages answer

variable (api) in
theorem query_selects (hheld : ∀ n, HoldsStored stored (messageCaches n))
    (h : ∀ id ∈ ids, ∃ m, Found messageCaches slot id m) (look : Nat → Nat) :
    ∃ messages answer,
      Selects messageCaches slot ids messages
        (answer.priceFeeds.map ParsedPriceUpdate.ofPriceFeedUpdate) answer ∧
      api.getPriceFeedsWithUpdateData (fun n => messageCaches (look n)) ids (.atSlot slot) =
        .ok answer := by
  obtain ⟨messages, answer, hfound, hanswers, hquery⟩ := query_answers api hheld h look
  refine ⟨messages, answer, ⟨hfound, hanswers.parses fun m hm => ?_, hanswers⟩, hquery⟩
  obtain ⟨id, -, hid⟩ := exists_left_of_forall₂ hfound hm
  exact hid.limits

theorem Found.parsed_id (hheld : ∀ n, HoldsStored stored (messageCaches n)) {id : FeedId}
    {m : MessageState} {parsed : ParsedPriceUpdate} (h : Found messageCaches slot id m)
    (hparses : parsed.Parses m) : parsed.id = id := by
  obtain ⟨msg, hmessage, rfl⟩ := hparses
  have hfeed := h.feedId hheld
  rwa [hmessage] at hfeed

theorem StreamOptions.wants_of_parses (h : options.benchmarksOnly = false)
    {m : MessageState} {parsed : ParsedPriceUpdate} (hparses : parsed.Parses m) :
    options.wants m = true := by
  obtain ⟨msg, hmessage, -⟩ := hparses
  simp [wants, hmessage, h]

variable (api options) in
/-- What stays are the messages that the stream wants. -/
theorem retainBenchmarks_selects (hheld : ∀ n, HoldsStored stored (messageCaches n))
    {parsed : List ParsedPriceUpdate} (h : Selects messageCaches slot ids messages parsed answer)
    (look : Nat → Nat) :
    ∃ ids' parsed' answer',
      api.retainBenchmarks (fun n => messageCaches (look n)) slot options.benchmarksOnly ids parsed
        answer = .ok (ids', parsed', answer') ∧
      Selects messageCaches slot ids' (messages.filter options.wants) parsed' answer' := by
  unfold Api.retainBenchmarks
  by_cases hbenchmarks : options.benchmarksOnly = true
  swap
  · have hall : messages.filter options.wants = messages := by
      refine List.filter_eq_self.mpr fun m hm => ?_
      obtain ⟨parsed, -, hparses⟩ := exists_right_of_forall₂ h.parses hm
      exact options.wants_of_parses (Bool.eq_false_of_not_eq_true hbenchmarks) hparses
    rw [if_neg hbenchmarks, hall]
    exact ⟨ids, parsed, answer, rfl, h⟩
  rw [if_pos hbenchmarks]
  have hparsed : List.Forall₂ ParsedPriceUpdate.Parses (messages.filter options.wants)
      (parsed.filter ParsedPriceUpdate.isBenchmark) := by
    refine List.rel_filter (fun m p hparses => ?_) h.parses
    show options.wants m = true ↔ p.isBenchmark = true
    rw [options.wants_of_benchmarksOnly hbenchmarks hparses]
  -- A feed is retained when its message is a benchmark.
  have hretained : ∀ id m, id ∈ ids ∧ Found messageCaches slot id m →
      ((parsed.filter ParsedPriceUpdate.isBenchmark).any (·.id = id) = true ↔
        options.wants m = true) := by
    rintro id m ⟨hid, hfound⟩
    obtain ⟨m', hmem, hfound'⟩ := exists_right_of_forall₂ h.found hid
    obtain rfl : m = m' := hfound.unique hfound'
    constructor
    · intro hany
      obtain ⟨p, hp, hsame⟩ := List.any_eq_true.mp hany
      obtain ⟨benchmark, hin, hparses⟩ := exists_left_of_forall₂ hparsed hp
      obtain ⟨id', -, hother⟩ := exists_left_of_forall₂ h.found (List.mem_of_mem_filter hin)
      have hsameId : id' = id :=
        (hother.parsed_id hheld hparses).symm.trans (of_decide_eq_true hsame)
      rw [hsameId] at hother
      rw [hfound.unique hother]
      exact (List.mem_filter.mp hin).2
    · intro hwants
      obtain ⟨p, hp, hparses⟩ :=
        exists_right_of_forall₂ hparsed (List.mem_filter.mpr ⟨hmem, hwants⟩)
      exact List.any_eq_true.mpr ⟨p, hp, decide_eq_true (hfound.parsed_id hheld hparses)⟩
  have hkept := List.rel_filter hretained ((List.forall₂_and_left ids messages).mpr
    ⟨fun _ hid => hid, h.found⟩)
  have hfound := hkept.imp fun _ _ hboth => hboth.2
  obtain ⟨messages', answer', hselects, hquery⟩ := query_selects api hheld
    (fun id hid => (exists_right_of_forall₂ hfound hid).imp fun _ hm => hm.2) look
  obtain rfl : messages' = messages.filter options.wants :=
    List.right_unique_forall₂' (fun _ _ _ hm hm' => hm.unique hm') hselects.found hfound
  exact ⟨_, _, answer', except_bind_eq_ok.mpr ⟨answer', hquery, rfl⟩, hselects.found, hparsed,
    hselects.answers⟩

/-- An update of the selected feeds lists their messages. -/
theorem Selects.lists {parsed : List ParsedPriceUpdate}
    (h : Selects messageCaches slot ids messages parsed answer) :
    api.Lists options messages {
      binary := {
        encoding := options.encoding
        data := answer.updateData.map (api.encodeStr options.encoding) }
      parsed := if options.parsed then some parsed else none } := by
  obtain ⟨batches, hflatten, hdelivers⟩ := h.answers.updateData
  refine ⟨rfl, ⟨batches, answer.updateData, rfl, hflatten, hdelivers⟩, ?_⟩
  by_cases hparsed : options.parsed = true
  · simp only [hparsed, if_true]
    exact ⟨parsed, rfl, h.parses⟩
  · simp only [hparsed, Bool.false_eq_true, if_false]

/-- The stream delivers what it owes when it can answer for all of its feeds. -/
theorem sseDelivers (hheld : ∀ n, HoldsStored stored (messageCaches n))
    (hcached : SlotCached messageCaches stored event.slot)
    (hids : ∀ id ∈ ids, id ≠ PUBLISHER_STAKE_CAPS_MESSAGE_FEED_ID)
    (hanswerable : ∀ id ∈ ids, Answerable messageCaches event.slot id) :
    api.SseDelivers messageCaches stored event ids options := by
  have havailable : ids.filter (getPriceFeedIds (messageCaches 0)) =
      ids.filter fun id => FeedAt stored event.slot id := by
    refine List.filter_congr fun id hid => Bool.eq_iff_iff.mpr ?_
    rw [decide_eq_true_iff]
    constructor
    · intro h
      obtain ⟨m, hm⟩ := (hanswerable id hid).resolve_right fun hgone => by
        rw [hgone 0] at h
        cases h
      exact hm.feedAt hheld
    · intro hat
      obtain ⟨m, hm⟩ := (hanswerable id hid).found (hids id hid) hcached hat
      exact hm.available (hids id hid) 0
  have hfound : ∀ id ∈ ids.filter fun id => FeedAt stored event.slot id,
      ∃ m, Found messageCaches event.slot id m := by
    intro id hid
    obtain ⟨hmem, hat⟩ := List.mem_filter.mp hid
    exact (hanswerable id hmem).found (hids id hmem) hcached (of_decide_eq_true hat)
  obtain ⟨messages, answer, hselects, hquery⟩ := query_selects api hheld hfound
    fun n => 1 + n
  refine ⟨messages, hselects.found.imp fun id m hm => hm.priceMessageAt hheld hcached, ?_⟩
  by_cases hallows : options.allows event = true
  · have hopen : (event.isOutOfOrder && !options.allowUnordered) = false := by
      simpa [StreamOptions.allows, Bool.or_eq_true, imp_iff_not_or] using hallows
    obtain ⟨ids', parsed, answer', hselect, hselects'⟩ := retainBenchmarks_selects api
      options hheld hselects
      fun n => 1 + (ids.filter fun id => FeedAt stored event.slot id).length + n
    have hempty : ids' = [] ↔ messages.filter options.wants = [] := by
      rw [← List.length_eq_zero_iff, ← List.length_eq_zero_iff, hselects'.found.length_eq]
    have hevent : api.handleAggregationEvent messageCaches event ids options =
        if ids' = [] then .ok none else .ok (some {
          binary := {
            encoding := options.encoding
            data := answer'.updateData.map (api.encodeStr options.encoding) }
          parsed := if options.parsed then some parsed else none }) := by
      simp only [Api.handleAggregationEvent, hopen, Bool.false_eq_true, if_false, havailable,
        hquery, except_ok_bind, hselect]
      split
      · rfl
      · rfl
    by_cases hnone : messages.filter options.wants = []
    · rw [if_neg fun h => h.2 hnone, Api.sseEvent, hevent, if_pos (hempty.mpr hnone)]
    · rw [if_pos ⟨hallows, hnone⟩, Api.sseEvent, hevent, if_neg fun h => hnone (hempty.mp h)]
      exact ⟨_, rfl, hselects'.lists⟩
  · have hclosed : (event.isOutOfOrder && !options.allowUnordered) = true := by
      simpa [StreamOptions.allows] using hallows
    rw [if_neg fun h => hallows h.1, Api.sseEvent, Api.handleAggregationEvent, if_pos hclosed]

end Sse

/-! ## Runs of the service -/

section Service

variable {ι : Type} [DecidableEq ι] {P : Params} {api : Api} {σ σ' : Service ι}

namespace Service

/-- The cache holds what was stored, and the subscriber has feeds that the client asked for. -/
structure Sound (σ : Service ι) : Prop where
  cache : HoldsStored σ.stored σ.system.shared.messageCache
  feeds : ∀ id config, σ.priceFeedsWithConfig.lookup id = some config →
    σ.subscribed id = some config
  ids : ∀ id, σ.subscribed id ≠ none → id ≠ PUBLISHER_STAKE_CAPS_MESSAGE_FEED_ID

theorem Sound.task (h : σ.Sound) (i : ι) (now : UnixTimestamp) : (σ.task P i now).Sound := by
  refine ⟨?_, h.feeds, h.ids⟩
  show HoldsStored (σ.stored ++ (((σ.system.tasks i).building P now).map (·.2)).getD [])
    (σ.system.step P i now).shared.messageCache
  rcases step_cases P σ.system i now with
    ⟨slot, accumulatorMessages, wormholeMerkleState, messageStates, htask, hbuild, -, hcache, -⟩ |
    ⟨slot, messageStates, -, -, hshared⟩ | ⟨task, -, -, hcache, -⟩
  · have hbuilding : (σ.system.tasks i).building P now = some (slot, messageStates) := by
      simp only [htask, Task.building, hbuild, Except.toOption, Option.map_some]
    rw [hbuilding, hcache]
    exact h.cache.store messageStates P.cacheSize
  · refine HoldsStored.mono ?_ (List.subset_append_left _ _)
    rw [hshared]
    obtain ⟨hafter, -⟩ := updateAggregateState_cases now slot messageStates σ.system.shared
    rcases hafter with ⟨-, -, hcache | hcache⟩ | ⟨-, -, hcache⟩
    · rw [hcache]
      exact h.cache
    · rw [hcache]
      exact h.cache.prune _
    · rw [hcache]
      exact h.cache
  · rw [hcache]
    exact h.cache.mono (List.subset_append_left _ _)

/-- Tasks leave the connection alone, and add to what is stored. -/
structure Extends (σ σ' : Service ι) : Prop where
  stored : σ.stored ⊆ σ'.stored
  subscribed : σ'.subscribed = σ.subscribed
  feeds : σ'.priceFeedsWithConfig = σ.priceFeedsWithConfig
  closed : σ'.closed = σ.closed

theorem TaskRun.sound (hrun : TaskRun P σ σ') (h : σ.Sound) : σ'.Sound ∧ Extends σ σ' := by
  induction hrun with
  | refl => exact ⟨h, fun _ hm => hm, rfl, rfl, rfl⟩
  | tail _ hstep ih =>
    obtain ⟨hsound, hextends⟩ := ih
    obtain ⟨i, now, rfl⟩ := hstep
    exact ⟨hsound.task i now, fun _ hm => List.mem_append_left _ (hextends.stored hm),
      hextends.subscribed, hextends.feeds, hextends.closed⟩

/-- Every lookup finds a cache with message states that are stored in the end. -/
theorem Looks.holds {messageCaches : Nat → MessageCache} (h : Looks P σ messageCaches σ')
    (hsound : σ.Sound) (n : Nat) : HoldsStored σ'.stored (messageCaches n) := by
  obtain ⟨between, hbefore, hafter, hcache⟩ := h.seen n
  obtain ⟨hbetween, -⟩ := hbefore.sound hsound
  obtain ⟨-, hextends⟩ := hafter.sound hbetween
  rw [hcache]
  exact hbetween.cache.mono hextends.stored

end Service

theorem lookup_insertAll {config : PriceFeedClientConfig} {id : FeedId} (ids : List FeedId)
    (feeds : PriceFeedsWithConfig) :
    (ids.foldl (fun feeds id => feeds.insert id config) feeds).lookup id =
      if ids.contains id then some config else feeds.lookup id := by
  induction ids generalizing feeds with
  | nil => rfl
  | cons id' ids ih =>
    rw [List.foldl_cons, ih]
    rcases eq_or_ne id id' with rfl | hne
    · rw [AList.lookup_insert, if_pos (List.contains_iff_mem.mpr List.mem_cons_self), ite_self]
    · simp only [AList.lookup_insert_ne hne, List.contains_iff_mem, List.mem_cons, hne, false_or]

theorem lookup_eraseAll {id : FeedId} (ids : List FeedId) (feeds : PriceFeedsWithConfig) :
    (ids.foldl (fun feeds id => feeds.erase id) feeds).lookup id =
      if ids.contains id then none else feeds.lookup id := by
  induction ids generalizing feeds with
  | nil => rfl
  | cons id' ids ih =>
    rw [List.foldl_cons, ih]
    rcases eq_or_ne id id' with rfl | hne
    · rw [AList.lookup_erase, if_pos (List.contains_iff_mem.mpr List.mem_cons_self), ite_self]
    · simp only [AList.lookup_erase_ne hne, List.contains_iff_mem, List.mem_cons, hne, false_or]

omit [DecidableEq ι] in
/-- A message is refused, or changes the feeds of the subscriber as it changes what the client
has asked for. -/
theorem Service.message_cases (σ : Service ι) (message : ClientMessage) :
    ((σ.message message).subscribed = σ.subscribed ∧
      (σ.message message).priceFeedsWithConfig = σ.priceFeedsWithConfig) ∨
    ((σ.message message).subscribed = message.ask σ.subscribed ∧
      (∀ id, (σ.message message).priceFeedsWithConfig.lookup id =
        message.ask (fun id => σ.priceFeedsWithConfig.lookup id) id) ∧
      ∀ ids config, message = .subscribe ids config →
        ∀ id ∈ ids, id ≠ PUBLISHER_STAKE_CAPS_MESSAGE_FEED_ID) := by
  unfold Service.message
  cases message with
  | subscribe ids config =>
    by_cases hall : (ids.filter fun id => !getPriceFeedIds σ.system.shared.messageCache id) = []
    · rw [handleClientMessage, if_neg (not_not.mpr hall)]
      dsimp only
      refine .inr ⟨if_pos rfl, fun id => lookup_insertAll ids _, fun ids' config' heq id hid => ?_⟩
      cases heq
      -- Every id of the message was found, and the one of the stake caps never is.
      rintro rfl
      have hfound := List.filter_eq_nil_iff.mp hall _ hid
      simp [getPriceFeedIds] at hfound
    · rw [handleClientMessage, if_pos hall]
      dsimp only
      exact .inl ⟨if_neg (fun h => nomatch h), rfl⟩
  | unsubscribe ids =>
    rw [handleClientMessage]
    dsimp only
    exact .inr ⟨if_pos rfl, fun id => lookup_eraseAll ids _, nofun⟩

omit [DecidableEq ι] in
theorem Service.Sound.message (h : σ.Sound) (message : ClientMessage) :
    (σ.message message).Sound := by
  rcases σ.message_cases message with ⟨hsubscribed, hfeeds⟩ | ⟨hsubscribed, hfeeds, hids⟩
  · refine ⟨h.cache, ?_, ?_⟩
    · rw [hsubscribed, hfeeds]
      exact h.feeds
    · rw [hsubscribed]
      exact h.ids
  · refine ⟨h.cache, fun id config => ?_, fun id => ?_⟩
    · rw [hsubscribed, hfeeds]
      unfold ClientMessage.ask
      cases message with
      | subscribe ids config' =>
        dsimp only
        split
        · exact fun hconfig => hconfig
        · exact h.feeds id config
      | unsubscribe ids =>
        dsimp only
        split
        · exact fun hconfig => hconfig
        · exact h.feeds id config
    · rw [hsubscribed]
      unfold ClientMessage.ask
      cases message with
      | subscribe ids config' =>
        dsimp only
        split
        · next hmem => exact fun _ => hids ids config' rfl id (List.contains_iff_mem.mp hmem)
        · exact h.ids id
      | unsubscribe ids =>
        dsimp only
        split
        · exact fun hnone => absurd rfl hnone
        · exact h.ids id

/-- An event that is handled under the condition delivers what it owes. -/
theorem Service.Reads.delivers {event : AggregationEvent} {messageCaches : Nat → MessageCache}
    (h : Service.Reads P σ event messageCaches σ') (hsound : σ.Sound)
    (hclear : Service.Clear σ event messageCaches σ') (order : IterationOrder) :
    (σ'.handle api order messageCaches event).Sound ∧
      (σ'.handle api order messageCaches event).closed = false ∧
      (SlotCached messageCaches σ'.stored event.slot →
        api.WsDelivers order messageCaches event σ') := by
  obtain ⟨hsound', hextends⟩ := h.run.sound hsound
  have hheld := h.toLooks.holds hsound
  have hids : ∀ id ∈ σ'.priceFeedsWithConfig, id ≠ PUBLISHER_STAKE_CAPS_MESSAGE_FEED_ID := by
    intro id hid
    obtain ⟨config, hlookup⟩ := mem_iff_lookup.mp hid
    refine hsound'.ids id ?_
    rw [hsound'.feeds id config hlookup]
    exact nofun
  have hanswerable : ∀ id ∈ σ'.priceFeedsWithConfig, Answerable messageCaches event.slot id := by
    rw [hextends.feeds]
    exact hclear.answerable
  obtain ⟨feeds, messages, answer, hquery, hfeeds, hfound, hanswers⟩ :=
    queryFeeds_answers api order hheld hids hanswerable
  have hmem : ∀ id ∈ order.order feeds.keys, id ∈ feeds :=
    fun id hid => AList.mem_keys.mpr ((order.perm _).mem_iff.mp hid)
  obtain ⟨sent, hsent, hsends⟩ := messages_send api hheld hfound hanswers hmem
  have hhandle : api.handlePriceFeedsUpdate order messageCaches event σ'.priceFeedsWithConfig =
      .ok (feeds, sent.reduceOption.map .priceUpdate) := by
    rw [Api.handlePriceFeedsUpdate]
    refine except_bind_eq_ok.mpr ⟨_, hquery, except_bind_eq_ok.mpr ⟨_, hsent, ?_⟩⟩
    rw [List.reduceOption_map]
    rfl
  have hafter : σ'.handle api order messageCaches event =
      { σ' with
        unread := σ'.unread.tail
        priceFeedsWithConfig := feeds
        sent := σ'.sent ++ sent.reduceOption.map .priceUpdate } := by
    simp only [Service.handle, hhandle]
  have hconfig : ∀ id config, feeds.lookup id = some config → σ'.subscribed id = some config :=
    fun id config hlookup => hsound'.feeds id config ((hfeeds id config).mp hlookup).1
  have hopen : σ'.closed = false := hextends.closed.trans h.connected
  rw [Api.WsDelivers, hafter]
  refine ⟨⟨hsound'.cache, hconfig, hsound'.ids⟩, hopen, fun hcached => ⟨hopen, _, rfl, ?_⟩⟩
  have hkept : ∀ id, σ'.subscribed id ≠ none → FeedAt σ'.stored event.slot id →
      id ∈ σ'.priceFeedsWithConfig := by
    rw [hextends.feeds, hextends.subscribed]
    exact hclear.kept
  refine sentExactly hheld hcached ((order.perm _).nodup_iff.mpr feeds.keys_nodup) (fun id => ?_)
    hconfig (fun id hsome hat => ?_) hsends
  · rw [(order.perm _).mem_iff, ← AList.mem_keys, mem_iff_lookup]
    constructor
    · rintro ⟨config, hlookup⟩
      refine ⟨?_, ((hfeeds id config).mp hlookup).2⟩
      rw [hconfig id config hlookup]
      exact nofun
    · rintro ⟨hsome, m, hm⟩
      obtain ⟨config, hlookup⟩ := mem_iff_lookup.mp (hkept id hsome (hm.feedAt hheld))
      exact ⟨config, (hfeeds id config).mpr ⟨hlookup, m, hm⟩⟩
  · have hin := hkept id hsome hat
    exact (hanswerable id hin).found (hids id hin) hcached hat

theorem Service.ClearlyReachable.sound {updates : ι → Update}
    (h : Service.ClearlyReachable P api updates σ) : σ.Sound ∧ σ.closed = false := by
  induction h with
  | refl => exact ⟨⟨nofun, nofun, fun _ hnone => absurd rfl hnone⟩, rfl⟩
  | tail _ hstep ih =>
    cases hstep with
    | task i now => exact ⟨ih.1.task i now, ih.2⟩
    | message message hopen => exact ⟨ih.1.message message, hopen⟩
    | handle order hreads hclear =>
      obtain ⟨hsound, hopen, -⟩ := hreads.delivers ih.1 hclear order
      exact ⟨hsound, hopen⟩

end Service

/-- A feed that is in the cache without a message at the slot ends the connection, and an SSE
stream with it yields an error. No other feed is sent. -/
theorem late_event_breaks (ι : Type) (api : Api) (event : AggregationEvent)
    (messageCaches : Nat → MessageCache) (id : FeedId)
    (hin : ∀ n, getPriceFeedIds (messageCaches n) id = true)
    (hnone : ∀ n, retrieveMessageState (messageCaches n) ⟨id, .priceFeedMessage⟩
      (.atSlot event.slot) = none) :
    (∀ (σ : Service ι) order, id ∈ σ.priceFeedsWithConfig →
      (σ.handle api order messageCaches event).closed = true ∧
        (σ.handle api order messageCaches event).sent = σ.sent) ∧
    ∀ priceIds options, id ∈ priceIds → options.allows event = true →
      ∃ e, api.sseEvent messageCaches event priceIds options = .error e := by
  constructor
  · intro σ order hid
    have hmem : ∀ feeds : PriceFeedsWithConfig, id ∈ feeds → id ∈ order.order feeds.keys :=
      fun feeds hid => (order.perm _).mem_iff.mpr (AList.mem_keys.mp hid)
    obtain ⟨e, he⟩ := query_fails api (hmem _ hid) hnone
    obtain ⟨config, hlookup⟩ := mem_iff_lookup.mp hid
    -- The feed is in the cache, so it is retained for the second query.
    have hretained : id ∈ σ.priceFeedsWithConfig.retain (getPriceFeedIds
        (messageCaches (order.order σ.priceFeedsWithConfig.keys).length)) :=
      mem_iff_lookup.mpr ⟨config, PriceFeedsWithConfig.lookup_retain.mpr ⟨hlookup, hin _⟩⟩
    obtain ⟨e', he'⟩ := query_fails api (hmem _ hretained) fun n =>
      hnone ((order.order σ.priceFeedsWithConfig.keys).length + 1 + n)
    have hhandle : api.handlePriceFeedsUpdate order messageCaches event σ.priceFeedsWithConfig =
        .error (.query e') := by
      simp only [Api.handlePriceFeedsUpdate, Api.queryFeeds, he, he']
      rfl
    simp only [Service.handle, hhandle, and_self]
  · intro priceIds options hid hallows
    have hopen : (event.isOutOfOrder && !options.allowUnordered) = false := by
      simpa [StreamOptions.allows, imp_iff_not_or] using hallows
    obtain ⟨e, he⟩ := query_fails api (List.mem_filter.mpr ⟨hid, hin 0⟩) fun n => hnone (1 + n)
    refine ⟨e, ?_⟩
    simp only [Api.sseEvent, Api.handleAggregationEvent, hopen, Bool.false_eq_true, if_false, he]
    rfl

section Examples

variable {ι : Type} [DecidableEq ι] {P : Params} {api : Api} {σ : Service ι}

namespace Service

/-- The tasks take their steps in the order of the schedule. -/
def tasks (P : Params) (now : UnixTimestamp) (schedule : List ι) (σ : Service ι) : Service ι :=
  schedule.foldl (fun σ i => σ.task P i now) σ

theorem steps_tasks
    {condition : Service ι → AggregationEvent → (Nat → MessageCache) → Service ι → Prop}
    {start : Service ι} (h : Relation.ReflTransGen (Step P api condition) start σ)
    (now : UnixTimestamp) (schedule : List ι) :
    Relation.ReflTransGen (Step P api condition) start (σ.tasks P now schedule) := by
  induction schedule generalizing σ with
  | nil => exact h
  | cons i schedule ih => exact ih (h.tail (.task σ i now))

/-- The cache of the service, at every lookup. -/
def cacheAt (σ : Service ι) (_ : Nat) : MessageCache := σ.system.shared.messageCache

theorem looks_cacheAt (σ : Service ι) : Looks P σ σ.cacheAt σ :=
  ⟨.refl, fun _ => ⟨σ, .refl, .refl, rfl⟩⟩

theorem Reachable.read {updates : ι → Update} (h : Reachable P api updates σ)
    {event : AggregationEvent} (hopen : σ.closed = false) (hnext : σ.unread.head? = some event)
    (order : IterationOrder) : Reachable P api updates (σ.handle api order σ.cacheAt event) :=
  h.tail (.handle order ⟨σ.looks_cacheAt, hopen, hnext⟩ trivial)

end Service

end Examples

def exApi : Api where
  base64 _ := []
  benchmarks _ _ := .error .messageNotFound

def exOrder : IterationOrder := ⟨id, fun _ => .refl _⟩

def exConfig : PriceFeedClientConfig := ⟨true, false, true⟩

def exOptions : StreamOptions := ⟨.hex, true, false, true⟩

/-- The updates of the slots 8, 9 and 10. Slot 10 has the feeds 2 and 3, the others feed 2. -/
def exStreamUpdates : Nat → Update
  | 0 => .vaa (exVaa 8 [2])
  | 1 => .accumulatorMessages (exAccumulatorMessages 8 [2])
  | 2 => .vaa (exVaa 9 [2])
  | 3 => .accumulatorMessages (exAccumulatorMessages 9 [2])
  | 4 => .vaa (exVaa 10 [2, 3])
  | _ => .accumulatorMessages (exAccumulatorMessages 10 [2, 3])

/-- Slot 8 is completed. -/
def exCompleted : Service Nat :=
  (Service.start exStreamUpdates).tasks exParams 100 [0, 1, 1, 1, 1, 1, 1]

/-- The client asks for feed 2. -/
def exSubscribed : Service Nat :=
  exCompleted.message (.subscribe [(exFeed 2).feedId] exConfig)

/-- Slots 8 and 10 are completed. -/
def exNewer : Service Nat := exCompleted.tasks exParams 100 [4, 5, 5, 5, 5, 5, 5]

/-- Both events are handled, and then the client asks for the feeds 2 and 3. -/
def exNewerRead : Service Nat :=
  let first := exNewer.handle exApi exOrder exNewer.cacheAt (.new 8)
  first.handle exApi exOrder first.cacheAt (.new 10)

/-- Slot 9, which has no feed 3, is completed late. -/
def exLate : Service Nat :=
  (exNewerRead.message (.subscribe [(exFeed 2).feedId, (exFeed 3).feedId] exConfig)).tasks
    exParams 100 [2, 3, 3, 3, 3, 3, 3]

theorem exLate_reachable : Service.Reachable exParams exApi exStreamUpdates exLate := by
  have hnewer : Service.Reachable exParams exApi exStreamUpdates exNewer :=
    Service.steps_tasks (Service.steps_tasks .refl 100 _) 100 _
  have hnext : exNewer.unread.head? = some (.new 8) := by decide +kernel
  have hfirst := hnewer.read rfl hnext exOrder
  have hread : Service.Reachable exParams exApi exStreamUpdates exNewerRead :=
    hfirst.read (by decide +kernel) (by decide +kernel) exOrder
  exact Service.steps_tasks (hread.tail (.message _ (by decide +kernel))) 100 _

/-- The late event of slot 9 ends the connection, although feed 2 has a message there. -/
theorem late_event_breaks_ex :
    Service.Reachable exParams exApi exStreamUpdates exLate ∧ exLate.closed = false ∧
      exLate.unread = [.outOfOrder 9] ∧ FeedAt exLate.stored 9 (exFeed 2).feedId ∧
      (exLate.handle exApi exOrder exLate.cacheAt (.outOfOrder 9)).closed = true ∧
      ∃ e, exApi.sseEvent exLate.cacheAt (.outOfOrder 9)
        [(exFeed 2).feedId, (exFeed 3).feedId] exOptions = .error e := by
  have hcache : getPriceFeedIds exLate.system.shared.messageCache (exFeed 3).feedId = true ∧
      retrieveMessageState exLate.system.shared.messageCache (exFeed 3) (.atSlot 9) = none := by
    refine ⟨by decide +kernel, Option.isNone_iff_eq_none.mp (by decide +kernel)⟩
  obtain ⟨hws, hsse⟩ := late_event_breaks Nat exApi (.outOfOrder 9) exLate.cacheAt
    (exFeed 3).feedId (fun _ => hcache.1) fun _ => hcache.2
  refine ⟨exLate_reachable, by decide +kernel, by decide +kernel, by decide +kernel,
    (hws exLate exOrder (AList.mem_keys.mpr (by decide +kernel))).1, ?_⟩
  exact hsse _ _ (List.mem_cons_of_mem _ List.mem_cons_self) rfl

end PythCrosschain.Hermes
