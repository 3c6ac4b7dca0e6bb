import PythCrosschain.Lib.FirstMatch
import PythCrosschain.Pyth.LatestPrice

/-!
# The price feeds that a call parses

`parsePriceFeedUpdatesInternal` verifies all messages of the update data and keeps, for each
requested id, the first one in the range of the caller. The results are:

- `parseUpdateData_eq`: the loops read the messages first and record them afterwards;
- `slots_recordPriceFeed`: an entry of `priceFeeds` is a slot that keeps its first offer;
- `parse_price_feed_updates`: what the two functions return, and when they revert.
-/

namespace PythCrosschain.Pyth

open FirstMatch

/-- A verified message: the price, its id and the previous publish time. -/
abbrev ReadMessage := PriceInfo × Bytes32 × Uint64

section

variable (keccak256 : Bytes → Bytes32) (env : CallEnv)

/-! ## The messages -/

/-- The messages of an update, for `numUpdates` more of them, and the offset behind them. -/
def readMessages (digest : Bytes20) (encoded : CalldataBytes) (offset : Uint256) :
    ℕ → Result (List ReadMessage × Uint256)
  | 0 => return ([], offset)
  | numUpdates + 1 => do
    let extracted ← extractPriceInfoFromMerkleProof keccak256 env.machine digest encoded offset
    let messages ← readMessages digest encoded extracted.1 numUpdates
    return (extracted.2 :: messages.1, messages.2)

/-- The messages of an update that verifies, and whose last offset is its length. -/
def readUpdate (update : CalldataBytes) : Result (List ReadMessage) := do
  require (isAccumulatorUpdate env update = true) (.error .invalidUpdateData)
  let header ← extractUpdateTypeFromAccumulatorHeader env.machine update
  require (header.2 = .wormholeMerkle) (.error .invalidUpdateData)
  let body ← extractWormholeMerkleHeaderDigestAndNumUpdatesAndEncodedFromAccumulatorUpdate
    env.machine env.parseAndVerifyPythVM update header.1
  let messages ← readMessages keccak256 env body.2.1 body.2.2.2 body.1 body.2.2.1.toNat
  require (messages.2 = body.2.2.2.length) (.error .invalidUpdateData)
  return messages.1

/-- The messages of all updates, in the order in which they appear. -/
def readUpdateData : List CalldataBytes → Result (List ReadMessage)
  | [] => return []
  | update :: updateData => do
    let first ← readUpdate keccak256 env update
    let rest ← readUpdateData updateData
    return first ++ rest

end

/-! ## The entries -/

/-- The id is requested, and the price is within the range of the caller. -/
def isRequested (config : ParseConfig) (id : Bytes32) (message : ReadMessage) : Bool :=
  message.2.1 = id ∧ message.1.publishTime ≥ config.minPublishTime ∧
    message.1.publishTime ≤ config.maxPublishTime ∧
    (!config.checkUniqueness ∨ config.minPublishTime > message.2.2)

/-- The entry that is filled from a message. -/
def feedOfMessage (message : ReadMessage) : PriceFeed :=
  priceFeedFromPriceInfo message.2.1 message.1 (message.1.publishTime.setWidth 256)

/-- An entry with the id 0 is not filled. -/
def slotOf (priceFeed : PriceFeed) : Option PriceFeed :=
  if priceFeed.id = 0 then none else some priceFeed

def recordMessage (priceIds : List Bytes32) (config : ParseConfig) (priceFeeds : List PriceFeed)
    (message : ReadMessage) : List PriceFeed :=
  recordPriceFeed priceIds config priceFeeds message.2.1 message.1 message.2.2

/-- What a message offers to the entry of its id. -/
def offerOf (config : ParseConfig) (message : ReadMessage) : Option PriceFeed :=
  if message.2.1 ≠ 0 ∧ isRequested config message.2.1 message then some (feedOfMessage message)
  else none

section

variable {keccak256 : Bytes → Bytes32} {env : CallEnv} {priceIds : List Bytes32}
  {config : ParseConfig} {priceFeeds : List PriceFeed} {w w' : World}

theorem slotOf_eq_none {priceFeed : PriceFeed} : slotOf priceFeed = none ↔ priceFeed.id = 0 := by
  unfold slotOf
  split
  · next h => exact iff_of_true rfl h
  · next h => exact iff_of_false nofun h

theorem slotOf_eq_some {priceFeed filled : PriceFeed} :
    slotOf priceFeed = some filled ↔ priceFeed.id ≠ 0 ∧ priceFeed = filled := by
  unfold slotOf
  split
  · next h => exact ⟨nofun, fun e => absurd h e.1⟩
  · next h => exact ⟨fun e => ⟨h, Option.some.inj e⟩, fun e => congrArg some e.2⟩

@[simp] theorem length_recordMessage (message : ReadMessage) :
    (recordMessage priceIds config priceFeeds message).length = priceFeeds.length := by
  unfold recordMessage recordPriceFeed
  dsimp only
  split
  · rfl
  · split
    · exact List.length_set
    · rfl

/-- The price of a message is within the range of the caller. -/
def InRange (config : ParseConfig) (message : ReadMessage) : Prop :=
  message.1.publishTime ≥ config.minPublishTime ∧ message.1.publishTime ≤ config.maxPublishTime ∧
    (!config.checkUniqueness ∨ config.minPublishTime > message.2.2)

instance (config : ParseConfig) : DecidablePred (InRange config) :=
  fun _ => inferInstanceAs (Decidable (_ ∧ _ ∧ _))

theorem recordMessage_eq (message : ReadMessage) :
    recordMessage priceIds config priceFeeds message =
      if findIndexOfPriceId priceIds message.2.1 = priceIds.length ∨
          (priceFeeds.getD (findIndexOfPriceId priceIds message.2.1) {}).id ≠ 0 then priceFeeds
      else if InRange config message then
        priceFeeds.set (findIndexOfPriceId priceIds message.2.1) (feedOfMessage message)
      else priceFeeds := rfl

theorem isRequested_iff {id : Bytes32} {message : ReadMessage} :
    isRequested config id message = true ↔ message.2.1 = id ∧ InRange config message :=
  decide_eq_true_iff

theorem offerOf_inRange {message : ReadMessage} (h : InRange config message) :
    offerOf config message = slotOf (feedOfMessage message) := by
  have hrequested : isRequested config message.2.1 message = true := isRequested_iff.mpr ⟨rfl, h⟩
  unfold offerOf slotOf
  by_cases hzero : message.2.1 = 0
  · rw [if_neg (fun e => e.1 hzero), if_pos (show (feedOfMessage message).id = 0 from hzero)]
  · rw [if_pos ⟨hzero, hrequested⟩, if_neg (show (feedOfMessage message).id ≠ 0 from hzero)]

theorem offerOf_outOfRange {message : ReadMessage} (h : ¬InRange config message) :
    offerOf config message = none :=
  if_neg fun e => h (isRequested_iff.mp e.2).2

/-- A message is an offer to the slot of the first index of its id. -/
theorem slots_recordMessage (hlength : priceFeeds.length = priceIds.length)
    (message : ReadMessage) :
    (recordMessage priceIds config priceFeeds message).map slotOf
      = fill (fun message : ReadMessage => findIndexOfPriceId priceIds message.2.1) (offerOf config)
        (priceFeeds.map slotOf) message := by
  apply List.ext_getElem?
  intro k
  rw [getElem?_fill]
  simp only [List.getElem?_map, Option.map_map]
  by_cases hk : k < priceFeeds.length
  case neg =>
    rw [List.getElem?_eq_none (not_lt.mp hk), List.getElem?_eq_none]
    · rfl
    · rw [length_recordMessage]
      exact not_lt.mp hk
  have hget := List.getElem?_eq_getElem hk
  rw [hget]
  rw [recordMessage_eq]
  generalize findIndexOfPriceId priceIds message.2.1 = i
  by_cases hskip : i = priceIds.length ∨ (priceFeeds.getD i {}).id ≠ 0
  · rw [if_pos hskip, hget]
    show some (slotOf priceFeeds[k]) = some ((slotOf priceFeeds[k]).or _)
    by_cases hi : i = k
    · subst hi
      have hfilled : priceFeeds[i].id ≠ 0 := by
        rcases hskip with hend | hfilled
        · omega
        · rwa [List.getD_eq_getElem?_getD, hget] at hfilled
      rw [slotOf_eq_some.mpr ⟨hfilled, rfl⟩]
      rfl
    · rw [if_neg hi, Option.or_none]
  rw [if_neg hskip]
  by_cases hrange : InRange config message
  · rw [if_pos hrange, offerOf_inRange hrange]
    by_cases hi : i = k
    · subst hi
      have hempty : slotOf priceFeeds[i] = none := by
        have hzero := not_not.mp (not_or.mp hskip).2
        rw [List.getD_eq_getElem?_getD, hget] at hzero
        exact slotOf_eq_none.mpr hzero
      rw [List.getElem?_set_self hk]
      show some (slotOf (feedOfMessage message)) = some ((slotOf priceFeeds[i]).or _)
      rw [hempty, if_pos rfl, Option.none_or]
    · rw [List.getElem?_set_ne hi, hget]
      show some (slotOf priceFeeds[k]) = some ((slotOf priceFeeds[k]).or _)
      rw [if_neg hi, Option.or_none]
  · rw [if_neg hrange, offerOf_outOfRange hrange, hget]
    show some (slotOf priceFeeds[k]) = some ((slotOf priceFeeds[k]).or _)
    rw [ite_self, Option.or_none]

theorem slots_foldl_recordMessage (hlength : priceFeeds.length = priceIds.length)
    (messages : List ReadMessage) :
    (messages.foldl (recordMessage priceIds config) priceFeeds).map slotOf
      = messages.foldl (fill (fun message : ReadMessage =>
          findIndexOfPriceId priceIds message.2.1) (offerOf config)) (priceFeeds.map slotOf) := by
  induction messages generalizing priceFeeds with
  | nil => rfl
  | cons message messages ih =>
    rw [List.foldl_cons, List.foldl_cons, ih, slots_recordMessage hlength]
    rw [length_recordMessage, hlength]

/-- The entries after all messages, none of which was filled before. -/
def recordAll (priceIds : List Bytes32) (config : ParseConfig) (messages : List ReadMessage) :
    List PriceFeed :=
  messages.foldl (recordMessage priceIds config) (List.replicate priceIds.length {})

theorem length_recordAll (messages : List ReadMessage) :
    (recordAll priceIds config messages).length = priceIds.length := by
  have h := congrArg List.length (@slots_foldl_recordMessage priceIds config
    (List.replicate priceIds.length {}) List.length_replicate messages)
  rwa [List.length_map, length_foldl_fill, List.length_map, List.length_replicate] at h

/-- An id is found at its first index. -/
theorem findIndexOfPriceId_eq_iff {k : ℕ} {id : Bytes32} (hk : k < priceIds.length) :
    findIndexOfPriceId priceIds id = k ↔
      priceIds[k] = id ∧ ∀ j (hj : j < k), priceIds[j] ≠ id := by
  rw [findIndexOfPriceId, List.findIdx_eq hk]
  simp only [decide_eq_true_eq, decide_eq_false_iff_not]

/-- An entry after all messages: the first offer at its index. -/
theorem slot_recordAll {messages : List ReadMessage} {k : ℕ} (hk : k < priceIds.length) :
    (recordAll priceIds config messages)[k]?.map slotOf
      = some (messages.findSome? fun message =>
        if findIndexOfPriceId priceIds message.2.1 = k then offerOf config message else none) := by
  have hslots := @slots_foldl_recordMessage priceIds config (List.replicate priceIds.length {})
    List.length_replicate messages
  have hempty : ((List.replicate priceIds.length ({} : PriceFeed)).map slotOf)[k]? = some none := by
    rw [List.map_replicate, List.getElem?_replicate, if_pos hk]
    rfl
  rw [← List.getElem?_map]
  show ((messages.foldl (recordMessage priceIds config) _).map slotOf)[k]? = _
  rw [hslots, getElem?_foldl_fill, hempty]
  rfl

/-- The entry of a nonzero id at its first index. -/
theorem slot_of_first {messages : List ReadMessage} {k : ℕ} (hk : k < priceIds.length)
    (hfirst : ∀ j (hj : j < k), priceIds[j] ≠ priceIds[k]) (hzero : priceIds[k] ≠ 0) :
    (recordAll priceIds config messages)[k]?.map slotOf
      = some ((messages.find? (isRequested config priceIds[k])).map feedOfMessage) := by
  rw [slot_recordAll hk, ← findSome?_guard]
  refine congrArg some (congrArg (fun f => List.findSome? f messages) (funext fun message => ?_))
  by_cases hid : message.2.1 = priceIds[k]
  · have hindex : findIndexOfPriceId priceIds message.2.1 = k :=
      (findIndexOfPriceId_eq_iff hk).mpr ⟨hid.symm, fun j hj => hid ▸ hfirst j hj⟩
    rw [if_pos hindex]
    unfold offerOf
    rw [hid]
    simp only [ne_eq, hzero, not_false_eq_true, true_and]
  · have hindex : ¬findIndexOfPriceId priceIds message.2.1 = k :=
      fun h => hid ((findIndexOfPriceId_eq_iff hk).mp h).1.symm
    have hother : ¬isRequested config priceIds[k] message = true :=
      fun h => hid (isRequested_iff.mp h).1
    rw [if_neg hindex, if_neg hother]

/-- An entry of the id 0, or one whose id stands before it, is never filled. -/
theorem slot_of_not_first {messages : List ReadMessage} {k : ℕ} (hk : k < priceIds.length)
    (h : priceIds[k] = 0 ∨ ∃ j, ∃ hj : j < k, priceIds[j] = priceIds[k]) :
    (recordAll priceIds config messages)[k]?.map slotOf = some none := by
  rw [slot_recordAll hk, List.findSome?_eq_none_iff.mpr]
  intro message _
  by_cases hindex : findIndexOfPriceId priceIds message.2.1 = k
  · obtain ⟨hid, hfirst⟩ := (findIndexOfPriceId_eq_iff hk).mp hindex
    rw [if_pos hindex]
    rcases h with hzero | ⟨j, hj, hsame⟩
    · exact if_neg fun e => e.1 (hid.symm.trans hzero)
    · exact absurd (hsame.trans hid) (hfirst j hj)
  · rw [if_neg hindex]

/-! ## The loops -/

/-- The updates of the state that the messages make. -/
def updatesOf (messages : List ReadMessage) : List (Bytes32 × PriceInfo) :=
  messages.map fun message => (message.2.1, message.1)

theorem parseMessages_eq (digest : Bytes20) (encoded : CalldataBytes) (offset : Uint256)
    (numUpdates : ℕ) :
    parseMessages keccak256 env priceIds config digest encoded w priceFeeds offset numUpdates =
      (do
        let read ← readMessages keccak256 env digest encoded offset numUpdates
        return (applyUpdates w (updatesOf read.1),
          read.1.foldl (recordMessage priceIds config) priceFeeds, read.2)) := by
  induction numUpdates generalizing w priceFeeds offset with
  | zero => rfl
  | succ numUpdates ih =>
    simp only [parseMessages, readMessages, ih, bind_assoc, pure_bind]
    rfl

theorem parseUpdateData_eq (updateData : List CalldataBytes) :
    parseUpdateData keccak256 env priceIds config w priceFeeds updateData =
      (do
        let messages ← readUpdateData keccak256 env updateData
        return (applyUpdates w (updatesOf messages),
          messages.foldl (recordMessage priceIds config) priceFeeds)) := by
  induction updateData generalizing w priceFeeds with
  | nil => rfl
  | cons update updateData ih =>
    simp only [parseUpdateData, readUpdateData, readUpdate, parseMessages_eq, ih, bind_assoc,
      pure_bind, updatesOf, List.map_append, applyUpdates_append, List.foldl_append]

theorem parsePriceFeedUpdatesInternal_eq_ok {updateData : List CalldataBytes} :
    parsePriceFeedUpdatesInternal keccak256 env updateData priceIds config w
        = .ok (priceFeeds, w') ↔
      (∃ fee, getUpdateFee env w.state updateData = .ok fee ∧ env.value ≥ fee) ∧
      ∃ messages, readUpdateData keccak256 env updateData = .ok messages ∧
        (∀ priceFeed ∈ recordAll priceIds config messages, priceFeed.id ≠ 0) ∧
        priceFeeds = recordAll priceIds config messages ∧
        w' = applyUpdates w (updatesOf messages) := by
  simp only [parsePriceFeedUpdatesInternal, parseUpdateData_eq, bind_eq_ok, require_eq_ok,
    pure_eq_ok]
  constructor
  · rintro ⟨fee, hfee, _, hvalue, _, ⟨messages, hmessages, rfl⟩, _, hfilled, hreturn⟩
    obtain ⟨rfl, rfl⟩ := Prod.mk.inj hreturn
    exact ⟨⟨fee, hfee, hvalue⟩, messages, hmessages, hfilled, rfl, rfl⟩
  · rintro ⟨⟨fee, hfee, hvalue⟩, messages, hmessages, hfilled, rfl, rfl⟩
    exact ⟨fee, hfee, (), hvalue, _, ⟨messages, hmessages, rfl⟩, (), hfilled, rfl⟩

/-! ## What is returned -/

/-- An id that is not zero stands at an index for the first time. -/
def FirstAt (priceIds : List Bytes32) (k : ℕ) (hk : k < priceIds.length) : Prop :=
  priceIds[k] ≠ 0 ∧ ∀ j (hj : j < k), priceIds[j] ≠ priceIds[k]

theorem filled_at {messages : List ReadMessage} {k : ℕ} (hk : k < priceIds.length) :
    (∃ filled, (recordAll priceIds config messages)[k]? = some filled ∧ filled.id ≠ 0) ↔
      FirstAt priceIds k hk ∧
        ∃ message, messages.find? (isRequested config priceIds[k]) = some message ∧
          (recordAll priceIds config messages)[k]? = some (feedOfMessage message) := by
  have hlength : k < (recordAll priceIds config messages).length := by
    rw [length_recordAll]
    exact hk
  have hget := List.getElem?_eq_getElem hlength
  generalize (recordAll priceIds config messages)[k] = entry at hget
  rw [hget]
  by_cases hfirst : FirstAt priceIds k hk
  · have hslot := @slot_of_first _ config messages _ hk hfirst.2 hfirst.1
    rw [hget, Option.map_some, Option.some.injEq] at hslot
    constructor
    · rintro ⟨_, ⟨⟩, hid⟩
      rw [slotOf_eq_some.mpr ⟨hid, rfl⟩] at hslot
      obtain ⟨message, hmessage, hentry⟩ := Option.map_eq_some_iff.mp hslot.symm
      exact ⟨hfirst, message, hmessage, congrArg some hentry.symm⟩
    · rintro ⟨-, message, hmessage, -⟩
      rw [hmessage, Option.map_some] at hslot
      exact ⟨entry, rfl, (slotOf_eq_some.mp hslot).1⟩
  · refine iff_of_false ?_ fun h => hfirst h.1
    rintro ⟨_, ⟨⟩, hid⟩
    have hnot : priceIds[k] = 0 ∨ ∃ j, ∃ hj : j < k, priceIds[j] = priceIds[k] := by
      by_contra hnone
      obtain ⟨hzero, hbefore⟩ := not_or.mp hnone
      exact hfirst ⟨hzero, fun j hj hsame => hbefore ⟨j, hj, hsame⟩⟩
    have hslot := @slot_of_not_first _ config messages _ hk hnot
    rw [hget, Option.map_some, Option.some.injEq] at hslot
    exact hid (slotOf_eq_none.mp hslot)

/-- All entries are filled exactly when each id is nonzero, requested once and has a match. -/
theorem filled_iff {messages : List ReadMessage} :
    (∀ priceFeed ∈ recordAll priceIds config messages, priceFeed.id ≠ 0) ↔
      priceIds.Nodup ∧ ∀ id ∈ priceIds, id ≠ 0 ∧ ∃ message,
        messages.find? (isRequested config id) = some message := by
  have hlength := @length_recordAll priceIds config messages
  constructor
  · intro hfilled
    have hentry (k : ℕ) (hk : k < priceIds.length) := (@filled_at _ config messages _ hk).mp
      ⟨_, List.getElem?_eq_getElem (hlength ▸ hk), hfilled _ (List.getElem_mem _)⟩
    refine ⟨List.pairwise_iff_getElem.mpr fun j k hj hk hjk => (hentry k hk).1.2 j hjk,
      fun id hid => ?_⟩
    obtain ⟨k, hk, rfl⟩ := List.getElem_of_mem hid
    obtain ⟨⟨hzero, -⟩, message, hmessage, -⟩ := hentry k hk
    exact ⟨hzero, message, hmessage⟩
  · rintro ⟨hnodup, hfound⟩ priceFeed hpriceFeed
    obtain ⟨k, hk, rfl⟩ := List.getElem_of_mem hpriceFeed
    have hk' : k < priceIds.length := hlength ▸ hk
    obtain ⟨hzero, message, hmessage⟩ := hfound _ (List.getElem_mem hk')
    have hfirst : FirstAt priceIds k hk' :=
      ⟨hzero, fun j hj => List.pairwise_iff_getElem.mp hnodup j k _ hk' hj⟩
    have hslot := @slot_of_first _ config messages _ hk' hfirst.2 hfirst.1
    rw [List.getElem?_eq_getElem hk, hmessage, Option.map_some, Option.map_some,
      Option.some.injEq] at hslot
    exact (slotOf_eq_some.mp hslot).1

/-- What a parse function does with the requested ids, given its result. -/
structure ParsesFirst (keccak256 : Bytes → Bytes32) (env : CallEnv)
    (updateData : List CalldataBytes) (priceIds : List Bytes32) (config : ParseConfig) (w : World)
    (result : Result (List PriceFeed × World)) : Prop where
  /-- The feed at each index is made of the first match of its id. -/
  returns {priceFeeds : List PriceFeed} {w' : World} : priceIds.Nodup →
    result = .ok (priceFeeds, w') →
    ∃ messages, readUpdateData keccak256 env updateData = .ok messages ∧
      priceFeeds.length = priceIds.length ∧
      ∀ k (hk : k < priceIds.length), ∃ message,
        messages.find? (isRequested config priceIds[k]) = some message ∧
        priceFeeds[k]? = some (feedOfMessage message) ∧ (feedOfMessage message).id = priceIds[k]
  /-- With verified messages and the fee, it reverts for an id that is zero or without a match. -/
  reverts {messages : List ReadMessage} {fee : Uint256} : priceIds.Nodup →
    readUpdateData keccak256 env updateData = .ok messages →
    getUpdateFee env w.state updateData = .ok fee → fee ≤ env.value →
    ((∃ e, result = .error e) ↔
      ∃ id ∈ priceIds, id = 0 ∨ messages.find? (isRequested config id) = none)
  /-- It reverts for an id that is requested twice. -/
  duplicates : ¬priceIds.Nodup → ∃ e, result = .error e

theorem exists_error_iff {α : Type} {x : Result α} : (∃ e, x = .error e) ↔ ¬∃ a, x = .ok a := by
  cases x with
  | error e => exact iff_of_true ⟨e, rfl⟩ nofun
  | ok a => exact iff_of_false nofun fun h => h ⟨a, rfl⟩

theorem parsePriceFeedUpdatesInternal_parsesFirst (updateData : List CalldataBytes) :
    ParsesFirst keccak256 env updateData priceIds config w
      (parsePriceFeedUpdatesInternal keccak256 env updateData priceIds config w) where
  returns := by
    intro priceFeeds w' _ h
    obtain ⟨-, messages, hmessages, hfilled, rfl, -⟩ := parsePriceFeedUpdatesInternal_eq_ok.mp h
    refine ⟨messages, hmessages, length_recordAll messages, fun k hk => ?_⟩
    have hlength : k < (recordAll priceIds config messages).length := by
      rw [length_recordAll]
      exact hk
    obtain ⟨-, message, hmessage, hentry⟩ := (@filled_at _ config messages _ hk).mp
      ⟨_, List.getElem?_eq_getElem hlength, hfilled _ (List.getElem_mem _)⟩
    exact ⟨message, hmessage, hentry, (isRequested_iff.mp (List.find?_some hmessage)).1⟩
  reverts := by
    intro messages fee hnodup hmessages hfee hvalue
    have hok : (∃ r, parsePriceFeedUpdatesInternal keccak256 env updateData priceIds config w
        = .ok r) ↔ ∀ priceFeed ∈ recordAll priceIds config messages, priceFeed.id ≠ 0 := by
      constructor
      · rintro ⟨⟨priceFeeds, w'⟩, h⟩
        obtain ⟨-, messages', hmessages', hfilled, -⟩ := parsePriceFeedUpdatesInternal_eq_ok.mp h
        cases hmessages.symm.trans hmessages'
        exact hfilled
      · intro hfilled
        exact ⟨(_, _), parsePriceFeedUpdatesInternal_eq_ok.mpr
          ⟨⟨fee, hfee, hvalue⟩, messages, hmessages, hfilled, rfl, rfl⟩⟩
    rw [exists_error_iff, hok, filled_iff]
    constructor
    · intro h
      by_contra hnone
      refine h ⟨hnodup, fun id hid => ⟨fun hzero => hnone ⟨id, hid, .inl hzero⟩, ?_⟩⟩
      exact Option.ne_none_iff_exists'.mp fun hmissing => hnone ⟨id, hid, .inr hmissing⟩
    · rintro ⟨id, hid, hzero | hmissing⟩ ⟨-, hfound⟩
      · exact (hfound id hid).1 hzero
      · obtain ⟨-, message, hmessage⟩ := hfound id hid
        rw [hmissing] at hmessage
        cases hmessage
  duplicates := by
    intro hduplicate
    rw [exists_error_iff]
    rintro ⟨⟨priceFeeds, w'⟩, h⟩
    obtain ⟨-, messages, -, hfilled, -⟩ := parsePriceFeedUpdatesInternal_eq_ok.mp h
    exact hduplicate (filled_iff.mp hfilled).1

end

/-- **The parsed price feeds.** Without duplicates among the requested ids, the feed at each index
is that of the first message for its id, over all updates in order, whose publish time is in the
range, and for the unique function whose previous publish time is before it. With verified updates
and a paid fee the call reverts exactly for an id that is zero or without such a message. With
duplicates it always reverts. -/
theorem parse_price_feed_updates (keccak256 : Bytes → Bytes32) (env : CallEnv)
    (updateData : List CalldataBytes) (priceIds : List Bytes32)
    (minPublishTime maxPublishTime : Uint64) (w : World) :
    ParsesFirst keccak256 env updateData priceIds
      { minPublishTime, maxPublishTime, checkUniqueness := false } w
      (parsePriceFeedUpdates keccak256 env updateData priceIds minPublishTime maxPublishTime w) ∧
    ParsesFirst keccak256 env updateData priceIds
      { minPublishTime, maxPublishTime, checkUniqueness := true } w
      (parsePriceFeedUpdatesUnique keccak256 env updateData priceIds minPublishTime maxPublishTime
        w) :=
  ⟨parsePriceFeedUpdatesInternal_parsesFirst updateData,
    parsePriceFeedUpdatesInternal_parsesFirst updateData⟩

/-- Price feed 7 in one update: requested once, twice, and with an id that has no message. -/
example :
    let env : CallEnv :=
      { machine := exMachine 4 0xff false, parseAndVerifyPythVM := exParseAndVerify, value := 0 }
    let parse priceIds := (parsePriceFeedUpdates exKeccak env [exUpdate 4] priceIds 0 100 {}).map
      fun parsed => parsed.1.map PriceFeed.id
    (parse [7]).toOption = some [7] ∧ (parse [7, 7]).toOption = none ∧
      (parse [7, 8]).toOption = none := by
  decide +kernel

end PythCrosschain.Pyth
