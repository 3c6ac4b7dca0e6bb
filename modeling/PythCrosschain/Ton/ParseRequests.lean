import PythCrosschain.Ton.LatestPrice
import PythCrosschain.Ton.VerifiedVaa

/-!
# TON: requests for price feeds

`parse_price_feed_updates` and `parse_unique_price_feed_updates`: a verified update, filtered by
price ids that come in a chain of cells. The answer is a message to the target; what it passes on
(the addresses and the custom payload) is left out, and the gas that was used until then is a
parameter. An exception becomes an error event, so it is the result here. The results are:

- `Kept.process`: the two dictionaries of the loop hold the first message that matches, for every
  id in the message and for every index of a requested id;
- `ParseRequest.run_eq`: the verified messages and the ids determine the answer;
- `parse_requests_answered_iff`: a request is answered with one feed for each id, or fails where
  it should, exactly under a condition on the ids and on the cell that they start in.
-/

namespace PythCrosschain.Ton

open Tvm

def OP_PARSE_PRICE_FEED_UPDATES : ℕ := 5
def OP_PARSE_UNIQUE_PRICE_FEED_UPDATES : ℕ := 6

/-- The loop that loads the price ids, for `n` more of them. -/
def loadPriceIds : ℕ → Slice → Result (List Bytes32)
  | 0, _ => .ok []
  | n + 1, priceIdsSlice => do
    let (priceId, priceIdsSlice) ← loadInt 256 priceIdsSlice
    let priceIds ← loadPriceIds n priceIdsSlice
    return priceId :: priceIds

structure PriceFeedsResponse where
  op : ℕ
  priceFeeds : List (Bytes32 × PriceFeedCell)
  excess : ℕ

section

variable (keccak256 : Bytes → Bytes32)
  (checkSig : Bytes32 → BitVec 8 → Bytes32 → Bytes32 → Option (Bytes32 × Bytes32))
  (cellHash : Bits → Bytes32) (getComputeFee : ℕ → ℕ → ℕ) (gasConsumed : ℕ)

/-- `send_price_feeds_response`. The chain of no feeds is `null` and cannot be referred to, and
`store_coins` stores no negative excess. -/
def sendPriceFeedsResponse (storage : PythStorage) (priceFeeds : List (Bytes32 × PriceFeedCell))
    (msgValue op : ℕ) : Result PriceFeedsResponse :=
  if priceFeeds = [] then .error .typeCheck
  else
    let computeFee := getComputeFee WORKCHAIN gasConsumed
    let updateFee := storage.singleUpdateFee * priceFeeds.length
    let totalFees := computeFee + updateFee
    if totalFees ≤ msgValue then .ok ⟨op, priceFeeds, msgValue - totalFees⟩
    else .error .rangeCheck

def parsePriceFeedUpdates (storage : PythStorage) (now : BitVec 32) (msgValue : ℕ)
    (updateDataSlice priceIdsSlice : Slice) (minPublishTime maxPublishTime : BitVec 64) :
    Result PriceFeedsResponse := do
  let (priceIdsLen, priceIdsSlice) ← loadInt 8 priceIdsSlice
  let priceIds ← loadPriceIds priceIdsLen.toNat priceIdsSlice
  let priceFeeds ← parsePriceFeedsFromData keccak256 checkSig cellHash getComputeFee storage now
    msgValue updateDataSlice ⟨priceIds, minPublishTime.toNat, maxPublishTime.toNat, false⟩
  sendPriceFeedsResponse getComputeFee gasConsumed storage priceFeeds msgValue
    OP_PARSE_PRICE_FEED_UPDATES

def parseUniquePriceFeedUpdates (storage : PythStorage) (now : BitVec 32) (msgValue : ℕ)
    (updateDataSlice priceIdsSlice : Slice) (publishTime maxStaleness : BitVec 64) :
    Result PriceFeedsResponse := do
  let (priceIdsLen, priceIdsSlice) ← loadInt 8 priceIdsSlice
  let priceIds ← loadPriceIds priceIdsLen.toNat priceIdsSlice
  let priceFeeds ← parsePriceFeedsFromData keccak256 checkSig cellHash getComputeFee storage now
    msgValue updateDataSlice
    ⟨priceIds, publishTime.toNat, publishTime.toNat + maxStaleness.toNat, true⟩
  sendPriceFeedsResponse getComputeFee gasConsumed storage priceFeeds msgValue
    OP_PARSE_UNIQUE_PRICE_FEED_UPDATES

end

/-! ## The loop with requested ids -/

/-- The first message that matches, for an id. -/
def Query.firstFor (q : Query) (messages : List PriceFeedMessage) (id : Bytes32) :
    Option PriceFeedMessage :=
  messages.find? fun m => m.priceId = id ∧ q.shouldInclude m

theorem Query.firstFor_append (q : Query) (messages : List PriceFeedMessage)
    (m : PriceFeedMessage) (id : Bytes32) :
    q.firstFor (messages ++ [m]) id =
      (q.firstFor messages id).or (if m.priceId = id ∧ q.shouldInclude m then some m else none) := by
  rw [firstFor, firstFor, List.find?_append, List.find?_singleton]
  simp only [decide_eq_true_eq]

/-- What the dictionaries hold. Of an id that is requested twice, the first index is used. -/
structure Kept (q : Query) (s : ParseState) : Prop where
  foundPriceIds : ∀ id, id ∈ s.foundPriceIds ↔ (q.firstFor s.read id).isSome = true
  orderedFeeds : ∀ i, s.orderedFeeds i =
    (q.priceIds[i]?).bind fun id =>
      if q.priceIds.idxOf id = i then (q.firstFor s.read id).map PriceFeedMessage.feed else none

theorem kept_start (q : Query) (cs : Slice) : Kept q { cs } where
  foundPriceIds id := iff_of_false List.not_mem_nil nofun
  orderedFeeds i := by
    cases q.priceIds[i]? with
    | none => rfl
    | some id => exact (ite_self none).symm

theorem findPriceIdIndex_of_mem {priceIds : List Bytes32} {id : Bytes32} (h : id ∈ priceIds) :
    findPriceIdIndex priceIds id = priceIds.idxOf id := by
  have hfound : priceIds.findIdx? (· = id) = some (priceIds.idxOf id) := by
    rw [List.findIdx?_eq_some_iff_findIdx_eq]
    refine ⟨List.idxOf_lt_length_of_mem h, ?_⟩
    refine congrArg (fun p => List.findIdx p priceIds) (funext fun a => ?_)
    exact (beq_eq_decide a id).symm
  rw [findPriceIdIndex, hfound]

theorem findPriceIdIndex_of_notMem {priceIds : List Bytes32} {id : Bytes32} (h : id ∉ priceIds) :
    findPriceIdIndex priceIds id = -1 := by
  have hnone : priceIds.findIdx? (· = id) = none := by
    rw [List.findIdx?_eq_none_iff]
    exact fun a ha => decide_eq_false fun heq => h (heq ▸ ha)
  rw [findPriceIdIndex, hnone]

/-- A message that is not the first match for its id changes nothing. -/
theorem Kept.skip {q : Query} {s : ParseState} (h : Kept q s) {m : PriceFeedMessage}
    (hskip : ¬(m.priceId ∉ s.foundPriceIds ∧ q.shouldInclude m)) (cs : Slice) :
    Kept q { s with cs, read := s.read ++ [m] } := by
  have hsame (id : Bytes32) : q.firstFor (s.read ++ [m]) id = q.firstFor s.read id := by
    rw [Query.firstFor_append]
    by_cases hmatch : m.priceId = id ∧ q.shouldInclude m
    · obtain ⟨rfl, hinclude⟩ := hmatch
      have hfound : m.priceId ∈ s.foundPriceIds := by
        by_contra hnew
        exact hskip ⟨hnew, hinclude⟩
      obtain ⟨m', hm'⟩ := Option.isSome_iff_exists.mp ((h.foundPriceIds _).mp hfound)
      rw [hm', Option.some_or]
    · rw [if_neg hmatch, Option.or_none]
  exact ⟨fun id => by rw [hsame]; exact h.foundPriceIds id,
    fun i => by simp only [hsame]; exact h.orderedFeeds i⟩

/-- **One message.** -/
theorem Kept.process {q : Query} (hq : q.priceIds ≠ []) {s : ParseState} (h : Kept q s)
    (m : PriceFeedMessage) (cs : Slice) :
    Kept q { s.process q m with cs, read := s.read ++ [m] } := by
  unfold ParseState.process
  by_cases hnew : m.priceId ∉ s.foundPriceIds ∧ q.shouldInclude m
  · have hlength : ¬q.priceIds.length = 0 := fun hnil => hq (List.length_eq_zero_iff.mp hnil)
    rw [if_pos hnew, if_neg hlength]
    have hnone : q.firstFor s.read m.priceId = none := by
      rw [← Option.not_isSome_iff_eq_none]
      exact mt (h.foundPriceIds _).mpr hnew.1
    have hself : q.firstFor (s.read ++ [m]) m.priceId = some m := by
      rw [Query.firstFor_append, hnone, if_pos ⟨rfl, hnew.2⟩, Option.none_or]
    have hother {id : Bytes32} (hne : m.priceId ≠ id) :
        q.firstFor (s.read ++ [m]) id = q.firstFor s.read id := by
      rw [Query.firstFor_append, if_neg fun hmatch => hne hmatch.1, Option.or_none]
    have hfound (id : Bytes32) : id ∈ m.priceId :: s.foundPriceIds ↔
        (q.firstFor (s.read ++ [m]) id).isSome = true := by
      by_cases hid : m.priceId = id
      · subst hid
        rw [hself]
        exact iff_of_true List.mem_cons_self rfl
      · rw [hother hid, ← h.foundPriceIds, List.mem_cons]
        exact or_iff_right fun heq => hid heq.symm
    by_cases hmem : m.priceId ∈ q.priceIds
    · have hindex := findPriceIdIndex_of_mem hmem
      rw [hindex]
      dsimp only
      rw [if_pos (Int.natCast_nonneg _)]
      refine ⟨hfound, fun i => ?_⟩
      show Function.update s.orderedFeeds (Int.toNat _) (some m.feed) i = _
      rw [Int.toNat_natCast]
      by_cases hi : i = q.priceIds.idxOf m.priceId
      · subst hi
        rw [Function.update_self, List.getElem?_eq_getElem (List.idxOf_lt_length_of_mem hmem),
          List.getElem_idxOf, Option.bind_some, if_pos rfl, hself]
        rfl
      · rw [Function.update_of_ne hi, h.orderedFeeds]
        refine congrArg (Option.bind q.priceIds[i]?) (funext fun id => ?_)
        by_cases hid : m.priceId = id
        · subst hid
          rw [if_neg fun heq => hi heq.symm, if_neg fun heq => hi heq.symm]
        · simp only [hother hid]
    · have hindex := findPriceIdIndex_of_notMem hmem
      rw [hindex]
      dsimp only
      rw [if_neg (by decide)]
      refine ⟨hfound, fun i => ?_⟩
      show s.orderedFeeds i = _
      rw [h.orderedFeeds]
      cases hi : q.priceIds[i]? with
      | none => rfl
      | some id =>
        have hid : m.priceId ≠ id := fun heq => hmem (heq ▸ List.mem_of_getElem? hi)
        simp only [Option.bind_some, hother hid]
  · rw [if_neg hnew]
    exact h.skip hnew cs

variable {keccak256 : Bytes → Bytes32}

theorem parseUpdates_kept {q : Query} (hq : q.priceIds ≠ []) {root : BitVec 160} {n : ℕ}
    {s s' : ParseState} (h : Kept q s) (hok : parseUpdates keccak256 q root n s = .ok s') :
    Kept q s' := by
  induction n generalizing s with
  | zero =>
    cases hok
    exact h
  | succ n ih =>
    obtain ⟨⟨m, cs⟩, -, hrest⟩ := except_bind_eq_ok.mp hok
    exact ih (h.process hq m cs) hrest

/-- What is read does not depend on what is asked for. -/
theorem parseUpdates_read {q q' : Query} {root : BitVec 160} {n : ℕ} {s s' t : ParseState}
    (hcs : t.cs = s.cs) (hread : t.read = s.read)
    (hok : parseUpdates keccak256 q root n s = .ok s') :
    ∃ t', parseUpdates keccak256 q' root n t = .ok t' ∧ t'.cs = s'.cs ∧ t'.read = s'.read := by
  induction n generalizing s t with
  | zero =>
    cases hok
    exact ⟨t, rfl, hcs, hread⟩
  | succ n ih =>
    obtain ⟨⟨m, cs⟩, hmessage, hrest⟩ := except_bind_eq_ok.mp hok
    have hread' : t.read ++ [m] = s.read ++ [m] := by rw [hread]
    obtain ⟨t', ht', hfinal⟩ := ih (s := { s.process q m with cs, read := s.read ++ [m] })
      (t := { t.process q' m with cs, read := t.read ++ [m] }) rfl hread' hrest
    refine ⟨t', ?_, hfinal⟩
    rw [parseUpdates, hcs, hmessage]
    exact ht'

/-- An entry more is at most one feed more. -/
theorem length_filterMap_update {α : Type} (f : ℕ → Option α) (k : ℕ) (a : α) (n : ℕ) :
    ((List.range n).filterMap (Function.update f k (some a))).length
      ≤ ((List.range n).filterMap f).length + 1 := by
  induction n with
  | zero => exact Nat.zero_le _
  | succ n ih =>
    rw [List.range_succ, List.filterMap_append, List.filterMap_append, List.length_append,
      List.length_append]
    by_cases hk : n = k
    · subst hk
      have hbefore : (List.range n).filterMap (Function.update f n (some a))
          = (List.range n).filterMap f :=
        List.filterMap_congr fun i hi =>
          Function.update_of_ne (Nat.ne_of_lt (List.mem_range.mp hi)) _ _
      rw [hbefore]
      have hone : ([n].filterMap (Function.update f n (some a))).length ≤ 1 :=
        List.length_filterMap_le _ _
      omega
    · have hsame : [n].filterMap (Function.update f k (some a)) = [n].filterMap f := by
        rw [List.filterMap_cons, List.filterMap_cons, Function.update_of_ne hk]
        rfl
      rw [hsame]
      omega

theorem length_priceFeeds_start (cs : Slice) : ({ cs } : ParseState).priceFeeds.length = 0 := by
  refine List.length_eq_zero_iff.mpr (List.eq_nil_iff_forall_not_mem.mpr fun feed hfeed => ?_)
  obtain ⟨i, -, hi⟩ := List.mem_filterMap.mp hfeed
  cases hi

theorem length_priceFeeds_process (q : Query) (s : ParseState) (m : PriceFeedMessage) :
    (s.process q m).priceFeeds.length ≤ s.priceFeeds.length + 1 := by
  unfold ParseState.process
  split
  · split
    · exact length_filterMap_update _ _ _ _
    · dsimp only
      split
      · exact length_filterMap_update _ _ _ _
      · exact Nat.le_succ _
  · exact Nat.le_succ _

/-- There are no more feeds than messages. -/
theorem parseUpdates_length {q : Query} {root : BitVec 160} {n : ℕ} {s s' : ParseState}
    (h : s.priceFeeds.length ≤ s.read.length) (hok : parseUpdates keccak256 q root n s = .ok s') :
    s'.priceFeeds.length ≤ s'.read.length := by
  induction n generalizing s with
  | zero =>
    cases hok
    exact h
  | succ n ih =>
    obtain ⟨⟨m, cs⟩, -, hrest⟩ := except_bind_eq_ok.mp hok
    refine ih (s := { s.process q m with cs, read := s.read ++ [m] }) ?_ hrest
    show (s.process q m).priceFeeds.length ≤ (s.read ++ [m]).length
    rw [List.length_append, List.length_singleton]
    exact (length_priceFeeds_process q s m).trans (Nat.succ_le_succ h)

section

variable {checkSig : Bytes32 → BitVec 8 → Bytes32 → Bytes32 → Option (Bytes32 × Bytes32)}
  {cellHash : Bits → Bytes32} {getComputeFee : ℕ → ℕ → ℕ} {gasConsumed : ℕ}
  {storage : PythStorage} {now : BitVec 32} {msgValue : ℕ} {data : Slice}
  {messages : List PriceFeedMessage}

/-- A verified update, read for some ids. -/
theorem parseUpdateData_kept {q : Query} (hq : q.priceIds ≠ [])
    (hverified : ReadsMessages keccak256 checkSig cellHash getComputeFee storage now msgValue data
      (allFeeds 0 0 false) messages) :
    ∃ s, parseUpdateData keccak256 checkSig cellHash getComputeFee storage now msgValue data q
      = .ok s ∧ s.read = messages ∧ Kept q s ∧ s.priceFeeds.length ≤ messages.length := by
  obtain ⟨s, hs, rfl⟩ := (readsMessages_iff _ rfl).mp hverified
  obtain ⟨body, hheader, hrest⟩ := except_bind_eq_ok.mp hs
  obtain ⟨⟨size, cs⟩, hsize, hrest⟩ := except_bind_eq_ok.mp hrest
  dsimp only at hrest
  obtain ⟨⟨numUpdates, cs'⟩, hnum, hrest⟩ := except_bind_eq_ok.mp hrest
  obtain ⟨_, hfees, hrest⟩ := except_bind_eq_ok.mp hrest
  obtain ⟨root, hroot, hrest⟩ := except_bind_eq_ok.mp hrest
  obtain ⟨s', hloop, hrest⟩ := except_bind_eq_ok.mp hrest
  obtain ⟨_, hend, hrest⟩ := except_bind_eq_ok.mp hrest
  cases hrest
  obtain ⟨t, ht, hcs, hread⟩ : ∃ t, parseUpdates keccak256 q root numUpdates.toNat { cs := cs' }
      = .ok t ∧ t.cs = s.cs ∧ t.read = s.read :=
    parseUpdates_read rfl rfl hloop
  have hlength : t.priceFeeds.length ≤ t.read.length :=
    parseUpdates_length (length_priceFeeds_start cs').le ht
  refine ⟨t, ?_, hread, parseUpdates_kept hq (kept_start q cs') ht, hread ▸ hlength⟩
  unfold parseUpdateData
  simp only [except_bind_eq_ok]
  refine ⟨body, hheader, ⟨size, cs⟩, hsize, ⟨numUpdates, cs'⟩, hnum, _, hfees, root, hroot, t, ht,
    (), ?_, rfl⟩
  rw [hcs]
  exact hend

/-! ## The feeds in order -/

theorem map_some_filterMap {α β : Type} {f : α → Option β} {as : List α}
    (h : ∀ a ∈ as, (f a).isSome = true) : (as.filterMap f).map some = as.map f := by
  induction as with
  | nil => rfl
  | cons a as ih =>
    obtain ⟨b, hb⟩ := Option.isSome_iff_exists.mp (h a List.mem_cons_self)
    rw [List.filterMap_cons, hb, List.map_cons, List.map_cons, hb,
      ih fun a ha => h a (List.mem_cons_of_mem _ ha)]

/-- Different ids get their feeds in the order in which they are requested. -/
theorem Kept.priceFeeds {q : Query} {s : ParseState} (h : Kept q s) (hnodup : q.priceIds.Nodup)
    (hcount : q.priceIds.length ≤ 255)
    (hfound : ∀ id ∈ q.priceIds, (q.firstFor s.read id).isSome = true) :
    s.priceFeeds.map some
      = q.priceIds.map fun id => (q.firstFor s.read id).map PriceFeedMessage.feed := by
  have hfeeds : s.orderedFeeds = fun i =>
      (q.priceIds[i]?).bind fun id => (q.firstFor s.read id).map PriceFeedMessage.feed := by
    funext i
    rw [h.orderedFeeds]
    cases hi : q.priceIds[i]? with
    | none => rfl
    | some id =>
      obtain ⟨hlt, rfl⟩ := List.getElem?_eq_some_iff.mp hi
      exact if_pos (hnodup.idxOf_getElem i hlt)
  have hread : s.priceFeeds
      = q.priceIds.filterMap fun id => (q.firstFor s.read id).map PriceFeedMessage.feed := by
    rw [ParseState.priceFeeds, hfeeds, ← List.filterMap_filterMap, range_filterMap_getElem?,
      List.take_of_length_le (by omega)]
  rw [hread]
  exact map_some_filterMap fun id hid => by rw [Option.isSome_map]; exact hfound id hid

/-- A feed that is found is in the answer. -/
theorem Kept.priceFeeds_ne_nil {q : Query} (hq : q.priceIds ≠ []) {s : ParseState}
    (h : Kept q s) (hfound : ∀ id ∈ q.priceIds, (q.firstFor s.read id).isSome = true) :
    s.priceFeeds ≠ [] := by
  cases hids : q.priceIds with
  | nil => exact absurd hids hq
  | cons id ids =>
    obtain ⟨m, hm⟩ := Option.isSome_iff_exists.mp (hfound id (by rw [hids]; exact List.mem_cons_self))
    have hfirst : s.orderedFeeds 0 = some m.feed := by
      rw [h.orderedFeeds, hids, List.getElem?_cons_zero, Option.bind_some, List.idxOf_cons_self,
        if_pos rfl, hm, Option.map_some]
    exact List.ne_nil_of_mem (List.mem_filterMap.mpr ⟨0, List.mem_range.mpr (by decide), hfirst⟩)

/-! ## The ids in cells -/

/-- The request of some price ids. -/
def requestBits (ids : List Bytes32) : Bits :=
  bitsBE 8 ids.length ++ ids.flatMap fun id => bitsBE 256 id.toNat

/-- An integer that starts in this cell is loaded where it ends there. -/
theorem loadInt_of_all {w : ℕ} {v : BitVec w} {s : Slice} {rest : Bits}
    (hs : s.all = bitsBE w v.toNat ++ rest) :
    if w ≤ s.bits.length then
      loadInt w s = .ok (v, { s with bits := s.bits.drop w }) ∧
        Slice.all { s with bits := s.bits.drop w } = rest
    else loadInt w s = .error .cellUnderflow := by
  obtain ⟨bits, refs⟩ := s
  split
  · next hle =>
    have hle : w ≤ bits.length := hle
    have hsplit : bits.take w ++ (bits.drop w ++ refs.flatten) = bitsBE w v.toNat ++ rest := by
      rw [← List.append_assoc, List.take_append_drop]
      exact hs
    have hlength : (bits.take w).length = (bitsBE w v.toNat).length := by
      rw [List.length_take_of_le hle, length_bitsBE]
    obtain ⟨htake, hdrop⟩ := List.append_inj hsplit hlength
    refine ⟨loadInt_eq_ok.mpr ⟨hle, ?_, rfl⟩, hdrop⟩
    show v = BitVec.ofNat w (natBits (bits.take w))
    rw [htake, natBits_bitsBE, Nat.mod_eq_of_lt v.isLt, BitVec.ofNat_toNat, BitVec.setWidth_eq]
  · next hle => rw [loadInt, if_neg hle]

/-- Only ids of this cell are loaded. -/
theorem loadPriceIds_eq {ids : List Bytes32} {s : Slice}
    (hs : s.all = ids.flatMap fun id => bitsBE 256 id.toNat) :
    loadPriceIds ids.length s =
      if 256 * ids.length ≤ s.bits.length then .ok ids else .error .cellUnderflow := by
  induction ids generalizing s with
  | nil => rfl
  | cons id ids ih =>
    rw [List.flatMap_cons] at hs
    have hload := loadInt_of_all hs
    rw [List.length_cons, loadPriceIds]
    split at hload
    · next hle =>
      obtain ⟨hid, hrest⟩ := hload
      have hbits : (Slice.mk (s.bits.drop 256) s.refs).bits.length = s.bits.length - 256 :=
        List.length_drop
      rw [hid, except_ok_bind]
      dsimp only
      rw [ih hrest]
      by_cases hfits : 256 * (ids.length + 1) ≤ s.bits.length
      · rw [if_pos hfits, if_pos (by omega)]
        rfl
      · rw [if_neg hfits, if_neg (by omega)]
        rfl
    · next hle =>
      rw [hload, if_neg (by omega)]
      rfl

/-! ## The answer -/

/-- The two kinds of requests. -/
inductive ParseRequest where
  | updates (minPublishTime maxPublishTime : BitVec 64)
  | uniqueUpdates (publishTime maxStaleness : BitVec 64)

namespace ParseRequest

def op : ParseRequest → ℕ
  | updates _ _ => OP_PARSE_PRICE_FEED_UPDATES
  | uniqueUpdates _ _ => OP_PARSE_UNIQUE_PRICE_FEED_UPDATES

/-- What `parse_price_feeds_from_data` is called with. -/
def query (priceIds : List Bytes32) : ParseRequest → Query
  | updates minPublishTime maxPublishTime =>
    ⟨priceIds, minPublishTime.toNat, maxPublishTime.toNat, false⟩
  | uniqueUpdates publishTime maxStaleness =>
    ⟨priceIds, publishTime.toNat, publishTime.toNat + maxStaleness.toNat, true⟩

/-- A message in the range that is asked for. A unique one is the first at or after its time. -/
def Matches (m : PriceFeedMessage) : ParseRequest → Prop
  | updates minPublishTime maxPublishTime =>
    minPublishTime.toNat ≤ m.publishTime.toNat ∧ m.publishTime.toNat ≤ maxPublishTime.toNat
  | uniqueUpdates publishTime maxStaleness =>
    publishTime.toNat ≤ m.publishTime.toNat ∧
      m.publishTime.toNat ≤ publishTime.toNat + maxStaleness.toNat ∧
      m.prevPublishTime.toNat < publishTime.toNat

instance (m : PriceFeedMessage) : (r : ParseRequest) → Decidable (r.Matches m)
  | updates _ _ => inferInstanceAs (Decidable (_ ∧ _))
  | uniqueUpdates _ _ => inferInstanceAs (Decidable (_ ∧ _ ∧ _))

/-- The feed of the first message for an id that matches. -/
def feedFor (r : ParseRequest) (messages : List PriceFeedMessage) (id : Bytes32) :
    Option (Bytes32 × PriceFeedCell) :=
  (messages.find? fun m => m.priceId = id ∧ r.Matches m).map PriceFeedMessage.feed

def run (keccak256 : Bytes → Bytes32)
    (checkSig : Bytes32 → BitVec 8 → Bytes32 → Bytes32 → Option (Bytes32 × Bytes32))
    (cellHash : Bits → Bytes32) (getComputeFee : ℕ → ℕ → ℕ) (gasConsumed : ℕ)
    (storage : PythStorage) (now : BitVec 32) (msgValue : ℕ)
    (updateDataSlice priceIdsSlice : Slice) : ParseRequest → Result PriceFeedsResponse
  | updates minPublishTime maxPublishTime =>
    parsePriceFeedUpdates keccak256 checkSig cellHash getComputeFee gasConsumed storage now msgValue
      updateDataSlice priceIdsSlice minPublishTime maxPublishTime
  | uniqueUpdates publishTime maxStaleness =>
    parseUniquePriceFeedUpdates keccak256 checkSig cellHash getComputeFee gasConsumed storage now
      msgValue updateDataSlice priceIdsSlice publishTime maxStaleness

/-- One feed for each id in their order, the first that matches. The request fails where an id has
none, or is requested twice. -/
structure Answered (r : ParseRequest) (messages : List PriceFeedMessage) (ids : List Bytes32)
    (result : Result PriceFeedsResponse) : Prop where
  feeds : ∀ response, result = .ok response →
    response.priceFeeds.map some = ids.map (r.feedFor messages)
  fails : (∃ e, result = .error e) ↔ (∃ id ∈ ids, r.feedFor messages id = none) ∨ ¬ids.Nodup

theorem query_priceIds (r : ParseRequest) (ids : List Bytes32) : (r.query ids).priceIds = ids := by
  cases r with
  | updates _ _ => rfl
  | uniqueUpdates _ _ => rfl

theorem shouldInclude_iff (r : ParseRequest) {ids : List Bytes32} (hids : ids ≠ [])
    (m : PriceFeedMessage) : (r.query ids).shouldInclude m ↔ r.Matches m := by
  have hpos := List.length_pos_iff.mpr hids
  unfold Query.shouldInclude
  rw [query_priceIds]
  cases r with
  | updates minPublishTime maxPublishTime =>
    show ids.length = 0 ∨ _ ↔ _ ∧ _
    refine (or_iff_right (by omega)).trans ⟨fun h => ⟨h.2.1, h.2.2.1⟩, fun h => ?_⟩
    exact ⟨hpos, h.1, h.2, .inl rfl⟩
  | uniqueUpdates publishTime maxStaleness =>
    show ids.length = 0 ∨ _ ↔ _ ∧ _ ∧ _
    refine (or_iff_right (by omega)).trans ⟨fun h => ⟨h.2.1, h.2.2.1, ?_⟩, fun h => ?_⟩
    · exact h.2.2.2.resolve_left nofun
    · exact ⟨hpos, h.1, h.2.1, .inr h.2.2⟩

theorem feedFor_eq (r : ParseRequest) {ids : List Bytes32} (hids : ids ≠ [])
    (messages : List PriceFeedMessage) (id : Bytes32) :
    r.feedFor messages id
      = ((r.query ids).firstFor messages id).map PriceFeedMessage.feed := by
  simp only [feedFor, Query.firstFor, r.shouldInclude_iff hids]

/-- The ids that are loaded decide what the update is asked for. -/
theorem run_eq (r : ParseRequest) {ids : List Bytes32} {priceIdsSlice : Slice}
    (hids : priceIdsSlice.all = requestBits ids) (hcount : ids.length ≤ 255) :
    r.run keccak256 checkSig cellHash getComputeFee gasConsumed storage now msgValue data
        priceIdsSlice =
      if 8 + 256 * ids.length ≤ priceIdsSlice.bits.length then do
        let priceFeeds ← parsePriceFeedsFromData keccak256 checkSig cellHash getComputeFee storage
          now msgValue data (r.query ids)
        sendPriceFeedsResponse getComputeFee gasConsumed storage priceFeeds msgValue r.op
      else .error .cellUnderflow := by
  have hlen : (BitVec.ofNat 8 ids.length).toNat = ids.length := by
    rw [BitVec.toNat_ofNat, Nat.mod_eq_of_lt (by omega)]
  have hall : priceIdsSlice.all = bitsBE 8 (BitVec.ofNat 8 ids.length).toNat ++
      ids.flatMap fun id => bitsBE 256 id.toNat := by
    rw [hlen]
    exact hids
  have hload := loadInt_of_all hall
  have hrun : r.run keccak256 checkSig cellHash getComputeFee gasConsumed storage now msgValue data
      priceIdsSlice = (do
        let (priceIdsLen, priceIdsSlice) ← loadInt 8 priceIdsSlice
        let priceIds ← loadPriceIds priceIdsLen.toNat priceIdsSlice
        let priceFeeds ← parsePriceFeedsFromData keccak256 checkSig cellHash getComputeFee storage
          now msgValue data (r.query priceIds)
        sendPriceFeedsResponse getComputeFee gasConsumed storage priceFeeds msgValue r.op) := by
    cases r with
    | updates _ _ => rfl
    | uniqueUpdates _ _ => rfl
  rw [hrun]
  split at hload
  · next hle =>
    obtain ⟨hcountLoaded, hrest⟩ := hload
    have hbits : (Slice.mk (priceIdsSlice.bits.drop 8) priceIdsSlice.refs).bits.length
        = priceIdsSlice.bits.length - 8 :=
      List.length_drop
    rw [hcountLoaded, except_ok_bind]
    dsimp only
    rw [hlen, loadPriceIds_eq hrest]
    by_cases hfits : 8 + 256 * ids.length ≤ priceIdsSlice.bits.length
    · rw [if_pos hfits, if_pos (by omega), except_ok_bind]
    · rw [if_neg hfits, if_neg (by omega)]
      rfl
  · next hle =>
    rw [hload, if_neg (by omega)]
    rfl

/-- An answer has a feed. -/
theorem send_ne_nil {priceFeeds : List (Bytes32 × PriceFeedCell)} {op : ℕ}
    {response : PriceFeedsResponse}
    (h : sendPriceFeedsResponse getComputeFee gasConsumed storage priceFeeds msgValue op
      = .ok response) : response.priceFeeds ≠ [] := by
  unfold sendPriceFeedsResponse at h
  split at h
  · cases h
  · next hne =>
    dsimp only at h
    split at h
    · cases h
      exact hne
    · cases h

/-- No request without ids is answered with no feeds. -/
theorem not_answered_nil (r : ParseRequest) {priceIdsSlice : Slice}
    (hids : priceIdsSlice.all = requestBits []) :
    ¬r.Answered messages [] (r.run keccak256 checkSig cellHash getComputeFee gasConsumed storage now
      msgValue data priceIdsSlice) := by
  intro h
  cases hresult : r.run keccak256 checkSig cellHash getComputeFee gasConsumed storage now msgValue
      data priceIdsSlice with
  | error e =>
    rcases h.fails.mp ⟨e, hresult⟩ with ⟨id, hid, -⟩ | hnodup
    · exact absurd hid List.not_mem_nil
    · exact hnodup List.nodup_nil
  | ok response =>
    have hnil := h.feeds response hresult
    rw [List.map_nil, List.map_eq_nil_iff] at hnil
    rw [r.run_eq hids (Nat.zero_le _)] at hresult
    split at hresult
    · obtain ⟨priceFeeds, -, hsend⟩ := except_bind_eq_ok.mp hresult
      exact send_ne_nil hsend hnil
    · cases hresult

section

variable (r : ParseRequest) {ids : List Bytes32} {priceIdsSlice : Slice} (hne : ids ≠ [])
  (hverified : ReadsMessages keccak256 checkSig cellHash getComputeFee storage now msgValue data
    (allFeeds 0 0 false) messages)
  (hids : priceIdsSlice.all = requestBits ids) (hcount : ids.length ≤ 255)

/-- Where an id is not in the first cell, nothing is parsed. -/
theorem run_of_not_fits (hids : priceIdsSlice.all = requestBits ids) (hcount : ids.length ≤ 255)
    (hfits : ¬8 + 256 * ids.length ≤ priceIdsSlice.bits.length) :
    r.run keccak256 checkSig cellHash getComputeFee gasConsumed storage now msgValue data
      priceIdsSlice = .error .cellUnderflow := by
  rw [r.run_eq hids hcount, if_neg hfits]

include hne hverified hids hcount

/-- An id without a feed fails the request. -/
theorem run_of_missing {id : Bytes32} (hid : id ∈ ids) (hmissing : r.feedFor messages id = none) :
    ∃ e, r.run keccak256 checkSig cellHash getComputeFee gasConsumed storage now msgValue data
      priceIdsSlice = .error e := by
  obtain ⟨s, hs, rfl, hkept, -⟩ :=
    parseUpdateData_kept (q := r.query ids) (by rw [r.query_priceIds]; exact hne) hverified
  have hnot : ¬∀ id ∈ (r.query ids).priceIds, id ∈ s.foundPriceIds := by
    intro hall
    have hfound := (hkept.foundPriceIds id).mp (hall id (by rw [r.query_priceIds]; exact hid))
    rw [r.feedFor_eq hne, Option.map_eq_none_iff] at hmissing
    rw [hmissing] at hfound
    cases hfound
  rw [r.run_eq hids hcount]
  split
  · refine ⟨.code ERROR_PRICE_FEED_NOT_FOUND_WITHIN_RANGE, ?_⟩
    rw [parsePriceFeedsFromData, hs, except_ok_bind, throwUnless, if_neg hnot]
    rfl
  · exact ⟨_, rfl⟩

/-- Where every id has a feed and is in the first cell, the request succeeds. -/
theorem run_of_found
    (hpaid : getComputeFee WORKCHAIN gasConsumed + storage.singleUpdateFee * messages.length
      ≤ msgValue)
    (hfound : ∀ id ∈ ids, r.feedFor messages id ≠ none)
    (hfits : 8 + 256 * ids.length ≤ priceIdsSlice.bits.length) :
    ∃ response, r.run keccak256 checkSig cellHash getComputeFee gasConsumed storage now msgValue
        data priceIdsSlice = .ok response ∧
      (ids.Nodup → response.priceFeeds.map some = ids.map (r.feedFor messages)) := by
  have hq : (r.query ids).priceIds ≠ [] := by rw [r.query_priceIds]; exact hne
  obtain ⟨s, hs, rfl, hkept, hlength⟩ := parseUpdateData_kept (q := r.query ids) hq hverified
  have hfirst : ∀ id ∈ (r.query ids).priceIds,
      ((r.query ids).firstFor s.read id).isSome = true := by
    intro id hid
    rw [r.query_priceIds] at hid
    have hsome := Option.isSome_iff_ne_none.mpr (hfound id hid)
    rwa [r.feedFor_eq hne, Option.isSome_map] at hsome
  have hall : ∀ id ∈ (r.query ids).priceIds, id ∈ s.foundPriceIds := fun id hid =>
    (hkept.foundPriceIds id).mpr (hfirst id hid)
  have hfeeds : parsePriceFeedsFromData keccak256 checkSig cellHash getComputeFee storage now
      msgValue data (r.query ids) = .ok s.priceFeeds := by
    rw [parsePriceFeedsFromData, hs, except_ok_bind, throwUnless, if_pos hall]
    rfl
  have hfees : getComputeFee WORKCHAIN gasConsumed + storage.singleUpdateFee * s.priceFeeds.length
      ≤ msgValue :=
    (Nat.add_le_add_left (Nat.mul_le_mul_left _ hlength) _).trans hpaid
  refine ⟨⟨r.op, s.priceFeeds, msgValue - (getComputeFee WORKCHAIN gasConsumed
    + storage.singleUpdateFee * s.priceFeeds.length)⟩, ?_, fun hnodup => ?_⟩
  · rw [r.run_eq hids hcount, if_pos hfits, hfeeds, except_ok_bind, sendPriceFeedsResponse,
      if_neg (hkept.priceFeeds_ne_nil hq hfirst)]
    exact if_pos hfees
  · show s.priceFeeds.map some = _
    rw [hkept.priceFeeds (by rw [r.query_priceIds]; exact hnodup)
      (by rw [r.query_priceIds]; exact hcount) hfirst, r.query_priceIds]
    exact List.map_congr_left fun id _ => (r.feedFor_eq hne s.read id).symm

end

end ParseRequest

end

/-- **Requests.** For a verified update that is paid for: a request of at most 255 ids is answered
with the first matching feed of each id, or fails where it should, exactly when there are ids, and
one of them has no feed or they are different just where all are in the first cell. -/
theorem parse_requests_answered_iff (keccak256 : Bytes → Bytes32)
    (checkSig : Bytes32 → BitVec 8 → Bytes32 → Bytes32 → Option (Bytes32 × Bytes32))
    (cellHash : Bits → Bytes32) (getComputeFee : ℕ → ℕ → ℕ) (gasConsumed : ℕ)
    (storage : PythStorage) (now : BitVec 32) (msgValue : ℕ) (data priceIdsSlice : Slice)
    (messages : List PriceFeedMessage) (ids : List Bytes32) (r : ParseRequest)
    (hverified : ReadsMessages keccak256 checkSig cellHash getComputeFee storage now msgValue data
      (allFeeds 0 0 false) messages)
    (hpaid : getComputeFee WORKCHAIN gasConsumed + storage.singleUpdateFee * messages.length
      ≤ msgValue)
    (hids : priceIdsSlice.all = requestBits ids) (hcount : ids.length ≤ 255) :
    r.Answered messages ids (r.run keccak256 checkSig cellHash getComputeFee gasConsumed storage now
        msgValue data priceIdsSlice) ↔
      ids ≠ [] ∧ ((∃ id ∈ ids, r.feedFor messages id = none) ∨
        (8 + 256 * ids.length ≤ priceIdsSlice.bits.length ↔ ids.Nodup)) := by
  by_cases hne : ids = []
  · subst hne
    exact iff_of_false (r.not_answered_nil hids) fun h => h.1 rfl
  by_cases hmissing : ∃ id ∈ ids, r.feedFor messages id = none
  · obtain ⟨id, hid, hnone⟩ := hmissing
    obtain ⟨e, hresult⟩ : ∃ e, r.run keccak256 checkSig cellHash getComputeFee gasConsumed storage
        now msgValue data priceIdsSlice = .error e :=
      r.run_of_missing hne hverified hids hcount hid hnone
    rw [hresult]
    refine iff_of_true ⟨fun _ => nofun, iff_of_true ⟨e, rfl⟩ (.inl ⟨id, hid, hnone⟩)⟩
      ⟨hne, .inl ⟨id, hid, hnone⟩⟩
  have hfound : ∀ id ∈ ids, r.feedFor messages id ≠ none := fun id hid hnone =>
    hmissing ⟨id, hid, hnone⟩
  by_cases hfits : 8 + 256 * ids.length ≤ priceIdsSlice.bits.length
  · obtain ⟨response, hresult, hfeeds⟩ :=
      r.run_of_found hne hverified hids hcount hpaid hfound hfits
    rw [hresult]
    by_cases hnodup : ids.Nodup
    · refine iff_of_true ⟨fun response' hok => ?_, iff_of_false nofun fun h => ?_⟩
        ⟨hne, .inr (iff_of_true hfits hnodup)⟩
      · cases hok
        exact hfeeds hnodup
      · exact h.elim hmissing fun hdup => hdup hnodup
    · refine iff_of_false (fun h => ?_) fun h => ?_
      · obtain ⟨e, he⟩ := h.fails.mpr (.inr hnodup)
        cases he
      · exact hnodup ((h.2.resolve_left hmissing).mp hfits)
  · rw [r.run_of_not_fits hids hcount hfits]
    by_cases hnodup : ids.Nodup
    · refine iff_of_false (fun h => ?_) fun h => ?_
      · exact (h.fails.mp ⟨_, rfl⟩).elim hmissing fun hdup => hdup hnodup
      · exact hfits ((h.2.resolve_left hmissing).mpr hnodup)
    · exact iff_of_true ⟨fun _ => nofun, iff_of_true ⟨_, rfl⟩ (.inr hnodup)⟩
        ⟨hne, .inr (iff_of_false hfits hnodup)⟩

/-! ### A request for two ids, and one for the same id twice -/

/-- The price of ETH/USD. -/
def exEther : PriceFeedMessage where
  priceId := 0xff61491a931112ddf1bd8147cd1b641375f79f5825126d665480874634fd0ace
  price := 310000000000
  conf := 150000000
  expo := -8
  publishTime := 1700000002
  prevPublishTime := 1700000001
  emaPrice := 309000000000
  emaConf := 160000000

def exEtherMessage : Bytes :=
  [0] ++ packed 32 exEther.priceId ++ packed 8 exEther.price ++ packed 8 exEther.conf
    ++ packed 4 exEther.expo ++ packed 8 exEther.publishTime ++ packed 8 exEther.prevPublishTime
    ++ packed 8 exEther.emaPrice ++ packed 8 exEther.emaConf

/-- Its leaf hash, and the root over BTC/USD and ETH/USD. -/
def exEtherRoot : BitVec 160 := 0x3c3cc7e60989a3e9f6287d4881f684a263cae54a
def exBothRoot : BitVec 160 := 0x8ab4d51e217cb352e03d7c750ce872bafbb9a039

def exBothBody : Bytes :=
  bytesBE 4 1700000001 ++ bytesBE 4 0 ++ bytesBE 2 26 ++ wordBytes exEmitter ++ bytesBE 8 5 ++ [1]
    ++ bytesBE 4 0x41555756 ++ [0] ++ bytesBE 8 100 ++ bytesBE 4 10000 ++ packed 20 exBothRoot

/-- The hash that the guardian signs, and its hash. -/
def exBothHashes : Bytes32 × Bytes32 :=
  (0xb1909d45558f7f55b259678717d193bee6052145276c3a105393b153f0da8c4c,
    0xe3dfc8cfe29f6d99365c734b2077fe102e5d10584bd299ea0c1225dfea7b3491)

def exBothSignature : Bytes32 × Bytes32 :=
  (0x0b33e529190e288783eb3ac9e1c0247e9b86ab23595e840ab926ae46237d166c,
    0x51d1ee42b33c5d50efe18834168662d1d7f606b4d70d4fa388155a993eb52242)

/-- Keccak-256 of the strings of the update. -/
def exBothKeccak (s : Bytes) : Bytes32 :=
  if s = 0 :: exEtherMessage then
    0x3c3cc7e60989a3e9f6287d4881f684a263cae54aa918398928beb454c07aabc4
  else if s = 1 :: packed 20 exEtherRoot ++ packed 20 exRoot then
    0x8ab4d51e217cb352e03d7c750ce872bafbb9a0398292e96d695bfe834d4ed4bd
  else if s = exBothBody then exBothHashes.1
  else if s = wordBytes exBothHashes.1 then exBothHashes.2
  else exUpdateKeccak s

def exBothCheckSig (hash : Bytes32) (v : BitVec 8) (r s : Bytes32) : Option (Bytes32 × Bytes32) :=
  if v = 1 ∧ hash = exBothHashes.2 ∧ (r, s) = exBothSignature then some exPubkey else none

/-- An update with both messages, BTC/USD first. -/
def exBothUpdate : Bytes :=
  bytesBE 4 0x504e4155 ++ [1, 0, 0, 0] ++ bytesBE 2 160
    ++ ([1] ++ bytesBE 4 0 ++ [1] ++ [0] ++ wordBytes exBothSignature.1
      ++ wordBytes exBothSignature.2 ++ [1] ++ exBothBody)
    ++ [2] ++ bytesBE 2 85 ++ exMessage ++ [1] ++ packed 20 exEtherRoot
    ++ bytesBE 2 85 ++ exEtherMessage ++ [1] ++ packed 20 exRoot

def exBothSlice : Slice :=
  ⟨bitsOf (exBothUpdate.take 127), createCellChain (exBothUpdate.drop 127)⟩

theorem exBothUpdate_accepted :
    Accepted exBothKeccak exBothCheckSig exCellHash exComputeFee exPythStorage 1700000002
      1000000000 exBothUpdate exBothRoot :=
  ⟨by decide +kernel, except_toOption_eq_some.mp (by decide +kernel), by decide +kernel⟩

/-- The update is verified. -/
theorem exBothUpdate_reads :
    ReadsMessages exBothKeccak exBothCheckSig exCellHash exComputeFee exPythStorage 1700000002
      1000000000 exBothSlice (allFeeds 0 0 false) [exFields, exEther] := by
  have hslice : beginParse (createCellChain exBothUpdate) = .ok exBothSlice := by
    decide +kernel
  exact (readsMessages_iff _ rfl).mpr (parseUpdateData_of_grammar exBothUpdate_accepted
    (laid_beginParse (createCellChain_packed _) hslice) (allFeeds 0 0 false) (by decide +kernel)
    (by decide +kernel))

/-- The minutes around the messages. -/
def exRequest : ParseRequest := .updates 1700000000 1700000060

/-- The cell of a request. -/
def exIdsSlice (ids : List Bytes32) : Slice := ⟨requestBits ids, []⟩

theorem exIdsSlice_all (ids : List Bytes32) : (exIdsSlice ids).all = requestBits ids :=
  List.append_nil _

def exRun (ids : List Bytes32) : Result PriceFeedsResponse :=
  exRequest.run exBothKeccak exBothCheckSig exCellHash exComputeFee 100000 exPythStorage
    1700000002 1000000000 exBothSlice (exIdsSlice ids)

/-- The ids come in the other order than the messages. -/
theorem parse_request_exFields :
    exRequest.Answered [exFields, exEther] [exEther.priceId, exFields.priceId]
      (exRun [exEther.priceId, exFields.priceId]) :=
  (parse_requests_answered_iff exBothKeccak exBothCheckSig exCellHash exComputeFee 100000
    exPythStorage 1700000002 1000000000 exBothSlice
    (exIdsSlice [exEther.priceId, exFields.priceId]) [exFields, exEther]
    [exEther.priceId, exFields.priceId] exRequest exBothUpdate_reads (by decide +kernel)
    (exIdsSlice_all _) (by decide)).mpr
    ⟨List.cons_ne_nil _ _, .inr (by decide +kernel)⟩

theorem exRequest_feedFor :
    exRequest.feedFor [exFields, exEther] exFields.priceId = some exFields.feed := by
  have hmatch : exRequest.Matches exFields := by decide
  have hfound : [exFields, exEther].find?
      (fun m => m.priceId = exFields.priceId ∧ exRequest.Matches m) = some exFields :=
    List.find?_cons_of_pos (decide_eq_true ⟨rfl, hmatch⟩)
  rw [ParseRequest.feedFor, hfound, Option.map_some]

/-- The second request for the id is dropped. -/
theorem parse_request_twice :
    ¬exRequest.Answered [exFields, exEther] [exFields.priceId, exFields.priceId]
      (exRun [exFields.priceId, exFields.priceId]) := by
  have hfound : ∀ id ∈ [exFields.priceId, exFields.priceId],
      exRequest.feedFor [exFields, exEther] id ≠ none := by
    intro id hid
    have heq : id = exFields.priceId := by
      simpa only [List.mem_cons, List.not_mem_nil, or_false, or_self] using hid
    rw [heq, exRequest_feedFor]
    exact Option.some_ne_none _
  have hpaid : exComputeFee WORKCHAIN 100000
      + exPythStorage.singleUpdateFee * [exFields, exEther].length ≤ 1000000000 := by
    decide +kernel
  have hfits : 8 + 256 * [exFields.priceId, exFields.priceId].length
      ≤ (exIdsSlice [exFields.priceId, exFields.priceId]).bits.length := by
    decide +kernel
  have hrepeated : ¬[exFields.priceId, exFields.priceId].Nodup := by decide +kernel
  intro h
  obtain ⟨response, hresult, -⟩ := exRequest.run_of_found (List.cons_ne_nil _ _)
    exBothUpdate_reads (exIdsSlice_all [exFields.priceId, exFields.priceId]) (by decide) hpaid
    hfound hfits
  obtain ⟨e, he⟩ := h.fails.mpr (.inr hrepeated)
  cases hresult.symm.trans he

end PythCrosschain.Ton
