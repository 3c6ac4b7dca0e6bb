import PythCrosschain.Lib.FirstMatch
import PythCrosschain.Lib.LatestValue
import PythCrosschain.Ton.CellBoundaries

/-!
# TON: the latest prices over whole runs

`update_price_feeds` takes the feeds of an update through three structures: the ids that were
found, the feeds by the index at which they arrived, and the stored prices. The first two keep
the first message for each id (`parseUpdates_keeps`), and the stored prices are registers of the
latest message that was kept (`updatePriceFeeds_ok`). So over a whole run an entry is the latest
of the first messages for its id in the updates (`latest_prices_state`). A later message for the
same id in one update is dropped, even where it is newer.
-/

namespace PythCrosschain.Ton

open Tvm LatestValue

def PriceFeedMessage.time (m : PriceFeedMessage) : ℕ := m.publishTime.toNat

/-- The first message for each id, in order. -/
def firstMessages (messages : List PriceFeedMessage) : Dedup Bytes32 PriceFeedMessage :=
  messages.foldl (Dedup.offer PriceFeedMessage.priceId) {}

/-- The first message for an id. -/
def firstMessage (messages : List PriceFeedMessage) (priceId : Bytes32) :
    Option PriceFeedMessage :=
  Dedup.firstWith PriceFeedMessage.priceId messages priceId

/-- The feed of a message. -/
def PriceFeedMessage.feed (m : PriceFeedMessage) : Bytes32 × PriceFeedCell := (m.priceId, m.cell)

theorem firstMessages_append (messages : List PriceFeedMessage) (m : PriceFeedMessage) :
    firstMessages (messages ++ [m]) = (firstMessages messages).offer PriceFeedMessage.priceId m :=
  List.foldl_append

theorem firstMessages_tracks (messages : List PriceFeedMessage) :
    (firstMessages messages).Tracks PriceFeedMessage.priceId messages := by
  induction messages using List.reverseRecOn with
  | nil => exact Dedup.tracks_empty
  | append_singleton messages m ih =>
    rw [firstMessages_append]
    exact ih.offer m

theorem length_firstMessages_le (messages : List PriceFeedMessage) :
    (firstMessages messages).passed.length ≤ messages.length := by
  induction messages using List.reverseRecOn with
  | nil => exact le_rfl
  | append_singleton messages m ih =>
    rw [firstMessages_append, List.length_append, List.length_singleton, Dedup.offer]
    split
    · exact ih.trans (Nat.le_succ _)
    · rw [List.length_append, List.length_singleton]
      exact Nat.succ_le_succ ih

/-! ## The loop over the updates -/

/-- The two dictionaries keep the first message for each id. -/
structure Keeps (s : ParseState) : Prop where
  index : s.index = (firstMessages s.read).passed.length
  orderedFeeds : ∀ i, s.orderedFeeds i = (firstMessages s.read).passed[i]?.map PriceFeedMessage.feed
  foundPriceIds : ∀ id, id ∈ s.foundPriceIds ↔ id ∈ (firstMessages s.read).seen

theorem keeps_start (cs : Slice) : Keeps { cs } where
  index := rfl
  orderedFeeds _ := rfl
  foundPriceIds _ := iff_of_false List.not_mem_nil (Finset.notMem_empty _)

theorem Keeps.process {s : ParseState} (h : Keeps s) {q : Query} (hq : q.priceIds = [])
    (m : PriceFeedMessage) (cs : Slice) :
    Keeps { s.process q m with cs, read := s.read ++ [m] } := by
  have hinclude : q.shouldInclude m := .inl (by rw [hq]; rfl)
  unfold ParseState.process
  by_cases hfound : m.priceId ∈ s.foundPriceIds
  · rw [if_neg fun h => h.1 hfound]
    have hsame : firstMessages (s.read ++ [m]) = firstMessages s.read := by
      rw [firstMessages_append, Dedup.offer, if_pos ((h.foundPriceIds _).mp hfound)]
    exact ⟨by rw [hsame]; exact h.index, by rw [hsame]; exact h.orderedFeeds,
      by rw [hsame]; exact h.foundPriceIds⟩
  · have hlength : q.priceIds.length = 0 := by rw [hq]; rfl
    rw [if_pos ⟨hfound, hinclude⟩, if_pos hlength]
    have hkept : firstMessages (s.read ++ [m]) =
        ⟨insert m.priceId (firstMessages s.read).seen, (firstMessages s.read).passed ++ [m]⟩ := by
      rw [firstMessages_append, Dedup.offer, if_neg (mt (h.foundPriceIds _).mpr hfound)]
    refine ⟨?_, fun i => ?_, fun id => ?_⟩
    · rw [hkept, List.length_append]
      show s.index + 1 = _
      rw [h.index]
      rfl
    · rw [hkept]
      show Function.update s.orderedFeeds s.index.toNat (some m.feed) i = _
      have hindex : s.index.toNat = (firstMessages s.read).passed.length := by
        rw [h.index, Int.toNat_natCast]
      rw [hindex]
      by_cases hlast : i = (firstMessages s.read).passed.length
      · rw [hlast, Function.update_self, List.getElem?_concat_length]
        rfl
      · rw [Function.update_of_ne hlast, h.orderedFeeds]
        rcases Nat.lt_or_gt_of_ne hlast with hlt | hgt
        · rw [List.getElem?_append_left hlt]
        · rw [List.getElem?_eq_none (Nat.le_of_lt hgt), List.getElem?_eq_none]
          rw [List.length_append, List.length_singleton]
          exact hgt
    · rw [hkept, Finset.mem_insert, ← h.foundPriceIds]
      exact List.mem_cons

variable {keccak256 : Bytes → Bytes32}

/-- What the loop has read, and what it keeps. -/
theorem parseUpdates_keeps {q : Query} (hq : q.priceIds = []) {root : BitVec 160} {n : ℕ}
    {s s' : ParseState} (h : Keeps s) (hok : parseUpdates keccak256 q root n s = .ok s') :
    Keeps s' ∧ s'.read.length = s.read.length + n := by
  induction n generalizing s with
  | zero =>
    cases hok
    exact ⟨h, rfl⟩
  | succ n ih =>
    obtain ⟨⟨m, cs⟩, -, hrest⟩ := except_bind_eq_ok.mp hok
    obtain ⟨hkeeps, hlength⟩ := ih (h.process hq m cs) hrest
    refine ⟨hkeeps, hlength.trans ?_⟩
    show (s.read ++ [m]).length + n = _
    rw [List.length_append, List.length_singleton, Nat.add_assoc, Nat.add_comm 1 n]

theorem range_filterMap_getElem? {α : Type} (l : List α) (n : ℕ) :
    (List.range n).filterMap (fun i => l[i]?) = l.take n := by
  induction n with
  | zero => rfl
  | succ n ih =>
    rw [List.range_succ, List.filterMap_append, ih, List.take_add_one, List.filterMap_cons,
      List.filterMap_nil]
    cases l[n]? <;> rfl

/-- All feeds are read from the dictionary, as its keys are bytes. -/
theorem Keeps.priceFeeds {s : ParseState} (h : Keeps s) (hlength : s.read.length ≤ 256) :
    s.priceFeeds = (firstMessages s.read).passed.map PriceFeedMessage.feed := by
  have hfeeds : s.orderedFeeds =
      fun i => ((firstMessages s.read).passed.map PriceFeedMessage.feed)[i]? := by
    funext i
    rw [h.orderedFeeds, List.getElem?_map]
  rw [ParseState.priceFeeds, hfeeds, range_filterMap_getElem?]
  refine List.take_of_length_le ?_
  rw [List.length_map]
  exact (length_firstMessages_le _).trans hlength

/-! ## The stored prices -/

theorem parsePrice_cell (m : PriceFeedMessage) :
    parsePrice ⟨m.cell.price, []⟩ = .ok ⟨m.price, m.conf, m.expo, m.publishTime⟩ := by
  have hbits : m.cell.price = bitsBE 64 m.price.toNat ++ (bitsBE 64 m.conf.toNat ++
      (bitsBE 32 m.expo.toNat ++ (bitsBE 64 m.publishTime.toNat ++ []))) := by
    show storePrice _ _ _ _ = _
    rw [storePrice, List.append_nil, List.append_assoc, List.append_assoc]
  rw [hbits, parsePrice, loadInt_bitsBE, except_ok_bind]
  dsimp only
  rw [loadInt_bitsBE, except_ok_bind]
  dsimp only
  rw [loadInt_bitsBE, except_ok_bind]
  dsimp only
  rw [loadInt_bitsBE, except_ok_bind]
  rfl

/-- The entries of the stored prices, when these are the messages behind them. -/
def entriesOf (stored : Bytes32 → Option PriceFeedMessage) (priceId : Bytes32) :
    Option PriceFeedCell :=
  (stored priceId).map PriceFeedMessage.cell

theorem updateFeed_entriesOf (stored : Bytes32 → Option PriceFeedMessage) (m : PriceFeedMessage) :
    updateFeed (entriesOf stored) m.feed =
      .ok (entriesOf (offerAt PriceFeedMessage.priceId PriceFeedMessage.time stored m)) := by
  have hlatest : latestPublishTime (entriesOf stored) m.priceId =
      .ok (storedTime PriceFeedMessage.time (stored m.priceId)) := by
    unfold latestPublishTime entriesOf
    cases stored m.priceId with
    | none => rfl
    | some old =>
      show (fun price : Price => price.publishTime.toNat) <$> parsePrice ⟨old.cell.price, []⟩ = _
      rw [parsePrice_cell]
      rfl
  show (parsePrice ⟨m.cell.price, []⟩ >>= _) = _
  rw [parsePrice_cell, except_ok_bind]
  show (latestPublishTime (entriesOf stored) m.priceId >>= _) = _
  rw [hlatest, except_ok_bind]
  congr 1
  funext id
  show (if storedTime PriceFeedMessage.time (stored m.priceId) < m.time then
      Function.update (entriesOf stored) m.priceId (some m.cell) else entriesOf stored) id = _
  by_cases hnewer : storedTime PriceFeedMessage.time (stored m.priceId) < m.time
  · rw [if_pos hnewer, entriesOf, offerAt, keepNewer, if_pos hnewer]
    by_cases hsame : id = m.priceId
    · rw [hsame, Function.update_self, Function.update_self]
      rfl
    · rw [Function.update_of_ne hsame, Function.update_of_ne hsame]
      rfl
  · rw [if_neg hnewer, entriesOf, entriesOf, offerAt, keepNewer, if_neg hnewer,
      Function.update_eq_self]

theorem updateFeeds_entriesOf (stored : Bytes32 → Option PriceFeedMessage)
    (messages : List PriceFeedMessage) :
    (messages.map PriceFeedMessage.feed).foldlM updateFeed (entriesOf stored) =
      .ok (entriesOf
        (messages.foldl (offerAt PriceFeedMessage.priceId PriceFeedMessage.time) stored)) := by
  induction messages generalizing stored with
  | nil => rfl
  | cons m messages ih =>
    rw [List.map_cons, List.foldlM_cons, updateFeed_entriesOf, except_ok_bind]
    exact ih _

/-! ## Runs -/

section

variable (keccak256 : Bytes → Bytes32)
  (checkSig : Bytes32 → BitVec 8 → Bytes32 → Bytes32 → Option (Bytes32 × Bytes32))
  (cellHash : Bits → Bytes32) (getComputeFee : ℕ → ℕ → ℕ)

/-- A successful `update_price_feeds`, and the messages that it verifies. -/
def UpdatesFeeds (storage : PythStorage) (messages : List PriceFeedMessage)
    (storage' : PythStorage) : Prop :=
  ∃ now msgValue data s,
    updatePriceFeeds keccak256 checkSig cellHash getComputeFee storage now msgValue data
      = .ok storage' ∧
    parseUpdateData keccak256 checkSig cellHash getComputeFee storage now msgValue data
      (allFeeds 0 0 false) = .ok s ∧ s.read = messages

/-- A run with the messages of its updates. Between them, other messages change the rest of the
storage. -/
inductive UpdateRun (start : PythStorage) : List (List PriceFeedMessage) → PythStorage → Prop
  | start : UpdateRun start [] start
  | update {updates : List (List PriceFeedMessage)} {storage storage' : PythStorage}
      {messages : List PriceFeedMessage} (run : UpdateRun start updates storage)
      (step : UpdatesFeeds keccak256 checkSig cellHash getComputeFee storage messages storage') :
      UpdateRun start (updates ++ [messages]) storage'
  | other {updates : List (List PriceFeedMessage)} {storage storage' : PythStorage}
      (run : UpdateRun start updates storage)
      (same : storage'.latestPriceFeeds = storage.latestPriceFeeds) :
      UpdateRun start updates storage'

end

variable {checkSig : Bytes32 → BitVec 8 → Bytes32 → Bytes32 → Option (Bytes32 × Bytes32)}
  {cellHash : Bits → Bytes32} {getComputeFee : ℕ → ℕ → ℕ} {storage storage' : PythStorage}

theorem parseUpdateData_keeps {now : BitVec 32} {msgValue : ℕ} {data : Slice} {q : Query}
    (hq : q.priceIds = []) {s : ParseState}
    (hok : parseUpdateData keccak256 checkSig cellHash getComputeFee storage now msgValue data q
      = .ok s) :
    s.priceFeeds = (firstMessages s.read).passed.map PriceFeedMessage.feed := by
  obtain ⟨_, -, hrest⟩ := except_bind_eq_ok.mp hok
  obtain ⟨⟨_, cs⟩, -, hrest⟩ := except_bind_eq_ok.mp hrest
  dsimp only at hrest
  obtain ⟨⟨numUpdates, cs⟩, -, hrest⟩ := except_bind_eq_ok.mp hrest
  obtain ⟨_, -, hrest⟩ := except_bind_eq_ok.mp hrest
  obtain ⟨_, -, hrest⟩ := except_bind_eq_ok.mp hrest
  obtain ⟨s', hloop, hrest⟩ := except_bind_eq_ok.mp hrest
  obtain ⟨_, -, hrest⟩ := except_bind_eq_ok.mp hrest
  cases hrest
  obtain ⟨hkeeps, hlength⟩ := parseUpdates_keeps hq (keeps_start cs) hloop
  refine hkeeps.priceFeeds ?_
  rw [hlength]
  exact (Nat.le_of_lt ((Nat.zero_add _).symm ▸ numUpdates.isLt))

/-- An update offers the first message for each id to the stored prices. -/
theorem updatePriceFeeds_of_parse {now : BitVec 32} {msgValue : ℕ} {data : Slice} {s : ParseState}
    {stored : Bytes32 → Option PriceFeedMessage} (hstored : storage.latestPriceFeeds = entriesOf stored)
    (hok : parseUpdateData keccak256 checkSig cellHash getComputeFee storage now msgValue data
      (allFeeds 0 0 false) = .ok s) :
    updatePriceFeeds keccak256 checkSig cellHash getComputeFee storage now msgValue data = .ok
      { storage with
        latestPriceFeeds := entriesOf ((firstMessages s.read).passed.foldl
          (offerAt PriceFeedMessage.priceId PriceFeedMessage.time) stored) } := by
  have hfeeds : parsePriceFeedsFromData keccak256 checkSig cellHash getComputeFee storage now
      msgValue data (allFeeds 0 0 false)
        = .ok ((firstMessages s.read).passed.map PriceFeedMessage.feed) := by
    rw [parsePriceFeedsFromData, hok, except_ok_bind, ← parseUpdateData_keeps rfl hok]
    have hnone : throwUnless ERROR_PRICE_FEED_NOT_FOUND_WITHIN_RANGE
        (∀ id ∈ (allFeeds 0 0 false).priceIds, id ∈ s.foundPriceIds) = .ok () :=
      throwUnless_eq_ok.mpr fun _ hid => absurd hid List.not_mem_nil
    rw [hnone]
    rfl
  rw [updatePriceFeeds, hfeeds, except_ok_bind, hstored, updateFeeds_entriesOf]
  rfl

theorem UpdatesFeeds.entriesOf {messages : List PriceFeedMessage}
    (h : UpdatesFeeds keccak256 checkSig cellHash getComputeFee storage messages storage')
    {stored : Bytes32 → Option PriceFeedMessage}
    (hstored : storage.latestPriceFeeds = entriesOf stored) :
    ∃ stored', storage'.latestPriceFeeds = Ton.entriesOf stored' ∧
      ∀ id, stored' id = (firstMessage messages id).toList.foldl
        (keepNewer PriceFeedMessage.time) (stored id) := by
  obtain ⟨now, msgValue, data, s, hok, hs, rfl⟩ := h
  cases hok.symm.trans (updatePriceFeeds_of_parse hstored hs)
  refine ⟨_, rfl, fun id => ?_⟩
  rw [foldl_offerAt, (firstMessages_tracks s.read).passed]
  rfl

/-- The messages behind the stored prices, over a run. -/
theorem UpdateRun.entriesOf {updates : List (List PriceFeedMessage)}
    (run : UpdateRun keccak256 checkSig cellHash getComputeFee storage updates storage')
    (empty : ∀ id, storage.latestPriceFeeds id = none) :
    ∃ stored, storage'.latestPriceFeeds = Ton.entriesOf stored ∧
      ∀ id, IsLatest PriceFeedMessage.time (updates.filterMap (firstMessage · id)) (stored id) := by
  induction run with
  | start => exact ⟨fun _ => none, funext empty, fun _ => isLatest_nil⟩
  | update run step ih =>
    rename_i updates storage storage' messages
    obtain ⟨stored, hstored, hlatest⟩ := ih
    obtain ⟨stored', hstored', heq⟩ := step.entriesOf hstored
    refine ⟨stored', hstored', fun id => ?_⟩
    have hoffered : (updates ++ [messages]).filterMap (firstMessage · id) =
        updates.filterMap (firstMessage · id) ++ (firstMessage messages id).toList := by
      rw [List.filterMap_append]
      congr 1
    rw [hoffered, heq]
    exact isLatest_foldl (hlatest id) _
  | other run same ih =>
    rename_i updates storage storage'
    obtain ⟨stored, hstored, hlatest⟩ := ih
    exact ⟨stored, same.trans hstored, hlatest⟩

/-- **The latest prices.** From a contract without prices, over any run: the entry of an id comes
from the latest of the messages that are the first for the id in an update, and there is none
where all these have publish time 0. An update without a message for an id leaves its entry. -/
theorem latest_prices_state (start : PythStorage) (updates : List (List PriceFeedMessage))
    (storage : PythStorage) (empty : ∀ id, start.latestPriceFeeds id = none)
    (run : UpdateRun keccak256 checkSig cellHash getComputeFee start updates storage)
    (id : Bytes32) :
    (∃ stored, storage.latestPriceFeeds id = stored.map PriceFeedMessage.cell ∧
      IsLatest PriceFeedMessage.time (updates.filterMap (firstMessage · id)) stored) ∧
    ∀ messages storage',
      UpdatesFeeds keccak256 checkSig cellHash getComputeFee storage messages storage' →
      (∀ m ∈ messages, m.priceId ≠ id) →
      storage'.latestPriceFeeds id = storage.latestPriceFeeds id := by
  obtain ⟨stored, hstored, hlatest⟩ := run.entriesOf empty
  refine ⟨⟨stored id, by rw [hstored]; rfl, hlatest id⟩, ?_⟩
  intro messages storage' step hother
  obtain ⟨stored', hstored', heq⟩ := step.entriesOf hstored
  have hnone : firstMessage messages id = none :=
    Dedup.firstWith_eq_none.mpr fun ⟨m, hm, hid⟩ => hother m hm hid
  rw [hstored, hstored', Ton.entriesOf, Ton.entriesOf, heq, hnone]
  rfl

/-! ### Two messages for one id in an update -/

/-- The messages of an update that the grammar accepts. -/
theorem parseUpdateData_of_grammar {now : BitVec 32} {msgValue : ℕ} {data : Bytes} {cs : Slice}
    {root : BitVec 160} {messages : List PriceFeedMessage}
    (h : Accepted keccak256 checkSig cellHash getComputeFee storage now msgValue data root)
    (hcs : Laid cs data 127) (q : Query) (hreadable : ReadableUpdate data)
    (hparse : (updateHeader >>= updatesAtEnd keccak256 root) data = some (messages, [])) :
    ∃ s, parseUpdateData keccak256 checkSig cellHash getComputeFee storage now msgValue cs q
      = .ok s ∧ s.read = messages := by
  obtain ⟨s, hs, hread, -⟩ := (parseUpdateData_agree h hcs q hreadable).of_some hparse
  exact ⟨s, hs, hread⟩

/-- A newer price for the same id. -/
def exNewer : PriceFeedMessage :=
  { exFields with publishTime := 1700000005, prevPublishTime := 1700000001 }

def exNewerMessage : Bytes :=
  [0] ++ packed 32 exNewer.priceId ++ packed 8 exNewer.price ++ packed 8 exNewer.conf
    ++ packed 4 exNewer.expo ++ packed 8 exNewer.publishTime ++ packed 8 exNewer.prevPublishTime
    ++ packed 8 exNewer.emaPrice ++ packed 8 exNewer.emaConf

/-- The leaf hash of the newer message, and the root over both. -/
def exNewerRoot : BitVec 160 := 0x50eee3723ee76903505010d2f9925fe2deec9807
def exPairRoot : BitVec 160 := 0x00b07fc346f7f210932d73d2fad7f97795f230f0

def exPairBody : Bytes :=
  bytesBE 4 1700000001 ++ bytesBE 4 0 ++ bytesBE 2 26 ++ wordBytes exEmitter ++ bytesBE 8 5 ++ [1]
    ++ bytesBE 4 0x41555756 ++ [0] ++ bytesBE 8 100 ++ bytesBE 4 10000 ++ packed 20 exPairRoot

/-- The hash that the guardian signs, and its hash. -/
def exPairHashes : Bytes32 × Bytes32 :=
  (0xef17aaf847e8633012def379e7b9e58f81bfab6cc1ff78fad5904efcdc7543c7,
    0x22c0b6f1300155a39b96a3b7a19d5ccec9ee6c85258d83c777bd5b9467fbf90c)

def exPairSignature : Bytes32 × Bytes32 :=
  (0x5668b9947fa8d13181f9fe3de26aa02ea2e5072d6eeced1456b75e6d2ed8a878,
    0x4b02db5e4c431f601ad4c19ffcfa27307aad6c835d9b9026ff3bfe280e432a53)

/-- Keccak-256 of the strings of the update. -/
def exPairKeccak (s : Bytes) : Bytes32 :=
  if s = 0 :: exNewerMessage then
    0x50eee3723ee76903505010d2f9925fe2deec98077d18ac148205679cc37ddb43
  else if s = 1 :: packed 20 exRoot ++ packed 20 exNewerRoot then
    0x00b07fc346f7f210932d73d2fad7f97795f230f04f6805eda04606bb2d1b72e5
  else if s = exPairBody then exPairHashes.1
  else if s = wordBytes exPairHashes.1 then exPairHashes.2
  else exUpdateKeccak s

def exPairCheckSig (hash : Bytes32) (v : BitVec 8) (r s : Bytes32) : Option (Bytes32 × Bytes32) :=
  if v = 1 ∧ hash = exPairHashes.2 ∧ (r, s) = exPairSignature then some exPubkey else none

/-- An update with both messages, the older one first. -/
def exPairUpdate : Bytes :=
  bytesBE 4 0x504e4155 ++ [1, 0, 0, 0] ++ bytesBE 2 160
    ++ ([1] ++ bytesBE 4 0 ++ [1] ++ [0] ++ wordBytes exPairSignature.1
      ++ wordBytes exPairSignature.2 ++ [1] ++ exPairBody)
    ++ [2] ++ bytesBE 2 85 ++ exMessage ++ [1] ++ packed 20 exNewerRoot
    ++ bytesBE 2 85 ++ exNewerMessage ++ [1] ++ packed 20 exRoot

def exPairSlice : Slice :=
  ⟨bitsOf (exPairUpdate.take 127), createCellChain (exPairUpdate.drop 127)⟩

abbrev ExPairUpdates : List PriceFeedMessage → PythStorage → Prop :=
  UpdatesFeeds exPairKeccak exPairCheckSig exCellHash exComputeFee exPythStorage

theorem exPairUpdate_accepted :
    Accepted exPairKeccak exPairCheckSig exCellHash exComputeFee exPythStorage 1700000002
      1000000000 exPairUpdate exPairRoot :=
  ⟨by decide +kernel, except_toOption_eq_some.mp (by decide +kernel), by decide +kernel⟩

theorem exPair_updates :
    ∃ storage : PythStorage, ExPairUpdates [exFields, exNewer] storage ∧
      storage.latestPriceFeeds exFields.priceId = some exFields.cell := by
  have hslice : beginParse (createCellChain exPairUpdate) = .ok exPairSlice := by decide +kernel
  have hparse : (updateHeader >>= updatesAtEnd exPairKeccak exPairRoot) exPairUpdate
      = some ([exFields, exNewer], []) := by
    decide +kernel
  have hlaid : Laid exPairSlice exPairUpdate 127 :=
    laid_beginParse (createCellChain_packed exPairUpdate) hslice
  have hreadable : ReadableUpdate exPairUpdate := by decide +kernel
  obtain ⟨s, hs, hread⟩ :=
    parseUpdateData_of_grammar exPairUpdate_accepted hlaid (allFeeds 0 0 false) hreadable hparse
  have hstored : exPythStorage.latestPriceFeeds = entriesOf fun _ => none := rfl
  have hok := updatePriceFeeds_of_parse hstored hs
  refine ⟨_, ⟨_, _, _, s, hok, hs, hread⟩, ?_⟩
  dsimp only
  rw [hread]
  decide +kernel

/-- The entry comes from the older of the two messages. -/
theorem latest_prices_fail :
    ∃ storage : PythStorage, UpdateRun exPairKeccak exPairCheckSig exCellHash exComputeFee exPythStorage
        [[exFields, exNewer]] storage ∧
      exNewer.priceId = exFields.priceId ∧
      storage.latestPriceFeeds exFields.priceId = some exFields.cell ∧
      exFields.time < exNewer.time := by
  obtain ⟨storage, hupdates, hentry⟩ := exPair_updates
  exact ⟨storage, UpdateRun.start.update hupdates, rfl, hentry, by decide⟩

theorem latest_prices_example :
    ∃ (storage : PythStorage) (stored : Option PriceFeedMessage),
      storage.latestPriceFeeds exFields.priceId = stored.map PriceFeedMessage.cell ∧
      IsLatest PriceFeedMessage.time
        ([[exFields, exNewer]].filterMap (firstMessage · exFields.priceId)) stored := by
  obtain ⟨storage, hupdates, -⟩ := exPair_updates
  obtain ⟨stored, hstored⟩ := (latest_prices_state exPythStorage [[exFields, exNewer]] storage
    (fun _ => rfl) (UpdateRun.start.update hupdates) exFields.priceId).1
  exact ⟨storage, stored, hstored⟩

end PythCrosschain.Ton
