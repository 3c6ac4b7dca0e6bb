import PythCrosschain.Lazer.MessageRoundTrip
import PythCrosschain.Lazer.PythLazer

/-!
# The EVM parser follows the encoder

A walk over a payload calls the parsers of `PythLazerLib` in the order of the format. It
keeps to what is left of the payload (`At`), and each parser takes off it what the encoder
wrote.

Results:
1. `walk_recovers`: a payload with properties of the library only is recovered.
2. `payloadOf_serialize`, `payloadOf_long`: the contract returns the payload when it is at
   most 65464 bytes long; the position after a longer one does not fit in 16 bits.
3. `evm_parser_law`: both hold exactly then.
-/

namespace PythCrosschain.PythLazer

open Lazer (PayloadData PayloadFeedData PayloadPropertyValue EvmMessage writeU16 writeU32 writeU64)

variable {ε : Type}

/-! ## The walk -/

/-- What the parsers return for the value of a property. An optional value is a presence
byte, and a word where it is set. -/
inductive FeedValue where
  | uint64 (value : Uint64)
  | uint16 (value : Uint16)
  | int16 (value : Uint16)
  | optional (value : Option Uint64)
deriving DecidableEq

structure WalkedFeed where
  feedId : Uint32
  properties : List (PriceFeedProperty × FeedValue)
deriving DecidableEq

structure Walked where
  timestamp : Uint64
  channel : Channel
  feeds : List WalkedFeed
  pos : Uint16
deriving DecidableEq

/-- The `parseFeedValue` function of the property's type. -/
def parseFeedValue (update : Bytes) (pos : Uint16) :
    PriceFeedProperty → Exec ε (FeedValue × Uint16)
  | .price | .bestBidPrice | .bestAskPrice => do
    let (value, pos) ← parseFeedValueUint64 update pos
    return (.uint64 value, pos)
  | .publisherCount => do
    let (value, pos) ← parseFeedValueUint16 update pos
    return (.uint16 value, pos)
  | .exponent => do
    let (value, pos) ← parseFeedValueInt16 update pos
    return (.int16 value, pos)

def walkProperties (update : Bytes) :
    Nat → Uint16 → Exec ε (List (PriceFeedProperty × FeedValue) × Uint16)
  | 0, pos => return ([], pos)
  | n + 1, pos => do
    let (property, pos) ← parseFeedProperty update pos
    let (value, pos) ← parseFeedValue update pos property
    let (properties, pos) ← walkProperties update n pos
    return ((property, value) :: properties, pos)

def walkFeeds (update : Bytes) : Nat → Uint16 → Exec ε (List WalkedFeed × Uint16)
  | 0, pos => return ([], pos)
  | n + 1, pos => do
    let (feedId, numProperties, pos) ← parseFeedHeader update pos
    let (properties, pos) ← walkProperties update numProperties.toNat pos
    let (feeds, pos) ← walkFeeds update n pos
    return ({ feedId, properties } :: feeds, pos)

def walk (update : Bytes) : Exec ε Walked := do
  let header ← parsePayloadHeader update
  let (feeds, pos) ← walkFeeds update header.feedsLen.toNat header.pos
  return { timestamp := header.timestamp, channel := header.channel, feeds, pos }

/-! ## What it should recover -/

/-- The tag of the property and its value; a missing price is zero. -/
def tagged : PayloadPropertyValue → Uint8 × FeedValue
  | .price value => (0, .uint64 (value.elim 0 fun v => v.val))
  | .bestBidPrice value => (1, .uint64 (value.elim 0 fun v => v.val))
  | .bestAskPrice value => (2, .uint64 (value.elim 0 fun v => v.val))
  | .publisherCount count => (3, .uint16 count)
  | .exponent value => (4, .int16 value)
  | .confidence value => (5, .uint64 (value.elim 0 fun v => v.val))
  | .fundingRate rate => (6, .optional rate)
  | .fundingTimestamp timestamp => (7, .optional timestamp)

/-- The walk has found the fields of the payload and stopped at its end. -/
structure Recovers (data : PayloadData) (length : Nat) (walked : Walked) : Prop where
  timestamp : walked.timestamp = data.timestampUs
  channel : walked.channel.toUint8 = data.channelId.toBitVec
  feeds : (walked.feeds.map fun feed =>
      (feed.feedId, feed.properties.map fun p => (p.1.toUint8, p.2))) =
    data.feeds.map fun feed => (feed.feedId, feed.properties.map tagged)
  ends : walked.pos.toNat = length

/-- The property is one of those of the library. -/
def InLibrary (value : PayloadPropertyValue) : Prop :=
  ∃ property : PriceFeedProperty, property.toUint8 = (tagged value).1

/-- Every property of the payload is. -/
def AllInLibrary (data : PayloadData) : Prop :=
  ∀ feed ∈ data.feeds, ∀ value ∈ feed.properties, InLibrary value

/-! ## Positions -/

/-- What is left of the payload at a position. -/
structure At (update : Bytes) (pos : Uint16) (rest : Bytes) : Prop where
  bound : update.length ≤ 65535
  split : ∃ front, update = front ++ rest ∧ front.length = pos.toNat

theorem checkedAdd_of_lt {w : Nat} {a b : BitVec w} (h : a.toNat + b.toNat < 2 ^ w) :
    (checkedAdd a b : Exec ε (BitVec w)) = .ok (a + b) := if_pos h

section At

variable {update rest : Bytes} {pos : Uint16}

/-- The position after the next bytes. -/
theorem At.advance {bytes : Bytes} (h : At update pos (bytes ++ rest)) {k : Uint16}
    (hk : bytes.length = k.toNat) :
    (checkedAdd pos k : Exec ε Uint16) = .ok (pos + k) ∧ (pos + k).toNat = pos.toNat + k.toNat ∧
      At update (pos + k) rest := by
  obtain ⟨front, rfl, hfront⟩ := h.split
  have hbound := h.bound
  simp only [List.length_append] at hbound
  have hlt : pos.toNat + k.toNat < 2 ^ 16 := by omega
  have hsum : (pos + k).toNat = pos.toNat + k.toNat := by
    rw [BitVec.toNat_add, Nat.mod_eq_of_lt hlt]
  refine ⟨checkedAdd_of_lt hlt, hsum, h.bound, front ++ bytes, by rw [List.append_assoc], ?_⟩
  rw [List.length_append, hfront, hk, hsum]

theorem parseWord_at {w : Nat} {k : Uint16} {bytes : Bytes} (hk : bytes.length = k.toNat)
    (h : At update pos (bytes ++ rest)) :
    (parseWord w k update pos : Exec ε _) = .ok (BitVec.ofNat w (natBE bytes), pos + k) ∧
      At update (pos + k) rest := by
  obtain ⟨hadd, hsum, hat⟩ := h.advance hk (ε := ε)
  obtain ⟨front, hupdate, hfront⟩ := h.split
  have hslice := Rust.slice_append front bytes rest
  rw [hfront, hk, ← hsum, List.append_assoc, ← hupdate] at hslice
  refine ⟨?_, hat⟩
  rw [parseWord, hadd]
  show ((calldataSlice update pos.toNat (pos + k).toNat : Exec ε Bytes) >>= _) = _
  rw [calldataSlice, hslice]
  rfl

theorem parseByte_at {byte : UInt8} (h : At update pos ([byte] ++ rest)) :
    (parseByte update pos : Exec ε _) = .ok (byte.toBitVec, pos + 1) ∧
      At update (pos + 1) rest := by
  obtain ⟨hadd, -, hat⟩ := h.advance (k := 1) rfl (ε := ε)
  obtain ⟨front, hupdate, hfront⟩ := h.split
  have hget : update[pos.toNat]? = some byte := by
    rw [hupdate, ← hfront, List.getElem?_append_right (Nat.le_refl _), Nat.sub_self]
    rfl
  refine ⟨?_, hat⟩
  rw [parseByte, calldataByte, hget]
  show (checkedAdd pos 1 >>= _) = _
  rw [hadd]
  rfl

theorem parseUint16_at {v : Uint16} (h : At update pos (writeU16 .BE v ++ rest)) :
    (parseWord 16 2 update pos : Exec ε _) = .ok (v, pos + 2) ∧ At update (pos + 2) rest := by
  have hparse := parseWord_at (ε := ε) (w := 16) (k := 2) (Lazer.length_writeU16 _ _) h
  rwa [Lazer.natBE_writeU16, BitVec.ofNat_toNat, BitVec.setWidth_eq] at hparse

theorem parseUint32_at {v : Uint32} (h : At update pos (writeU32 .BE v ++ rest)) :
    (parseWord 32 4 update pos : Exec ε _) = .ok (v, pos + 4) ∧ At update (pos + 4) rest := by
  have hparse := parseWord_at (ε := ε) (w := 32) (k := 4) (Lazer.length_writeU32 _ _) h
  rwa [Lazer.natBE_writeU32, BitVec.ofNat_toNat, BitVec.setWidth_eq] at hparse

theorem parseUint64_at {v : Uint64} (h : At update pos (writeU64 .BE v ++ rest)) :
    (parseWord 64 8 update pos : Exec ε _) = .ok (v, pos + 8) ∧ At update (pos + 8) rest := by
  have hparse := parseWord_at (ε := ε) (w := 64) (k := 8) (Lazer.length_writeU64 _ _) h
  rwa [Lazer.natBE_writeU64, BitVec.ofNat_toNat, BitVec.setWidth_eq] at hparse

end At

/-! ## Properties, feeds and payloads -/

section Walk

variable {update rest : Bytes} {pos : Uint16}

theorem PriceFeedProperty.toUint8_inj {p q : PriceFeedProperty} (h : p.toUint8 = q.toUint8) :
    p = q := by
  cases p <;> cases q <;> first | rfl | exact absurd h (by decide)

theorem PriceFeedProperty.toUint8_lt (p : PriceFeedProperty) : p.toUint8 < 5 := by
  cases p <;> decide

/-- The tag of a property of the library. -/
theorem parseFeedProperty_at {property : PriceFeedProperty}
    (h : At update pos ([UInt8.ofBitVec property.toUint8] ++ rest)) :
    (parseFeedProperty update pos : Exec ε _) = .ok (property, pos + 1) ∧
      At update (pos + 1) rest := by
  obtain ⟨hbyte, hat⟩ := parseByte_at h (ε := ε)
  refine ⟨?_, hat⟩
  rw [parseFeedProperty, hbyte]
  cases property with
  | price => rfl
  | bestBidPrice => rfl
  | bestAskPrice => rfl
  | publisherCount => rfl
  | exponent => rfl

theorem parseFeedValue_price {property : PriceFeedProperty} {value : Option Lazer.Price}
    (hproperty : property = .price ∨ property = .bestBidPrice ∨ property = .bestAskPrice)
    (h : At update pos (Lazer.writeOptionPrice .BE value ++ rest)) :
    (parseFeedValue update pos property : Exec ε _) =
        .ok (.uint64 (value.elim 0 fun v => v.val), pos + 8) ∧
      At update (pos + 8) rest := by
  obtain ⟨hvalue, hat⟩ := parseUint64_at h (ε := ε)
  refine ⟨?_, hat⟩
  have hread : (parseFeedValue update pos property : Exec ε _) =
      parseFeedValueUint64 update pos >>= fun r => pure (.uint64 r.1, r.2) := by
    obtain rfl | rfl | rfl := hproperty
    · rfl
    · rfl
    · rfl
  rw [hread, parseFeedValueUint64, hvalue]
  rfl

/-- One round of the walk over the properties. -/
theorem property_at {value : PayloadPropertyValue} (hlibrary : InLibrary value)
    (h : At update pos (value.serialize .BE ++ rest)) :
    ∃ property next stop, (parseFeedProperty update pos : Exec ε _) = .ok (property, next) ∧
      (parseFeedValue update next property : Exec ε _) = .ok ((tagged value).2, stop) ∧
      property.toUint8 = (tagged value).1 ∧ At update stop rest := by
  obtain ⟨property, htag⟩ := hlibrary
  have hsplit : ∀ {tag : UInt8} {bytes : Bytes}, value.serialize .BE = [tag] ++ bytes →
      tag = UInt8.ofBitVec property.toUint8 →
      (parseFeedProperty update pos : Exec ε _) = .ok (property, pos + 1) ∧
        At update (pos + 1) (bytes ++ rest) := by
    rintro tag bytes hbytes rfl
    rw [hbytes, List.append_assoc] at h
    exact parseFeedProperty_at h
  cases value with
  | price value =>
    obtain ⟨hproperty, hat⟩ := hsplit rfl (by rw [htag]; rfl)
    obtain rfl : property = .price := PriceFeedProperty.toUint8_inj htag
    obtain ⟨hvalue, hrest⟩ := parseFeedValue_price (.inl rfl) hat (ε := ε)
    exact ⟨_, _, _, hproperty, hvalue, htag, hrest⟩
  | bestBidPrice value =>
    obtain ⟨hproperty, hat⟩ := hsplit rfl (by rw [htag]; rfl)
    obtain rfl : property = .bestBidPrice := PriceFeedProperty.toUint8_inj htag
    obtain ⟨hvalue, hrest⟩ := parseFeedValue_price (.inr (.inl rfl)) hat (ε := ε)
    exact ⟨_, _, _, hproperty, hvalue, htag, hrest⟩
  | bestAskPrice value =>
    obtain ⟨hproperty, hat⟩ := hsplit rfl (by rw [htag]; rfl)
    obtain rfl : property = .bestAskPrice := PriceFeedProperty.toUint8_inj htag
    obtain ⟨hvalue, hrest⟩ := parseFeedValue_price (.inr (.inr rfl)) hat (ε := ε)
    exact ⟨_, _, _, hproperty, hvalue, htag, hrest⟩
  | publisherCount count =>
    obtain ⟨hproperty, hat⟩ := hsplit rfl (by rw [htag]; rfl)
    obtain rfl : property = .publisherCount := PriceFeedProperty.toUint8_inj htag
    obtain ⟨hvalue, hrest⟩ := parseUint16_at hat (ε := ε)
    refine ⟨_, _, _, hproperty, ?_, htag, hrest⟩
    rw [parseFeedValue, parseFeedValueUint16, hvalue]
    rfl
  | exponent value =>
    obtain ⟨hproperty, hat⟩ := hsplit rfl (by rw [htag]; rfl)
    obtain rfl : property = .exponent := PriceFeedProperty.toUint8_inj htag
    obtain ⟨hvalue, hrest⟩ := parseUint16_at hat (ε := ε)
    refine ⟨_, _, _, hproperty, ?_, htag, hrest⟩
    rw [parseFeedValue, parseFeedValueInt16, hvalue]
    rfl
  | confidence value =>
    have hlt : (5 : Uint8) < 5 := htag.symm.trans_lt property.toUint8_lt
    exact absurd hlt (by decide)
  | fundingRate rate =>
    have hlt : (6 : Uint8) < 5 := htag.symm.trans_lt property.toUint8_lt
    exact absurd hlt (by decide)
  | fundingTimestamp timestamp =>
    have hlt : (7 : Uint8) < 5 := htag.symm.trans_lt property.toUint8_lt
    exact absurd hlt (by decide)

theorem walkProperties_at {values : List PayloadPropertyValue}
    (hlibrary : ∀ value ∈ values, InLibrary value)
    (h : At update pos (values.flatMap (PayloadPropertyValue.serialize .BE) ++ rest)) :
    ∃ properties stop, (walkProperties update values.length pos : Exec ε _) =
        .ok (properties, stop) ∧
      (properties.map fun p => (p.1.toUint8, p.2)) = values.map tagged ∧ At update stop rest := by
  induction values generalizing pos with
  | nil => exact ⟨[], pos, rfl, rfl, h⟩
  | cons value values ih =>
    rw [List.flatMap_cons, List.append_assoc] at h
    obtain ⟨property, next, mid, hproperty, hvalue, htag, hat⟩ :=
      property_at (hlibrary value List.mem_cons_self) h (ε := ε)
    obtain ⟨properties, stop, hwalk, htags, hrest⟩ :=
      ih (fun v hv => hlibrary v (List.mem_cons_of_mem _ hv)) hat
    refine ⟨(property, (tagged value).2) :: properties, stop, ?_, ?_, hrest⟩
    · rw [List.length_cons, walkProperties, hproperty]
      show (parseFeedValue update next property >>= _) = _
      rw [hvalue]
      show (walkProperties update values.length mid >>= _) = _
      rw [hwalk]
      rfl
    · rw [List.map_cons, List.map_cons, htags, htag]

theorem walkFeeds_at {feeds : List PayloadFeedData} {bytes : Bytes}
    (hlibrary : ∀ feed ∈ feeds, ∀ value ∈ feed.properties, InLibrary value)
    (hbytes : encodeElements (PayloadFeedData.serialize .BE) feeds = .ok bytes)
    (h : At update pos (bytes ++ rest)) :
    ∃ walked stop, (walkFeeds update feeds.length pos : Exec ε _) = .ok (walked, stop) ∧
      (walked.map fun feed => (feed.feedId, feed.properties.map fun p => (p.1.toUint8, p.2))) =
        feeds.map (fun feed => (feed.feedId, feed.properties.map tagged)) ∧
      At update stop rest := by
  induction feeds generalizing pos bytes with
  | nil =>
    cases hbytes
    exact ⟨[], pos, rfl, rfl, h⟩
  | cons feed feeds ih =>
    simp only [encodeElements, PayloadFeedData.serialize, except_bind_eq_ok] at hbytes
    obtain ⟨head, ⟨numProperties, hnum, hhead⟩, tail, htail, hbytes⟩ := hbytes
    cases hhead
    cases hbytes
    simp only [List.append_assoc] at h
    obtain ⟨hid, hat⟩ := parseUint32_at h (ε := ε)
    obtain ⟨hcount, hat⟩ := parseByte_at hat (ε := ε)
    have hlength : numProperties.toBitVec.toNat = feed.properties.length :=
      Lazer.tryIntoU8_eq_ok.mp hnum
    obtain ⟨properties, mid, hproperties, htags, hat⟩ :=
      walkProperties_at (hlibrary feed List.mem_cons_self) hat (ε := ε)
    obtain ⟨walked, stop, hwalk, hfeeds, hrest⟩ :=
      ih (fun f hf => hlibrary f (List.mem_cons_of_mem _ hf)) htail hat
    refine ⟨{ feedId := feed.feedId, properties } :: walked, stop, ?_, ?_, hrest⟩
    · have hheader : (parseFeedHeader update pos : Exec ε _) =
          .ok (feed.feedId, numProperties.toBitVec, pos + 4 + 1) := by
        rw [parseFeedHeader, hid]
        show (parseByte update (pos + 4) >>= _) = _
        rw [hcount]
        rfl
      rw [List.length_cons, walkFeeds, hheader]
      show (walkProperties update numProperties.toBitVec.toNat _ >>= _) = _
      rw [hlength, hproperties]
      show (walkFeeds update feeds.length mid >>= _) = _
      rw [hwalk]
      rfl
    · rw [List.map_cons, List.map_cons, hfeeds, htags]

end Walk

/-- The enum of the library has the channels of `Channel::id`. -/
theorem toEnum_channel {id : Lazer.ChannelId}
    (h : ∃ ms ∈ Lazer.FixedRate.ALL, Lazer.Channel.id ms = .ok id) :
    ∃ channel, (toEnum Channel.members id.toBitVec : Exec ε _) = .ok channel ∧
      channel.toUint8 = id.toBitVec := by
  obtain ⟨ms, hms, hid⟩ := h
  simp only [Lazer.FixedRate.ALL, List.mem_cons, List.not_mem_nil, or_false] at hms
  obtain rfl | rfl | rfl := hms
  · cases hid
    exact ⟨.realTime, rfl, rfl⟩
  · cases hid
    exact ⟨.fixedRate50, rfl, rfl⟩
  · cases hid
    exact ⟨.fixedRate200, rfl, rfl⟩

theorem walk_recovers {data : PayloadData} {payload : Bytes}
    (hchannel : ∃ ms ∈ Lazer.FixedRate.ALL, Lazer.Channel.id ms = .ok data.channelId)
    (hdata : data.serialize .BE = .ok payload) (hlength : payload.length ≤ 65535)
    (hlibrary : AllInLibrary data) :
    ∃ walked, (walk payload : Exec ε _) = .ok walked ∧ Recovers data payload.length walked := by
  simp only [PayloadData.serialize, except_bind_eq_ok] at hdata
  obtain ⟨numFeeds, hnum, feeds, hfeeds, hpayload⟩ := hdata
  have hstart : At payload 0 (payload ++ []) := ⟨hlength, [], by simp, rfl⟩
  obtain rfl := Except.ok.inj hpayload
  generalize hwhole : writeU32 .BE Lazer.PAYLOAD_FORMAT_MAGIC ++ writeU64 .BE data.timestampUs ++
    [data.channelId] ++ [numFeeds] ++ feeds = payload at hstart hlength ⊢
  nth_rewrite 2 [← hwhole] at hstart
  simp only [List.append_assoc] at hstart
  obtain ⟨hmagic, hat⟩ := parseUint32_at hstart (ε := ε)
  obtain ⟨htimestamp, hat⟩ := parseUint64_at hat (ε := ε)
  obtain ⟨hbyte, hat⟩ := parseByte_at hat (ε := ε)
  obtain ⟨channel, hchannelEnum, hchannelTag⟩ := toEnum_channel hchannel (ε := ε)
  obtain ⟨hcount, hat⟩ := parseByte_at hat (ε := ε)
  obtain ⟨walked, stop, hwalk, htags, hend⟩ := walkFeeds_at hlibrary hfeeds hat (ε := ε)
  refine ⟨⟨data.timestampUs, channel, walked, stop⟩, ?_, rfl, hchannelTag, htags, ?_⟩
  · have hheader : (parsePayloadHeader payload : Exec ε _) =
        .ok ⟨data.timestampUs, channel, numFeeds.toBitVec, 0 + 4 + 8 + 1 + 1⟩ := by
      rw [parsePayloadHeader, hmagic]
      show (parseWord 64 8 payload (0 + 4) >>= _) = _
      rw [htimestamp]
      show (parseByte payload (0 + 4 + 8) >>= _) = _
      rw [hbyte]
      show (toEnum Channel.members data.channelId.toBitVec >>= _) = _
      rw [hchannelEnum]
      show (parseByte payload (0 + 4 + 8 + 1) >>= _) = _
      rw [hcount]
      rfl
    have hlen : numFeeds.toBitVec.toNat = data.feeds.length := Lazer.tryIntoU8_eq_ok.mp hnum
    rw [walk, hheader]
    show (walkFeeds payload numFeeds.toBitVec.toNat _ >>= _) = _
    rw [hlen, hwalk]
    rfl
  · obtain ⟨front, hfront, hpos⟩ := hend.split
    rw [← hpos, hfront, List.append_nil]

/-- Nothing else is recovered. -/
theorem Recovers.library {data : PayloadData} {length : Nat} {walked : Walked}
    (h : Recovers data length walked) : AllInLibrary data := by
  intro feed hfeed value hvalue
  have hmem : (feed.feedId, feed.properties.map tagged) ∈
      data.feeds.map fun feed => (feed.feedId, feed.properties.map tagged) :=
    List.mem_map_of_mem hfeed
  rw [← h.feeds] at hmem
  obtain ⟨found, -, heq⟩ := List.mem_map.mp hmem
  have hproperties : (found.properties.map fun p => (p.1.toUint8, p.2)) =
      feed.properties.map tagged := congrArg Prod.snd heq
  have htagged : tagged value ∈ feed.properties.map tagged := List.mem_map_of_mem hvalue
  rw [← hproperties] at htagged
  obtain ⟨p, -, hp⟩ := List.mem_map.mp htagged
  exact ⟨p.1, congrArg Prod.fst hp⟩

/-! ## The contract -/

section Contract

variable {message : EvmMessage} {update : Bytes}

/-- The two halves of the signature. -/
def rBytes (message : EvmMessage) : Bytes := message.signature.val.take 32

def sBytes (message : EvmMessage) : Bytes := message.signature.val.drop 32

theorem length_rBytes (message : EvmMessage) : (rBytes message).length = 32 := by
  rw [rBytes, List.length_take, message.signature.property]
  rfl

theorem length_sBytes (message : EvmMessage) : (sBytes message).length = 32 := by
  rw [sBytes, List.length_drop, message.signature.property]

/-- The bytes in front of the length. -/
def front (message : EvmMessage) : Bytes :=
  writeU32 .LE Lazer.EVM_FORMAT_MAGIC ++ rBytes message ++ sBytes message ++ [message.recoveryId]

theorem length_front (message : EvmMessage) : (front message).length = 69 := by
  simp only [front, List.length_append, Lazer.length_writeU32, length_rBytes, length_sBytes,
    List.length_cons, List.length_nil]

theorem serialize_eq (h : message.serialize = .ok update) :
    ∃ len : Uint16, len.toNat = message.payload.length ∧
      update = front message ++ writeU16 .BE len ++ message.payload := by
  obtain ⟨len, hlen, rfl⟩ := Lazer.serializeEnvelope_eq_ok.mp h
  refine ⟨len, Lazer.tryIntoU16_eq_ok.mp hlen, ?_⟩
  rw [front, List.append_assoc _ (rBytes message), rBytes, sBytes, List.take_append_drop,
    List.append_assoc _ message.signature.val]

theorem slice_field (before field after : Bytes) (start stop : Nat)
    (hstart : before.length = start) (hstop : start + field.length = stop) :
    (calldataSlice (before ++ field ++ after) start stop : Exec ε Bytes) = .ok field := by
  subst hstart hstop
  rw [calldataSlice, Rust.slice_append]

theorem slice_magic (message : EvmMessage) (rest : Bytes) :
    (calldataSlice (front message ++ rest) 0 4 : Exec ε Bytes) =
      .ok (writeU32 .LE Lazer.EVM_FORMAT_MAGIC) := by
  have hfield := slice_field (ε := ε) [] (writeU32 .LE Lazer.EVM_FORMAT_MAGIC)
    (rBytes message ++ (sBytes message ++ ([message.recoveryId] ++ rest))) 0 4 rfl
    (by rw [Lazer.length_writeU32])
  rw [front]
  simp only [List.append_assoc, List.nil_append] at hfield ⊢
  exact hfield

theorem slice_r (rest : Bytes) : (calldataSlice (front message ++ rest) 4 36 : Exec ε Bytes) =
    .ok (rBytes message) := by
  have hfield := slice_field (ε := ε) (writeU32 .LE Lazer.EVM_FORMAT_MAGIC) (rBytes message)
    (sBytes message ++ ([message.recoveryId] ++ rest)) 4 36 (Lazer.length_writeU32 _ _)
    (by rw [length_rBytes])
  rw [front]
  simp only [List.append_assoc] at hfield ⊢
  exact hfield

theorem slice_s (rest : Bytes) : (calldataSlice (front message ++ rest) 36 68 : Exec ε Bytes) =
    .ok (sBytes message) := by
  have hfield := slice_field (ε := ε) (writeU32 .LE Lazer.EVM_FORMAT_MAGIC ++ rBytes message)
    (sBytes message) ([message.recoveryId] ++ rest) 36 68
    (by rw [List.length_append, Lazer.length_writeU32, length_rBytes])
    (by rw [length_sBytes])
  rw [front]
  simp only [List.append_assoc] at hfield ⊢
  exact hfield

theorem byte_recoveryId (rest : Bytes) :
    (calldataByte (front message ++ rest) 68 : Exec ε Uint8) =
      .ok message.recoveryId.toBitVec := by
  have hlength : (writeU32 .LE Lazer.EVM_FORMAT_MAGIC ++ rBytes message ++ sBytes message).length =
      68 := by
    simp only [List.length_append, Lazer.length_writeU32, length_rBytes, length_sBytes]
  have hget : (front message ++ rest)[68]? = some message.recoveryId := by
    rw [front, List.append_assoc, ← hlength, List.getElem?_append_right (Nat.le_refl _),
      Nat.sub_self]
    rfl
  rw [calldataByte, hget]

/-- A message that passes the checks of the layout: what is left is the position after its
payload. -/
theorem payloadOf_checks (h : message.serialize = .ok update) :
    ∃ len : Uint16, len.toNat = message.payload.length ∧
      update = front message ++ writeU16 .BE len ++ message.payload ∧
      (payloadOf update : Exec ε Bytes) = checkedAdd 71 len >>= fun stop =>
        require (¬ update.length < stop.toNat) (.reason "input too short") >>= fun _ =>
          checkedAdd 71 len >>= fun stop => calldataSlice update 71 stop.toNat := by
  obtain ⟨len, hlen, rfl⟩ := serialize_eq h
  refine ⟨len, hlen, rfl, ?_⟩
  have hlong : ¬ (front message ++ writeU16 .BE len ++ message.payload).length < 71 := by
    rw [List.length_append, List.length_append, length_front, Lazer.length_writeU16]
    exact Nat.not_lt.mpr (Nat.le_add_right _ _)
  have hmagic := slice_magic (ε := ε) message (writeU16 .BE len ++ message.payload)
  have hcount := slice_field (ε := ε) (front message) (writeU16 .BE len) message.payload 69 71
    (length_front message) (by rw [Lazer.length_writeU16])
  have hvalue : BitVec.ofNat 16 (natBE (writeU16 .BE len)) = len := by
    rw [Lazer.natBE_writeU16, BitVec.ofNat_toNat, BitVec.setWidth_eq]
  rw [← List.append_assoc] at hmagic
  have hword : (require (BitVec.ofNat 32 (natBE (writeU32 .LE Lazer.EVM_FORMAT_MAGIC)) =
      EVM_FORMAT_MAGIC) (.reason "invalid evm magic") : Exec ε Unit) = .ok () :=
    if_pos (by decide)
  have hshort : (require (¬ (front message ++ writeU16 .BE len ++ message.payload).length < 71)
      (.reason "input too short") : Exec ε Unit) = .ok () := if_pos hlong
  rw [payloadOf, hshort, hmagic, hcount, except_ok_bind, except_ok_bind, hword, except_ok_bind,
    except_ok_bind, hvalue]

theorem payloadOf_serialize (h : message.serialize = .ok update)
    (hlength : message.payload.length ≤ 65464) :
    (payloadOf update : Exec ε Bytes) = .ok message.payload := by
  obtain ⟨len, hlen, hupdate, hpayload⟩ := payloadOf_checks h (ε := ε)
  have hlt : (71 : Uint16).toNat + len.toNat < 2 ^ 16 := by
    rw [hlen]
    exact Nat.lt_of_le_of_lt (Nat.add_le_add_left hlength _) (by decide)
  have hstop : ((71 : Uint16) + len).toNat = 71 + message.payload.length := by
    rw [BitVec.toNat_add, Nat.mod_eq_of_lt hlt, hlen]
    rfl
  have hfront : (front message ++ writeU16 .BE len).length = 71 := by
    rw [List.length_append, length_front, Lazer.length_writeU16]
  have hslice := slice_field (ε := ε) (front message ++ writeU16 .BE len) message.payload [] 71
    _ hfront rfl
  rw [List.append_nil, ← hupdate] at hslice
  rw [hpayload, checkedAdd_of_lt hlt]
  show (require (¬ update.length < ((71 : Uint16) + len).toNat) _ >>= _) = _
  rw [hstop, require, if_pos (by rw [hupdate, List.length_append, hfront]; exact Nat.lt_irrefl _)]
  show calldataSlice update 71 ((71 : Uint16) + len).toNat = _
  rw [hstop, hslice]

/-- The position after a longer payload does not fit in 16 bits. -/
theorem payloadOf_long (h : message.serialize = .ok update)
    (hlength : 65464 < message.payload.length) :
    (payloadOf update : Exec ε Bytes) = .error (.panic 0x11) := by
  obtain ⟨len, hlen, -, hpayload⟩ := payloadOf_checks h (ε := ε)
  have hge : ¬ (71 : Uint16).toNat + len.toNat < 2 ^ 16 := by
    rw [hlen]
    exact Nat.not_lt.mpr (Nat.add_le_add_left hlength 71)
  rw [hpayload, checkedAdd, if_neg hge]
  rfl

section

variable {keccak256 : Bytes → Bytes32} {tryRecover : Bytes32 → Uint8 → Bytes32 → Bytes32 → Address}
  {transfer : Address → Uint256 → Option Unit} {s : State} {env : Env} {signer : Address}

variable (message keccak256 tryRecover s env signer) in
/-- The message carries a signature of its payload by a trusted signer. -/
structure Signed : Prop where
  recovered : tryRecover (keccak256 message.payload) (message.recoveryId.toBitVec + 27)
    (BitVec.ofNat 256 (natBE (rBytes message))) (BitVec.ofNat 256 (natBE (sBytes message))) = signer
  nonzero : signer ≠ 0
  trusted : isValidSigner s env.block.timestamp signer = true

variable (transfer s env) in
/-- The fee is sent, and what exceeds it can be sent back. -/
structure FeePaid : Prop where
  enough : s.verificationFee ≤ env.value
  refund : s.verificationFee < env.value →
    transfer env.sender (env.value - s.verificationFee) = some ()

theorem takeFee_paid (h : FeePaid transfer s env) :
    (takeFee transfer s env : Exec ε Unit) = .ok () := by
  have hfee : (require (s.verificationFee ≤ env.value) (.reason "Insufficient fee provided") :
      Exec ε Unit) = .ok () := if_pos h.enough
  rw [takeFee, hfee, except_ok_bind]
  split
  · next hmore =>
    have hsub : (checkedSub env.value s.verificationFee : Exec ε Uint256) =
        .ok (env.value - s.verificationFee) := if_pos (BitVec.le_def.mp h.enough)
    rw [hsub, except_ok_bind, h.refund hmore]
    rfl
  · rfl

/-- `ecrecover` takes 27 and 28 for `v`, so the sum does not overflow. -/
theorem recoverSigner_signed (hrecover : ∀ hash v r s, tryRecover hash v r s ≠ 0 → v = 27 ∨ v = 28)
    (hsigned : Signed message keccak256 tryRecover s env signer)
    (h : message.serialize = .ok update) :
    (recoverSigner keccak256 tryRecover update message.payload : Exec ε Address) = .ok signer := by
  obtain ⟨len, -, rfl⟩ := serialize_eq h
  rw [List.append_assoc]
  have hv : message.recoveryId.toBitVec + 27 = 27 ∨ message.recoveryId.toBitVec + 27 = 28 :=
    hrecover _ _ _ _ (by rw [hsigned.recovered]; exact hsigned.nonzero)
  have hlt : message.recoveryId.toBitVec.toNat + (27 : Uint8).toNat < 2 ^ 8 := by
    show message.recoveryId.toBitVec.toNat + 27 < 2 ^ 8
    obtain hv | hv := hv
    · bv_omega
    · bv_omega
  rw [recoverSigner, byte_recoveryId, except_ok_bind, checkedAdd_of_lt hlt, except_ok_bind, slice_r,
    except_ok_bind, slice_s, except_ok_bind, hsigned.recovered]
  rfl

/-- The contract returns the payload and its signer where it finds the payload. -/
theorem verifyUpdate_eq (hrecover : ∀ hash v r s, tryRecover hash v r s ≠ 0 → v = 27 ∨ v = 28)
    (hsigned : Signed message keccak256 tryRecover s env signer) (hfee : FeePaid transfer s env)
    (h : message.serialize = .ok update) :
    (verifyUpdate keccak256 tryRecover transfer s env update : Exec ε _) =
        .ok (message.payload, signer) ↔ message.payload.length ≤ 65464 := by
  constructor
  · intro hverify
    by_contra hlength
    rw [verifyUpdate, takeFee_paid hfee, except_ok_bind,
      payloadOf_long h (Nat.lt_of_not_le hlength)] at hverify
    exact absurd hverify nofun
  · intro hlength
    have hnonzero : (require (signer ≠ 0) (.reason "invalid signature") : Exec ε Unit) = .ok () :=
      if_pos hsigned.nonzero
    have htrusted : (require (isValidSigner s env.block.timestamp signer = true)
        (.reason "invalid signer") : Exec ε Unit) = .ok () := if_pos hsigned.trusted
    rw [verifyUpdate, takeFee_paid hfee, except_ok_bind, payloadOf_serialize h hlength,
      except_ok_bind, recoverSigner_signed hrecover hsigned h, except_ok_bind, hnonzero,
      except_ok_bind, htrusted]
    rfl

end

end Contract

/-! ## The law -/

/-- The contract returns a signed payload and the library recovers its fields exactly when the
payload has no properties but those of the library and is at most 65464 bytes long. -/
theorem evm_parser_law {ε : Type} (keccak256 : Bytes → Bytes32)
    (tryRecover : Bytes32 → Uint8 → Bytes32 → Bytes32 → Address)
    (hrecover : ∀ hash v r s, tryRecover hash v r s ≠ 0 → v = 27 ∨ v = 28)
    (transfer : Address → Uint256 → Option Unit) (s : State) (env : Env) (signer : Address)
    (data : PayloadData) (message : EvmMessage) (update : Bytes)
    (hchannel : ∃ ms ∈ Lazer.FixedRate.ALL, Lazer.Channel.id ms = .ok data.channelId)
    (hdata : data.serialize .BE = .ok message.payload) (hmessage : message.serialize = .ok update)
    (hsigned : Signed message keccak256 tryRecover s env signer) (hfee : FeePaid transfer s env) :
    ((verifyUpdate keccak256 tryRecover transfer s env update : Exec ε _) =
        .ok (message.payload, signer) ∧
      ∃ walked, (walk message.payload : Exec ε _) = .ok walked ∧
        Recovers data message.payload.length walked) ↔
      AllInLibrary data ∧ message.payload.length ≤ 65464 := by
  rw [verifyUpdate_eq hrecover hsigned hfee hmessage]
  constructor
  · rintro ⟨hlength, walked, -, hrecovers⟩
    exact ⟨hrecovers.library, hlength⟩
  · rintro ⟨hlibrary, hlength⟩
    exact ⟨hlength, walk_recovers hchannel hdata (hlength.trans (by decide)) hlibrary⟩

/-! ## Two updates

A payload of all the properties of the library, and one of a confidence. Each is given with
its hash, its signature and the address that `ecrecover` returns. -/

def exFeeds : List PayloadFeedData :=
  [⟨6, [.price (some ⟨100000000, by decide⟩), .bestAskPrice none, .bestBidPrice none,
    .publisherCount 1, .exponent (-8)]⟩]

def exData : PayloadData := ⟨1738270008001000, 1, exFeeds⟩

def exPayload : Bytes :=
  [147, 199, 211, 117, 0, 6, 44, 242, 134, 89, 193, 232, 1, 1, 0, 0, 0, 6, 5, 0, 0, 0, 0, 0, 5,
    245, 225, 0, 2, 0, 0, 0, 0, 0, 0, 0, 0, 1, 0, 0, 0, 0, 0, 0, 0, 0, 3, 0, 1, 4, 255, 248]

def exMessage : EvmMessage where
  payload := exPayload
  signature := ⟨[158, 228, 226, 163, 223, 90, 255, 208, 173, 140, 124, 70, 201, 109, 59, 94, 241,
    151, 221, 101, 59, 237, 216, 244, 74, 75, 107, 105, 183, 103, 251, 198, 99, 65, 232, 11, 128,
    172, 176, 158, 173, 152, 198, 13, 22, 155, 154, 153, 101, 126, 186, 218, 16, 31, 68, 115, 120,
    242, 39, 191, 251, 198, 157, 61], rfl⟩
  recoveryId := 1

def exSigner : Address := 0xb8d50f0bAE75BF6E03c104903d7C3aFc4a6596Da

def exConfidence : PayloadData :=
  ⟨1738270008001000, 1, [⟨6, [.confidence (some ⟨1000, by decide⟩)]⟩]⟩

def exConfidencePayload : Bytes :=
  [147, 199, 211, 117, 0, 6, 44, 242, 134, 89, 193, 232, 1, 1, 0, 0, 0, 6, 1, 5, 0, 0, 0, 0, 0, 0,
    3, 232]

def exConfidenceMessage : EvmMessage where
  payload := exConfidencePayload
  signature := ⟨[240, 29, 107, 144, 24, 171, 66, 29, 212, 16, 64, 76, 184, 105, 7, 32, 101, 82, 43,
    248, 87, 52, 0, 143, 16, 92, 243, 133, 160, 35, 168, 15, 46, 67, 192, 109, 52, 17, 76, 199,
    137, 244, 252, 6, 228, 150, 10, 85, 31, 95, 171, 201, 233, 15, 176, 166, 188, 142, 214, 123,
    175, 109, 67, 180], rfl⟩
  recoveryId := 0

def exConfidenceSigner : Address := 0x7e5f4552091a69125d5dfcb7b8c2659029395bdf

/-- The hashes of the two payloads. -/
def exHash (bytes : Bytes) : Bytes32 :=
  if bytes = exPayload then
    0xc90c80cfbd75ad33abad3c28d611767a31a80c49138bdfdb4b57289fad23bd28
  else if bytes = exConfidencePayload then
    0x0eb8425c11153b968522574e403eaaf552c0b3a814636fe69dc675c32cdf7395
  else 0

/-- What `tryRecover` returns for the two signatures. -/
def exTryRecover (hash : Bytes32) (v : Uint8) (r s : Bytes32) : Address :=
  if hash = exHash exPayload ∧ v = 28 ∧ r = BitVec.ofNat 256 (natBE (rBytes exMessage)) ∧
    s = BitVec.ofNat 256 (natBE (sBytes exMessage)) then exSigner
  else if hash = exHash exConfidencePayload ∧ v = 27 ∧
    r = BitVec.ofNat 256 (natBE (rBytes exConfidenceMessage)) ∧
    s = BitVec.ofNat 256 (natBE (sBytes exConfidenceMessage)) then exConfidenceSigner
  else 0

theorem exTryRecover_v (hash : Bytes32) (v : Uint8) (r s : Bytes32)
    (h : exTryRecover hash v r s ≠ 0) : v = 27 ∨ v = 28 := by
  unfold exTryRecover at h
  split at h
  · next hfirst => exact .inr hfirst.2.1
  · split at h
    · next hsecond => exact .inl hsecond.2.1
    · exact absurd rfl h

def exState : State where
  trustedSigners := ((Vector.replicate 100 {}).set 0 ⟨exSigner, 3000000000000000⟩).set 1
    ⟨exConfidenceSigner, 3000000000000000⟩
  verificationFee := 1

def exEnv : Env where
  sender := 2
  value := 1
  block := { number := 1, timestamp := 1, blockhash := fun _ => 0 }
  extcodesize := fun _ => 0

def exTransfer (_ : Address) (_ : Uint256) : Option Unit := some ()

theorem exFeePaid : FeePaid exTransfer exState exEnv := ⟨by decide, fun _ => rfl⟩

theorem exMessage_signed : Signed exMessage exHash exTryRecover exState exEnv exSigner :=
  ⟨by decide +kernel, by decide +kernel, by decide +kernel⟩

/-- The bytes of a message whose payload fits. -/
def exUpdate (message : EvmMessage) : Bytes :=
  writeU32 .LE Lazer.EVM_FORMAT_MAGIC ++ (message.signature.val ++ [message.recoveryId]) ++
    writeU16 .BE (BitVec.ofNat 16 message.payload.length) ++ message.payload

theorem evm_parser_law_ex :
    (verifyUpdate exHash exTryRecover exTransfer exState exEnv (exUpdate exMessage) :
        Exec Unit _) = .ok (exPayload, exSigner) ∧
      ∃ walked, (walk exPayload : Exec Unit _) = .ok walked ∧
        Recovers exData exPayload.length walked :=
  (evm_parser_law (ε := Unit) exHash exTryRecover exTryRecover_v exTransfer exState exEnv exSigner
    exData exMessage (exUpdate exMessage) ⟨1, by decide, rfl⟩ (by decide +kernel)
    (by decide +kernel) exMessage_signed exFeePaid).mpr
    ⟨by
      intro feed hfeed value hvalue
      obtain rfl := List.mem_singleton.mp hfeed
      simp only [List.mem_cons, List.not_mem_nil, or_false] at hvalue
      obtain rfl | rfl | rfl | rfl | rfl := hvalue
      · exact ⟨.price, rfl⟩
      · exact ⟨.bestAskPrice, rfl⟩
      · exact ⟨.bestBidPrice, rfl⟩
      · exact ⟨.publisherCount, rfl⟩
      · exact ⟨.exponent, rfl⟩, by decide⟩

/-- The contract returns the payload of the confidence, and the library reverts on it. -/
theorem confidence_reverts :
    exConfidence.serialize .BE = .ok exConfidencePayload ∧
      exConfidenceMessage.serialize = .ok (exUpdate exConfidenceMessage) ∧
      (verifyUpdate exHash exTryRecover exTransfer exState exEnv (exUpdate exConfidenceMessage) :
        Exec Unit _) = .ok (exConfidencePayload, exConfidenceSigner) ∧
      (walk exConfidencePayload : Exec Unit _) = .error (.panic 0x21) :=
  ⟨by decide +kernel, by decide +kernel, by decide +kernel, by decide +kernel⟩

end PythCrosschain.PythLazer
