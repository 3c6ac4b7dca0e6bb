import PythCrosschain.Lazer.Payload
import PythCrosschain.PythnetSdk.WireRoundTrip

/-!
# Payloads round-trip

Bottom up: words, options, properties, feeds, payloads. A payload is written exactly when
its counts fit in a byte (`PayloadData.Fits`), and no payload is read in the other byte order.
-/

namespace PythCrosschain.Lazer

open PythnetSdk (ByteOrder IntWidth writeInt)
open Rust (NeverPanics ExactFormat)

/-! ## Words, bytes and lengths -/

theorem readInt_writeInt (B : ByteOrder) (width : IntWidth) (v : BitVec width.bits)
    (rest : Bytes) : readInt B width (writeInt B width v ++ rest) = .ok (v, rest) := by
  rw [readInt, PythnetSdk.readInt_writeInt]
  rfl

theorem readU16_writeU16 (B : ByteOrder) (v : BitVec 16) (rest : Bytes) :
    readU16 B (writeU16 B v ++ rest) = .ok (v, rest) := readInt_writeInt B .w16 v rest

theorem readU32_writeU32 (B : ByteOrder) (v : BitVec 32) (rest : Bytes) :
    readU32 B (writeU32 B v ++ rest) = .ok (v, rest) := readInt_writeInt B .w32 v rest

theorem readU64_writeU64 (B : ByteOrder) (v : BitVec 64) (rest : Bytes) :
    readU64 B (writeU64 B v ++ rest) = .ok (v, rest) := readInt_writeInt B .w64 v rest

theorem length_writeU16 (B : ByteOrder) (v : BitVec 16) : (writeU16 B v).length = 2 :=
  PythnetSdk.length_writeInt B .w16 v

theorem length_writeU32 (B : ByteOrder) (v : BitVec 32) : (writeU32 B v).length = 4 :=
  PythnetSdk.length_writeInt B .w32 v

theorem length_writeU64 (B : ByteOrder) (v : BitVec 64) : (writeU64 B v).length = 8 :=
  PythnetSdk.length_writeInt B .w64 v

theorem natLE_writeU32 (v : BitVec 32) : natLE (writeU32 .LE v) = v.toNat := by
  have hlt : v.toNat < 256 ^ 4 := v.isLt
  show natLE (bytesLE 4 v.toNat) = _
  rw [natLE_bytesLE, Nat.mod_eq_of_lt hlt]

theorem natBE_writeU16 (v : BitVec 16) : natBE (writeU16 .BE v) = v.toNat := by
  have hlt : v.toNat < 256 ^ 2 := v.isLt
  show natBE (bytesBE 2 v.toNat) = _
  rw [natBE_bytesBE, Nat.mod_eq_of_lt hlt]

theorem natBE_writeU32 (v : BitVec 32) : natBE (writeU32 .BE v) = v.toNat := by
  have hlt : v.toNat < 256 ^ 4 := v.isLt
  show natBE (bytesBE 4 v.toNat) = _
  rw [natBE_bytesBE, Nat.mod_eq_of_lt hlt]

theorem natBE_writeU64 (v : BitVec 64) : natBE (writeU64 .BE v) = v.toNat := by
  have hlt : v.toNat < 256 ^ 8 := v.isLt
  show natBE (bytesBE 8 v.toNat) = _
  rw [natBE_bytesBE, Nat.mod_eq_of_lt hlt]

theorem readU8_cons (b : UInt8) (rest : Bytes) : readU8 ([b] ++ rest) = .ok (b, rest) := rfl

theorem readExact_append {n : Nat} (bytes : U8Array n) (rest : Bytes) :
    readExact n (bytes.val ++ rest) = .ok (bytes, rest) := by
  obtain ⟨bs, rfl⟩ := bytes
  simp [readExact]

theorem neverPanics_readInt (B : ByteOrder) (width : IntWidth) : NeverPanics (readInt B width) := by
  intro bs
  rw [readInt]
  cases PythnetSdk.readInt B width bs with
  | error e => exact nofun
  | ok r => exact nofun

theorem neverPanics_readU8 : NeverPanics readU8 := Rust.neverPanics_byte LazerError.io

theorem neverPanics_readExact (n : Nat) : NeverPanics (readExact n) := by
  intro bs
  rw [readExact]
  split
  · exact nofun
  · exact nofun

theorem tryIntoU8_eq_ok {n : Nat} {len : UInt8} : tryIntoU8 n = .ok len ↔ len.toNat = n := by
  unfold tryIntoU8
  split
  · next hn =>
    constructor
    · rintro h
      cases h
      exact UInt8.toNat_ofNat_of_lt' hn
    · rintro rfl
      rw [UInt8.ofNat_toNat]
  · next hn => exact ⟨nofun, fun h => absurd (h ▸ len.toNat_lt) hn⟩

theorem tryIntoU16_eq_ok {n : Nat} {len : BitVec 16} :
    tryIntoU16 n = .ok len ↔ len.toNat = n := by
  unfold tryIntoU16
  split
  · next hn =>
    constructor
    · rintro h
      cases h
      exact Nat.mod_eq_of_lt hn
    · rintro rfl
      rw [BitVec.ofNat_toNat, BitVec.setWidth_eq]
  · next hn => exact ⟨nofun, fun h => absurd (h ▸ len.isLt) hn⟩

theorem tryIntoU8_ok_iff {n : Nat} : (∃ len, tryIntoU8 n = .ok len) ↔ n ≤ 255 := by
  unfold tryIntoU8
  split
  · next hn => exact ⟨fun _ => Nat.le_of_lt_succ hn, fun _ => ⟨_, rfl⟩⟩
  · next hn => exact ⟨nofun, fun h => absurd (Nat.lt_succ_of_le h) hn⟩

theorem tryIntoU16_ok_iff {n : Nat} : (∃ len, tryIntoU16 n = .ok len) ↔ n ≤ 65535 := by
  unfold tryIntoU16
  split
  · next hn => exact ⟨fun _ => Nat.le_of_lt_succ hn, fun _ => ⟨_, rfl⟩⟩
  · next hn => exact ⟨nofun, fun h => absurd (Nat.lt_succ_of_le h) hn⟩

theorem tryIntoU8_ne_panic (n : Nat) : tryIntoU8 n ≠ .error .panic := by
  unfold tryIntoU8
  split
  · exact nofun
  · exact nofun

theorem tryIntoU16_ne_panic (n : Nat) : tryIntoU16 n ≠ .error .panic := by
  unfold tryIntoU16
  split
  · exact nofun
  · exact nofun

/-! ## Properties -/

section

variable (B : ByteOrder)

theorem readOptionPrice_write (value : Option Price) (rest : Bytes) :
    readOptionPrice B (writeOptionPrice B value ++ rest) = .ok (value, rest) := by
  rw [readOptionPrice, writeOptionPrice, Decoder.bind_run_of (readU64_writeU64 B _ rest)]
  cases value with
  | none => rfl
  | some price =>
    have hprice : (some price : Option Price).elim 0 (fun v => v.val) ≠ 0 := price.property
    rw [dif_pos hprice]
    rfl

/-- A presence byte, and the value after it. -/
theorem present_run {value : BitVec 64} {rest : Bytes} {f : UInt8 → Reader (Option (BitVec 64))}
    (hf : f 1 = some <$> readU64 B) :
    (readU8 >>= f) ([1] ++ writeU64 B value ++ rest) = .ok (some value, rest) := by
  rw [List.append_assoc, Decoder.bind_run_of (readU8_cons 1 _), hf,
    Decoder.map_run_of (readU64_writeU64 B value rest)]

theorem readOptionRate_write (value : Option Rate) (rest : Bytes) :
    readOptionRate B (writeOptionRate B value ++ rest) = .ok (value, rest) := by
  cases value with
  | none => rfl
  | some rate => exact present_run B rfl

theorem readOptionTimestamp_write (value : Option TimestampUs) (rest : Bytes) :
    readOptionTimestamp B (writeOptionTimestamp B value ++ rest) = .ok (value, rest) := by
  cases value with
  | none => rfl
  | some timestamp => exact present_run B rfl

theorem PayloadPropertyValue.round_trips :
    RoundTrips (fun v => (.ok (PayloadPropertyValue.serialize B v) : Anyhow Bytes))
      (PayloadPropertyValue.deserialize B) := by
  intro v bytes hv rest
  cases hv
  -- The tag chain takes the branch of the constructor that wrote the tag.
  cases v with
  | price value => exact Decoder.map_run_of (readOptionPrice_write B value rest)
  | bestBidPrice value => exact Decoder.map_run_of (readOptionPrice_write B value rest)
  | bestAskPrice value => exact Decoder.map_run_of (readOptionPrice_write B value rest)
  | publisherCount count => exact Decoder.map_run_of (readU16_writeU16 B count rest)
  | exponent value => exact Decoder.map_run_of (readU16_writeU16 B value rest)
  | confidence value => exact Decoder.map_run_of (readOptionPrice_write B value rest)
  | fundingRate rate => exact Decoder.map_run_of (readOptionRate_write B rate rest)
  | fundingTimestamp timestamp =>
    exact Decoder.map_run_of (readOptionTimestamp_write B timestamp rest)

theorem neverPanics_readOptionPrice : NeverPanics (readOptionPrice B) :=
  (neverPanics_readInt B .w64).bind fun _ => Rust.neverPanics_pure _

theorem neverPanics_readOptionRate : NeverPanics (readOptionRate B) := by
  refine neverPanics_readU8.bind fun present => ?_
  split
  · exact (neverPanics_readInt B .w64).map _
  · exact Rust.neverPanics_pure _

theorem neverPanics_readOptionTimestamp : NeverPanics (readOptionTimestamp B) := by
  refine neverPanics_readU8.bind fun present => ?_
  split
  · exact (neverPanics_readInt B .w64).map _
  · exact Rust.neverPanics_pure _

theorem PayloadPropertyValue.neverPanics : NeverPanics (PayloadPropertyValue.deserialize B) := by
  refine neverPanics_readU8.bind fun property => ?_
  have hprice := neverPanics_readOptionPrice B
  have hword : NeverPanics (readU16 B) := neverPanics_readInt B .w16
  repeat' split
  · exact hprice.map _
  · exact hprice.map _
  · exact hprice.map _
  · exact hword.map _
  · exact hword.map _
  · exact hprice.map _
  · exact (neverPanics_readOptionRate B).map _
  · exact (neverPanics_readOptionTimestamp B).map _
  · exact Rust.neverPanics_throw _

/-! ## Feeds and payloads -/

/-- The properties of a feed can be counted in a byte. -/
def PayloadFeedData.Fits (feed : PayloadFeedData) : Prop := feed.properties.length ≤ 255

/-- So can the feeds of the payload. -/
def PayloadData.Fits (data : PayloadData) : Prop :=
  data.feeds.length ≤ 255 ∧ ∀ feed ∈ data.feeds, feed.Fits

theorem PayloadFeedData.round_trips :
    RoundTrips (PayloadFeedData.serialize B) (PayloadFeedData.deserialize B) := by
  intro feed bytes hfeed rest
  simp only [PayloadFeedData.serialize, except_bind_eq_ok] at hfeed
  obtain ⟨numProperties, hnum, hbytes⟩ := hfeed
  cases hbytes
  have hvalues : encodeElements (fun v => (.ok (PayloadPropertyValue.serialize B v) : Anyhow Bytes))
      feed.properties = .ok (feed.properties.flatMap (PayloadPropertyValue.serialize B)) :=
    encodeElements_eq_ok fun v _ => rfl
  have hproperties := (PayloadPropertyValue.round_trips B).elements hvalues rest
  rw [PayloadFeedData.deserialize, List.append_assoc, List.append_assoc,
    Decoder.bind_run_of (readU32_writeU32 B _ _), Decoder.bind_run_of (readU8_cons _ _),
    tryIntoU8_eq_ok.mp hnum, Decoder.bind_run_of hproperties]
  rfl

theorem PayloadFeedData.writes_iff (feed : PayloadFeedData) :
    (∃ bytes, feed.serialize B = .ok bytes) ↔ feed.Fits := by
  rw [PayloadFeedData.Fits, ← tryIntoU8_ok_iff]
  constructor
  · rintro ⟨bytes, hfeed⟩
    obtain ⟨numProperties, hnum, -⟩ := except_bind_eq_ok.mp hfeed
    exact ⟨numProperties, hnum⟩
  · rintro ⟨numProperties, hnum⟩
    exact ⟨_, except_bind_eq_ok.mpr ⟨numProperties, hnum, rfl⟩⟩

theorem PayloadFeedData.serialize_ne_panic (feed : PayloadFeedData) :
    feed.serialize B ≠ .error .panic :=
  Rust.bind_ne_panic (tryIntoU8_ne_panic _) fun _ _ => nofun

theorem PayloadFeedData.neverPanics : NeverPanics (PayloadFeedData.deserialize B) :=
  (neverPanics_readInt B .w32).bind fun _ => neverPanics_readU8.bind fun _ =>
    ((PayloadPropertyValue.neverPanics B).elements _).bind fun _ => Rust.neverPanics_pure _

theorem PayloadData.round_trips :
    RoundTrips (PayloadData.serialize B) (PayloadData.deserialize B) := by
  intro data bytes hdata rest
  simp only [PayloadData.serialize, except_bind_eq_ok] at hdata
  obtain ⟨numFeeds, hnum, feeds, hfeeds, hbytes⟩ := hdata
  cases hbytes
  have hread := (PayloadFeedData.round_trips B).elements hfeeds rest
  simp only [List.append_assoc]
  rw [PayloadData.deserialize, Decoder.bind_run_of (readU32_writeU32 B _ _), if_neg (by simp)]
  show (readU64 B >>= _) _ = _
  rw [Decoder.bind_run_of (readU64_writeU64 B _ _), Decoder.bind_run_of (readU8_cons _ _),
    Decoder.bind_run_of (readU8_cons _ _), tryIntoU8_eq_ok.mp hnum, Decoder.bind_run_of hread]
  rfl

theorem PayloadData.writes_iff (data : PayloadData) :
    (∃ bytes, data.serialize B = .ok bytes) ↔ data.Fits := by
  have hfeeds : (∃ bytes, encodeElements (PayloadFeedData.serialize B) data.feeds = .ok bytes) ↔
      ∀ feed ∈ data.feeds, feed.Fits := by
    rw [Rust.encodeElements_writes_iff]
    exact forall₂_congr fun feed _ => PayloadFeedData.writes_iff B feed
  rw [PayloadData.Fits, ← tryIntoU8_ok_iff, ← hfeeds]
  constructor
  · rintro ⟨bytes, hdata⟩
    simp only [PayloadData.serialize, except_bind_eq_ok] at hdata
    obtain ⟨numFeeds, hnum, feeds, hfeeds, -⟩ := hdata
    exact ⟨⟨numFeeds, hnum⟩, feeds, hfeeds⟩
  · rintro ⟨⟨numFeeds, hnum⟩, feeds, hfeeds⟩
    refine ⟨_, except_bind_eq_ok.mpr ⟨numFeeds, hnum, except_bind_eq_ok.mpr ⟨feeds, hfeeds, rfl⟩⟩⟩

theorem PayloadData.serialize_ne_panic (data : PayloadData) :
    data.serialize B ≠ .error .panic :=
  Rust.bind_ne_panic (tryIntoU8_ne_panic _) fun _ _ =>
    Rust.bind_ne_panic (Rust.encodeElements_ne_panic (PayloadFeedData.serialize_ne_panic B) _)
      fun _ _ => nofun

theorem PayloadData.neverPanics : NeverPanics (PayloadData.deserialize B) := by
  refine (neverPanics_readInt B .w32).bind fun magic => ?_
  have hrest : NeverPanics (do
      let timestampUs ← readU64 B
      let channelId ← readU8
      let numFeeds ← readU8
      let feeds ← Decoder.elements (PayloadFeedData.deserialize B) numFeeds.toNat
      return ({ timestampUs, channelId, feeds } : PayloadData)) :=
    (neverPanics_readInt B .w64).bind fun _ => neverPanics_readU8.bind fun _ =>
      neverPanics_readU8.bind fun _ => ((PayloadFeedData.neverPanics B).elements _).bind fun _ =>
        Rust.neverPanics_pure _
  dsimp only
  split
  · exact (Rust.neverPanics_throw _).bind fun _ => hrest
  · exact hrest

/-- Payloads are an exact format in both byte orders. -/
theorem PayloadData.exact : ExactFormat PayloadData.Fits (PayloadData.serialize B)
    (PayloadData.deserializeSlice B) where
  round_trip _ _ hdata := Rust.roundTrips_value (PayloadData.round_trips B) hdata
  writes_iff := PayloadData.writes_iff B
  write_ne_panic := PayloadData.serialize_ne_panic B
  read_ne_panic := (PayloadData.neverPanics B).value

/-! ## The other byte order -/

theorem writeU32_magic_other {B B' : ByteOrder} (h : B' ≠ B) :
    writeU32 B PAYLOAD_FORMAT_MAGIC = writeU32 B' 1976813459 := by
  cases B with
  | BE =>
    cases B' with
    | BE => exact absurd rfl h
    | LE => decide
  | LE =>
    cases B' with
    | BE => decide
    | LE => exact absurd rfl h

theorem PayloadData.other_order {B B' : ByteOrder} (h : B' ≠ B) {data : PayloadData}
    {bytes : Bytes} (hdata : data.serialize B = .ok bytes) :
    PayloadData.deserializeSlice B' bytes = .error (.error .magicMismatch) := by
  simp only [PayloadData.serialize, except_bind_eq_ok] at hdata
  obtain ⟨numFeeds, -, feeds, -, hbytes⟩ := hdata
  cases hbytes
  simp only [List.append_assoc]
  rw [PayloadData.deserializeSlice, PayloadData.deserialize, writeU32_magic_other h,
    Decoder.bind_run_of (readU32_writeU32 B' _ _), if_pos (by decide)]
  rfl

end

end PythCrosschain.Lazer
