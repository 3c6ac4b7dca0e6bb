import PythCrosschain.BatchAttestations.Payloads
import PythCrosschain.MovePackages.BatchPriceAttestation

/-!
# Batch attestations: the Move packages

`batch_price_attestation` reads a payload up to its end. The results are:

- `deserialize_isOk_iff`: the payloads that are accepted;
- `deserialize_payload`: what is read from an extended batch.
-/

namespace PythCrosschain

open PythnetSdk (HashArray)

namespace MovePackages

open Move
open PythnetSdk.Legacy (PriceAttestation PriceStatus.toU8 ExtendedBatch ATTESTATION_SIZE)

/-- The price feed of a price info. -/
def PriceInfo.offer (info : PriceInfo) : Offer where
  id := info.priceFeed.priceIdentifier
  price := info.priceFeed.price.price.toInt
  conf := info.priceFeed.price.conf.toNat
  expo := info.priceFeed.price.expo.toInt
  publishTime := info.priceFeed.price.timestamp.toNat
  emaPrice := info.priceFeed.emaPrice.price.toInt
  emaConf := info.priceFeed.emaPrice.conf.toNat

namespace BatchPriceAttestation

section

variable {errors : Errors}

/-! ## Fields -/

theorem deserializeVector_append {k : ℕ} {field : Bytes} (hfield : field.length = k)
    (rest : Bytes) : deserializeVector k (field ++ rest) = .ok (field, rest) :=
  Decoder.take_run_append hfield rest

theorem deserializeWord_append {w k : ℕ} (v : BitVec w) (hw : 2 ^ w = 256 ^ k) (rest : Bytes) :
    deserializeWord w k (bytesBE k v.toNat ++ rest) = .ok (v, rest) := by
  have hrun : deserializeWord w k (bytesBE k v.toNat ++ rest)
      = .ok (BitVec.ofNat w (natBE (bytesBE k v.toNat)), rest) :=
    Decoder.map_run_of (Decoder.map_run_of (deserializeVector_append (length_bytesBE ..) rest))
  rwa [PythnetSdk.Legacy.ofNat_natBE_word v hw] at hrun

theorem takePriceIdentifier_append (id : HashArray 32) (rest : Bytes) :
    takePriceIdentifier (id.val ++ rest) = .ok (id, rest) := by
  have hlength : 32 ≤ (id.val ++ rest).length := by simp [id.property]
  unfold takePriceIdentifier Sui.Cursor.takeBytes32
  rw [dif_pos hlength]
  exact congrArg Except.ok
    (Prod.ext (Subtype.ext (List.take_left' id.property)) (List.drop_left' id.property))

theorem lift_run {α : Type} {x : Move.Result α} {a : α} (h : x = .ok a) (bytes : Bytes) :
    (liftM x : Sui.Cursor α) bytes = .ok (a, bytes) := by
  rw [h]
  rfl

/-- A number that is read as a word is the number with the bits of the word. -/
theorem number_append {d : Sui.Cursor I64} {w k : ℕ} {f : BitVec w → BitVec 64}
    (hd : Decoder.ReadsAs (fun i v => i.bits = f v) d (Parser.uint w k)) (hw : 2 ^ w = 256 ^ k)
    (v : BitVec w) :
    ∃ i : I64, i.bits = f v ∧ ∀ rest, d (bytesBE k v.toNat ++ rest) = .ok (i, rest) := by
  have hread (rest : Bytes) : ∃ i, d (bytesBE k v.toNat ++ rest) = .ok (i, rest) ∧ i.bits = f v := by
    have hword : Parser.uint w k (bytesBE k v.toNat ++ rest) = some (v, rest) :=
      Parser.uint_run.mpr ⟨⟨bytesBE k v.toNat, length_bytesBE ..⟩, Parser.array_run.mpr rfl,
        (PythnetSdk.Legacy.ofNat_natBE_word v hw).symm⟩
    obtain ⟨⟨i, rest'⟩, hi, hbits, hrest⟩ := (hd _).of_some hword
    obtain rfl : rest' = rest := hrest
    exact ⟨i, hi, hbits⟩
  obtain ⟨i, -, hbits⟩ := hread []
  refine ⟨i, hbits, fun rest => ?_⟩
  obtain ⟨i', hi', hbits'⟩ := hread rest
  rwa [I64.bits_injective (hbits.trans hbits'.symm)]

variable (errors) in
theorem deserializeI64_append (v : BitVec 64) : ∃ i : I64, i.bits = v ∧ ∀ rest,
    deserializeI64 errors (bytesBE 8 v.toNat ++ rest) = .ok (i, rest) :=
  number_append reads_i64 (by decide) v

variable (errors) in
theorem deserializeI32_append (v : BitVec 32) : ∃ i : I64, i.bits = v.signExtend 64 ∧ ∀ rest,
    deserializeI32 errors (bytesBE 4 v.toNat ++ rest) = .ok (i, rest) :=
  number_append reads_i32 (by decide) v

/-! ## Attestations -/

/-- The status is one that the package knows. -/
def Known (a : PriceAttestation) : Prop := a.status = .unknown ∨ a.status = .trading

theorem fromU64_known {a : PriceAttestation} (h : Known a) :
    ∃ status, PriceStatus.fromU64 errors a.status.toU8.toNat = .ok status ∧
      (status = .trading ↔ a.status = .trading) := by
  rcases h with h | h <;> rw [h]
  · exact ⟨.unknown, rfl, by decide⟩
  · exact ⟨.trading, rfl, by decide⟩

/-- A time as an unsigned word. -/
theorem toNat_time {time : BitVec 64} (h : PythnetSdk.Legacy.IsTime time) :
    (time.toNat : ℤ) = time.toInt := by
  obtain ⟨hlow, hhigh⟩ := h
  rw [BitVec.toInt_eq_toNat_cond] at hlow hhigh ⊢
  split at hlow <;> omega

/-- What is not parsed of an attestation is left. -/
theorem deserializePriceInfo_serialize (a : PriceAttestation) (ha : a.InRange) (hknown : Known a)
    (now : U64) (rest : Bytes) :
    ∃ info, info.offer = a.offer ∧
      deserializePriceInfo errors now (a.serialize ++ rest)
        = .ok (info, bytesBE 8 a.lastAttestedPublishTime.toNat ++ rest) := by
  obtain ⟨price, hprice, hreadPrice⟩ := deserializeI64_append errors a.price
  obtain ⟨expo, hexpo, hreadExpo⟩ := deserializeI32_append errors a.expo
  obtain ⟨emaPrice, hemaPrice, hreadEmaPrice⟩ := deserializeI64_append errors a.emaPrice
  obtain ⟨prevPrice, hprevPrice, hreadPrevPrice⟩ := deserializeI64_append errors a.prevPrice
  obtain ⟨status, hstatus, htrading⟩ := @fromU64_known errors a hknown
  unfold PriceAttestation.serialize deserializePriceInfo deserializeU64 deserializeU32
  simp only [List.append_assoc]
  rw [Decoder.bind_run_of (deserializeVector_append a.productId.property _),
    Decoder.bind_run_of (takePriceIdentifier_append a.priceId _),
    Decoder.bind_run_of (hreadPrice _),
    Decoder.bind_run_of (deserializeWord_append a.conf (by decide) _),
    Decoder.bind_run_of (hreadExpo _),
    Decoder.bind_run_of (hreadEmaPrice _),
    Decoder.bind_run_of (deserializeWord_append a.emaConf (by decide) _)]
  have hu8 (b : UInt8) (rest : Bytes) : deserializeU8 ([b] ++ rest) = .ok (b, rest) := rfl
  rw [Decoder.bind_run_of (hu8 a.status.toU8 _),
    Decoder.bind_run_of (lift_run hstatus _),
    Decoder.bind_run_of (deserializeWord_append a.numPublishers (by decide) _),
    Decoder.bind_run_of (deserializeWord_append a.maxNumPublishers (by decide) _),
    Decoder.bind_run_of (deserializeWord_append a.attestationTime (by decide) _),
    Decoder.bind_run_of (deserializeWord_append a.publishTime (by decide) _),
    Decoder.bind_run_of (deserializeWord_append a.prevPublishTime (by decide) _),
    Decoder.bind_run_of (hreadPrevPrice _),
    Decoder.bind_run_of (deserializeWord_append a.prevConf (by decide) _)]
  refine ⟨_, ?_, rfl⟩
  have hexpoInt : expo.toInt = a.expo.toInt := by
    rw [← I64.toInt_bits, hexpo, BitVec.toInt_signExtend_of_le (by decide)]
  have hpriceInt : price.toInt = a.price.toInt := by rw [← I64.toInt_bits, hprice]
  have hemaPriceInt : emaPrice.toInt = a.emaPrice.toInt := by rw [← I64.toInt_bits, hemaPrice]
  have hprevPriceInt : prevPrice.toInt = a.prevPrice.toInt := by rw [← I64.toInt_bits, hprevPrice]
  unfold PriceInfo.offer PriceAttestation.offer
  by_cases h : a.status = .trading
  · have hst : ¬status ≠ .trading := not_not.mpr (htrading.mpr h)
    simp only [if_pos h, if_neg hst, hpriceInt, hexpoInt, hemaPriceInt, toNat_time ha.publishTime]
  · have hst : status ≠ .trading := mt htrading.mp h
    simp only [if_neg h, if_pos hst, hprevPriceInt, hexpoInt, hemaPriceInt,
      toNat_time ha.prevPublishTime]

/-! ## What is accepted -/

open Decoder (Takes)

/-- The status of the attestation that the bytes start with is one that the package knows. -/
def StatusKnown (record : Bytes) : Prop := ∃ b, record[100]? = some b ∧ b.toNat ≤ 1

theorem takes_vector (k : ℕ) : Takes (deserializeVector k) k fun _ => True :=
  Decoder.takes_take _ k

theorem takes_word (w k : ℕ) : Takes (deserializeWord w k) k fun _ => True :=
  ((takes_vector k).map natBE).map (BitVec.ofNat w)

theorem takes_lift {α : Type} {x : Move.Result α} (h : ∃ a, x = .ok a) :
    Takes (liftM x : Sui.Cursor α) 0 fun _ => True := by
  obtain ⟨a, rfl⟩ := h
  exact Decoder.takes_pure a

theorem takes_fromU64 (value : U64) :
    Takes (liftM (I64.fromU64 errors value) : Sui.Cursor I64) 0 fun _ => True := by
  obtain ⟨i, hi, -⟩ := I64.fromU64_bits errors value
  exact takes_lift ⟨i, hi⟩

theorem takes_i64 : Takes (deserializeI64 errors) 8 fun _ => True :=
  (takes_word 64 8).skip fun value => takes_fromU64 value

theorem takes_i32 : Takes (deserializeI32 errors) 4 fun _ => True := by
  refine Takes.mono ((takes_word 32 4).skip (m := 0) (ψ := fun _ => True) fun word => ?_) rfl
    fun _ _ => Iff.rfl
  by_cases hneg : word >>> 31 = 1
  · have hpadded : (0xFFFFFFFF <<< 32) + word.toNat < 2 ^ 64 := by
      have hlt := word.isLt
      omega
    rw [if_pos hneg]
    exact (takes_lift ⟨_, if_pos hpadded⟩).skip fun padded => takes_fromU64 padded
  · rw [if_neg hneg]
    exact takes_fromU64 _

theorem takes_identifier : Takes takePriceIdentifier 32 fun _ => True := by
  intro bs rest
  unfold takePriceIdentifier Sui.Cursor.takeBytes32
  by_cases hlength : 32 ≤ bs.length
  · rw [dif_pos hlength]
    constructor
    · rintro ⟨_, ⟨⟩⟩
      exact ⟨hlength, rfl, trivial⟩
    · rintro ⟨-, rfl, -⟩
      exact ⟨_, rfl⟩
  · rw [dif_neg hlength]
    exact ⟨fun h => (nomatch h.choose_spec), fun h => absurd h.1 hlength⟩

/-- The status, and what follows it. -/
theorem takes_status {α : Type} {f : PriceStatus → Sui.Cursor α} {m : ℕ}
    (hf : ∀ status, Takes (f status) m fun _ => True) :
    Takes (do
        let status ← deserializeU8
        let status ← liftM (PriceStatus.fromU64 errors status.toNat)
        f status) (1 + m) fun bs => ∃ b, bs[0]? = some b ∧ b.toNat ≤ 1 := by
  intro bs rest
  cases bs with
  | nil =>
    constructor
    · rintro ⟨a, ⟨⟩⟩
    · rintro ⟨-, -, _, ⟨⟩, -⟩
  | cons b bs =>
    have hrun : (do
        let status ← deserializeU8
        let status ← liftM (PriceStatus.fromU64 errors status.toNat)
        f status) (b :: bs)
        = (PriceStatus.fromU64 errors b.toNat >>= fun status => f status bs) := by
      show ((liftM (PriceStatus.fromU64 errors b.toNat) : Sui.Cursor _) bs >>= _) = _
      cases PriceStatus.fromU64 errors b.toNat <;> rfl
    have hknown : (∃ status, PriceStatus.fromU64 errors b.toNat = .ok status) ↔ b.toNat ≤ 1 := by
      unfold PriceStatus.fromU64
      by_cases h0 : b.toNat = 0
      · exact iff_of_true ⟨_, if_pos h0⟩ (by omega)
      · by_cases h1 : b.toNat = 1
        · exact iff_of_true ⟨_, (if_neg h0).trans (if_pos h1)⟩ h1.le
        · rw [if_neg h0, if_neg h1]
          exact iff_of_false nofun (by omega)
    rw [hrun]
    have hfields : (∃ b', (b :: bs)[0]? = some b' ∧ b'.toNat ≤ 1) ↔ b.toNat ≤ 1 := by simp
    show _ ↔ 1 + m ≤ (b :: bs).length ∧ rest = (b :: bs).drop (1 + m) ∧
      ∃ b', (b :: bs)[0]? = some b' ∧ b'.toNat ≤ 1
    rw [hfields, ← hknown, List.length_cons, Nat.add_comm 1, Nat.add_le_add_iff_right,
      List.drop_succ_cons]
    constructor
    · rintro ⟨a, ha⟩
      obtain ⟨status, hstatus, ha⟩ := except_bind_eq_ok.mp ha
      obtain ⟨hlength, hrest, -⟩ := (hf status bs rest).mp ⟨a, ha⟩
      exact ⟨hlength, hrest, status, hstatus⟩
    · rintro ⟨hlength, hrest, status, hstatus⟩
      obtain ⟨a, ha⟩ := (hf status bs rest).mpr ⟨hlength, hrest, trivial⟩
      exact ⟨a, except_bind_eq_ok.mpr ⟨status, hstatus, ha⟩⟩

theorem takes_priceInfo (now : U64) :
    Takes (deserializePriceInfo errors now) parsedBytes StatusKnown := by
  unfold deserializePriceInfo deserializeU32 deserializeU64
  refine Takes.mono ((takes_vector 32).skip fun _ => takes_identifier.skip fun _ =>
    takes_i64.skip fun price => (takes_word 64 8).skip fun conf => takes_i32.skip fun expo =>
    takes_i64.skip fun emaPrice => (takes_word 64 8).skip fun emaConf =>
    takes_status fun status => (takes_word 32 4).skip fun _ => (takes_word 32 4).skip fun _ =>
    (takes_word 64 8).skip fun attestationTime => (takes_word 64 8).skip fun publishTime =>
    (takes_word 64 8).skip fun prevPublishTime => takes_i64.skip fun prevPrice =>
    (takes_word 64 8).skip fun prevConf => Decoder.takes_pure _) rfl fun bs _ => ?_
  simp only [List.drop_drop, List.getElem?_drop]
  rfl

/-- An attestation takes the bytes that its size says. -/
theorem takes_attestation (attestationSize : BitVec 16) (now : U64) :
    Takes (takeAttestation errors attestationSize now) attestationSize.toNat fun record =>
      parsedBytes ≤ attestationSize.toNat ∧ StatusKnown record := by
  unfold takeAttestation sub
  by_cases hsize : parsedBytes ≤ attestationSize.toNat
  · have hexcess : (liftM (.ok (attestationSize.toNat - parsedBytes) : Move.Result ℕ)
        : Sui.Cursor ℕ) = pure (attestationSize.toNat - parsedBytes) := rfl
    simp only [if_pos hsize, hexcess, pure_bind]
    refine Takes.mono ((takes_priceInfo now).bind fun info => (takes_vector _).skip fun _ =>
      Decoder.takes_pure info) ?_ fun bs _ => ?_
    · rw [Nat.add_zero, Nat.add_sub_cancel' hsize]
    · rw [and_iff_left trivial, and_iff_right hsize]
  · intro bs rest
    refine iff_of_false ?_ (by rintro ⟨-, -, h, -⟩; exact hsize h)
    rintro ⟨a, ha⟩
    obtain ⟨⟨info, mid⟩, -, ha⟩ := except_bind_eq_ok.mp ha
    rw [if_neg hsize] at ha
    cases ha

/-! ## The whole payload -/

open BytesLib (field)
open BatchAttestations

/-- What the package reads: the sizes are those of the payload, and the statuses are known. -/
structure Readable (payload : Bytes) : Prop where
  magic : payload.take 4 = PythnetSdk.Legacy.P2W_MAGIC
  headerSize : 1 ≤ (field payload 8 16 2).toNat
  length : payload.length = countIndex payload + 4 + countOf payload * recordSize payload
  record : ∀ i < countOf payload, parsedBytes ≤ recordSize payload ∧ StatusKnown (recordAt payload i)

theorem deserializeWord_drop {w k i : ℕ} [NeZero k] {payload rest : Bytes} {v : BitVec w} :
    deserializeWord w k (payload.drop i) = .ok (v, rest) ↔
      i + k ≤ payload.length ∧ v = field payload i w k ∧ rest = payload.drop (i + k) := by
  have hk := Nat.pos_of_ne_zero (NeZero.ne k)
  have htake (field : Bytes) : Sui.Cursor.takeVector k (payload.drop i) = .ok (field, rest) ↔
      Parser.take k (payload.drop i) = some (field, rest) := Decoder.reads_take _ k _ _
  unfold deserializeWord Sui.Cursor.takeBE
  simp only [Decoder.map_run_eq_ok, htake, Parser.take_run_eq_some, List.length_drop,
    List.drop_drop]
  constructor
  · rintro ⟨_, ⟨_, ⟨hlength, rfl, rfl⟩, rfl⟩, rfl⟩
    exact ⟨by omega, rfl, rfl⟩
  · rintro ⟨hlength, rfl, rfl⟩
    exact ⟨_, ⟨_, ⟨by omega, rfl, rfl⟩, rfl⟩, rfl⟩

theorem deserializeU8_drop {i : ℕ} {payload rest : Bytes} {b : UInt8} :
    deserializeU8 (payload.drop i) = .ok (b, rest) ↔
      payload[i]? = some b ∧ rest = payload.drop (i + 1) := by
  have hbyte : deserializeU8 (payload.drop i) = .ok (b, rest) ↔ payload.drop i = b :: rest := by
    rw [← Parser.byte_run]
    exact Decoder.reads_byte _ _ _
  rw [hbyte]
  constructor
  · intro h
    have hfirst := congrArg List.head? h
    have hrest := congrArg List.tail h
    rw [List.head?_drop] at hfirst
    rw [List.tail_drop] at hrest
    exact ⟨hfirst, hrest.symm⟩
  · rintro ⟨hfirst, rfl⟩
    obtain ⟨hlt, rfl⟩ := List.getElem?_eq_some_iff.mp hfirst
    exact List.drop_eq_getElem_cons hlt

theorem deserializeVector_drop {k i : ℕ} {payload rest bytes : Bytes} :
    deserializeVector k (payload.drop i) = .ok (bytes, rest) ↔
      k ≤ payload.length - i ∧ bytes = (payload.drop i).take k ∧ rest = payload.drop (i + k) := by
  have htake : deserializeVector k (payload.drop i) = .ok (bytes, rest) ↔
      Parser.take k (payload.drop i) = some (bytes, rest) := Decoder.reads_take _ k _ _
  rw [htake, Parser.take_run_eq_some, List.length_drop, List.drop_drop]

theorem magic_iff {payload : Bytes} (hlength : 4 ≤ payload.length) :
    field payload 0 32 4 = MAGIC ↔ payload.take 4 = PythnetSdk.Legacy.P2W_MAGIC :=
  field_eq_iff (by decide) (by omega)

theorem deserializeHeader_isOk_iff {payload rest : Bytes} :
    (∃ header, deserializeHeader errors payload = .ok (header, rest)) ↔
      payload.take 4 = PythnetSdk.Legacy.P2W_MAGIC ∧ 1 ≤ (field payload 8 16 2).toNat ∧
        countIndex payload ≤ payload.length ∧ rest = payload.drop (countIndex payload) := by
  unfold deserializeHeader deserializeU32 deserializeU16
  constructor
  · rintro ⟨header, h⟩
    rw [← List.drop_zero (l := payload)] at h
    obtain ⟨magic, _, hmagic, h⟩ := Decoder.bind_run_eq_ok.mp h
    obtain ⟨_, _, hvalid, h⟩ := Decoder.bind_run_eq_ok.mp h
    obtain ⟨versionMajor, _, hmajor, h⟩ := Decoder.bind_run_eq_ok.mp h
    obtain ⟨versionMinor, _, hminor, h⟩ := Decoder.bind_run_eq_ok.mp h
    obtain ⟨headerSize, _, hsize, h⟩ := Decoder.bind_run_eq_ok.mp h
    obtain ⟨payloadId, _, hid, h⟩ := Decoder.bind_run_eq_ok.mp h
    obtain ⟨_, _, hpositive, h⟩ := Decoder.bind_run_eq_ok.mp h
    obtain ⟨unknown, _, hunknown, h⟩ := Decoder.bind_run_eq_ok.mp h
    cases h
    obtain ⟨hlength, rfl, rfl⟩ := deserializeWord_drop.mp hmagic
    obtain ⟨hvalidOk, rfl⟩ := Decoder.lift_run_eq_ok.mp hvalid
    obtain ⟨-, rfl, rfl⟩ := deserializeWord_drop.mp hmajor
    obtain ⟨-, rfl, rfl⟩ := deserializeWord_drop.mp hminor
    obtain ⟨-, rfl, rfl⟩ := deserializeWord_drop.mp hsize
    obtain ⟨hidOk, rfl⟩ := deserializeU8_drop.mp hid
    obtain ⟨hpositiveOk, rfl⟩ := Decoder.lift_run_eq_ok.mp hpositive
    obtain ⟨hunknownLength, -, rfl⟩ := deserializeVector_drop.mp hunknown
    have hpositive := assert_eq_ok.mp hpositiveOk
    have hsizePositive : 1 ≤ (field payload 8 16 2).toNat := BitVec.le_def.mp hpositive
    obtain ⟨hten, -⟩ := List.getElem?_eq_some_iff.mp hidOk
    have hindex : 0 + 4 + 2 + 2 + 2 + 1 + ((field payload 8 16 2).toNat - 1)
        = countIndex payload := by
      unfold countIndex
      omega
    refine ⟨(magic_iff hlength).mp (assert_eq_ok.mp hvalidOk), hsizePositive, ?_, ?_⟩
    · rw [← hindex]
      have hunknownLength : (field payload 8 16 2).toNat - 1 ≤ payload.length - 11 := hunknownLength
      omega
    · exact congrArg payload.drop hindex
  · rintro ⟨hmagic, hpositive, hlength, rfl⟩
    have hten : 10 < payload.length := by
      unfold countIndex at hlength
      omega
    have hindex : 11 + ((field payload 8 16 2).toNat - 1) = countIndex payload := by
      unfold countIndex
      omega
    let header : Header := { magic := field payload 0 32 4, versionMajor := field payload 4 16 2,
                             versionMinor := field payload 6 16 2,
                             headerSize := field payload 8 16 2, payloadId := payload[10] }
    have hstart : payload = payload.drop 0 := rfl
    refine ⟨header, ?_⟩
    conv_lhs => rw [hstart]
    refine Decoder.bind_run_eq_ok.mpr
      ⟨_, _, deserializeWord_drop.mpr ⟨by omega, rfl, rfl⟩, Decoder.bind_run_eq_ok.mpr
      ⟨(), _, Decoder.lift_run_eq_ok.mpr ⟨assert_eq_ok.mpr ((magic_iff (by omega)).mpr hmagic), rfl⟩,
      Decoder.bind_run_eq_ok.mpr
      ⟨_, _, deserializeWord_drop.mpr ⟨by omega, rfl, rfl⟩, Decoder.bind_run_eq_ok.mpr
      ⟨_, _, deserializeWord_drop.mpr ⟨by omega, rfl, rfl⟩, Decoder.bind_run_eq_ok.mpr
      ⟨_, _, deserializeWord_drop.mpr ⟨by omega, rfl, rfl⟩, Decoder.bind_run_eq_ok.mpr
      ⟨_, _, deserializeU8_drop.mpr ⟨List.getElem?_eq_getElem hten, rfl⟩,
      Decoder.bind_run_eq_ok.mpr
      ⟨(), _, Decoder.lift_run_eq_ok.mpr ⟨assert_eq_ok.mpr (BitVec.le_def.mpr hpositive), rfl⟩,
      Decoder.bind_run_eq_ok.mpr
      ⟨_, _, deserializeVector_drop.mpr ⟨?_, rfl, rfl⟩, ?_⟩⟩⟩⟩⟩⟩⟩⟩
    · show (field payload 8 16 2).toNat - 1 ≤ payload.length - 11
      omega
    · exact congrArg (fun i => Except.ok (header, payload.drop i)) hindex

theorem all_run {α : Type} {p : Sui.Cursor α} {bytes : Bytes} {a : α}
    (h : p bytes = .ok (a, [])) : Sui.Cursor.all p bytes = .ok a := by
  rw [Sui.Cursor.all, h]
  rfl

theorem all_isOk_iff {α : Type} {p : Sui.Cursor α} {bytes : Bytes} :
    (∃ a, Sui.Cursor.all p bytes = .ok a) ↔ ∃ a, p bytes = .ok (a, []) := by
  unfold Sui.Cursor.all
  simp only [except_bind_eq_ok, Prod.exists]
  constructor
  · rintro ⟨a, b, rest, hrun, hend⟩
    split at hend
    · next hempty => exact ⟨b, hempty ▸ hrun⟩
    · cases hend
  · rintro ⟨a, hrun⟩
    exact ⟨a, a, [], hrun, rfl⟩

/-- The loop over the attestations, up to the end of the payload. -/
theorem attestations_isOk_iff {payload : Bytes} {n i : ℕ} {attestationSize : BitVec 16} {now : U64}
    (hi : i ≤ payload.length) :
    (∃ infos, Decoder.elements (takeAttestation errors attestationSize now) n (payload.drop i)
        = .ok (infos, [])) ↔
      payload.length = i + n * attestationSize.toNat ∧ ∀ k < n,
        parsedBytes ≤ attestationSize.toNat ∧
        StatusKnown (payload.drop (i + k * attestationSize.toNat)) := by
  rw [(takes_attestation attestationSize now).elements n (payload.drop i) []]
  simp only [List.length_drop, List.drop_drop]
  constructor
  · rintro ⟨hlength, hempty, hall⟩
    have hend := List.drop_eq_nil_iff.mp hempty.symm
    exact ⟨by omega, hall⟩
  · rintro ⟨hlength, hall⟩
    exact ⟨by omega, (List.drop_eq_nil_iff.mpr hlength.le).symm, hall⟩

/-- The package accepts the payloads that are readable. -/
theorem deserialize_isOk_iff (payload : Bytes) (now : U64) :
    (∃ b, deserialize errors payload now = .ok b) ↔ Readable payload := by
  unfold deserialize deserializeU16
  rw [all_isOk_iff]
  constructor
  · rintro ⟨b, h⟩
    obtain ⟨header, _, hheader, h⟩ := Decoder.bind_run_eq_ok.mp h
    obtain ⟨count, _, hcount, h⟩ := Decoder.bind_run_eq_ok.mp h
    obtain ⟨size, _, hsize, h⟩ := Decoder.bind_run_eq_ok.mp h
    obtain ⟨infos, _, hinfos, h⟩ := Decoder.bind_run_eq_ok.mp h
    cases h
    obtain ⟨hmagic, hpositive, -, rfl⟩ := deserializeHeader_isOk_iff.mp ⟨header, hheader⟩
    obtain ⟨-, rfl, rfl⟩ := deserializeWord_drop.mp hcount
    obtain ⟨hlength, rfl, rfl⟩ := deserializeWord_drop.mp hsize
    obtain ⟨hexact, hall⟩ := (attestations_isOk_iff hlength).mp ⟨infos, hinfos⟩
    exact ⟨hmagic, hpositive, hexact, hall⟩
  · rintro ⟨hmagic, hpositive, hexact, hall⟩
    have hindex : countIndex payload + 2 + 2 ≤ payload.length := by omega
    obtain ⟨header, hheader⟩ := (@deserializeHeader_isOk_iff errors payload _).mpr
      ⟨hmagic, hpositive, by omega, rfl⟩
    obtain ⟨infos, hinfos⟩ := (@attestations_isOk_iff errors payload _ _ _ now hindex).mpr
      ⟨hexact, hall⟩
    refine ⟨_, Decoder.bind_run_eq_ok.mpr ⟨header, _, hheader, Decoder.bind_run_eq_ok.mpr
      ⟨_, _, deserializeWord_drop.mpr ⟨by omega, rfl, rfl⟩, Decoder.bind_run_eq_ok.mpr
      ⟨_, _, deserializeWord_drop.mpr ⟨hindex, rfl, rfl⟩, Decoder.bind_run_eq_ok.mpr
      ⟨infos, _, hinfos, rfl⟩⟩⟩⟩⟩

/-! ## Extended batches -/

variable (e : ExtendedBatch)

/-- The byte of the status. -/
theorem status_serialize (a : PriceAttestation) (rest : Bytes) :
    (a.serialize ++ rest)[100]? = some a.status.toU8 := by
  have hfront : (a.productId.val ++ a.priceId.val ++ bytesBE 8 a.price.toNat
      ++ bytesBE 8 a.conf.toNat ++ bytesBE 4 a.expo.toNat ++ bytesBE 8 a.emaPrice.toNat
      ++ bytesBE 8 a.emaConf.toNat).length = 100 := by
    simp [a.productId.property, a.priceId.property]
  unfold PriceAttestation.serialize
  rw [List.append_assoc, List.append_assoc, List.append_assoc, List.append_assoc, List.append_assoc,
    List.append_assoc, List.append_assoc, List.append_assoc, List.append_assoc,
    List.getElem?_append_right hfront.le, hfront]
  rfl

theorem statusKnown_serialize (a : PriceAttestation) (rest : Bytes) :
    StatusKnown (a.serialize ++ rest) ↔ Known a := by
  unfold StatusKnown Known
  simp only [status_serialize, Option.some.injEq, exists_eq_left']
  cases a.status <;> decide

/-- The package reads the batches whose statuses it knows. -/
theorem readable_payload_iff : Readable e.payload ↔ ∀ a ∈ e.attestations, Known a.1 := by
  constructor
  · intro h a ha
    obtain ⟨i, hi, rfl⟩ := List.getElem_of_mem ha
    obtain ⟨rest, hrecord⟩ := e.recordAt_payload hi
    have hcount : i < countOf e.payload := by rwa [e.countOf_payload]
    have hstatus := (h.record i hcount).2
    rwa [hrecord, statusKnown_serialize] at hstatus
  · intro h
    constructor
    · exact e.magic_payload
    · rw [e.hdrSize_payload, BitVec.toNat_ofNat, Nat.mod_eq_of_lt e.headerFits]
      omega
    · exact e.framed
    · intro i hcount
      have hi : i < e.attestations.length := by rwa [e.countOf_payload] at hcount
      have hmem : e.attestations[i] ∈ e.attestations := List.getElem_mem hi
      obtain ⟨rest, hrecord⟩ := e.recordAt_payload hi
      rw [hrecord, statusKnown_serialize, e.recordSize_payload, ExtendedBatch.attestationSize,
        if_neg (List.ne_nil_of_mem hmem)]
      refine ⟨?_, h _ hmem⟩
      have hsize : parsedBytes ≤ ATTESTATION_SIZE := by decide
      omega

theorem takeAttestation_record {n : ℕ} (a : PriceAttestation) (extra : Bytes)
    (hextra : extra.length = n) (ha : a.InRange) (hknown : Known a) {attestationSize : BitVec 16}
    (hsize : attestationSize.toNat = ATTESTATION_SIZE + n) (now : U64) (rest : Bytes) :
    ∃ info, info.offer = a.offer ∧
      takeAttestation errors attestationSize now (a.serialize ++ extra ++ rest)
        = .ok (info, rest) := by
  obtain ⟨info, hoffer, hrun⟩ :=
    @deserializePriceInfo_serialize errors a ha hknown now (extra ++ rest)
  have hsub : sub attestationSize.toNat parsedBytes = .ok (8 + n) := by
    rw [hsize]
    have hle : parsedBytes ≤ ATTESTATION_SIZE + n := by
      have hparsed : parsedBytes ≤ ATTESTATION_SIZE := by decide
      omega
    refine (if_pos hle).trans (congrArg Except.ok ?_)
    have hparsed : ATTESTATION_SIZE = parsedBytes + 8 := by decide
    omega
  have hexcess : (bytesBE 8 a.lastAttestedPublishTime.toNat ++ extra).length = 8 + n := by
    rw [List.length_append, length_bytesBE, hextra]
  refine ⟨info, hoffer, ?_⟩
  rw [List.append_assoc]
  unfold takeAttestation
  rw [Decoder.bind_run_of hrun, Decoder.bind_run_of (lift_run hsub _), ← List.append_assoc,
    Decoder.bind_run_of (deserializeVector_append hexcess rest)]
  rfl

/-- What is read from the attestations is what they say. -/
theorem elements_records {n : ℕ}
    (as : List (PriceAttestation × {bytes : Bytes // bytes.length = n}))
    (hall : ∀ a ∈ as, a.1.InRange ∧ Known a.1) {attestationSize : BitVec 16}
    (hsize : attestationSize.toNat = ATTESTATION_SIZE + n) (now : U64) :
    ∃ infos, infos.map PriceInfo.offer = as.map (fun a => a.1.offer) ∧
      Decoder.elements (takeAttestation errors attestationSize now) as.length
        (as.map fun a => a.1.serialize ++ a.2.val).flatten = .ok (infos, []) := by
  induction as with
  | nil => exact ⟨[], rfl, rfl⟩
  | cons a as ih =>
    obtain ⟨hrange, hknown⟩ := hall a List.mem_cons_self
    obtain ⟨infos, hoffers, hinfos⟩ := ih fun b hb => hall b (List.mem_cons_of_mem _ hb)
    obtain ⟨info, hoffer, hinfo⟩ := @takeAttestation_record errors n a.1 a.2.val
      a.2.property hrange hknown attestationSize hsize now
      (as.map fun a => a.1.serialize ++ a.2.val).flatten
    refine ⟨info :: infos, ?_, ?_⟩
    · rw [List.map_cons, List.map_cons, hoffer, hoffers]
    · rw [List.length_cons, Decoder.elements, List.map_cons, List.flatten_cons,
        Decoder.bind_run_of hinfo, Decoder.bind_run_of hinfos]
      rfl

/-- A batch whose statuses are known is read as what it says. -/
theorem deserialize_payload (hall : ∀ a ∈ e.attestations, a.1.InRange ∧ Known a.1) (now : U64) :
    ∃ b, deserialize errors e.payload now = .ok b ∧
      b.priceInfos.map PriceInfo.offer = e.attestations.map fun a => a.1.offer := by
  have hlength : countIndex e.payload + 4 ≤ e.payload.length := by
    rw [e.framed]
    exact Nat.le_add_right _ _
  have hreadable := (readable_payload_iff e).mpr fun a ha => (hall a ha).2
  obtain ⟨header, hheader⟩ := (@deserializeHeader_isOk_iff errors e.payload _).mpr
    ⟨hreadable.magic, hreadable.headerSize, by omega, rfl⟩
  have hcount : (field e.payload (countIndex e.payload) 16 2).toNat = e.attestations.length :=
    e.countOf_payload
  have hsize : (field e.payload (countIndex e.payload + 2) 16 2).toNat = e.attestationSize :=
    e.recordSize_payload
  have hinfos : ∃ infos, infos.map PriceInfo.offer = e.attestations.map (fun a => a.1.offer) ∧
      Decoder.elements
        (takeAttestation errors (field e.payload (countIndex e.payload + 2) 16 2) now)
        e.attestations.length e.records.flatten = .ok (infos, []) := by
    by_cases hempty : e.attestations = []
    · refine ⟨[], by rw [hempty]; rfl, ?_⟩
      rw [ExtendedBatch.records, hempty]
      rfl
    · rw [ExtendedBatch.attestationSize, if_neg hempty] at hsize
      exact elements_records e.attestations hall hsize now
  obtain ⟨infos, hoffers, hinfos⟩ := hinfos
  rw [← e.drop_header, ← hcount] at hinfos
  let b : MovePackages.BatchPriceAttestation := {
    header, attestationSize := field e.payload (countIndex e.payload + 2) 16 2,
    attestationCount := field e.payload (countIndex e.payload) 16 2, priceInfos := infos }
  refine ⟨b, all_run ?_, hoffers⟩
  unfold deserializeU16
  rw [Decoder.bind_run_of hheader,
    Decoder.bind_run_of (deserializeWord_drop.mpr ⟨by omega, rfl, rfl⟩),
    Decoder.bind_run_of (deserializeWord_drop.mpr ⟨by omega, rfl, rfl⟩),
    Decoder.bind_run_of hinfos]
  rfl

end

end BatchPriceAttestation

end MovePackages

end PythCrosschain
