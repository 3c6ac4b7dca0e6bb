import PythCrosschain.BatchAttestations.Payloads
import PythCrosschain.Fuel.BatchAttestation

/-!
# Batch attestations: the Fuel contract

The header and the attestations of a payload are read at their offsets. The results are:

- `header_eq_ok`: the headers that are accepted;
- `priceFeeds_payload`: the price feeds of an extended batch.
-/

namespace PythCrosschain

namespace Fuel

open BytesLib (field)
open PythnetSdk (HashArray)
open BatchAttestations
open PythnetSdk.Legacy (PriceAttestation PriceStatus.toU8 ExtendedBatch ATTESTATION_SIZE P2W_MAGIC)

/-- The times of the contract are in TAI64, its exponents are positive. -/
def PriceFeed.offer (priceFeed : PriceFeed) : Offer where
  id := ⟨wordBytes priceFeed.id, length_bytesBE ..⟩
  price := priceFeed.price.price.toNat
  conf := priceFeed.price.confidence.toNat
  expo := -priceFeed.price.exponent.toNat
  publishTime := priceFeed.price.publishTime.toNat - TAI64_DIFFERENCE.toNat
  emaPrice := priceFeed.emaPrice.price.toNat
  emaConf := priceFeed.emaPrice.confidence.toNat

namespace BatchAttestationUpdate

/-! ## Headers -/

section

variable {payload : Bytes}

theorem requirePyth_of {p : Prop} [Decidable p] {e : PythError} (h : p) :
    requirePyth p e = .ok () := if_pos h

theorem checkedMul_eq_ok {ε : Type} {w : ℕ} {a b c : BitVec w} :
    (checkedMul a b : Rust.Result ε _) = .ok c ↔ a.toNat * b.toNat < 2 ^ w ∧ c = a * b := by
  unfold checkedMul
  split
  · next h => exact ⟨fun e => ⟨h, (Except.ok.inj e).symm⟩, fun e => congrArg _ e.2.symm⟩
  · next h => exact ⟨nofun, fun e => absurd e.1 h⟩

theorem headed_iff (hlength : 11 ≤ payload.length) :
    PythnetSdk.Legacy.Headed payload ↔
      field payload 0 32 4 = BATCH_MAGIC ∧ field payload 4 16 2 = 3 ∧ field payload 10 8 1 = 2 := by
  have hmagic : field payload 0 32 4 = BATCH_MAGIC ↔ payload.take 4 = P2W_MAGIC :=
    field_eq_iff (by decide) (by omega)
  have hmajor : field payload 4 16 2 = 3 ↔ (payload.drop 4).take 2 = bytesBE 2 3 :=
    field_eq_iff (by decide) (by omega)
  have hid : field payload 10 8 1 = 2 ↔ payload[10]? = some 2 := by
    have hget := @get_eq_some payload 10 2
    rw [and_iff_right (by omega), eq_comm (a := (2 : BitVec 8))] at hget
    rw [← hget, get, Option.map_eq_some_iff]
    constructor
    · rintro ⟨b, hb, htwo⟩
      exact hb.trans (congrArg some (UInt8.toBitVec_inj.mp htwo))
    · exact fun hb => ⟨2, hb, rfl⟩
  rw [hmagic, hmajor, hid]
  exact ⟨fun h => ⟨h.magic, h.majorVersion, h.payloadId⟩, fun ⟨h, h', h''⟩ => ⟨h, h', h''⟩⟩

/-- The product of the sizes has to fit into 16 bits. -/
theorem header_eq_ok {index : ℕ} {number size : BitVec 16} :
    parseAndVerifyBatchAttestationHeader payload = .ok (index, number, size) ↔
      (field payload 0 32 4 = BATCH_MAGIC ∧ field payload 4 16 2 = 3 ∧
          field payload 10 8 1 = 2) ∧
        countOf payload * recordSize payload < 2 ^ 16 ∧ Framed payload ∧
        index = countIndex payload + 4 ∧ number = field payload (countIndex payload) 16 2 ∧
        size = field payload (countIndex payload + 2) 16 2 := by
  unfold parseAndVerifyBatchAttestationHeader
  simp only [except_bind_eq_ok, getUint_eq_ok, requirePyth_eq_ok, unwrap_eq_ok, get_eq_some,
    checkedMul_eq_ok]
  constructor
  · rintro ⟨_, ⟨-, rfl⟩, _, hmagic, _, ⟨-, rfl⟩, _, hmajor, _, ⟨-, rfl⟩, _, ⟨-, rfl⟩, _, hid,
      _, ⟨-, rfl⟩, _, ⟨-, rfl⟩, _, ⟨hproduct, rfl⟩, _, hlength, hok⟩
    cases hok
    rw [Nat.mul_comm] at hproduct
    refine ⟨⟨hmagic, hmajor, hid⟩, hproduct, ?_, rfl, rfl, rfl⟩
    rw [BitVec.toNat_mul, Nat.mul_comm, Nat.mod_eq_of_lt hproduct] at hlength
    exact hlength
  · rintro ⟨⟨hmagic, hmajor, hid⟩, hproduct, hframed, rfl, rfl, rfl⟩
    have hlength : countIndex payload + 4 ≤ payload.length := by
      rw [hframed]
      exact Nat.le_add_right _ _
    have hindex : 10 ≤ countIndex payload := Nat.le_add_right _ _
    have hsize : (field payload (countIndex payload + 2) 16 2
        * field payload (countIndex payload) 16 2).toNat
          = countOf payload * recordSize payload := by
      rw [BitVec.toNat_mul, Nat.mul_comm]
      exact Nat.mod_eq_of_lt hproduct
    refine ⟨_, ⟨by omega, rfl⟩, (), hmagic, _, ⟨by omega, rfl⟩, (), hmajor, _, ⟨by omega, rfl⟩, _,
      ⟨by omega, rfl⟩, (), hid, _, ⟨?_, rfl⟩, _, ⟨?_, rfl⟩, _, ⟨?_, rfl⟩, (), ?_, rfl⟩
    · show countIndex payload + 2 ≤ payload.length
      omega
    · show countIndex payload + 2 + 2 ≤ payload.length
      omega
    · rw [Nat.mul_comm]
      exact hproduct
    · exact hframed.trans (congrArg (countIndex payload + 4 + ·) hsize.symm)

end

/-! ## Attestations -/

section

variable {payload rest : Bytes} {i : ℕ}

/-- What follows a field. -/
theorem drop_next {part : Bytes} {k : ℕ} (h : payload.drop i = part ++ rest)
    (hpart : part.length = k) : payload.drop (i + k) = rest := by
  rw [← List.drop_drop, h, List.drop_left' hpart]

theorem length_of_drop {part : Bytes} (h : payload.drop i = part ++ rest) (hpart : part ≠ []) :
    payload.length = i + part.length + rest.length := by
  have hlength := congrArg List.length h
  rw [List.length_drop, List.length_append] at hlength
  have hpos := List.length_pos_iff.mpr hpart
  omega

theorem getUint_next {w k : ℕ} [NeZero k] {v : BitVec w} (hw : 2 ^ w = 256 ^ k)
    (h : payload.drop i = bytesBE k v.toNat ++ rest) :
    (getUint w k payload i : Result (BitVec w)) = .ok v := by
  have hne : bytesBE k v.toNat ≠ [] := by
    intro hempty
    have hlength := length_bytesBE k v.toNat
    rw [hempty] at hlength
    exact NeZero.ne k hlength.symm
  have hlength := length_of_drop h hne
  rw [length_bytesBE] at hlength
  refine getUint_eq_ok.mpr ⟨by omega, ?_⟩
  rw [field, h, List.take_left' (length_bytesBE ..), PythnetSdk.Legacy.ofNat_natBE_word v hw]

theorem splitAt_next (hi : i ≤ payload.length) :
    (splitAt payload i : Result (Bytes × Bytes)) = .ok (payload.take i, payload.drop i) :=
  if_pos hi

theorem tai64_time {time : BitVec 64} (h : PythnetSdk.Legacy.IsTime time) :
    (checkedAdd time TAI64_DIFFERENCE : Result (BitVec 64)) = .ok (time + TAI64_DIFFERENCE) ∧
      (((time + TAI64_DIFFERENCE).toNat : ℤ) - TAI64_DIFFERENCE.toNat) = time.toInt := by
  obtain ⟨hlow, hhigh⟩ := h
  have hnat := toNat_of_toInt_nonneg hlow
  have htai : TAI64_DIFFERENCE.toNat = 2 ^ 62 := rfl
  have hfits : time.toNat + TAI64_DIFFERENCE.toNat < 2 ^ 64 := by omega
  refine ⟨checkedAdd_eq_ok.mpr ⟨hfits, rfl⟩, ?_⟩
  rw [BitVec.toNat_add, Nat.mod_eq_of_lt hfits, Nat.cast_add, Int.add_sub_cancel, hnat]

/-- The prices and the time of an attestation. -/
theorem latestPrice_serialize {a : PriceAttestation} {rest : Bytes} {j : ℕ}
    (h : payload.drop j = bytesBE 8 a.prevPublishTime.toNat ++ (bytesBE 8 a.prevPrice.toNat
      ++ (bytesBE 8 a.prevConf.toNat ++ rest))) :
    latestPrice payload a.status.toU8.toBitVec a.price a.conf a.publishTime j
      = .ok (if a.status = .trading then a.price else a.prevPrice,
          if a.status = .trading then a.conf else a.prevConf,
          if a.status = .trading then a.publishTime else a.prevPublishTime, j + 24) := by
  have hprice := drop_next h (length_bytesBE ..)
  have hconf := drop_next hprice (length_bytesBE ..)
  have hstatus : a.status.toU8.toBitVec = 1 ↔ a.status = .trading := by
    cases a.status <;> decide
  unfold latestPrice
  by_cases htrading : a.status = .trading
  · rw [if_pos (hstatus.mpr htrading), if_pos htrading, if_pos htrading, if_pos htrading]
    rfl
  · rw [if_neg (mt hstatus.mp htrading), if_neg htrading, if_neg htrading, if_neg htrading,
      getUint_next (by decide) h]
    show (getUint 64 8 payload (j + 8) >>= _) = _
    rw [getUint_next (by decide) hprice]
    show (getUint 64 8 payload (j + 8 + 8) >>= _) = _
    rw [getUint_next (by decide) hconf]
    rfl

/-- The id of a price as a word. -/
theorem wordBytes_intoB256 (id : HashArray 32) : wordBytes (intoB256 id.val) = id.val := by
  have hlt : natBE id.val < 2 ^ 256 := by
    have hbound := natBE_lt id.val
    rwa [id.property] at hbound
  have hbytes := bytesBE_natBE id.val
  rw [id.property] at hbytes
  rw [intoB256, id.property, Nat.sub_self, List.replicate_zero, List.append_nil,
    List.take_of_length_le id.property.le]
  show bytesBE 32 (BitVec.ofNat 256 _).toNat = _
  rw [BitVec.toNat_ofNat, Nat.mod_eq_of_lt hlt, hbytes]

/-- The price feed of an attestation. -/
def feedOf (a : PriceAttestation) : PriceFeed where
  emaPrice := {
    confidence := a.emaConf
    exponent := absoluteOfExponent a.expo
    price := a.emaPrice
    publishTime :=
      (if a.status = .trading then a.publishTime else a.prevPublishTime) + TAI64_DIFFERENCE }
  id := intoB256 a.priceId.val
  price := {
    confidence := if a.status = .trading then a.conf else a.prevConf
    exponent := absoluteOfExponent a.expo
    price := if a.status = .trading then a.price else a.prevPrice
    publishTime :=
      (if a.status = .trading then a.publishTime else a.prevPublishTime) + TAI64_DIFFERENCE }

theorem isTime_latest {a : PriceAttestation} (ha : a.InRange) :
    PythnetSdk.Legacy.IsTime
      (if a.status = .trading then a.publishTime else a.prevPublishTime) := by
  split
  · exact ha.publishTime
  · exact ha.prevPublishTime

theorem offer_feedOf {a : PriceAttestation} (ha : a.InRange) : (feedOf a).offer = a.offer := by
  have hexpo : -((absoluteOfExponent a.expo).toNat : ℤ) = a.expo.toInt := by
    rw [absoluteOfExponent_toNat ha.expo, neg_neg]
  obtain ⟨-, htime⟩ := tai64_time (isTime_latest ha)
  have hprice : (((if a.status = .trading then a.price else a.prevPrice) : BitVec 64).toNat : ℤ)
      = if a.status = .trading then a.price.toInt else a.prevPrice.toInt := by
    split
    · exact toNat_of_toInt_nonneg ha.price
    · exact toNat_of_toInt_nonneg ha.prevPrice
  unfold PriceFeed.offer feedOf PriceAttestation.offer
  simp only [Offer.mk.injEq, Subtype.ext_iff]
  refine ⟨wordBytes_intoB256 a.priceId, hprice, ?_, hexpo, ?_, toNat_of_toInt_nonneg ha.emaPrice, trivial⟩
  · split <;> rfl
  · rw [htime]
    split <;> rfl

/-- An attestation is read as what it says. -/
theorem parseAttestation_serialize {a : PriceAttestation} (ha : a.InRange)
    (h : payload.drop i = a.serialize ++ rest) {attestationSize : BitVec 16}
    (hsize : 149 ≤ attestationSize.toNat) :
    PriceFeed.parseAttestation attestationSize payload i = .ok (feedOf a) := by
  unfold PriceAttestation.serialize at h
  simp only [List.append_assoc] at h
  have hid := drop_next h a.productId.property
  have hprice := drop_next hid a.priceId.property
  have hconf := drop_next hprice (length_bytesBE ..)
  have hexpo := drop_next hconf (length_bytesBE ..)
  have hemaPrice := drop_next hexpo (length_bytesBE ..)
  have hemaConf := drop_next hemaPrice (length_bytesBE ..)
  have hstatus := drop_next hemaConf (length_bytesBE ..)
  have hpublishers : payload.drop (i + 32 + 32 + 8 + 8 + 4 + 8 + 8 + 1) = _ := drop_next hstatus rfl
  have hmaxPublishers := drop_next hpublishers (length_bytesBE ..)
  have hattestationTime := drop_next hmaxPublishers (length_bytesBE ..)
  have hskipped := drop_next hattestationTime (length_bytesBE ..)
  have hpublishTime : payload.drop (i + 32 + 32 + 8 + 8 + 4 + 8 + 8 + 17) = _ := hskipped
  have hprevPublishTime := drop_next hpublishTime (length_bytesBE ..)
  have hexpoFits := absoluteOfExponent_lt ha.expo
  obtain ⟨htime, -⟩ := tai64_time (isTime_latest ha)
  have hlength : i + 32 ≤ payload.length := by
    have hnext := length_of_drop hprice
      (List.ne_nil_of_length_eq_add_one (length_bytesBE 8 a.price.toNat))
    omega
  have hslice : 32 ≤ (payload.drop (i + 32)).length := by
    rw [hid, List.length_append, a.priceId.property]
    exact Nat.le_add_right _ _
  have hstatusByte : get payload (i + 32 + 32 + 8 + 8 + 4 + 8 + 8) = some a.status.toU8.toBitVec := by
    unfold get
    rw [← List.head?_drop, hstatus]
    rfl
  have hlatest := latestPrice_serialize hprevPublishTime
  have hread : i + 32 + 32 + 8 + 8 + 4 + 8 + 8 + 17 + 8 + 24 - i ≤ attestationSize.toNat := by
    omega
  have hidWord : intoB256 ((payload.drop (i + 32)).take 32) = intoB256 a.priceId.val := by
    rw [hid, List.take_left' a.priceId.property]
  unfold PriceFeed.parseAttestation
  simp only [splitAt_next hlength, splitAt_next hslice, hidWord, getUint_next (by decide) hprice,
    getUint_next (by decide) hconf, getUint_next (by decide) hexpo,
    requirePyth_of hexpoFits, getUint_next (by decide) hemaPrice,
    getUint_next (by decide) hemaConf, hstatusByte, Rust.unwrap_some,
    getUint_next (by decide) hpublishTime, hlatest, requirePyth_of hread, htime,
    except_ok_bind]
  rfl

/-- The attestations are read as what they say. -/
theorem attestationFeeds_records {n : ℕ}
    (as : List (PriceAttestation × {bytes : Bytes // bytes.length = n}))
    (hall : ∀ a ∈ as, a.1.InRange) {attestationSize : BitVec 16}
    (hsize : attestationSize.toNat = ATTESTATION_SIZE + n)
    (h : payload.drop i = (as.map fun a => a.1.serialize ++ a.2.val).flatten) :
    attestationFeeds attestationSize payload as.length i = .ok (as.map fun a => feedOf a.1) := by
  induction as generalizing i with
  | nil => rfl
  | cons a as ih =>
    have hlength : (a.1.serialize ++ a.2.val).length = attestationSize.toNat := by
      rw [List.length_append, PythnetSdk.Legacy.length_serialize, a.2.property, hsize]
    have hread : 149 ≤ attestationSize.toNat := by
      rw [hsize]
      exact (by decide : 149 ≤ ATTESTATION_SIZE).trans (Nat.le_add_right _ _)
    rw [List.map_cons, List.flatten_cons] at h
    have hnext := drop_next h hlength
    rw [List.append_assoc] at h
    rw [List.length_cons, attestationFeeds,
      parseAttestation_serialize (hall a List.mem_cons_self) h hread, except_ok_bind,
      ih (fun b hb => hall b (List.mem_cons_of_mem _ hb)) hnext]
    rfl

/-- A batch that is small enough is read as what it says. -/
theorem priceFeeds_payload (e : ExtendedBatch) (hall : ∀ a ∈ e.attestations, a.1.InRange)
    (hfits : e.attestations.length * e.attestationSize < 2 ^ 16) :
    priceFeeds e.payload = .ok (e.attestations.map fun a => feedOf a.1) := by
  have hheaded := PythnetSdk.Legacy.deserialize_headed (PythnetSdk.Legacy.deserialize_extended e)
  have hlength : countIndex e.payload + 4 ≤ e.payload.length := by
    rw [e.framed]
    exact Nat.le_add_right _ _
  have hindex : 10 ≤ countIndex e.payload := Nat.le_add_right _ _
  have hheader := (@header_eq_ok e.payload _ _ _).mpr
    ⟨headed_iff (by omega) |>.mp hheaded, by rwa [e.countOf_payload, e.recordSize_payload],
      e.framed, rfl, rfl, rfl⟩
  have hcount : (field e.payload (countIndex e.payload) 16 2).toNat = e.attestations.length :=
    e.countOf_payload
  have hsize : (field e.payload (countIndex e.payload + 2) 16 2).toNat = e.attestationSize :=
    e.recordSize_payload
  rw [priceFeeds, hheader, except_ok_bind]
  show attestationFeeds _ _ (BitVec.toNat _) _ = _
  rw [hcount]
  by_cases hempty : e.attestations = []
  · rw [hempty]
    rfl
  · rw [ExtendedBatch.attestationSize, if_neg hempty] at hsize
    exact attestationFeeds_records e.attestations hall hsize e.drop_header

/-- What is read has the right header, and is neither cut off nor too large. -/
theorem priceFeeds_ok {feeds : List PriceFeed} (h : priceFeeds payload = .ok feeds) :
    PythnetSdk.Legacy.Headed payload ∧ countOf payload * recordSize payload < 2 ^ 16 ∧
      Framed payload := by
  obtain ⟨⟨index, number, size⟩, hheader, -⟩ := except_bind_eq_ok.mp h
  obtain ⟨hfields, hfits, hframed, -⟩ := header_eq_ok.mp hheader
  have hlength : countIndex payload + 4 ≤ payload.length := by
    rw [hframed]
    exact Nat.le_add_right _ _
  have hindex : 10 ≤ countIndex payload := Nat.le_add_right _ _
  exact ⟨(headed_iff (by omega)).mpr hfields, hfits, hframed⟩

end

end BatchAttestationUpdate

end Fuel

end PythCrosschain
