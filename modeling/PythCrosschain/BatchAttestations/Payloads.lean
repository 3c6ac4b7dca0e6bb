import PythCrosschain.Evm.ByteArrays
import PythCrosschain.PythnetSdk.WormholeAttester

/-!
# Batch attestations: payloads and what they say

A price feed that a store is offered, as numbers (`Offer`), and what an attestation says: the
last price of trading (`PriceAttestation.offer`). A payload has its sizes in its header
(`countIndex`, `countOf`, `recordSize`).

- `ExtendedBatch.framed`: the sizes of an extended batch are right;
- `Framed.not_cut`: those of a truncated payload are not.
-/

namespace PythCrosschain

open PythnetSdk (HashArray)

/-- A price with its id and its moving average. -/
structure Offer where
  id : HashArray 32
  price : ℤ
  conf : ℕ
  expo : ℤ
  publishTime : ℤ
  emaPrice : ℤ
  emaConf : ℕ
deriving DecidableEq

namespace PythnetSdk.Legacy

/-- Without trading, the previous price, confidence and publish time. -/
def PriceAttestation.offer (a : PriceAttestation) : Offer where
  id := a.priceId
  price := if a.status = .trading then a.price.toInt else a.prevPrice.toInt
  conf := if a.status = .trading then a.conf.toNat else a.prevConf.toNat
  expo := a.expo.toInt
  publishTime := if a.status = .trading then a.publishTime.toInt else a.prevPublishTime.toInt
  emaPrice := a.emaPrice.toInt
  emaConf := a.emaConf.toNat

/-- A time from 0 to `2 ^ 62`. -/
def IsTime (time : I64) : Prop := 0 ≤ time.toInt ∧ time.toInt ≤ 2 ^ 62

instance (time : I64) : Decidable (IsTime time) := inferInstanceAs (Decidable (_ ∧ _))

/-- The ranges of the values of an attestation. -/
structure PriceAttestation.InRange (a : PriceAttestation) : Prop where
  attestationTime : IsTime a.attestationTime
  publishTime : IsTime a.publishTime
  prevPublishTime : IsTime a.prevPublishTime
  lastAttestedPublishTime : IsTime a.lastAttestedPublishTime
  price : 0 ≤ a.price.toInt
  prevPrice : 0 ≤ a.prevPrice.toInt
  emaPrice : 0 ≤ a.emaPrice.toInt
  expo : -255 ≤ a.expo.toInt ∧ a.expo.toInt ≤ 0

end PythnetSdk.Legacy

namespace BatchAttestations

open BytesLib (field)
open PythnetSdk.Legacy (ExtendedBatch ATTESTATION_SIZE)

/-- Where the number of attestations stands. -/
def countIndex (payload : Bytes) : ℕ := 10 + (field payload 8 16 2).toNat

def countOf (payload : Bytes) : ℕ := (field payload (countIndex payload) 16 2).toNat

def recordSize (payload : Bytes) : ℕ := (field payload (countIndex payload + 2) 16 2).toNat

/-- The payload from the `i`-th attestation on. -/
def recordAt (payload : Bytes) (i : ℕ) : Bytes :=
  payload.drop (countIndex payload + 4 + i * recordSize payload)

/-- The length is what the sizes say. -/
def Framed (payload : Bytes) : Prop :=
  payload.length = countIndex payload + 4 + countOf payload * recordSize payload

/-- A field of a payload that is not cut off. -/
theorem field_cut {bytes more : Bytes} {start w k : ℕ} (h : start + k ≤ bytes.length) :
    field (bytes ++ more) start w k = field bytes start w k := by
  unfold field
  rw [List.drop_append_of_le_length (by omega), List.take_append_of_le_length (by simp; omega)]

/-- What is cut off cannot be missing. -/
theorem Framed.not_cut {bytes more : Bytes} (h : Framed (bytes ++ more)) (hcut : Framed bytes) :
    more = [] := by
  unfold Framed at h hcut
  have hindex : countIndex (bytes ++ more) = countIndex bytes := by
    unfold countIndex at hcut ⊢
    rw [field_cut (by omega)]
  have hcount : countOf (bytes ++ more) = countOf bytes := by
    unfold countOf
    rw [hindex, field_cut (by omega)]
  have hsize : recordSize (bytes ++ more) = recordSize bytes := by
    unfold recordSize
    rw [hindex, field_cut (by omega)]
  rw [hindex, hcount, hsize, ← hcut, List.length_append] at h
  exact List.length_eq_zero_iff.mp (by omega)

/-- A field that is not cut off is the bytes of its word. -/
theorem field_eq_iff {bytes : Bytes} {i w k : ℕ} {v : BitVec w} (hw : 2 ^ w = 256 ^ k)
    (hlength : i + k ≤ bytes.length) :
    field bytes i w k = v ↔ (bytes.drop i).take k = bytesBE k v.toNat := by
  have hlen : ((bytes.drop i).take k).length = k := by
    rw [List.length_take, List.length_drop]
    omega
  have hlt : natBE ((bytes.drop i).take k) < 2 ^ w := by
    have hbound := natBE_lt ((bytes.drop i).take k)
    rwa [hlen, ← hw] at hbound
  have hbytes := bytesBE_natBE ((bytes.drop i).take k)
  rw [hlen] at hbytes
  unfold field
  constructor
  · rintro rfl
    rw [BitVec.toNat_ofNat, Nat.mod_eq_of_lt hlt, hbytes]
  · intro h
    rw [h, PythnetSdk.Legacy.ofNat_natBE_word v hw]

theorem length_flatten_of_length {α : Type} {n : ℕ} {parts : List (List α)}
    (h : ∀ part ∈ parts, part.length = n) : parts.flatten.length = parts.length * n := by
  rw [List.length_flatten, List.map_congr_left h, List.map_const', List.sum_replicate_nat]

theorem drop_flatten_of_length {α : Type} {n i : ℕ} {parts : List (List α)}
    (h : ∀ part ∈ parts, part.length = n) : parts.flatten.drop (i * n) = (parts.drop i).flatten := by
  induction parts generalizing i with
  | nil => simp
  | cons part parts ih =>
    cases i with
    | zero => rw [Nat.zero_mul, List.drop_zero, List.drop_zero]
    | succ i =>
      have hpart : part.length = n := h part List.mem_cons_self
      rw [List.flatten_cons, Nat.succ_mul, Nat.add_comm, ← List.drop_drop,
        List.drop_left' hpart, List.drop_succ_cons,
        ih fun part hmem => h part (List.mem_cons_of_mem _ hmem)]

/-- A word between other fields. -/
theorem field_at {p q : Bytes} {w k i : ℕ} (v : BitVec w) (hp : p.length = i)
    (hw : 2 ^ w = 256 ^ k) : field (p ++ (bytesBE k v.toNat ++ q)) i w k = v := by
  unfold field
  rw [List.drop_left' hp, List.take_left' (length_bytesBE ..),
    PythnetSdk.Legacy.ofNat_natBE_word v hw]

end BatchAttestations

namespace PythnetSdk.Legacy.ExtendedBatch

open BatchAttestations
open BytesLib (field)

variable (e : ExtendedBatch)

theorem length_header : e.header.length = 15 + e.headerExtra.length := by
  simp only [header, headerStart, P2W_MAGIC, List.length_append, List.length_cons, List.length_nil,
    length_bytesBE]
  omega

theorem hdrSize_payload :
    field e.payload 8 16 2 = BitVec.ofNat 16 (e.headerExtra.length + 1) := by
  have hpre : (P2W_MAGIC ++ bytesBE 2 P2W_FORMAT_VER_MAJOR.toNat
      ++ bytesBE 2 P2W_FORMAT_VER_MINOR.toNat).length = 8 := by
    simp [P2W_MAGIC]
  have hat := field_at (q := [PRICE_BATCH_ATTESTATION] ++ e.headerExtra
    ++ bytesBE 2 e.attestations.length ++ bytesBE 2 e.attestationSize ++ e.records.flatten)
    (BitVec.ofNat 16 (e.headerExtra.length + 1)) hpre (by decide : _ = 256 ^ 2)
  rw [← hat]
  simp only [payload, header, headerStart, List.append_assoc]

theorem countIndex_payload : countIndex e.payload = 11 + e.headerExtra.length := by
  rw [countIndex, hdrSize_payload, BitVec.toNat_ofNat, Nat.mod_eq_of_lt e.headerFits]
  omega

/-- What stands in front of the number of attestations. -/
theorem length_headerFront :
    (headerStart (BitVec.ofNat 16 (e.headerExtra.length + 1)) ++ [PRICE_BATCH_ATTESTATION]
      ++ e.headerExtra).length = 11 + e.headerExtra.length := by
  simp only [headerStart, P2W_MAGIC, List.length_append, List.length_cons, List.length_nil,
    length_bytesBE]

theorem countOf_payload : countOf e.payload = e.attestations.length := by
  have hcount : (BitVec.ofNat 16 e.attestations.length).toNat = e.attestations.length := by
    rw [BitVec.toNat_ofNat, Nat.mod_eq_of_lt e.countFits]
  have hat := field_at (q := bytesBE 2 e.attestationSize ++ e.records.flatten)
    (BitVec.ofNat 16 e.attestations.length) e.length_headerFront (by decide : _ = 256 ^ 2)
  rw [hcount] at hat
  rw [countOf, countIndex_payload, ← hcount, ← hat]
  simp only [payload, header, List.append_assoc]

theorem recordSize_payload : recordSize e.payload = e.attestationSize := by
  have hsize : (BitVec.ofNat 16 e.attestationSize).toNat = e.attestationSize := by
    rw [BitVec.toNat_ofNat, Nat.mod_eq_of_lt e.attestationSize_lt]
  have hpre : (headerStart (BitVec.ofNat 16 (e.headerExtra.length + 1))
      ++ [PRICE_BATCH_ATTESTATION] ++ e.headerExtra ++ bytesBE 2 e.attestations.length).length
        = 11 + e.headerExtra.length + 2 := by
    rw [List.length_append, length_headerFront, length_bytesBE]
  have hat := field_at (q := e.records.flatten) (BitVec.ofNat 16 e.attestationSize) hpre
    (by decide : _ = 256 ^ 2)
  rw [hsize] at hat
  rw [recordSize, countIndex_payload, ← hsize, ← hat]
  simp only [payload, header, List.append_assoc]

theorem magic_payload : e.payload.take 4 = P2W_MAGIC := by
  have hmagic : P2W_MAGIC.length = 4 := rfl
  simp only [payload, header, headerStart, List.append_assoc]
  exact List.take_left' hmagic

/-! ## Attestations -/

theorem length_of_mem_records {record : Bytes} (h : record ∈ e.records) :
    record.length = e.attestationSize := by
  obtain ⟨a, ha, rfl⟩ := List.mem_map.mp h
  rw [attestationSize, if_neg (List.ne_nil_of_mem ha), List.length_append, length_serialize,
    a.2.property]

theorem length_records : e.records.length = e.attestations.length := List.length_map _

theorem drop_header : e.payload.drop (countIndex e.payload + 4) = e.records.flatten := by
  have hheader : e.header.length = countIndex e.payload + 4 := by
    rw [length_header, countIndex_payload]
    omega
  exact List.drop_left' hheader

theorem framed : Framed e.payload := by
  have hlength : e.payload.length = e.header.length + e.records.flatten.length :=
    List.length_append
  rw [Framed, hlength, length_header, countIndex_payload, countOf_payload, recordSize_payload,
    length_flatten_of_length fun record hmem => e.length_of_mem_records hmem, length_records]
  omega

theorem drop_records {i : ℕ} (hi : i < e.records.length) :
    recordAt e.payload i = e.records[i] ++ (e.records.drop (i + 1)).flatten := by
  rw [recordAt, ← List.drop_drop, drop_header, recordSize_payload,
    drop_flatten_of_length fun record hmem => e.length_of_mem_records hmem,
    List.drop_eq_getElem_cons hi, List.flatten_cons]

/-- The `i`-th attestation of a payload. -/
theorem recordAt_payload {i : ℕ} (hi : i < e.attestations.length) :
    ∃ rest, recordAt e.payload i = e.attestations[i].1.serialize ++ rest := by
  have hrecord : i < e.records.length := by rwa [length_records]
  refine ⟨e.attestations[i].2.val ++ (e.records.drop (i + 1)).flatten, ?_⟩
  rw [drop_records e hrecord, ← List.append_assoc]
  congr 1
  exact List.getElem_map _

end PythnetSdk.Legacy.ExtendedBatch

end PythCrosschain
