import PythCrosschain.PythnetSdk.WormholeAttester

/-!
# The codec of attestation batches

`serialize` and `deserialize` of `legacy/wormhole_attester.rs` on batches of any length. The number
of attestations is cast to 16 bits, so a longer batch is serialized with a number that is too
small. The results are:

- `serialize_plain`: what is serialized is the extension that appends nothing;
- `codec_law_iff`: the codec works exactly for the batches whose length fits in 16 bits.
-/

namespace PythCrosschain.PythnetSdk.Legacy

theorem attestationSize_lt (b : BatchPriceAttestation) : b.attestationSize + 0 < 2 ^ 16 := by
  unfold BatchPriceAttestation.attestationSize
  split <;> decide

theorem singleton_fits : ([] : Bytes).length + 1 < 2 ^ 16 := by decide

/-- Nothing is appended. -/
def Extension.plain (b : BatchPriceAttestation) : Extension b where
  minorVersion := P2W_FORMAT_VER_MINOR
  headerExtra := []
  extraSize := 0
  extras := List.replicate b.priceAttestations.length ⟨[], List.length_nil⟩
  newer := minor_newer
  headerFits := singleton_fits
  sizeFits := attestationSize_lt b
  forEach := List.length_replicate

/-- What is serialized is the extension that appends nothing. -/
theorem serialize_plain (b : BatchPriceAttestation) :
    b.serialize = .ok (Extension.plain b).encoding := by
  have hrecords : (Extension.plain b).records.map (fun a => a.1.serialize ++ a.2.val)
      = b.priceAttestations.map PriceAttestation.serialize := by
    rw [← (Extension.plain b).map_fst_records, List.map_map]
    refine List.map_congr_left fun a _ => ?_
    rw [List.length_eq_zero_iff.mp a.2.property, List.append_nil]
    rfl
  have hsize : (BitVec.ofNat 16 b.attestationSize).toNat = b.attestationSize := by
    rw [BitVec.toNat_ofNat]
    exact Nat.mod_eq_of_lt (attestationSize_lt b)
  unfold BatchPriceAttestation.serialize Extension.encoding
  rw [serializeAttestations_eq 0 0 _ (.inl rfl), hrecords]
  show Except.ok (_ ++ bytesBE 2 (BitVec.ofNat 16 b.attestationSize).toNat ++ _) = Except.ok _
  rw [hsize]
  simp [headerStart, Extension.header, Extension.plain, P2W_FORMAT_HDR_SIZE]

/-! ## The law of the codec -/

/-- A cut encoding of a batch is rejected, if the number counts all of its attestations. -/
theorem deserialize_cut {b : BatchPriceAttestation} (x : Extension b)
    (hcount : b.priceAttestations.length ≤ 65535) {bytes more : Bytes}
    (h : x.encoding = bytes ++ more) (hmore : more ≠ []) :
    ∃ e, BatchPriceAttestation.deserialize bytes = .error e := by
  have hmod : b.priceAttestations.length % 2 ^ 16 = x.records.length :=
    (Nat.mod_eq_of_lt (Nat.lt_succ_of_le hcount)).trans x.length_records.symm
  have hread := read_encoding x []
  rw [Extension.uncounted, hmod, List.drop_length, List.append_nil, h] at hread
  obtain ⟨e, he⟩ := stable_read.fails_on_cut hread hmore
  refine ⟨e, ?_⟩
  rw [BatchPriceAttestation.deserialize, he]
  rfl

/-- What the codec promises for a batch: a batch that is too long is refused, any other one is read
back from its encoding and from what a later version appends to that, whatever follows, and a cut
encoding is rejected. -/
structure CodecLaw (b : BatchPriceAttestation) : Prop where
  tooLong : 65535 < b.priceAttestations.length → ∃ e, b.serialize = .error e
  roundTrip : b.priceAttestations.length ≤ 65535 → ∃ bytes, b.serialize = .ok bytes ∧
    ∀ rest, BatchPriceAttestation.deserialize (bytes ++ rest) = .ok b
  extended : b.priceAttestations.length ≤ 65535 → ∀ (x : Extension b) rest,
    BatchPriceAttestation.deserialize (x.encoding ++ rest) = .ok b
  cut : ∀ bytes more, b.serialize = .ok (bytes ++ more) → more ≠ [] →
    ∃ e, BatchPriceAttestation.deserialize bytes = .error e

/-- The codec keeps its promise exactly for the batches that it can count. -/
theorem codec_law_iff (b : BatchPriceAttestation) :
    CodecLaw b ↔ b.priceAttestations.length ≤ 65535 := by
  constructor
  · intro h
    by_contra hlong
    obtain ⟨e, he⟩ := h.tooLong (Nat.lt_of_not_le hlong)
    cases he.symm.trans (serialize_plain b)
  · intro hcount
    have hread (x : Extension b) (rest : Bytes) :
        BatchPriceAttestation.deserialize (x.encoding ++ rest) = .ok b :=
      (deserialize_encoding x rest).trans (congrArg Except.ok (counted_of_le hcount))
    refine ⟨fun hlong => absurd hcount (Nat.not_le_of_lt hlong), ?_, fun _ => hread, ?_⟩
    · intro _
      exact ⟨_, serialize_plain b, hread (Extension.plain b)⟩
    · intro bytes more hbytes hmore
      have henc : (Extension.plain b).encoding = bytes ++ more :=
        Except.ok.inj ((serialize_plain b).symm.trans hbytes)
      exact deserialize_cut (Extension.plain b) hcount henc hmore

def exAttestation : PriceAttestation where
  productId := HashArray.filled 32 0x15
  priceId := HashArray.filled 32 0xde
  price := 0x2bad2feed7
  conf := 101
  expo := -3
  emaPrice := -42
  emaConf := 42
  status := .trading
  numPublishers := 123212
  maxNumPublishers := 321232
  attestationTime := 0xdeadbeeffadedeed
  publishTime := 0xdadebeef
  prevPublishTime := 0xdeadbabe
  prevPrice := 0xdeadfacebeef
  prevConf := 0xbadbadbeef
  lastAttestedPublishTime := 0xdeadbeeffadedeaf

/-- One attestation more than can be counted. -/
def exLongBatch : BatchPriceAttestation where
  priceAttestations := List.replicate 65536 exAttestation

/-- It is serialized, and read back as no attestations. -/
theorem codec_law_fail :
    ¬ CodecLaw exLongBatch ∧ ∃ bytes, exLongBatch.serialize = .ok bytes ∧
      BatchPriceAttestation.deserialize bytes = .ok { priceAttestations := [] } := by
  have hlength : exLongBatch.priceAttestations.length = 65536 := List.length_replicate
  constructor
  · intro h
    obtain ⟨e, he⟩ := h.tooLong (hlength ▸ by decide)
    cases he.symm.trans (serialize_plain exLongBatch)
  · have hread := deserialize_encoding (Extension.plain exLongBatch) []
    rw [List.append_nil, BatchPriceAttestation.counted, hlength] at hread
    exact ⟨_, serialize_plain exLongBatch, hread⟩

end PythCrosschain.PythnetSdk.Legacy
