import PythCrosschain.PythnetSdk.Wire

/-!
# The wire format round-trips

Every half of the format is shown to round-trip for the type constructor it
serves, from the round trips of the parts; `WireType.roundTrips` is the induction
over all supported types.
-/

namespace PythCrosschain.PythnetSdk

/-! ## Integers, byte strings and strings -/

theorem IntWidth.pow_bytes (width : IntWidth) : 256 ^ width.bytes = 2 ^ width.bits := by
  cases width <;> rfl

theorem length_writeInt (B : ByteOrder) (width : IntWidth) (v : BitVec width.bits) :
    (writeInt B width v).length = width.bytes := by
  cases B <;> simp [writeInt]

theorem readInt_writeInt (B : ByteOrder) (width : IntWidth) (v : BitVec width.bits)
    (rest : Bytes) : readInt B width (writeInt B width v ++ rest) = .ok (v, rest) := by
  have hvalue : BitVec.ofNat width.bits (natBE (bytesBE width.bytes v.toNat)) = v := by
    rw [natBE_bytesBE, width.pow_bytes, Nat.mod_eq_of_lt v.isLt, BitVec.ofNat_toNat,
      BitVec.setWidth_eq]
  rw [readInt, Decoder.bind_run_of (Decoder.take_run_append (length_writeInt B width v) rest)]
  cases B with
  | BE => simp [writeInt, hvalue]
  | LE => simp [writeInt, hvalue]

theorem roundTrips_int (B : ByteOrder) (width : IntWidth) :
    RoundTrips (fun v => (return writeInt B width v : Except SerializerError Bytes))
      (readInt B width) := by
  intro v bytes hv rest
  cases hv
  exact readInt_writeInt B width v rest

theorem lenU8_eq_ok {len : Nat} {n : UInt8} (h : lenU8 len = .ok n) : n.toNat = len := by
  unfold lenU8 at h
  split at h
  · next hlen =>
    cases h
    exact UInt8.toNat_ofNat_of_lt' hlen
  · cases h

theorem lenU16_eq_ok {len : Nat} {n : BitVec 16} (h : lenU16 len = .ok n) : n.toNat = len := by
  unfold lenU16 at h
  split at h
  · next hlen =>
    cases h
    exact Nat.mod_eq_of_lt hlen
  · cases h

theorem variantU8_eq_ok {variantIndex : Nat} {tag : UInt8} (h : variantU8 variantIndex = .ok tag) :
    UInt8.ofNat variantIndex = tag := by
  unfold variantU8 at h
  split at h
  · cases h
    rfl
  · cases h

theorem roundTrips_bytes : RoundTrips serializeBytes deserializeBytes := by
  intro v bytes hv rest
  simp only [serializeBytes, except_bind_eq_ok] at hv
  obtain ⟨len, hlen, hbytes⟩ := hv
  cases hbytes
  have hread : readU8 (len :: v ++ rest) = .ok (len, v ++ rest) := rfl
  rw [deserializeBytes, Decoder.bind_run_of hread]
  exact Decoder.take_run_append (lenU8_eq_ok hlen).symm rest

theorem fromUTF8?_utf8Bytes (v : String) :
    String.fromUTF8? ⟨(utf8Bytes v).toArray⟩ = some v := by
  have hbuf : (⟨(utf8Bytes v).toArray⟩ : ByteArray) = v.toByteArray := by
    simp [utf8Bytes]
  rw [hbuf, String.fromUTF8?, dif_pos v.isValidUTF8]
  rfl

theorem roundTrips_str : RoundTrips serializeStr deserializeStr := by
  intro v bytes hv rest
  rw [deserializeStr, Decoder.bind_run_of (roundTrips_bytes (utf8Bytes v) bytes hv rest),
    fromUTF8?_utf8Bytes]
  rfl

/-! ## Sequences -/

variable {α : Type}

theorem visitExactly_eq_elements (element : Deserializer α) (i n : Nat) :
    visitExactly element i n n = Decoder.elements element n := by
  induction n generalizing i with
  | zero => rfl
  | succ n ih => rw [visitExactly, Decoder.elements, ih]

variable {encode : α → Except SerializerError Bytes} {element : Deserializer α}

theorem roundTrips_visitArray (h : RoundTrips encode element) {vs : List α} {bytes : Bytes}
    (hvs : encodeElements encode vs = .ok bytes) (rest : Bytes) :
    visitArray element vs.length (bytes ++ rest) = .ok (⟨vs, rfl⟩, rest) := by
  have hvisit := h.elements hvs rest
  rw [← visitExactly_eq_elements element 0] at hvisit
  rw [visitArray, Decoder.bind_run_of hvisit, dif_pos rfl]
  rfl

theorem roundTrips_seq (h : RoundTrips encode element) :
    RoundTrips (fun vs : List α => do
        let len ← lenU8 vs.length
        let data ← encodeElements encode vs
        return len :: data)
      (do
        let len ← readU8
        Decoder.elements element len.toNat) := by
  intro vs bytes hvs rest
  simp only [except_bind_eq_ok] at hvs
  obtain ⟨len, hlen, data, hdata, hbytes⟩ := hvs
  cases hbytes
  have hread : readU8 (len :: data ++ rest) = .ok (len, data ++ rest) := rfl
  rw [Decoder.bind_run_of hread, lenU8_eq_ok hlen]
  exact h.elements hdata rest

theorem roundTrips_prefixedVec (B : ByteOrder) (h : RoundTrips encode element) :
    RoundTrips (fun vs : List α => do
        let len ← lenU16 vs.length
        let data ← encodeElements encode vs
        return writeInt B .w16 len ++ data)
      (do
        let len ← readInt B .w16
        visitExactly element 0 len.toNat len.toNat) := by
  intro vs bytes hvs rest
  simp only [except_bind_eq_ok] at hvs
  obtain ⟨len, hlen, data, hdata, hbytes⟩ := hvs
  cases hbytes
  have helements := h.elements hdata rest
  rw [← lenU16_eq_ok hlen] at helements
  rw [List.append_assoc, Decoder.bind_run_of (readInt_writeInt B .w16 len _),
    visitExactly_eq_elements]
  exact helements

/-! ## All types -/

mutual

theorem WireType.roundTrips (B : ByteOrder) :
    (t : WireType) → t.Supported → RoundTrips (t.serialize B) (t.deserialize B)
  | .unit, _ => by
    intro v bytes hv rest
    cases hv
    rfl
  | .bool, _ => by
    intro v bytes hv rest
    cases hv
    cases v <;> rfl
  | .u8, _ => by
    intro v bytes hv rest
    cases hv
    rfl
  | .int width, _ => roundTrips_int B width
  | .str, _ => roundTrips_str
  | .bytes, _ => roundTrips_bytes
  | .seq t, h => roundTrips_seq (t.roundTrips B h)
  | .prefixedVec t, h => roundTrips_prefixedVec B (t.roundTrips B h)
  | .array n t, h => by
    rintro ⟨vs, rfl⟩ bytes hvs rest
    exact roundTrips_visitArray (t.roundTrips B h) hvs rest
  | .tuple fields, h => fields.roundTrips_fields B h 0
  | .enum variants, ⟨hcount, h⟩ => by
    intro v bytes hv rest
    obtain ⟨variant, payload, rfl, hvariant, hvisit⟩ :=
      variants.serializeVariant_eq_ok B h 0 v bytes hv
    have hlength : (UInt8.ofNat variants.length).toNat = variants.length :=
      UInt8.toNat_ofNat_of_lt' (Nat.lt_succ_of_le hcount)
    have htag : (UInt8.ofNat (0 + variant)).toNat = variant := by
      rw [Nat.zero_add]
      exact UInt8.toNat_ofNat_of_lt' (Nat.lt_trans hvariant (Nat.lt_succ_of_le hcount))
    have hknown : ¬ UInt8.ofNat variants.length ≤ UInt8.ofNat (0 + variant) := by
      rw [UInt8.le_iff_toNat_le, htag, hlength]
      exact Nat.not_le_of_lt hvariant
    show (if UInt8.ofNat variants.length ≤ UInt8.ofNat (0 + variant) then
        throw .invalidEnumVariant
      else variants.visitVariant B (UInt8.ofNat (0 + variant)).toNat) (payload ++ rest) = _
    rw [if_neg hknown, htag]
    exact hvisit rest

theorem WireTypes.roundTrips_fields (B : ByteOrder) :
    (ts : WireTypes) → ts.Supported → (i : Nat) →
      RoundTrips (ts.serializeFields B) (ts.visitFields B i ts.length)
  | .nil, _, _ => by
    intro v bytes hv rest
    cases hv
    rfl
  | .cons t ts, ⟨ht, hts⟩, i => by
    intro v bytes hv rest
    simp only [WireTypes.serializeFields, except_bind_eq_ok] at hv
    obtain ⟨field, hfield, fields, hfields, hbytes⟩ := hv
    cases hbytes
    show (t.deserialize B >>= fun field => ts.visitFields B (i + 1) ts.length >>= fun fields =>
      pure (field, fields)) _ = _
    rw [List.append_assoc, Decoder.bind_run_of (t.roundTrips B ht v.1 field hfield _),
      Decoder.bind_run_of (ts.roundTrips_fields B hts (i + 1) v.2 fields hfields rest)]
    rfl

/-- The tag of a variant is its position, and the visitor of that position
reads the payload. -/
theorem WireTypes.serializeVariant_eq_ok (B : ByteOrder) :
    (ts : WireTypes) → ts.Supported → (variantIndex : Nat) → (v : ts.Variant) → (bytes : Bytes) →
      ts.serializeVariant B variantIndex v = .ok bytes →
      ∃ variant payload, bytes = UInt8.ofNat (variantIndex + variant) :: payload ∧
        variant < ts.length ∧
        ∀ rest, ts.visitVariant B variant (payload ++ rest) = .ok (v, rest)
  | .nil, _, _, v, _, _ => nomatch v
  | .cons t ts, ⟨ht, _⟩, variantIndex, .inl v, bytes, hv => by
    obtain ⟨tag, htag, hv⟩ := except_bind_eq_ok.mp hv
    obtain ⟨payload, hpayload, hv⟩ := except_bind_eq_ok.mp hv
    cases variantU8_eq_ok htag
    cases hv
    exact ⟨0, payload, rfl, Nat.succ_pos _, fun rest =>
      Decoder.map_run_of (t.roundTrips B ht v payload hpayload rest)⟩
  | .cons t ts, ⟨_, hts⟩, variantIndex, .inr v, bytes, hv => by
    obtain ⟨variant, payload, hbytes, hvariant, hvisit⟩ :=
      ts.serializeVariant_eq_ok B hts (variantIndex + 1) v bytes hv
    refine ⟨variant + 1, payload, ?_, Nat.succ_lt_succ hvariant, fun rest => ?_⟩
    · rw [hbytes, Nat.add_assoc, Nat.add_comm 1]
    · exact Decoder.map_run_of (hvisit rest)

end

end PythCrosschain.PythnetSdk
