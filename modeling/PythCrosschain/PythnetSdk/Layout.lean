import PythCrosschain.PythnetSdk.WireV1

/-!
# The bytes of an accumulator update

What `to_vec` writes for the `AccumulatorUpdateData` of a VAA and its updates: a header
of eight bytes, the VAA after its two-byte size, the number of updates, and every update
with its message after a two-byte size and its siblings after their number. The prefixes
hold every VAA and message of at most 65535 bytes and at most 255 updates and siblings.
-/

namespace PythCrosschain.PythnetSdk

/-! ## Layout -/

def MerklePriceUpdate.layout (update : MerklePriceUpdate) : Bytes :=
  bytesBE 2 update.message.length ++ update.message ++
    UInt8.ofNat update.proof.length :: update.proof.flatMap Subtype.val

/-- The bytes behind the header. -/
def bodyLayout (vaa : Bytes) (updates : List MerklePriceUpdate) : Bytes :=
  bytesBE 2 vaa.length ++ vaa ++
    UInt8.ofNat updates.length :: updates.flatMap MerklePriceUpdate.layout

/-- The magic, the versions, the size of the trailing header and the tag of the proof. -/
def headerLayout : Bytes := [0x50, 0x4e, 0x41, 0x55, 1, 0, 0, 0]

/-- The prefixes of an update hold its lengths. -/
structure MerklePriceUpdate.Fits (update : MerklePriceUpdate) : Prop where
  message : update.message.length ≤ 65535
  proof : update.proof.length ≤ 255

/-! ## `to_vec` writes the layout -/

section

variable {B : ByteOrder}

theorem serializeFields_nil (v : WireTypes.nil.Tuple) :
    WireTypes.nil.serializeFields B v = .ok [] :=
  rfl

theorem serializeFields_cons {t : WireType} {ts : WireTypes} {v : (WireTypes.cons t ts).Tuple}
    {field fields : Bytes} (hfield : t.serialize B v.1 = .ok field)
    (hfields : ts.serializeFields B v.2 = .ok fields) :
    (WireTypes.cons t ts).serializeFields B v = .ok (field ++ fields) := by
  show (t.serialize B v.1 >>= fun field => ts.serializeFields B v.2 >>= fun fields =>
    pure (field ++ fields)) = _
  rw [hfield, hfields]
  rfl

theorem serializeVariant_inl {t : WireType} {ts : WireTypes} {variantIndex : Nat} {v : t.Value}
    {variant : UInt8} {payload : Bytes} (hvariant : variantU8 variantIndex = .ok variant)
    (hpayload : t.serialize B v = .ok payload) :
    (WireTypes.cons t ts).serializeVariant B variantIndex (.inl v) = .ok (variant :: payload) := by
  show (variantU8 variantIndex >>= fun variant => t.serialize B v >>= fun payload =>
    pure (variant :: payload)) = _
  rw [hvariant, hpayload]
  rfl

theorem encodeElements_u8 (data : Bytes) :
    encodeElements (WireType.u8.serialize B) data = .ok data := by
  have hdata : encodeElements (WireType.u8.serialize B) data
      = .ok (data.flatMap fun v => [v]) :=
    encodeElements_eq_ok fun _ _ => rfl
  exact hdata.trans (congrArg Except.ok (List.flatMap_singleton' data))

theorem serialize_prefixedVec_u8 {data : Bytes} (hlength : data.length ≤ 65535) :
    (WireType.prefixedVec .u8).serialize .BE data = .ok (bytesBE 2 data.length ++ data) := by
  have hlen : lenU16 data.length = .ok (BitVec.ofNat 16 data.length) :=
    if_pos (Nat.lt_succ_of_le hlength)
  have hwrite : writeInt .BE .w16 (BitVec.ofNat 16 data.length) = bytesBE 2 data.length := by
    have hnat : (BitVec.ofNat 16 data.length).toNat = data.length :=
      Nat.mod_eq_of_lt (Nat.lt_succ_of_le hlength)
    exact congrArg (bytesBE 2) hnat
  show (lenU16 data.length >>= fun len =>
    encodeElements (WireType.u8.serialize .BE) data >>= fun bytes =>
      pure (writeInt .BE .w16 len ++ bytes)) = _
  rw [hlen, encodeElements_u8, ← hwrite]
  rfl

theorem serialize_seq {t : WireType} {vs : List t.Value} {bytes : t.Value → Bytes}
    (hlength : vs.length ≤ 255) (h : ∀ v ∈ vs, t.serialize B v = .ok (bytes v)) :
    (WireType.seq t).serialize B vs = .ok (UInt8.ofNat vs.length :: vs.flatMap bytes) := by
  have hlen : lenU8 vs.length = .ok (UInt8.ofNat vs.length) := if_pos (Nat.lt_succ_of_le hlength)
  show (lenU8 vs.length >>= fun len => encodeElements (t.serialize B) vs >>= fun data =>
    pure (len :: data)) = _
  rw [hlen, encodeElements_eq_ok h]
  rfl

end

theorem MerklePriceUpdate.toVec_eq {update : MerklePriceUpdate} (h : update.Fits) :
    MerklePriceUpdate.schema.toVec .BE update = .ok update.layout := by
  have hproof : (WireType.seq (.array 20 .u8)).serialize .BE update.proof
      = .ok (UInt8.ofNat update.proof.length :: update.proof.flatMap Subtype.val) :=
    serialize_seq h.proof fun sibling _ => encodeElements_u8 sibling.val
  have hfields := serializeFields_cons
    (v := MerklePriceUpdate.schema.toWire update) (serialize_prefixedVec_u8 h.message)
    (serializeFields_cons hproof (serializeFields_nil ()))
  rw [List.append_nil] at hfields
  exact hfields

/-- The updates of a proof, after their number. -/
theorem serialize_updates {updates : List MerklePriceUpdate} (hlength : updates.length ≤ 255)
    (h : ∀ update ∈ updates, update.Fits) :
    MerklePriceUpdate.schema.vec.toVec .BE updates
      = .ok (UInt8.ofNat updates.length :: updates.flatMap MerklePriceUpdate.layout) := by
  have hlen : lenU8 (updates.map MerklePriceUpdate.schema.toWire).length
      = .ok (UInt8.ofNat updates.length) := by
    rw [List.length_map]
    exact if_pos (Nat.lt_succ_of_le hlength)
  have helements : encodeElements (MerklePriceUpdate.schema.type.serialize .BE)
      (updates.map MerklePriceUpdate.schema.toWire)
        = .ok (updates.flatMap MerklePriceUpdate.layout) := by
    rw [encodeElements_map]
    exact encodeElements_eq_ok fun update hupdate => MerklePriceUpdate.toVec_eq (h update hupdate)
  show (lenU8 (updates.map MerklePriceUpdate.schema.toWire).length >>= fun len =>
    encodeElements (MerklePriceUpdate.schema.type.serialize .BE)
      (updates.map MerklePriceUpdate.schema.toWire) >>= fun data => pure (len :: data)) = _
  rw [hlen, helements]
  rfl

theorem Proof.toVec_eq {vaa : Bytes} {updates : List MerklePriceUpdate} (hvaa : vaa.length ≤ 65535)
    (hlength : updates.length ≤ 255) (h : ∀ update ∈ updates, update.Fits) :
    Proof.schema.toVec .BE (.wormholeMerkle vaa updates) = .ok (0 :: bodyLayout vaa updates) := by
  have hfields := serializeFields_cons
    (v := ((vaa, MerklePriceUpdate.schema.vec.toWire updates, ()) :
      WireTypes.Tuple (.cons (.prefixedVec .u8) (.cons MerklePriceUpdate.schema.vec.type .nil))))
    (serialize_prefixedVec_u8 hvaa)
    (serializeFields_cons (serialize_updates hlength h) (serializeFields_nil ()))
  rw [List.append_nil] at hfields
  have hvariant : WireTypes.serializeVariant .BE 0
      (.cons (.struct [.prefixedVec .u8, MerklePriceUpdate.schema.vec.type]) .nil)
      (Proof.schema.toWire (.wormholeMerkle vaa updates)) = .ok (0 :: bodyLayout vaa updates) :=
    serializeVariant_inl rfl hfields
  exact hvariant

/-- An accumulator update is its header and the layout of its body. -/
theorem AccumulatorUpdateData.toVec_eq {vaa : Bytes} {updates : List MerklePriceUpdate}
    (hvaa : vaa.length ≤ 65535) (hlength : updates.length ≤ 255)
    (h : ∀ update ∈ updates, update.Fits) :
    AccumulatorUpdateData.schema.toVec .BE (.new (.wormholeMerkle vaa updates))
      = .ok (headerLayout ++ bodyLayout vaa updates) := by
  have htrailing : (WireType.seq .u8).serialize .BE ([] : Bytes) = .ok [0] := rfl
  have hfields := serializeFields_cons
    (v := AccumulatorUpdateData.schema.toWire (.new (.wormholeMerkle vaa updates)))
    (encodeElements_u8 PYTHNET_ACCUMULATOR_UPDATE_MAGIC.val)
    (serializeFields_cons rfl (serializeFields_cons rfl (serializeFields_cons htrailing
      (serializeFields_cons (Proof.toVec_eq hvaa hlength h) (serializeFields_nil ())))))
  rw [List.append_nil] at hfields
  exact hfields

end PythCrosschain.PythnetSdk
