import PythCrosschain.Lib.DecoderParser
import PythCrosschain.PythnetSdk.WireV1

/-!
# The grammar of the transfer format

The derived deserializers of accumulator updates, of Wormhole messages and of price feed
messages, written down as strict parsers, field by field.

The results are:

- `accumulatorUpdateData_reads`, `wormholeMessage_reads` and `priceFeedMessage_reads`: the
  derived deserializers read what the parsers read;
- `local_accumulatorUpdateData`: an accumulator update is determined by the bytes that are
  consumed for it.
-/

namespace PythCrosschain.PythnetSdk

/-! ## The parsers -/

namespace Grammar

open PythCrosschain.Parser

/-- The tag of the first variant of an enum. -/
def firstVariant : Parser Unit := do
  let tag ← byte
  assert (guard (tag = 0))

/-- `PrefixedVec<u16, u8>`. -/
def prefixed : Parser Bytes := do
  let len ← uint 16 2
  take len.toNat

/-- `Vec<T>`. -/
def seq {α : Type} (p : Parser α) : Parser (List α) := do
  let len ← byte
  elements p len.toNat

def merklePriceUpdate : Parser MerklePriceUpdate := do
  let message ← prefixed
  let proof ← seq (array 20)
  return ⟨message, proof⟩

def proof : Parser Proof := do
  firstVariant
  let vaa ← prefixed
  let updates ← seq merklePriceUpdate
  return .wormholeMerkle vaa updates

def accumulatorUpdateData : Parser AccumulatorUpdateData := do
  let magic ← array 4
  let majorVersion ← byte
  let minorVersion ← byte
  let trailing ← seq byte
  let proof ← proof
  return ⟨magic, majorVersion, minorVersion, trailing, proof⟩

def wormholeMerkleRoot : Parser WormholeMerkleRoot := do
  let slot ← uint 64 8
  let ringSize ← uint 32 4
  let root ← array 20
  return ⟨slot, ringSize, root⟩

def wormholePayload : Parser WormholePayload := do
  firstVariant
  let root ← wormholeMerkleRoot
  return .merkle root

def wormholeMessage : Parser WormholeMessage := do
  let magic ← array 4
  let payload ← wormholePayload
  return ⟨magic, payload⟩

def priceFeedMessage : Parser PriceFeedMessage := do
  let feedId ← array 32
  let price ← uint 64 8
  let conf ← uint 64 8
  let exponent ← uint 32 4
  let publishTime ← uint 64 8
  let prevPublishTime ← uint 64 8
  let emaPrice ← uint 64 8
  let emaConf ← uint 64 8
  return ⟨feedId, price, conf, exponent, publishTime, prevPublishTime, emaPrice, emaConf⟩

/-- A message, when it is one of a price feed. -/
def message : Parser PriceFeedMessage := do
  firstVariant
  priceFeedMessage

theorem firstVariant_run {bs rest : Bytes} {u : Unit} :
    firstVariant bs = some (u, rest) ↔ bs = 0 :: rest := by
  rw [firstVariant, bind_run_eq_some]
  constructor
  · rintro ⟨tag, _, htag, hguard⟩
    obtain ⟨hzero, rfl⟩ := assert_run_eq_some.mp hguard
    obtain rfl : tag = 0 := by simpa [guard] using hzero
    exact byte_run.mp htag
  · rintro rfl
    exact ⟨0, rest, rfl, rfl⟩

/-! ## They are local -/

theorem local_firstVariant : Local firstVariant :=
  local_byte.bind fun _ => local_assert _

theorem local_prefixed : Local prefixed :=
  (local_uint 16 2).bind fun len => local_take len.toNat

theorem local_seq {α : Type} {p : Parser α} (hp : Local p) : Local (seq p) :=
  local_byte.bind fun len => hp.elements len.toNat

theorem local_merklePriceUpdate : Local merklePriceUpdate :=
  local_prefixed.bind fun _ => (local_seq (local_array 20)).bind fun _ => local_pure _

theorem local_proof : Local proof :=
  local_firstVariant.bind fun _ => local_prefixed.bind fun _ =>
    (local_seq local_merklePriceUpdate).bind fun _ => local_pure _

theorem local_accumulatorUpdateData : Local accumulatorUpdateData :=
  (local_array 4).bind fun _ => local_byte.bind fun _ => local_byte.bind fun _ =>
    (local_seq local_byte).bind fun _ => local_proof.bind fun _ => local_pure _

end Grammar

/-! ## The derived deserializers read them -/

section Reads

open Decoder

theorem reads_u8 : Reads readU8 Parser.byte := reads_byte DeserializerError.io

theorem reads_int (width : IntWidth) :
    Reads (readInt .BE width) (Parser.uint width.bits width.bytes) :=
  (reads_take DeserializerError.io width.bytes).bind fun _ => reads_pure _

theorem reads_array (n : Nat) : Reads (visitArray readU8 n) (Parser.array n) := by
  intro bs r
  have helements : Reads (visitExactly readU8 0 n n) (Parser.take n) := by
    rw [visitExactly_eq_elements, ← Parser.elements_byte]
    exact reads_u8.elements n
  have hrun : visitArray readU8 n bs = (visitExactly readU8 0 n n bs >>= fun s =>
      (if h : s.1.length = n then return ⟨s.1, h⟩ else throw (.invalidLength s.1.length) :
        Deserializer {vs : Bytes // vs.length = n}) s.2) := rfl
  rw [hrun, except_bind_eq_ok]
  constructor
  · rintro ⟨⟨field, rest⟩, hfield, hr⟩
    obtain ⟨hlength, rfl⟩ := Parser.take_run.mp ((helements bs _).mp hfield)
    rw [dif_pos hlength] at hr
    cases hr
    exact Parser.array_run.mpr rfl
  · rintro ha
    obtain ⟨a, rest⟩ := r
    have htake := Parser.take_run.mpr ⟨a.property, Parser.array_run.mp ha⟩
    refine ⟨(a.val, rest), (helements bs _).mpr htake, ?_⟩
    rw [dif_pos a.property]
    rfl

theorem reads_prefixed : Reads (do
      let len ← readInt .BE .w16
      visitExactly readU8 0 len.toNat len.toNat) Grammar.prefixed := by
  refine (reads_int .w16).bind fun len => ?_
  rw [visitExactly_eq_elements, ← Parser.elements_byte]
  exact reads_u8.elements len.toNat

theorem reads_seq {α : Type} {d : Deserializer α} {p : Parser α} (hd : Reads d p) :
    Reads (do
      let len ← readU8
      elements d len.toNat) (Grammar.seq p) :=
  reads_u8.bind fun len => hd.elements len.toNat

end Reads

/-! ### Structs and enums -/

section Derived

open Decoder

variable {B : ByteOrder} {α γ : Type} {t : WireType} {ts : WireTypes} {p : Parser α}

theorem reads_nil (k : WireTypes.nil.Tuple → γ) (i len : Nat) :
    Reads (k <$> WireTypes.nil.visitFields B i len) (pure (k ())) :=
  reads_pure (k ())

/-- One field of a struct, taken as `f` says, and the others. -/
theorem reads_cons_map {q : α → Parser γ} {k : (WireTypes.cons t ts).Tuple → γ} {i len : Nat}
    {f : t.Value → α} (hf : Reads (f <$> t.deserialize B) p)
    (hk : ∀ v, Reads ((fun vs => k (v, vs)) <$> ts.visitFields B (i + 1) len) (q (f v))) :
    Reads (k <$> (WireTypes.cons t ts).visitFields B i (len + 1)) (p >>= q) := by
  intro bs r
  have hrun : (k <$> (WireTypes.cons t ts).visitFields B i (len + 1)) bs
      = ((t.deserialize B) bs >>= fun s =>
        ((fun vs => k (s.1, vs)) <$> ts.visitFields B (i + 1) len) s.2) := by
    show (((t.deserialize B) bs >>= fun r => (ts.visitFields B (i + 1) len) r.2 >>= fun s =>
        pure ((r.1, s.1), s.2)) >>= fun r => pure (k r.1, r.2))
      = (t.deserialize B) bs >>= fun r =>
        (ts.visitFields B (i + 1) len) r.2 >>= fun s => pure (k (r.1, s.1), s.2)
    simp only [bind_assoc, pure_bind]
  have hfield {a : α} {mid : Bytes} : p bs = some (a, mid) ↔
      ∃ v, t.deserialize B bs = .ok (v, mid) ∧ f v = a := by
    rw [← hf bs (a, mid), map_run_eq_ok]
  rw [hrun, except_bind_eq_ok, Parser.bind_run_eq_some]
  constructor
  · rintro ⟨⟨v, mid⟩, hv, hr⟩
    exact ⟨f v, mid, hfield.mpr ⟨v, hv, rfl⟩, (hk v mid r).mp hr⟩
  · rintro ⟨a, mid, ha, hr⟩
    obtain ⟨v, hv, rfl⟩ := hfield.mp ha
    exact ⟨(v, mid), hv, (hk v mid r).mpr hr⟩

theorem reads_cons {p : Parser t.Value} {q : t.Value → Parser γ}
    {k : (WireTypes.cons t ts).Tuple → γ} {i len : Nat} (hp : Reads (t.deserialize B) p)
    (hk : ∀ v, Reads ((fun vs => k (v, vs)) <$> ts.visitFields B (i + 1) len) (q v)) :
    Reads (k <$> (WireTypes.cons t ts).visitFields B i (len + 1)) (p >>= q) :=
  reads_cons_map (f := fun v => v) ((id_map (t.deserialize B)).symm ▸ hp) hk

/-- A value of the first variant is read after its tag. -/
theorem inl_run (hcount : (WireTypes.cons t ts).length ≤ 255) {bs rest : Bytes} {v : t.Value} :
    (WireType.enum (.cons t ts)).deserialize B bs = .ok (.inl v, rest) ↔
      ∃ mid, Grammar.firstVariant bs = some ((), mid) ∧ t.deserialize B mid = .ok (v, rest) := by
  simp only [Grammar.firstVariant_run]
  cases bs with
  | nil => exact ⟨nofun, nofun⟩
  | cons tag bs =>
    have hrun : (WireType.enum (.cons t ts)).deserialize B (tag :: bs)
        = (if UInt8.ofNat (WireTypes.cons t ts).length ≤ tag then throw .invalidEnumVariant
          else (WireTypes.cons t ts).visitVariant B tag.toNat) bs := rfl
    rw [hrun]
    by_cases htag : tag = 0
    · subst htag
      have hlength : (UInt8.ofNat (WireTypes.cons t ts).length).toNat
          = (WireTypes.cons t ts).length := UInt8.toNat_ofNat_of_lt' (Nat.lt_succ_of_le hcount)
      have hknown : ¬ UInt8.ofNat (WireTypes.cons t ts).length ≤ 0 := by
        rw [UInt8.le_iff_toNat_le, hlength]
        exact Nat.not_succ_le_zero _
      rw [if_neg hknown]
      constructor
      · intro h
        obtain ⟨r, hv, hr⟩ := except_bind_eq_ok.mp (show (t.deserialize B bs >>= fun r =>
          pure (Sum.inl r.1, r.2)) = .ok (Sum.inl v, rest) from h)
        cases hr
        exact ⟨bs, rfl, hv⟩
      · rintro ⟨_, hmid, hv⟩
        cases hmid
        exact Decoder.map_run_of hv
    · -- the other variants are read as another summand
      obtain ⟨n, hn⟩ : ∃ n, tag.toNat = n + 1 := Nat.exists_eq_succ_of_ne_zero fun h =>
        htag (UInt8.toNat_inj.mp h)
      constructor
      · intro h
        split at h
        · cases h
        · rw [hn] at h
          obtain ⟨r, -, hr⟩ := except_bind_eq_ok.mp (show (ts.visitVariant B n bs >>= fun r =>
            pure (Sum.inr r.1, r.2)) = .ok (Sum.inl v, rest) from h)
          cases hr
      · rintro ⟨mid, hmid, -⟩
        exact absurd (List.cons.inj hmid).1 htag

/-- An enum with one variant. -/
theorem reads_enum {f : (WireType.enum (.cons t .nil)).Value → α}
    (hf : Reads ((fun v => f (Sum.inl v)) <$> t.deserialize B) p) :
    Reads (f <$> (WireType.enum (.cons t .nil)).deserialize B)
      (Grammar.firstVariant >>= fun _ => p) := by
  have hcount : (WireTypes.cons t .nil).length ≤ 255 := by
    show 1 ≤ 255
    decide
  rintro bs ⟨a, rest⟩
  rw [map_run_eq_ok, Parser.bind_run_eq_some]
  constructor
  · rintro ⟨v | v, hv, rfl⟩
    · obtain ⟨mid, hmid, hv⟩ := (inl_run hcount).mp hv
      exact ⟨(), mid, hmid, (hf mid _).mp (map_run_of hv)⟩
    · exact v.elim
  · rintro ⟨_, mid, hmid, ha⟩
    obtain ⟨v, hv, rfl⟩ := map_run_eq_ok.mp ((hf mid _).mpr ha)
    exact ⟨.inl v, (inl_run hcount).mpr ⟨mid, hmid, hv⟩, rfl⟩

end Derived

/-! ### The types of the transfer format -/

section Types

open Decoder

theorem reads_vec {α : Type} {schema : Schema α} {p : Parser α}
    (h : Reads (schema.fromSlice .BE) p) :
    Reads (schema.vec.fromSlice .BE) (Grammar.seq p) := by
  have hvec : schema.vec.fromSlice .BE = (do
      let len ← readU8
      elements (schema.fromSlice .BE) len.toNat) := by
    show List.map schema.ofWire <$> (readU8 >>= fun len =>
      elements (schema.type.deserialize .BE) len.toNat) = _
    simp only [map_bind, map_elements]
    rfl
  rw [hvec]
  exact reads_seq h

theorem reads_path : Reads ((WireType.seq (.array 20 .u8)).deserialize .BE)
    (Grammar.seq (Parser.array 20)) :=
  reads_seq (reads_array 20)

theorem merklePriceUpdate_reads :
    Reads (MerklePriceUpdate.schema.fromSlice .BE) Grammar.merklePriceUpdate := by
  refine reads_cons reads_prefixed fun message => ?_
  refine reads_cons reads_path fun proof => ?_
  exact reads_nil _ _ _

theorem wormholeMerkleRoot_reads :
    Reads (WormholeMerkleRoot.schema.fromSlice .BE) Grammar.wormholeMerkleRoot := by
  refine reads_cons (reads_int .w64) fun slot => ?_
  refine reads_cons (reads_int .w32) fun ringSize => ?_
  refine reads_cons (reads_array 20) fun root => ?_
  exact reads_nil _ _ _

theorem priceFeedMessage_reads :
    Reads (PriceFeedMessage.schema.fromSlice .BE) Grammar.priceFeedMessage := by
  refine reads_cons (reads_array 32) fun feedId => ?_
  refine reads_cons (reads_int .w64) fun price => ?_
  refine reads_cons (reads_int .w64) fun conf => ?_
  refine reads_cons (reads_int .w32) fun exponent => ?_
  refine reads_cons (reads_int .w64) fun publishTime => ?_
  refine reads_cons (reads_int .w64) fun prevPublishTime => ?_
  refine reads_cons (reads_int .w64) fun emaPrice => ?_
  refine reads_cons (reads_int .w64) fun emaConf => ?_
  exact reads_nil _ _ _

theorem proof_reads : Reads (Proof.schema.fromSlice .BE) Grammar.proof := by
  refine reads_enum (reads_cons reads_prefixed fun vaa => ?_)
  refine reads_cons_map (reads_vec merklePriceUpdate_reads) fun updates => ?_
  exact reads_nil _ _ _

theorem accumulatorUpdateData_reads :
    Reads (AccumulatorUpdateData.schema.fromSlice .BE) Grammar.accumulatorUpdateData := by
  refine reads_cons (reads_array 4) fun magic => ?_
  refine reads_cons reads_u8 fun majorVersion => ?_
  refine reads_cons reads_u8 fun minorVersion => ?_
  refine reads_cons (reads_seq reads_u8) fun trailing => ?_
  refine reads_cons_map proof_reads fun proof => ?_
  exact reads_nil _ _ _

theorem wormholePayload_reads :
    Reads (WormholePayload.schema.fromSlice .BE) Grammar.wormholePayload := by
  have hroot := wormholeMerkleRoot_reads.map WormholePayload.merkle
  rw [Schema.fromSlice, ← comp_map] at hroot
  exact reads_enum hroot

theorem wormholeMessage_reads :
    Reads (WormholeMessage.schema.fromSlice .BE) Grammar.wormholeMessage := by
  refine reads_cons (reads_array 4) fun magic => ?_
  refine reads_cons_map wormholePayload_reads fun payload => ?_
  exact reads_nil _ _ _

/-- A message that is read as one of a price feed. -/
theorem message_reads {bs rest : Bytes} {msg : PriceFeedMessage} :
    Message.schema.fromSlice .BE bs = .ok (.priceFeedMessage msg, rest) ↔
      Grammar.message bs = some (msg, rest) := by
  have hcount : (WireTypes.cons PriceFeedMessage.schema.type (.cons TwapMessage.schema.type
      (.cons PublisherStakeCapsMessage.schema.type .nil))).length ≤ 255 := by
    show 3 ≤ 255
    decide
  rw [Schema.fromSlice, map_run_eq_ok, Grammar.message, Parser.bind_run_eq_some]
  constructor
  · rintro ⟨v | v | v | v, hv, hmsg⟩
    · obtain ⟨mid, hmid, hv⟩ := (inl_run hcount).mp hv
      cases hmsg
      exact ⟨(), mid, hmid, (priceFeedMessage_reads mid _).mp (map_run_of hv)⟩
    · cases hmsg
    · cases hmsg
    · exact v.elim
  · rintro ⟨_, mid, hmid, hmsg⟩
    obtain ⟨v, hv, rfl⟩ := map_run_eq_ok.mp ((priceFeedMessage_reads mid _).mpr hmsg)
    exact ⟨.inl v, (inl_run hcount).mpr ⟨mid, hmid, hv⟩, rfl⟩

end Types

end PythCrosschain.PythnetSdk
