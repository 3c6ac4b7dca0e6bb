import PythCrosschain.Lazer.Message
import PythCrosschain.Lazer.PayloadRoundTrip

/-!
# Envelopes and binary updates round-trip

One lemma per part for all four envelopes; a message is recognized by its magic; a binary
update frames each message with its length, and the reader walks along the frames. All
formats of Lazer are exact (`lazer_formats_exact`).
-/

namespace PythCrosschain.Lazer

open PythnetSdk (ByteOrder)
open Rust (NeverPanics ExactFormat)

/-! ## Envelopes -/

section Envelope

variable {α : Type} {magic : BitVec 32} {fields : Bytes} {reader : Reader α} {values : α}
  {B : ByteOrder} {payload : Bytes}

theorem serializeEnvelope_eq_ok {bytes : Bytes} :
    serializeEnvelope magic fields B payload = .ok bytes ↔
      ∃ len, tryIntoU16 payload.length = .ok len ∧
        writeU32 .LE magic ++ fields ++ writeU16 B len ++ payload = bytes := by
  simp [serializeEnvelope, except_bind_eq_ok, pure, Except.pure]

theorem deserializeEnvelope_append (hfields : ∀ rest, reader (fields ++ rest) = .ok (values, rest))
    {bytes : Bytes} (hbytes : serializeEnvelope magic fields B payload = .ok bytes) (rest : Bytes) :
    deserializeEnvelope magic reader B (bytes ++ rest) = .ok ((values, payload), rest) := by
  obtain ⟨len, hlen, rfl⟩ := serializeEnvelope_eq_ok.mp hbytes
  simp only [List.append_assoc]
  rw [deserializeEnvelope, Decoder.bind_run_of (readU32_writeU32 .LE magic _), if_neg (by simp)]
  show (reader >>= _) _ = _
  have hpayload : readExact len.toNat (payload ++ rest) =
      .ok (⟨payload, (tryIntoU16_eq_ok.mp hlen).symm⟩, rest) := readExact_append ⟨payload, _⟩ rest
  rw [Decoder.bind_run_of (hfields _), Decoder.bind_run_of (readU16_writeU16 B len _),
    Decoder.bind_run_of hpayload]
  rfl

theorem serializeEnvelope_writes_iff :
    (∃ bytes, serializeEnvelope magic fields B payload = .ok bytes) ↔ payload.length ≤ 65535 := by
  rw [← tryIntoU16_ok_iff]
  constructor
  · rintro ⟨bytes, hbytes⟩
    obtain ⟨len, hlen, -⟩ := serializeEnvelope_eq_ok.mp hbytes
    exact ⟨len, hlen⟩
  · rintro ⟨len, hlen⟩
    exact ⟨_, serializeEnvelope_eq_ok.mpr ⟨len, hlen, rfl⟩⟩

theorem serializeEnvelope_ne_panic : serializeEnvelope magic fields B payload ≠ .error .panic :=
  Rust.bind_ne_panic (tryIntoU16_ne_panic _) fun _ _ => nofun

theorem length_serializeEnvelope {bytes : Bytes}
    (h : serializeEnvelope magic fields B payload = .ok bytes) :
    bytes.length = 4 + fields.length + 2 + payload.length := by
  obtain ⟨len, -, rfl⟩ := serializeEnvelope_eq_ok.mp h
  simp only [List.length_append, length_writeU32, length_writeU16]

theorem neverPanics_deserializeEnvelope (hreader : NeverPanics reader) :
    NeverPanics (deserializeEnvelope magic reader B) := by
  refine (neverPanics_readInt .LE .w32).bind fun read => ?_
  have hrest : NeverPanics (do
      let values ← reader
      let payloadLen ← readU16 B
      let payload ← readExact payloadLen.toNat
      return (values, payload.val)) :=
    hreader.bind fun _ => (neverPanics_readInt B .w16).bind fun _ =>
      (neverPanics_readExact _).bind fun _ => Rust.neverPanics_pure _
  dsimp only
  split
  · exact (Rust.neverPanics_throw _).bind fun _ => hrest
  · exact hrest

end Envelope

theorem readEcdsaFields_append (signature : U8Array 64) (recoveryId : UInt8) (rest : Bytes) :
    readEcdsaFields (signature.val ++ [recoveryId] ++ rest) =
      .ok ((signature, recoveryId), rest) := by
  rw [readEcdsaFields, List.append_assoc, Decoder.bind_run_of (readExact_append signature _),
    Decoder.bind_run_of (readU8_cons recoveryId rest)]
  rfl

theorem readSolanaFields_append (signature : U8Array 64) (publicKey : U8Array 32) (rest : Bytes) :
    readSolanaFields (signature.val ++ publicKey.val ++ rest) =
      .ok ((signature, publicKey), rest) := by
  rw [readSolanaFields, List.append_assoc, Decoder.bind_run_of (readExact_append signature _),
    Decoder.bind_run_of (readExact_append publicKey rest)]
  rfl

theorem neverPanics_readEcdsaFields : NeverPanics readEcdsaFields :=
  (neverPanics_readExact 64).bind fun _ => neverPanics_readU8.bind fun _ => Rust.neverPanics_pure _

theorem neverPanics_readSolanaFields : NeverPanics readSolanaFields :=
  (neverPanics_readExact 64).bind fun _ => (neverPanics_readExact 32).bind fun _ =>
    Rust.neverPanics_pure _

theorem EvmMessage.round_trips : RoundTrips EvmMessage.serialize EvmMessage.deserialize := by
  intro message bytes hbytes rest
  rw [EvmMessage.deserialize, Decoder.bind_run_of
    (deserializeEnvelope_append (readEcdsaFields_append _ _) hbytes rest)]
  rfl

theorem SolanaMessage.round_trips :
    RoundTrips SolanaMessage.serialize SolanaMessage.deserialize := by
  intro message bytes hbytes rest
  rw [SolanaMessage.deserialize, Decoder.bind_run_of
    (deserializeEnvelope_append (readSolanaFields_append _ _) hbytes rest)]
  rfl

theorem LeEcdsaMessage.round_trips :
    RoundTrips LeEcdsaMessage.serialize LeEcdsaMessage.deserialize := by
  intro message bytes hbytes rest
  rw [LeEcdsaMessage.deserialize, Decoder.bind_run_of
    (deserializeEnvelope_append (readEcdsaFields_append _ _) hbytes rest)]
  rfl

theorem LeUnsignedMessage.round_trips :
    RoundTrips LeUnsignedMessage.serialize LeUnsignedMessage.deserialize := by
  intro message bytes hbytes rest
  rw [LeUnsignedMessage.deserialize, Decoder.bind_run_of
    (deserializeEnvelope_append (fun rest => rfl) hbytes rest)]
  rfl

/-- The payload of an envelope can be counted in two bytes. -/
def PayloadFits (payload : Bytes) : Prop := payload.length ≤ 65535

theorem EvmMessage.exact : ExactFormat (fun m => PayloadFits m.payload) EvmMessage.serialize
    EvmMessage.deserializeSlice where
  round_trip _ _ h := Rust.roundTrips_value EvmMessage.round_trips h
  writes_iff _ := serializeEnvelope_writes_iff
  write_ne_panic _ := serializeEnvelope_ne_panic
  read_ne_panic := ((neverPanics_deserializeEnvelope neverPanics_readEcdsaFields).bind fun _ =>
    Rust.neverPanics_pure _).value

theorem SolanaMessage.exact : ExactFormat (fun m => PayloadFits m.payload) SolanaMessage.serialize
    SolanaMessage.deserializeSlice where
  round_trip _ _ h := Rust.roundTrips_value SolanaMessage.round_trips h
  writes_iff _ := serializeEnvelope_writes_iff
  write_ne_panic _ := serializeEnvelope_ne_panic
  read_ne_panic := ((neverPanics_deserializeEnvelope neverPanics_readSolanaFields).bind fun _ =>
    Rust.neverPanics_pure _).value

theorem LeEcdsaMessage.exact : ExactFormat (fun m => PayloadFits m.payload)
    LeEcdsaMessage.serialize LeEcdsaMessage.deserializeSlice where
  round_trip _ _ h := Rust.roundTrips_value LeEcdsaMessage.round_trips h
  writes_iff _ := serializeEnvelope_writes_iff
  write_ne_panic _ := serializeEnvelope_ne_panic
  read_ne_panic := ((neverPanics_deserializeEnvelope neverPanics_readEcdsaFields).bind fun _ =>
    Rust.neverPanics_pure _).value

theorem LeUnsignedMessage.exact : ExactFormat (fun m => PayloadFits m.payload)
    LeUnsignedMessage.serialize LeUnsignedMessage.deserializeSlice where
  round_trip _ _ h := Rust.roundTrips_value LeUnsignedMessage.round_trips h
  writes_iff _ := serializeEnvelope_writes_iff
  write_ne_panic _ := serializeEnvelope_ne_panic
  read_ne_panic := ((neverPanics_deserializeEnvelope (Rust.neverPanics_pure ())).bind fun _ =>
    Rust.neverPanics_pure _).value

/-! ## Messages -/

section

variable {ParsedPayload : Type} {toWriter : ParsedPayload → Bytes}
  {fromSlice : Bytes → Option ParsedPayload}

variable (toWriter) in
/-- The number of bytes of a message. -/
def Message.encodedLen : Message ParsedPayload → Nat
  | .evm message => 71 + message.payload.length
  | .solana message => 102 + message.payload.length
  | .leEcdsa message => 71 + message.payload.length
  | .leUnsigned message => 6 + message.payload.length
  | .json message => 4 + (toWriter message).length

/-- The payload of the message, where it has one, can be counted in two bytes. -/
def Message.Fits : Message ParsedPayload → Prop
  | .evm message => PayloadFits message.payload
  | .solana message => PayloadFits message.payload
  | .leEcdsa message => PayloadFits message.payload
  | .leUnsigned message => PayloadFits message.payload
  | .json _ => True

theorem Message.length_serialize {message : Message ParsedPayload} {bytes : Bytes}
    (h : message.serialize toWriter = .ok bytes) : bytes.length = message.encodedLen toWriter := by
  cases message with
  | evm message =>
    rw [length_serializeEnvelope h, List.length_append, message.signature.property]
    rfl
  | solana message =>
    rw [length_serializeEnvelope h, List.length_append, message.signature.property,
      message.publicKey.property]
    rfl
  | leEcdsa message =>
    rw [length_serializeEnvelope h, List.length_append, message.signature.property]
    rfl
  | leUnsigned message => exact length_serializeEnvelope h
  | json message =>
    cases h
    rw [List.length_append, length_writeU32]
    rfl

/-- The magic at the front of a message, as `deserialize_slice` looks at it. -/
theorem header_slice (magic : BitVec 32) (rest : Bytes) :
    Rust.slice (writeU32 .LE magic ++ rest) 0 4 = some (writeU32 .LE magic) := by
  have hslice := Rust.slice_append [] (writeU32 .LE magic) rest
  rw [length_writeU32] at hslice
  exact hslice

theorem ofNat_natLE_writeU32 (v : BitVec 32) :
    BitVec.ofNat 32 (natLE (writeU32 .LE v)) = v := by
  rw [natLE_writeU32, BitVec.ofNat_toNat, BitVec.setWidth_eq]

theorem Message.deserializeSlice_magic {magic : BitVec 32} {rest bytes : Bytes}
    (hbytes : bytes = writeU32 .LE magic ++ rest) :
    Message.deserializeSlice fromSlice bytes =
      Message.deserializeFormat fromSlice magic bytes := by
  have hheader : Rust.slice bytes 0 4 = some (writeU32 .LE magic) := by
    rw [hbytes, header_slice]
  rw [Message.deserializeSlice, hheader, Rust.okOr_some, except_ok_bind, ofNat_natLE_writeU32]

theorem envelope_magic {magic : BitVec 32} {fields payload bytes : Bytes} {B : ByteOrder}
    (h : serializeEnvelope magic fields B payload = .ok bytes) :
    ∃ rest, bytes = writeU32 .LE magic ++ rest := by
  obtain ⟨len, -, rfl⟩ := serializeEnvelope_eq_ok.mp h
  exact ⟨fields ++ (writeU16 B len ++ payload), by simp only [List.append_assoc]⟩

theorem map_ok {α β : Type} {x : Anyhow α} {a : α} (f : α → β) (h : x = .ok a) :
    f <$> x = .ok (f a) := by
  rw [h]
  rfl

theorem Message.round_trip (hjson : ∀ p, fromSlice (toWriter p) = some p)
    {message : Message ParsedPayload} {bytes : Bytes} (h : message.serialize toWriter = .ok bytes) :
    Message.deserializeSlice fromSlice bytes = .ok message := by
  cases message with
  | evm message =>
    obtain ⟨rest, hbytes⟩ := envelope_magic h
    rw [Message.deserializeSlice_magic hbytes, Message.deserializeFormat,
      if_neg (by decide), if_pos rfl]
    exact map_ok Message.evm (EvmMessage.exact.round_trip message bytes h)
  | solana message =>
    obtain ⟨rest, hbytes⟩ := envelope_magic h
    rw [Message.deserializeSlice_magic hbytes, Message.deserializeFormat,
      if_neg (by decide), if_neg (by decide), if_pos rfl]
    exact map_ok Message.solana (SolanaMessage.exact.round_trip message bytes h)
  | leEcdsa message =>
    obtain ⟨rest, hbytes⟩ := envelope_magic h
    rw [Message.deserializeSlice_magic hbytes, Message.deserializeFormat,
      if_neg (by decide), if_neg (by decide), if_neg (by decide), if_pos rfl]
    exact map_ok Message.leEcdsa (LeEcdsaMessage.exact.round_trip message bytes h)
  | leUnsigned message =>
    obtain ⟨rest, hbytes⟩ := envelope_magic h
    rw [Message.deserializeSlice_magic hbytes, Message.deserializeFormat,
      if_neg (by decide), if_neg (by decide), if_neg (by decide), if_neg (by decide),
      if_pos rfl]
    exact map_ok Message.leUnsigned (LeUnsignedMessage.exact.round_trip message bytes h)
  | json message =>
    have hbytes : bytes = writeU32 .LE JSON_FORMAT_MAGIC ++ toWriter message :=
      (Except.ok.inj h).symm
    have hslice := Rust.slice_append (writeU32 .LE JSON_FORMAT_MAGIC) (toWriter message) []
    rw [List.append_nil, length_writeU32, ← length_writeU32 .LE JSON_FORMAT_MAGIC,
      ← List.length_append, ← hbytes, length_writeU32] at hslice
    rw [Message.deserializeSlice_magic hbytes, Message.deserializeFormat,
      if_pos rfl, hslice, Rust.unwrap_some, except_ok_bind, hjson]
    rfl

theorem Message.writes_iff (message : Message ParsedPayload) :
    (∃ bytes, message.serialize toWriter = .ok bytes) ↔ message.Fits := by
  cases message with
  | evm message => exact EvmMessage.exact.writes_iff message
  | solana message => exact SolanaMessage.exact.writes_iff message
  | leEcdsa message => exact LeEcdsaMessage.exact.writes_iff message
  | leUnsigned message => exact LeUnsignedMessage.exact.writes_iff message
  | json message => exact ⟨fun _ => trivial, fun _ => ⟨_, rfl⟩⟩

theorem Message.serialize_ne_panic (message : Message ParsedPayload) :
    message.serialize toWriter ≠ .error .panic := by
  cases message with
  | evm message => exact EvmMessage.exact.write_ne_panic message
  | solana message => exact SolanaMessage.exact.write_ne_panic message
  | leEcdsa message => exact LeEcdsaMessage.exact.write_ne_panic message
  | leUnsigned message => exact LeUnsignedMessage.exact.write_ne_panic message
  | json message => exact nofun

theorem map_ne_panic {α β : Type} {x : Anyhow α} (f : α → β) (h : x ≠ .error .panic) :
    f <$> x ≠ .error .panic := by
  cases x with
  | error e =>
    intro h'
    cases h'
    exact h rfl
  | ok a => exact nofun

theorem Message.deserializeSlice_ne_panic (data : Bytes) :
    Message.deserializeSlice fromSlice data ≠ .error .panic := by
  refine Rust.bind_ne_panic Rust.okOr_ne_panic fun header hheader => ?_
  have hlen : 4 ≤ data.length := (Rust.slice_eq_some.mp (Rust.okOr_eq_ok.mp hheader)).2.1
  unfold Message.deserializeFormat
  repeat' split
  · exact Rust.bind_ne_panic (Rust.unwrap_ne_panic (Rust.slice_of_le hlen (Nat.le_refl _)))
      fun _ _ => map_ne_panic _ Rust.okOr_ne_panic
  · exact map_ne_panic _ (EvmMessage.exact.read_ne_panic data)
  · exact map_ne_panic _ (SolanaMessage.exact.read_ne_panic data)
  · exact map_ne_panic _ (LeEcdsaMessage.exact.read_ne_panic data)
  · exact map_ne_panic _ (LeUnsignedMessage.exact.read_ne_panic data)
  · exact nofun

/-! ## Binary updates -/

variable (toWriter) in
/-- A message with its length in front of it. -/
def frame (message : Message ParsedPayload) : Anyhow Bytes := do
  let bytes ← message.serialize toWriter
  let len ← tryIntoU16 bytes.length
  return writeU16 .BE len ++ bytes

theorem copyFromSlice_append (front middle back src : Bytes) (h : middle.length = src.length) :
    copyFromSlice (front ++ middle ++ back) front.length (front.length + middle.length) src =
      .ok (front ++ src ++ back) := by
  rw [copyFromSlice, Rust.slice_append]
  show (if middle.length = src.length then _ else _) = _
  rw [if_pos h, ← List.length_append, List.drop_left, List.append_assoc front middle,
    List.take_left]
  rfl

/-- The two zero bytes are replaced by the length of what was written after them. -/
theorem writeWithLenHeader_eq (out : Bytes) (message : Message ParsedPayload) :
    (writeWithLenHeader out fun buf => return buf ++ (← message.serialize toWriter)) =
      (out ++ ·) <$> frame toWriter message := by
  unfold writeWithLenHeader frame
  cases hmessage : message.serialize toWriter with
  | error e => rfl
  | ok bytes =>
    have hlen : (out ++ [0] ++ [0] ++ bytes).length - (out ++ [0] ++ [0]).length =
        bytes.length := by
      rw [List.length_append, Nat.add_sub_cancel_left]
    show (tryIntoU16 ((out ++ [0] ++ [0] ++ bytes).length - (out ++ [0] ++ [0]).length) >>= _) = _
    rw [hlen]
    show _ = (out ++ ·) <$> (tryIntoU16 bytes.length >>= _)
    cases tryIntoU16 bytes.length with
    | error e => rfl
    | ok len =>
      have hcopy := copyFromSlice_append out [0, 0] bytes (writeU16 .BE len)
        (length_writeU16 _ _).symm
      have hstop : (out ++ [0] ++ [0]).length = out.length + [(0 : UInt8), 0].length := by
        simp
      show copyFromSlice (out ++ [0] ++ [0] ++ bytes) _ _ _ = _
      rw [hstop, List.append_assoc out]
      exact hcopy.trans (by rw [List.append_assoc]; rfl)

theorem writeMessages_eq (buf : Bytes) (messages : List (Message ParsedPayload)) :
    writeMessages toWriter buf messages =
      (buf ++ ·) <$> encodeElements (frame toWriter) messages := by
  induction messages generalizing buf with
  | nil => exact congrArg Except.ok (List.append_nil buf).symm
  | cons message messages ih =>
    rw [writeMessages, writeWithLenHeader_eq, encodeElements]
    cases frame toWriter message with
    | error e => rfl
    | ok bytes =>
      show writeMessages toWriter (buf ++ bytes) messages = _
      rw [ih]
      cases encodeElements (frame toWriter) messages with
      | error e => rfl
      | ok rest => exact congrArg Except.ok (List.append_assoc buf bytes rest)

theorem frame_eq_ok {message : Message ParsedPayload} {bytes : Bytes} :
    frame toWriter message = .ok bytes ↔ ∃ body, message.serialize toWriter = .ok body ∧
      ∃ len, tryIntoU16 body.length = .ok len ∧ writeU16 .BE len ++ body = bytes := by
  simp [frame, except_bind_eq_ok, pure, Except.pure]

theorem frame_writes_iff (message : Message ParsedPayload) :
    (∃ bytes, frame toWriter message = .ok bytes) ↔
      message.Fits ∧ message.encodedLen toWriter ≤ 65535 := by
  rw [← Message.writes_iff, ← tryIntoU16_ok_iff]
  constructor
  · rintro ⟨bytes, hbytes⟩
    obtain ⟨body, hbody, len, hlen, -⟩ := frame_eq_ok.mp hbytes
    exact ⟨⟨body, hbody⟩, len, Message.length_serialize hbody ▸ hlen⟩
  · rintro ⟨⟨body, hbody⟩, len, hlen⟩
    exact ⟨_, frame_eq_ok.mpr ⟨body, hbody, len, Message.length_serialize hbody ▸ hlen, rfl⟩⟩

theorem frame_ne_panic (message : Message ParsedPayload) :
    frame toWriter message ≠ .error .panic :=
  Rust.bind_ne_panic message.serialize_ne_panic fun _ _ =>
    Rust.bind_ne_panic (tryIntoU16_ne_panic _) fun _ _ => nofun

theorem arrayAt_append (front back : Bytes) {n : Nat} (field : U8Array n) :
    arrayAt (front ++ field.val ++ back) front.length (front.length + n) n = .ok field := by
  obtain ⟨field, rfl⟩ := field
  rw [arrayAt, Rust.slice_append]
  exact dif_pos rfl

theorem arrayAt_ne_panic (data : Bytes) (start stop n : Nat) :
    arrayAt data start stop n ≠ .error .panic := by
  refine Rust.bind_ne_panic Rust.okOr_ne_panic fun field _ => ?_
  split
  · exact nofun
  · exact nofun

/-- The reader walks along the frames, from any position where they start. -/
theorem readMessages_append (hjson : ∀ p, fromSlice (toWriter p) = some p)
    {messages : List (Message ParsedPayload)} {front frames : Bytes}
    (hframes : encodeElements (frame toWriter) messages = .ok frames)
    (read : List (Message ParsedPayload)) :
    readMessages fromSlice (front ++ frames) front.length read = .ok (read ++ messages) := by
  induction messages generalizing front frames read with
  | nil =>
    cases hframes
    rw [readMessages, if_neg (by simp), List.append_nil]
    rfl
  | cons message messages ih =>
    simp only [encodeElements, except_bind_eq_ok] at hframes
    obtain ⟨head, hhead, tail, htail, hframes⟩ := hframes
    cases hframes
    obtain ⟨body, hbody, len, hlen, rfl⟩ := frame_eq_ok.mp hhead
    have hfield := arrayAt_append front (body ++ tail)
      (⟨writeU16 .BE len, length_writeU16 .BE len⟩ : U8Array 2)
    have hcount : natBE (writeU16 .BE len) = body.length :=
      (natBE_writeU16 len).trans (tryIntoU16_eq_ok.mp hlen)
    have hslice := Rust.slice_append (front ++ writeU16 .BE len) body tail
    have hpos : (front ++ writeU16 .BE len).length = front.length + 2 := by
      rw [List.length_append, length_writeU16]
    rw [hpos] at hslice
    have hrest : readMessages fromSlice (front ++ writeU16 .BE len ++ body ++ tail)
        (front ++ writeU16 .BE len ++ body).length (read ++ [message]) =
        .ok (read ++ [message] ++ messages) := ih htail _
    rw [List.length_append, hpos] at hrest
    have hdata : front ++ (writeU16 .BE len ++ body ++ tail) =
        front ++ writeU16 .BE len ++ body ++ tail := by
      simp only [List.append_assoc]
    rw [readMessages, hdata, if_pos (by simp [length_writeU16])]
    rw [← List.append_assoc] at hfield
    rw [hfield]
    show (Rust.okOr LazerError.dataTooShort (Rust.slice _ _ (front.length + 2 +
      natBE (writeU16 .BE len))) >>= _) = _
    rw [hcount, hslice]
    show (Message.deserializeSlice fromSlice body >>= _) = _
    rw [Message.round_trip hjson hbody]
    show readMessages fromSlice _ (front.length + 2 + body.length) _ = _
    rw [hrest, List.append_assoc]
    rfl

theorem readMessages_ne_panic (data : Bytes) (pos : Nat) (read : List (Message ParsedPayload)) :
    readMessages fromSlice data pos read ≠ .error .panic := by
  induction pos, read using readMessages.induct data with
  | case1 pos read hpos ih =>
    rw [readMessages, if_pos hpos]
    exact Rust.bind_ne_panic (arrayAt_ne_panic _ _ _ _) fun field _ =>
      Rust.bind_ne_panic Rust.okOr_ne_panic fun messageData _ =>
        Rust.bind_ne_panic (Message.deserializeSlice_ne_panic messageData) fun message _ =>
          ih field message
  | case2 pos read hpos =>
    rw [readMessages, if_neg hpos]
    exact nofun

variable (toWriter) in
/-- Every message can be written, in at most as many bytes as its length header counts. -/
def BinaryWsUpdate.Fits (update : BinaryWsUpdate ParsedPayload) : Prop :=
  ∀ message ∈ update.messages, message.Fits ∧ message.encodedLen toWriter ≤ 65535

/-- What is in front of the frames. -/
def BinaryWsUpdate.header (update : BinaryWsUpdate ParsedPayload) : Bytes :=
  writeU32 .LE BINARY_UPDATE_FORMAT_MAGIC ++ writeU64 .BE update.subscriptionId

theorem map_append (x : Anyhow Bytes) (front back : Bytes) :
    (front ++ back ++ ·) <$> x = (front ++ ·) <$> (back ++ ·) <$> x := by
  cases x with
  | error e => rfl
  | ok bytes => exact congrArg Except.ok (List.append_assoc front back bytes)

theorem map_nil_append (x : Anyhow Bytes) : (([] : Bytes) ++ ·) <$> x = x := by
  cases x with
  | error e => rfl
  | ok bytes => rfl

variable (toWriter) in
/-- What is appended to the buffer. -/
def BinaryWsUpdate.encode (update : BinaryWsUpdate ParsedPayload) : Anyhow Bytes :=
  (update.header ++ ·) <$> encodeElements (frame toWriter) update.messages

theorem BinaryWsUpdate.serialize_eq (update : BinaryWsUpdate ParsedPayload) (buf : Bytes) :
    update.serialize toWriter buf = (buf ++ ·) <$> update.encode toWriter := by
  rw [BinaryWsUpdate.serialize, writeMessages_eq, BinaryWsUpdate.encode, ← map_append,
    BinaryWsUpdate.header, List.append_assoc buf]

theorem BinaryWsUpdate.serialize_nil (update : BinaryWsUpdate ParsedPayload) :
    update.serialize toWriter [] = update.encode toWriter :=
  (update.serialize_eq []).trans (map_nil_append _)

theorem BinaryWsUpdate.serialize_append (update : BinaryWsUpdate ParsedPayload) (buf : Bytes) :
    update.serialize toWriter buf = (buf ++ ·) <$> update.serialize toWriter [] := by
  rw [BinaryWsUpdate.serialize_nil]
  exact update.serialize_eq buf

theorem BinaryWsUpdate.encode_eq_ok {update : BinaryWsUpdate ParsedPayload} {bytes : Bytes} :
    update.encode toWriter = .ok bytes ↔ ∃ frames,
      encodeElements (frame toWriter) update.messages = .ok frames ∧
      update.header ++ frames = bytes := by
  rw [BinaryWsUpdate.encode]
  cases encodeElements (frame toWriter) update.messages with
  | error e => exact ⟨nofun, fun ⟨_, h, _⟩ => nomatch h⟩
  | ok frames =>
    constructor
    · intro h
      exact ⟨frames, rfl, Except.ok.inj h⟩
    · rintro ⟨_, h, hbytes⟩
      cases h
      exact congrArg Except.ok hbytes

theorem BinaryWsUpdate.round_trip (hjson : ∀ p, fromSlice (toWriter p) = some p)
    {update : BinaryWsUpdate ParsedPayload} {bytes : Bytes}
    (h : update.encode toWriter = .ok bytes) :
    BinaryWsUpdate.deserializeSlice fromSlice bytes = .ok update := by
  obtain ⟨frames, hframes, rfl⟩ := BinaryWsUpdate.encode_eq_ok.mp h
  have hmagic : arrayAt (update.header ++ frames) 0 (0 + 4) 4 = .ok
      (⟨writeU32 .LE BINARY_UPDATE_FORMAT_MAGIC, length_writeU32 .LE _⟩ : U8Array 4) := by
    rw [BinaryWsUpdate.header, List.append_assoc]
    exact arrayAt_append [] _ ⟨writeU32 .LE BINARY_UPDATE_FORMAT_MAGIC, length_writeU32 .LE _⟩
  have hid : arrayAt (update.header ++ frames) 4 (4 + 8) 8 = .ok
      (⟨writeU64 .BE update.subscriptionId, length_writeU64 .BE _⟩ : U8Array 8) := by
    have happend := arrayAt_append (writeU32 .LE BINARY_UPDATE_FORMAT_MAGIC) frames
      (⟨writeU64 .BE update.subscriptionId, length_writeU64 .BE _⟩ : U8Array 8)
    rw [length_writeU32] at happend
    exact happend
  have hmessages : readMessages fromSlice (update.header ++ frames) update.header.length [] =
      .ok ([] ++ update.messages) := readMessages_append hjson hframes []
  have hlength : update.header.length = 12 := by
    rw [BinaryWsUpdate.header, List.length_append, length_writeU32, length_writeU64]
  have hvalue : BitVec.ofNat 64 (natBE (writeU64 .BE update.subscriptionId)) =
      update.subscriptionId := by
    rw [natBE_writeU64, BitVec.ofNat_toNat, BitVec.setWidth_eq]
  rw [hlength, List.nil_append] at hmessages
  rw [BinaryWsUpdate.deserializeSlice, hmagic, except_ok_bind, ofNat_natLE_writeU32,
    if_neg (by simp), hid, hmessages]
  show Except.ok (BinaryWsUpdate.mk (BitVec.ofNat 64 (natBE (writeU64 .BE update.subscriptionId)))
    update.messages) = _
  rw [hvalue]

theorem BinaryWsUpdate.writes_iff (update : BinaryWsUpdate ParsedPayload) :
    (∃ bytes, update.encode toWriter = .ok bytes) ↔ update.Fits toWriter := by
  have hframes := @Rust.encodeElements_writes_iff _ _ (frame toWriter) update.messages
  have hfits : (∀ message ∈ update.messages, ∃ bytes, frame toWriter message = .ok bytes) ↔
      update.Fits toWriter := forall₂_congr fun message _ => frame_writes_iff message
  rw [← hfits, ← hframes]
  constructor
  · rintro ⟨bytes, hbytes⟩
    obtain ⟨frames, hframes, -⟩ := BinaryWsUpdate.encode_eq_ok.mp hbytes
    exact ⟨frames, hframes⟩
  · rintro ⟨frames, hframes⟩
    exact ⟨_, BinaryWsUpdate.encode_eq_ok.mpr ⟨frames, hframes, rfl⟩⟩

theorem BinaryWsUpdate.encode_ne_panic (update : BinaryWsUpdate ParsedPayload) :
    update.encode toWriter ≠ .error .panic :=
  map_ne_panic _ (Rust.encodeElements_ne_panic frame_ne_panic _)

theorem BinaryWsUpdate.deserializeSlice_ne_panic (data : Bytes) :
    BinaryWsUpdate.deserializeSlice fromSlice data ≠ .error .panic := by
  refine Rust.bind_ne_panic (arrayAt_ne_panic _ _ _ _) fun field _ => ?_
  dsimp only
  split
  · exact nofun
  · exact Rust.bind_ne_panic (arrayAt_ne_panic _ _ _ _) fun id _ =>
      Rust.bind_ne_panic (readMessages_ne_panic _ _ _) fun _ _ => nofun

/-- No binary update starts like a payload. -/
theorem BinaryWsUpdate.payload_rejected {B : ByteOrder} {data : PayloadData} {bytes : Bytes}
    (hdata : data.serialize B = .ok bytes) : BinaryWsUpdate.deserializeSlice fromSlice bytes =
      .error (.error .binaryUpdateFormatMagicMismatch) := by
  simp only [PayloadData.serialize, except_bind_eq_ok] at hdata
  obtain ⟨numFeeds, -, feeds, -, hbytes⟩ := hdata
  cases hbytes
  simp only [List.append_assoc]
  have hmagic := arrayAt_append [] (writeU64 B data.timestampUs ++ ([data.channelId] ++
    ([numFeeds] ++ feeds))) (⟨writeU32 B PAYLOAD_FORMAT_MAGIC, length_writeU32 B _⟩ : U8Array 4)
  have hne : BitVec.ofNat 32 (natLE (writeU32 B PAYLOAD_FORMAT_MAGIC)) ≠
      BINARY_UPDATE_FORMAT_MAGIC := by
    cases B with
    | BE => decide
    | LE => decide
  rw [List.nil_append] at hmagic
  rw [BinaryWsUpdate.deserializeSlice]
  show (arrayAt _ ([] : Bytes).length (([] : Bytes).length + 4) 4 >>= _) = _
  rw [hmagic, except_ok_bind, if_pos hne]
  rfl

/-! ## All formats -/

variable (toWriter fromSlice) in
/-- Every format of Lazer is exact, binary updates in any buffer they are appended to, and a
payload is not read in the other byte order, nor as a binary update. -/
structure FormatsExact : Prop where
  payload : ∀ B, ExactFormat PayloadData.Fits (PayloadData.serialize B)
    (PayloadData.deserializeSlice B)
  evm : ExactFormat (fun m => PayloadFits m.payload) EvmMessage.serialize
    EvmMessage.deserializeSlice
  solana : ExactFormat (fun m => PayloadFits m.payload) SolanaMessage.serialize
    SolanaMessage.deserializeSlice
  leEcdsa : ExactFormat (fun m => PayloadFits m.payload) LeEcdsaMessage.serialize
    LeEcdsaMessage.deserializeSlice
  leUnsigned : ExactFormat (fun m => PayloadFits m.payload) LeUnsignedMessage.serialize
    LeUnsignedMessage.deserializeSlice
  update : ExactFormat (BinaryWsUpdate.Fits toWriter)
    (fun update : BinaryWsUpdate ParsedPayload => update.serialize toWriter [])
    (BinaryWsUpdate.deserializeSlice fromSlice)
  appended : ∀ (update : BinaryWsUpdate ParsedPayload) buf,
    update.serialize toWriter buf = (buf ++ ·) <$> update.serialize toWriter []
  other_order : ∀ (B B' : ByteOrder) (data : PayloadData) bytes, B' ≠ B →
    data.serialize B = .ok bytes → ∀ read, PayloadData.deserializeSlice B' bytes ≠ .ok read
  not_update : ∀ (B : ByteOrder) (data : PayloadData) bytes, data.serialize B = .ok bytes →
    ∀ read, BinaryWsUpdate.deserializeSlice fromSlice bytes ≠ .ok read

end

theorem lazer_formats_exact {ParsedPayload : Type} (toWriter : ParsedPayload → Bytes)
    (fromSlice : Bytes → Option ParsedPayload) (hjson : ∀ p, fromSlice (toWriter p) = some p) :
    FormatsExact toWriter fromSlice where
  payload := PayloadData.exact
  evm := EvmMessage.exact
  solana := SolanaMessage.exact
  leEcdsa := LeEcdsaMessage.exact
  leUnsigned := LeUnsignedMessage.exact
  update := {
    round_trip := fun update _ h => BinaryWsUpdate.round_trip hjson (update.serialize_nil ▸ h)
    writes_iff := fun update => update.serialize_nil ▸ update.writes_iff
    write_ne_panic := fun update => update.serialize_nil ▸ update.encode_ne_panic
    read_ne_panic := BinaryWsUpdate.deserializeSlice_ne_panic }
  appended := BinaryWsUpdate.serialize_append
  other_order B B' data bytes h hdata read := by
    rw [PayloadData.other_order h hdata]
    exact nofun
  not_update B data bytes hdata read := by
    rw [BinaryWsUpdate.payload_rejected hdata]
    exact nofun

/-! ## Payloads in JSON

The type has the payloads without price feeds, each of which is its timestamp. -/

/-- `{"timestampUs":"`, and what follows the timestamp. -/
def exHead : List Char := "\x7b\"timestampUs\":\"".toList
def exTail : List Char := "\",\"priceFeeds\":[]\x7d".toList

def exText (timestampUs : BitVec 64) : List Char :=
  exHead ++ (Nat.toDigits 10 timestampUs.toNat ++ exTail)

def exToWriter (timestampUs : BitVec 64) : Bytes :=
  (exText timestampUs).map fun c => UInt8.ofNat c.toNat

def exTimestamp (text : List Char) : BitVec 64 :=
  BitVec.ofNat 64 (Nat.ofDigitChars 10 ((text.drop exHead.length).takeWhile Char.isDigit) 0)

def exFromSlice (data : Bytes) : Option (BitVec 64) :=
  let timestampUs := exTimestamp (data.map fun b => Char.ofNat b.toNat)
  if exToWriter timestampUs = data then some timestampUs else none

/-- A timestamp is read from its text. -/
theorem exFromSlice_exToWriter (timestampUs : BitVec 64) :
    exFromSlice (exToWriter timestampUs) = some timestampUs := by
  have hdigits : ∀ c ∈ Nat.toDigits 10 timestampUs.toNat, c.isDigit := fun c hc =>
    Nat.isDigit_of_mem_toDigits (by decide) (by decide) hc
  have hascii : ∀ c ∈ exText timestampUs, c.toNat < 256 := by
    have hhead : exHead.all (·.toNat < 256) = true := by rfl
    have htail : exTail.all (·.toNat < 256) = true := by rfl
    simp only [List.all_eq_true, decide_eq_true_eq] at hhead htail
    refine List.forall_mem_append.mpr ⟨hhead, List.forall_mem_append.mpr ⟨?_, htail⟩⟩
    intro c hc
    have hle : c.val ≤ 57 := of_decide_eq_true (Bool.and_eq_true_iff.mp (hdigits c hc)).2
    exact (UInt32.le_iff_toNat_le.mp hle).trans_lt (by decide)
  have htext : (exToWriter timestampUs).map (fun b => Char.ofNat b.toNat)
      = exText timestampUs := by
    rw [exToWriter, List.map_map]
    refine (List.map_congr_left fun c hc => ?_).trans (List.map_id _)
    show Char.ofNat (UInt8.ofNat c.toNat).toNat = c
    rw [UInt8.toNat_ofNat', Nat.mod_eq_of_lt (hascii c hc), Char.ofNat_toNat]
  have hread : exTimestamp (exText timestampUs) = timestampUs := by
    rw [exTimestamp, exText, List.drop_left, List.takeWhile_append_of_pos hdigits,
      show exTail.takeWhile Char.isDigit = [] from rfl, List.append_nil,
      Nat.ofDigitChars_toDigits (by decide) (by decide), BitVec.ofNat_toNat, BitVec.setWidth_eq]
  unfold exFromSlice
  rw [htext, hread]
  exact if_pos rfl

theorem lazer_formats_exact_ex : FormatsExact exToWriter exFromSlice :=
  lazer_formats_exact exToWriter exFromSlice exFromSlice_exToWriter

end PythCrosschain.Lazer
