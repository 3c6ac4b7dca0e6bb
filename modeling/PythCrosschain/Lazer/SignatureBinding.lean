import PythCrosschain.Lazer.Signature

/-!
# Lazer on Solana: what a verified message is bound to

A message that `verify_message` returns is the one that the entry of the native program
covers, at the positions of the format inside of the message data, and its key is that of a
trusted signer (`BoundTo`).

The magic is read before the length of the message data is known. So the function panics
where the entry covers message data of less than four bytes (`short_message_panics`), and
only there: `signature_binding`.
-/

namespace PythCrosschain.Lazer

open Solana

variable {storage : Storage} {sv : InstructionsSysvar} {now : Option I64} {messageData : Bytes}
  {edIndex : U16} {sigIndex : UInt8} {offsets : Ed25519SignatureOffsets}

/-! ## The entry -/

/-- The entry of an index, in an instruction of the native program before the current one. -/
structure EntryOf (sv : InstructionsSysvar) (edIndex : U16) (sigIndex : UInt8)
    (instruction : Instruction) (offsets : Ed25519SignatureOffsets) : Prop where
  precedes : edIndex.toNat < sv.currentIndex.toNat
  found : sv.instructions[edIndex.toNat]? = some instruction
  programId : instruction.programId = ED25519_PROGRAM_ID
  counted : ∃ count, instruction.data[0]? = some count ∧ sigIndex < count
  header : ED25519_PROGRAM_INPUT_HEADER_LEN ≤ instruction.data.length
  whole : (instruction.data.length - ED25519_PROGRAM_INPUT_HEADER_LEN) % ENTRY_LEN = 0
  small : (instruction.data.length - ED25519_PROGRAM_INPUT_HEADER_LEN) / ENTRY_LEN < 2 ^ 8
  inside : sigIndex.toNat <
    (instruction.data.length - ED25519_PROGRAM_INPUT_HEADER_LEN) / ENTRY_LEN
  entry : entryAt instruction.data sigIndex.toNat = offsets

/-- The entry covers the message data, with its magic before the signature. -/
structure Covers (sv : InstructionsSysvar) (offsets : Ed25519SignatureOffsets)
    (messageData : Bytes) : Prop where
  magic : MAGIC_LEN.toNat ≤ offsets.signatureOffset.toNat
  fits : offsets.messageDataOffset.toNat + offsets.messageDataSize.toNat < 2 ^ 16
  covered : ∃ current, sv.instructions[sv.currentIndex.toNat]? = some current ∧
    Rust.slice current.data (offsets.signatureOffset.toNat - MAGIC_LEN.toNat)
      (offsets.messageDataOffset.toNat + offsets.messageDataSize.toNat) = some messageData

theorem loadOffsets_eq_ok :
    loadOffsets sv edIndex sigIndex = .ok offsets ↔
      ∃ instruction, EntryOf sv edIndex sigIndex instruction offsets := by
  simp only [loadOffsets, tryCastSlice, except_bind_eq_ok, Rust.require_eq_ok, Rust.okOr_eq_ok,
    Rust.unwrap_eq_ok, exists_const, ge_iff_le, BitVec.not_le, UInt8.not_le, not_le, not_lt,
    ne_eq, not_not]
  constructor
  · rintro ⟨hprecedes, instruction, hinstruction, hprogram, hheader, count, hcount, hlt, args,
      hargs, hsmall, hinside, hentry⟩
    split at hargs
    · next hwhole =>
      cases hargs
      rw [List.length_map, List.length_range] at hsmall hinside
      rw [List.getElem?_map, List.getElem?_range hinside] at hentry
      exact ⟨instruction, hprecedes, hinstruction, hprogram, ⟨count, hcount, hlt⟩, hheader, hwhole,
        hsmall, hinside, Option.some.inj hentry⟩
    · cases hargs
  · rintro ⟨instruction, hprecedes, hinstruction, hprogram, ⟨count, hcount, hlt⟩, hheader, hwhole,
      hsmall, hinside, hentry⟩
    refine ⟨hprecedes, instruction, hinstruction, hprogram, hheader, count, hcount, hlt, _,
      if_pos hwhole, ?_, ?_, ?_⟩
    · rwa [List.length_map, List.length_range]
    · rwa [List.length_map, List.length_range]
    · rw [List.getElem?_map, List.getElem?_range hinside, ← hentry]
      rfl

theorem loadOffsets_ne_panic : loadOffsets sv edIndex sigIndex ≠ .error .panic := by
  refine Rust.bind_ne_panic Rust.require_ne_panic fun _ _ => ?_
  refine Rust.bind_ne_panic Rust.okOr_ne_panic fun instruction _ => ?_
  refine Rust.bind_ne_panic Rust.require_ne_panic fun _ _ => ?_
  refine Rust.bind_ne_panic Rust.require_ne_panic fun _ hheader => ?_
  have hlen : 2 ≤ instruction.data.length := Nat.le_of_not_lt (Rust.require_eq_ok.mp hheader)
  refine Rust.bind_ne_panic (Rust.unwrap_ne_panic (List.getElem?_eq_getElem (by omega)))
    fun _ _ => ?_
  refine Rust.bind_ne_panic Rust.require_ne_panic fun _ _ => ?_
  refine Rust.bind_ne_panic Rust.okOr_ne_panic fun args _ => ?_
  refine Rust.bind_ne_panic Rust.require_ne_panic fun _ _ => ?_
  refine Rust.bind_ne_panic Rust.require_ne_panic fun _ hinside => ?_
  have hlt : sigIndex.toNat < args.length := Nat.lt_of_not_le (Rust.require_eq_ok.mp hinside)
  exact Rust.unwrap_ne_panic (List.getElem?_eq_getElem hlt)

theorem coverMessage_eq_ok {messageOffset : U16} :
    coverMessage sv offsets messageData = .ok messageOffset ↔
      Covers sv offsets messageData ∧
        messageOffset.toNat = offsets.signatureOffset.toNat - MAGIC_LEN.toNat := by
  simp only [coverMessage, except_bind_eq_ok, Rust.require_eq_ok, Rust.okOr_eq_ok,
    Rust.pure_eq_ok, exists_const, ne_eq, not_not, Rust.checkedSub_eq_some,
    Rust.checkedAdd_eq_some]
  constructor
  · rintro ⟨offset, ⟨hmagic, hoffset⟩, current, hcurrent, stop, hstop, message, hmessage, rfl, rfl⟩
    rw [hoffset, hstop] at hmessage
    exact ⟨⟨hmagic, hstop ▸ stop.isLt, current, hcurrent, hmessage⟩, hoffset⟩
  · rintro ⟨⟨hmagic, hfits, current, hcurrent, hmessage⟩, hoffset⟩
    refine ⟨messageOffset, ⟨hmagic, hoffset⟩, current, hcurrent,
      BitVec.ofNat 16 (offsets.messageDataOffset.toNat + offsets.messageDataSize.toNat), ?_,
      messageData, ?_, rfl, rfl⟩
    · rw [BitVec.toNat_ofNat, Nat.mod_eq_of_lt hfits]
    · rw [hoffset, BitVec.toNat_ofNat, Nat.mod_eq_of_lt hfits]
      exact hmessage

theorem coverMessage_ne_panic : coverMessage sv offsets messageData ≠ .error .panic := by
  refine Rust.bind_ne_panic Rust.okOr_ne_panic fun _ _ => ?_
  refine Rust.bind_ne_panic Rust.okOr_ne_panic fun _ _ => ?_
  refine Rust.bind_ne_panic Rust.okOr_ne_panic fun _ _ => ?_
  refine Rust.bind_ne_panic Rust.okOr_ne_panic fun _ _ => ?_
  refine Rust.bind_ne_panic Rust.require_ne_panic fun _ _ => ?_
  exact nofun

theorem Covers.length (h : Covers sv offsets messageData) :
    messageData.length = offsets.messageDataOffset.toNat + offsets.messageDataSize.toNat -
      (offsets.signatureOffset.toNat - MAGIC_LEN.toNat) := by
  obtain ⟨-, -, current, -, hslice⟩ := h
  exact Rust.length_slice hslice

/-! ## The positions of the format -/

/-- The bytes of the magic. -/
def MAGIC : Bytes := [185, 1, 26, 130]

/-- The message data have the parts of the format, and nothing after them. -/
def Format (signature : Bytes) (m : VerifiedMessage) (messageData : Bytes) : Prop :=
  signature.length = SIGNATURE_LEN.toNat ∧ m.payload.length < 2 ^ 16 ∧
    messageData =
      MAGIC ++ signature ++ m.publicKey.val ++ bytesLE 2 m.payload.length ++ m.payload

/-- The entry says that the parts of the message data, which start at `start` in the current
instruction, are the signature, the key and the message. -/
structure PointsTo (sv : InstructionsSysvar) (offsets : Ed25519SignatureOffsets) (start : Nat)
    (m : VerifiedMessage) : Prop where
  signature : offsets.signatureOffset.toNat = start + 4
  publicKey : offsets.publicKeyOffset.toNat = start + 68
  message : offsets.messageDataOffset.toNat = start + 102
  size : offsets.messageDataSize.toNat = m.payload.length
  signatureIndex : offsets.signatureInstructionIndex = sv.currentIndex
  publicKeyIndex : offsets.publicKeyInstructionIndex = sv.currentIndex
  messageIndex : offsets.messageInstructionIndex = sv.currentIndex

/-- The key is that of an initialized signer that has not expired. -/
def Trusted (storage : Storage) (now : Option I64) (publicKey : Pubkey) : Prop :=
  ∃ signers, (storage.initializedTrustedSigners : SigResult _) = .ok signers ∧
    ∃ s ∈ signers, s.pubkey = publicKey ∧ ∃ t, now = some t ∧ s.expiresAt.toInt > t.toInt

theorem eq_of_natLE {bs : Bytes} {k n : Nat} (hlen : bs.length = k) (h : natLE bs = n) :
    bs = bytesLE k n := by
  rw [← h, ← hlen, bytesLE_natLE]

theorem readMessage_ok {messageOffset : U16} {m : VerifiedMessage}
    (hcovers : Covers sv offsets messageData)
    (hoffset : messageOffset.toNat = offsets.signatureOffset.toNat - MAGIC_LEN.toNat)
    (h : readMessage storage now sv.currentIndex offsets messageOffset messageData = .ok m) :
    (∃ signature, Format signature m messageData) ∧
      PointsTo sv offsets messageOffset.toNat m ∧ Trusted storage now m.publicKey := by
  have hsignature : SIGNATURE_LEN.toNat = 64 := rfl
  have hpubkey : PUBKEY_LEN.toNat = 32 := rfl
  have hmagic : MAGIC_LEN.toNat = 4 := rfl
  have hsize : MESSAGE_SIZE_LEN.toNat = 2 := rfl
  have hlength := hcovers.length
  have hge := hcovers.magic
  simp only [readMessage, except_bind_eq_ok, Rust.require_eq_ok, Rust.okOr_eq_ok,
    Rust.unwrap_eq_ok, Rust.pure_eq_ok, exists_const, ne_eq, not_not, Rust.checkedSub_eq_some,
    Rust.checkedAdd_eq_some, not_or] at h
  obtain ⟨magic, hmagicSlice, hmagicNat, keyOffset, hkeyOffset, hkeyEq, sizeOffset, hsizeOffset,
    dataOffset, hdataOffset, hdataEq, sizeStart, ⟨-, hsizeStart⟩, sizeEnd, ⟨-, hsizeEnd⟩, size,
    hsizeSlice, hsizeNat, ⟨hsigIndex, hkeyIndex, hmsgIndex⟩, keyStart, ⟨-, hkeyStart⟩, key,
    hkeySlice, t, hnow, signers, hsigners, htrusted, payloadStart, ⟨-, hpayloadStart⟩, payload,
    hpayloadSlice, publicKey, hpublicKey, rfl⟩ := h
  have hdataNat : offsets.messageDataOffset.toNat = dataOffset.toNat := congrArg _ hdataEq
  have hkeyStart : keyStart.toNat = 68 := by omega
  have hsizeStart : sizeStart.toNat = 100 := by omega
  have hsizeEnd : sizeEnd.toNat = 102 := by omega
  have hpayloadStart : payloadStart.toNat = 102 := by omega
  have hlength : messageData.length = 102 + natLE size := by omega
  rw [hkeyStart] at hkeySlice
  rw [hsizeStart, hsizeEnd] at hsizeSlice
  rw [hpayloadStart, ← hlength] at hpayloadSlice
  obtain ⟨signature, hsignatureSlice⟩ : ∃ signature, Rust.slice messageData 4 68 = some signature :=
    ⟨_, Rust.slice_of_le (by decide) (by omega)⟩
  have hpayload : payload.length = natLE size := by
    rw [Rust.length_slice hpayloadSlice, hlength, Nat.add_sub_cancel_left]
  have hkeyVal : publicKey.val = key := by
    split at hpublicKey
    · cases hpublicKey
      rfl
    · cases hpublicKey
  have hwhole : messageData = magic ++ signature ++ key ++ size ++ payload := by
    have hconcat := Rust.slice_concat (Rust.slice_concat (Rust.slice_concat (Rust.slice_concat
      hmagicSlice hsignatureSlice) hkeySlice) hsizeSlice) hpayloadSlice
    rw [Rust.slice_all] at hconcat
    exact Option.some.inj hconcat
  have hmagicBytes : magic = MAGIC := by
    rw [eq_of_natLE (Rust.length_slice hmagicSlice) hmagicNat]
    decide
  have hsizeBytes : size = bytesLE 2 payload.length :=
    eq_of_natLE (Rust.length_slice hsizeSlice) hpayload.symm
  have hfits : payload.length < 2 ^ 16 := by
    rw [hpayload, ← hsizeNat]
    exact offsets.messageDataSize.isLt
  refine ⟨⟨signature, Rust.length_slice hsignatureSlice, hfits, ?_⟩, ⟨by omega, ?_, by omega, ?_,
    hsigIndex, hkeyIndex, hmsgIndex⟩, signers, hsigners, ?_⟩
  · rw [hwhole, hmagicBytes, hsizeBytes, hkeyVal]
  · rw [hkeyEq, hkeyOffset]
    omega
  · exact hsizeNat.trans hpayload.symm
  · obtain ⟨s, hs, htest⟩ := List.any_eq_true.mp htrusted
    obtain ⟨hkey, hexpires⟩ := of_decide_eq_true htest
    exact ⟨s, hs, Subtype.ext (hkey.trans hkeyVal.symm), t, hnow, hexpires⟩

/-- Where the message data have room for the magic, nothing panics. -/
theorem readMessage_ne_panic {messageOffset : U16} (hstorage : storage.Reached)
    (hcovers : Covers sv offsets messageData)
    (hoffset : messageOffset.toNat = offsets.signatureOffset.toNat - MAGIC_LEN.toNat)
    (hlen : 4 ≤ messageData.length) :
    readMessage storage now sv.currentIndex offsets messageOffset messageData ≠
      .error .panic := by
  have hsignature : SIGNATURE_LEN.toNat = 64 := rfl
  have hpubkey : PUBKEY_LEN.toNat = 32 := rfl
  have hmagic : MAGIC_LEN.toNat = 4 := rfl
  have hsize : MESSAGE_SIZE_LEN.toNat = 2 := rfl
  have hlength := hcovers.length
  have hge := hcovers.magic
  refine Rust.bind_ne_panic (Rust.unwrap_ne_panic (Rust.slice_of_le (Nat.zero_le _) hlen))
    fun _ _ => ?_
  refine Rust.bind_ne_panic Rust.require_ne_panic fun _ _ => ?_
  refine Rust.bind_ne_panic Rust.okOr_ne_panic fun keyOffset hkeyOffset => ?_
  have hkeyOffset := Rust.checkedAdd_eq_some.mp (Rust.okOr_eq_ok.mp hkeyOffset)
  refine Rust.bind_ne_panic Rust.require_ne_panic fun _ _ => ?_
  refine Rust.bind_ne_panic Rust.okOr_ne_panic fun sizeOffset hsizeOffset => ?_
  have hsizeOffset := Rust.checkedAdd_eq_some.mp (Rust.okOr_eq_ok.mp hsizeOffset)
  refine Rust.bind_ne_panic Rust.okOr_ne_panic fun dataOffset hdataOffset => ?_
  have hdataOffset := Rust.checkedAdd_eq_some.mp (Rust.okOr_eq_ok.mp hdataOffset)
  refine Rust.bind_ne_panic Rust.require_ne_panic fun _ hdataEq => ?_
  have hdataNat : offsets.messageDataOffset.toNat = dataOffset.toNat :=
    congrArg _ (not_not.mp (Rust.require_eq_ok.mp hdataEq))
  refine Rust.bind_ne_panic (Rust.unwrap_ne_panic (Rust.checkedSub_of_le (by omega)))
    fun sizeStart hsizeStart => ?_
  have hsizeStart := (Rust.checkedSub_eq_some.mp (Rust.unwrap_eq_ok.mp hsizeStart)).2
  refine Rust.bind_ne_panic (Rust.unwrap_ne_panic (Rust.checkedSub_of_le (by omega)))
    fun sizeEnd hsizeEnd => ?_
  have hsizeEnd := (Rust.checkedSub_eq_some.mp (Rust.unwrap_eq_ok.mp hsizeEnd)).2
  refine Rust.bind_ne_panic (Rust.unwrap_ne_panic (Rust.slice_of_le (by omega) (by omega)))
    fun size hsizeSlice => ?_
  refine Rust.bind_ne_panic Rust.require_ne_panic fun _ hsizeNat => ?_
  have hsizeNat := not_not.mp (Rust.require_eq_ok.mp hsizeNat)
  refine Rust.bind_ne_panic Rust.require_ne_panic fun _ _ => ?_
  refine Rust.bind_ne_panic (Rust.unwrap_ne_panic (Rust.checkedSub_of_le (by omega)))
    fun keyStart hkeyStart => ?_
  have hkeyStart := (Rust.checkedSub_eq_some.mp (Rust.unwrap_eq_ok.mp hkeyStart)).2
  refine Rust.bind_ne_panic (Rust.unwrap_ne_panic (Rust.slice_of_le (by omega) (by omega)))
    fun key hkeySlice => ?_
  have hkeyLength := Rust.length_slice (Rust.unwrap_eq_ok.mp hkeySlice)
  refine Rust.bind_ne_panic Rust.okOr_ne_panic fun _ _ => ?_
  obtain ⟨signers, hsigners⟩ := hstorage.signers
  refine Rust.bind_ne_panic (hsigners ▸ nofun) fun _ _ => ?_
  refine Rust.bind_ne_panic Rust.require_ne_panic fun _ _ => ?_
  refine Rust.bind_ne_panic (Rust.unwrap_ne_panic (Rust.checkedSub_of_le (by omega)))
    fun payloadStart hpayloadStart => ?_
  have hpayloadStart := (Rust.checkedSub_eq_some.mp (Rust.unwrap_eq_ok.mp hpayloadStart)).2
  refine Rust.bind_ne_panic (Rust.unwrap_ne_panic (Rust.slice_of_le (by omega) (by omega)))
    fun payload _ => ?_
  refine Rust.bind_ne_panic (Rust.unwrap_ne_panic (dif_pos (by omega))) fun _ _ => ?_
  exact nofun

/-! ## The binding -/

variable {verify : Bytes → Bytes → Bytes → Bool} {m : VerifiedMessage}

/-- A verified message is bound to the entry of its index: the entry covers a signature, the
key and the message at their positions in the message data, which lie in the current
instruction; the signature verifies, and the key is that of a trusted signer. -/
def BoundTo (verify : Bytes → Bytes → Bytes → Bool) (storage : Storage) (sv : InstructionsSysvar)
    (now : Option I64) (messageData : Bytes) (edIndex : U16) (sigIndex : UInt8)
    (m : VerifiedMessage) : Prop :=
  Trusted storage now m.publicKey ∧ ∃ instruction current offsets signature start,
    EntryOf sv edIndex sigIndex instruction offsets ∧
    sv.instructions[sv.currentIndex.toNat]? = some current ∧
    Rust.slice current.data start (start + messageData.length) = some messageData ∧
    Format signature m messageData ∧ PointsTo sv offsets start m ∧
    verify signature m.publicKey.val m.payload = true

/-- The parts of the message data, as slices of it. -/
theorem Format.slices {signature : Bytes} (h : Format signature m messageData) :
    Rust.slice messageData 4 68 = some signature ∧
      Rust.slice messageData 68 100 = some m.publicKey.val ∧
      Rust.slice messageData 102 (102 + m.payload.length) = some m.payload := by
  obtain ⟨hsignature, -, rfl⟩ := h
  have hsignature : signature.length = 64 := hsignature
  have hkey := m.publicKey.property
  refine ⟨?_, ?_, ?_⟩
  · have hslice := Rust.slice_append MAGIC signature
      (m.publicKey.val ++ bytesLE 2 m.payload.length ++ m.payload)
    rw [hsignature] at hslice
    simp only [List.append_assoc] at hslice ⊢
    exact hslice
  · have hslice := Rust.slice_append (MAGIC ++ signature) m.publicKey.val
      (bytesLE 2 m.payload.length ++ m.payload)
    rw [hkey, List.length_append, hsignature] at hslice
    simp only [List.append_assoc] at hslice ⊢
    exact hslice
  · have hslice := Rust.slice_append
      (MAGIC ++ signature ++ m.publicKey.val ++ bytesLE 2 m.payload.length) m.payload []
    rw [List.append_nil, List.length_append, List.length_append, List.length_append, hsignature,
      hkey, length_bytesLE] at hslice
    exact hslice

/-- What the native program reads from the current instruction. -/
theorem getDataSlice_current {own : Bytes} {current : Instruction} {offset : U16} {size : Nat}
    (hcurrent : sv.instructions[sv.currentIndex.toNat]? = some current) :
    getDataSlice sv own sv.currentIndex offset size =
      Rust.slice current.data offset.toNat (offset.toNat + size) := by
  -- The last index of a `u16` is that of no instruction.
  have hlt : sv.currentIndex.toNat < sv.instructions.length := by
    by_contra hle
    rw [List.getElem?_eq_none (Nat.le_of_not_lt hle)] at hcurrent
    exact absurd hcurrent nofun
  have hne : sv.currentIndex ≠ BitVec.allOnes 16 := by
    intro h
    have hsize := sv.size
    rw [h] at hlt
    have hones : (BitVec.allOnes 16).toNat = 65535 := by decide
    omega
  rw [getDataSlice, if_neg hne, hcurrent]
  rfl

theorem bound_of_ok (hnative : NativeSucceeded verify sv)
    (h : verifyMessage storage (some sv) now messageData edIndex sigIndex = .ok m) :
    BoundTo verify storage sv now messageData edIndex sigIndex m := by
  simp only [verifyMessage, except_bind_eq_ok, Rust.okOr_eq_ok, Option.some.injEq,
    exists_eq_left'] at h
  obtain ⟨offsets, hoffsets, messageOffset, hcover, hread⟩ := h
  obtain ⟨instruction, hentry⟩ := loadOffsets_eq_ok.mp hoffsets
  obtain ⟨hcovers, hoffset⟩ := coverMessage_eq_ok.mp hcover
  obtain ⟨⟨signature, hformat⟩, hpoints, htrusted⟩ := readMessage_ok hcovers hoffset hread
  obtain ⟨current, hcurrent, hslice⟩ := hcovers.covered
  have hstop : offsets.messageDataOffset.toNat + offsets.messageDataSize.toNat =
      messageOffset.toNat + messageData.length := by
    have hlength := hcovers.length
    have hmessage := hpoints.message
    omega
  rw [← hoffset, hstop] at hslice
  refine ⟨htrusted, instruction, current, offsets, signature, messageOffset.toNat, hentry,
    hcurrent, hslice, hformat, hpoints, ?_⟩
  -- What the native program verified are these parts.
  obtain ⟨count, hcount, hlt⟩ := hentry.counted
  obtain ⟨-, hverifies⟩ := hnative edIndex.toNat hentry.precedes instruction hentry.found
    hentry.programId count hcount
  obtain ⟨signature', key', message', hsignature', hkey', hmessage', hverify⟩ :=
    hverifies sigIndex.toNat hlt
  rw [hentry.entry] at hsignature' hkey' hmessage'
  rw [hpoints.signatureIndex, getDataSlice_current hcurrent, hpoints.signature] at hsignature'
  rw [hpoints.publicKeyIndex, getDataSlice_current hcurrent, hpoints.publicKey] at hkey'
  rw [hpoints.messageIndex, getDataSlice_current hcurrent, hpoints.message, hpoints.size]
    at hmessage'
  obtain ⟨hsignature, hkey, hpayload⟩ := hformat.slices
  have hsignature := Rust.slice_slice hslice hsignature
  have hkey := Rust.slice_slice hslice hkey
  have hpayload := Rust.slice_slice hslice hpayload
  rw [Option.some.inj (hsignature.symm.trans hsignature'),
    Option.some.inj (hkey.symm.trans hkey'),
    Option.some.inj (hpayload.symm.trans (by rw [← Nat.add_assoc]; exact hmessage'))]
  exact hverify

/-- `verify_message` does not panic, and binds what it returns. -/
structure BindsSignature (verify : Bytes → Bytes → Bytes → Bool) (storage : Storage)
    (sv : InstructionsSysvar) (now : Option I64) (messageData : Bytes) (edIndex : U16)
    (sigIndex : UInt8) : Prop where
  no_panic : verifyMessage storage (some sv) now messageData edIndex sigIndex ≠ .error .panic
  bound : ∀ m, verifyMessage storage (some sv) now messageData edIndex sigIndex = .ok m →
    BoundTo verify storage sv now messageData edIndex sigIndex m

theorem no_panic_iff (hstorage : storage.Reached) :
    verifyMessage storage (some sv) now messageData edIndex sigIndex ≠ .error .panic ↔
      ∀ instruction offsets, EntryOf sv edIndex sigIndex instruction offsets →
        Covers sv offsets messageData → 4 ≤ messageData.length := by
  constructor
  · intro hpanic instruction offsets hentry hcovers
    by_contra hshort
    have hoffsets := loadOffsets_eq_ok.mpr ⟨instruction, hentry⟩
    have hcover := coverMessage_eq_ok.mpr ⟨hcovers, BitVec.toNat_sub_of_le hcovers.magic⟩
    refine hpanic ?_
    have hslice : Rust.slice messageData 0 MAGIC_LEN.toNat = none :=
      if_neg fun h => hshort h.2
    simp only [verifyMessage, Rust.okOr, bind, Except.bind, hoffsets, hcover, readMessage, hslice,
      Rust.unwrap]
  · intro hlong
    refine Rust.bind_ne_panic Rust.okOr_ne_panic fun sv' hsv => ?_
    have hsv : sv = sv' := Option.some.inj (Rust.okOr_eq_ok.mp hsv)
    subst hsv
    refine Rust.bind_ne_panic loadOffsets_ne_panic fun offsets hoffsets => ?_
    refine Rust.bind_ne_panic coverMessage_ne_panic fun messageOffset hcover => ?_
    obtain ⟨instruction, hentry⟩ := loadOffsets_eq_ok.mp hoffsets
    obtain ⟨hcovers, hoffset⟩ := coverMessage_eq_ok.mp hcover
    exact readMessage_ne_panic hstorage hcovers hoffset (hlong instruction offsets hentry hcovers)

/-- **Signature binding.** It holds exactly where the entry covers no message data of less
than four bytes. -/
theorem signature_binding (verify : Bytes → Bytes → Bytes → Bool) (storage : Storage)
    (hstorage : storage.Reached) (sv : InstructionsSysvar) (hnative : NativeSucceeded verify sv)
    (now : Option I64) (messageData : Bytes) (edIndex : U16) (sigIndex : UInt8) :
    BindsSignature verify storage sv now messageData edIndex sigIndex ↔
      ∀ instruction offsets, EntryOf sv edIndex sigIndex instruction offsets →
        Covers sv offsets messageData → 4 ≤ messageData.length := by
  rw [← @no_panic_iff storage sv now messageData edIndex sigIndex hstorage]
  constructor
  · exact fun h => h.no_panic
  · exact fun h => ⟨h, fun m hm => bound_of_ok hnative hm⟩

/-! ### Two transactions

The second instruction of each calls the program, the first one the native program with one
entry. The signatures are those of one key. -/

def exSigner : Pubkey :=
  ⟨[138, 136, 227, 221, 116, 9, 241, 149, 253, 82, 219, 45, 60, 186, 93, 114, 202, 103, 9, 191, 29,
    148, 18, 27, 243, 116, 136, 1, 180, 15, 111, 92], rfl⟩

/-- The signature of the message `[1, 2, 3]`. -/
def exSignature : Bytes :=
  [43, 183, 241, 149, 65, 201, 215, 13, 206, 180, 72, 250, 188, 236, 119, 118, 179, 39, 165, 237,
    174, 81, 111, 66, 253, 246, 176, 82, 50, 204, 161, 235, 173, 173, 241, 223, 244, 53, 94, 181,
    212, 190, 18, 25, 60, 122, 3, 60, 77, 44, 118, 235, 208, 231, 140, 255, 170, 15, 91, 38, 143, 7,
    217, 8]

/-- The signature of the empty message. -/
def exEmptySignature : Bytes :=
  [119, 140, 218, 6, 52, 192, 33, 250, 232, 177, 169, 250, 101, 91, 161, 50, 48, 246, 252, 252, 92,
    93, 81, 154, 251, 8, 114, 236, 155, 241, 214, 66, 65, 204, 62, 237, 138, 212, 114, 112, 216, 109,
    48, 231, 98, 173, 23, 103, 124, 111, 177, 121, 126, 53, 188, 167, 235, 163, 3, 136, 37, 126, 2,
    15]

def exVerify (signature key message : Bytes) : Bool :=
  key = exSigner.val ∧ (signature = exSignature ∧ message = [1, 2, 3] ∨
    signature = exEmptySignature ∧ message = [])

def exAuthority : AccountMeta where
  pubkey := PythnetSdk.HashArray.filled 32 1
  isSigner := true

def exStorage : Storage where
  topAuthority := exAuthority.pubkey
  treasury := default
  singleUpdateFeeInLamports := 1
  numTrustedSigners := 1
  trustedSigners := #v[{ pubkey := exSigner, expiresAt := 2000 }, {}, {}, {}, {}]

theorem exStorage_reached : exStorage.Reached :=
  ⟨[.initializeStorage exAuthority exAuthority.pubkey default,
    .update exAuthority exSigner 2000], by decide +kernel⟩

/-- A transaction with one entry, whose parts are in the current instruction. -/
def exSysvar (signatureOffset messageDataOffset messageDataSize : Nat) (args : Bytes) :
    InstructionsSysvar where
  instructions :=
    [{ programId := ED25519_PROGRAM_ID
       data := [1, 0] ++ [signatureOffset, 1, signatureOffset + 64, 1, messageDataOffset,
         messageDataSize, 1].flatMap (bytesLE 2) },
      { programId := default, data := [180, 193, 120, 55, 189, 135, 203, 83] ++ args }]
  currentIndex := 1
  size := Nat.lt_of_succ_le (show 2 + 1 ≤ 2 ^ 16 by decide)

/-- A message, the size before it and the indices after it. -/
def exMessageData : Bytes := MAGIC ++ exSignature ++ exSigner.val ++ [3, 0] ++ [1, 2, 3]

def exValid : InstructionsSysvar :=
  exSysvar 16 114 3 (bytesLE 4 105 ++ exMessageData ++ [0, 0, 0])

/-- An empty message, and what the native program verifies for it after the indices. -/
def exShort : InstructionsSysvar :=
  exSysvar 15 11 0 ([0, 0, 0, 0] ++ [0, 0, 0] ++ exEmptySignature ++ exSigner.val)

theorem exValid_native : NativeSucceeded exVerify exValid := by
  intro i hi instruction hget _ count hcount
  obtain rfl : i = 0 := Nat.lt_one_iff.mp hi
  cases hget
  cases hcount
  refine ⟨by decide, fun k hk => ?_⟩
  obtain rfl : k = 0 := Nat.lt_one_iff.mp hk
  exact ⟨exSignature, exSigner.val, [1, 2, 3], by decide +kernel, by decide +kernel,
    by decide +kernel, by decide +kernel⟩

theorem exShort_native : NativeSucceeded exVerify exShort := by
  intro i hi instruction hget _ count hcount
  obtain rfl : i = 0 := Nat.lt_one_iff.mp hi
  cases hget
  cases hcount
  refine ⟨by decide, fun k hk => ?_⟩
  obtain rfl : k = 0 := Nat.lt_one_iff.mp hk
  exact ⟨exEmptySignature, exSigner.val, [], by decide +kernel, by decide +kernel,
    by decide +kernel, by decide +kernel⟩

theorem signature_binding_ex :
    verifyMessage exStorage (some exValid) (some 1000) exMessageData 0 0 =
        .ok { publicKey := exSigner, payload := [1, 2, 3] } ∧
      (BindsSignature exVerify exStorage exValid (some 1000) exMessageData 0 0 ↔
        ∀ instruction offsets, EntryOf exValid 0 0 instruction offsets →
          Covers exValid offsets exMessageData → 4 ≤ exMessageData.length) :=
  ⟨by decide +kernel, signature_binding exVerify exStorage exStorage_reached exValid exValid_native
    (some 1000) exMessageData 0 0⟩

/-- The native program succeeds for an empty message, and then the program panics. -/
theorem short_message_panics :
    NativeSucceeded exVerify exShort ∧
      verifyMessage exStorage (some exShort) (some 1000) [] 0 0 = .error .panic ∧
      ¬BindsSignature exVerify exStorage exShort (some 1000) [] 0 0 := by
  have hpanic : verifyMessage exStorage (some exShort) (some 1000) [] 0 0 = .error .panic := by
    decide +kernel
  exact ⟨exShort_native, hpanic, fun h => h.no_panic hpanic⟩

end PythCrosschain.Lazer
