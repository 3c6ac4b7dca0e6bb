import Mathlib.Data.BitVec
import PythCrosschain.Lazer.SignatureBinding
import PythCrosschain.Lazer.SignerStore
import PythCrosschain.Lib.KeyedSlots

/-!
# Lazer on Solana: the trusted signers

The store is an array with the number of signers in use. A removed signer is taken out of the
list, a new one is put at its end.
-/

namespace PythCrosschain.Lazer

open Solana KeyedSlots

/-- The account of an authority that signs. -/
def signing (authority : Pubkey) : AccountMeta := { pubkey := authority, isSigner := true }

/-- What `verify_message` is called with, by an instruction that has paid the fee. -/
structure VerifyMessage where
  sysvar : InstructionsSysvar
  now : I64
  messageData : Bytes
  ed25519InstructionIndex : U16
  signatureIndex : UInt8

/-- The entry of the native program covers a message in the format, and the signature of the
key verifies. -/
def VerifyMessage.SignedBy (verify : Bytes → Bytes → Bytes → Bool) (m : VerifyMessage)
    (k : Pubkey) : Prop :=
  ∃ instruction offsets signature payload,
    EntryOf m.sysvar m.ed25519InstructionIndex m.signatureIndex instruction offsets ∧
    Covers m.sysvar offsets m.messageData ∧
    Format signature ⟨k, payload⟩ m.messageData ∧
    PointsTo m.sysvar offsets (offsets.signatureOffset.toNat - MAGIC_LEN.toNat) ⟨k, payload⟩ ∧
    verify signature k.val payload = true

/-- The signers in use. -/
def signersOf (storage : Storage) : List TrustedSignerInfo :=
  storage.trustedSigners.toList.take storage.numTrustedSigners.toNat

def signerStore (verify : Bytes → Bytes → Bytes → Bool) :
    SignerStore Storage Pubkey I64 VerifyMessage (Rust.Failure (ProgramError StorageError)) where
  start storage := ∃ payer topAuthority treasury,
    initializeStorage payer topAuthority treasury none = .ok storage
  update u storage := update (signing storage.topAuthority) u.1 u.2 (some storage)
  slots storage := (signersOf storage).map TrustedSignerInfo.pubkey
  capacity := some MAX_NUM_TRUSTED_SIGNERS
  live expiresAt time := expiresAt.toInt > time.toInt
  signed _ m k t := m.now = t ∧ m.SignedBy verify k
  accepts storage m k := ∃ verified, verifyMessage storage (some m.sysvar) (some m.now)
    m.messageData m.ed25519InstructionIndex m.signatureIndex = .ok verified ∧
      verified.publicKey = k

/-! ## Messages in the format -/

variable {storage : Storage} {sv : InstructionsSysvar} {now : Option I64} {messageData : Bytes}
  {offsets : Ed25519SignatureOffsets}

/-- A message in the format whose key is trusted is read. -/
theorem readMessage_of_format {messageOffset : U16} {signature : Bytes} {m : VerifiedMessage}
    (hformat : Format signature m messageData)
    (hpoints : PointsTo sv offsets messageOffset.toNat m) (htrusted : Trusted storage now m.publicKey) :
    readMessage storage now sv.currentIndex offsets messageOffset messageData = .ok m := by
  obtain ⟨hsignature, hkey, hpayload⟩ := hformat.slices
  obtain ⟨hsignatureLength, hfits, hwhole⟩ := hformat
  have hkeyLength : m.publicKey.val.length = 32 := m.publicKey.property
  have hsigLen : SIGNATURE_LEN.toNat = 64 := rfl
  have hkeyLen : PUBKEY_LEN.toNat = 32 := rfl
  have hsizeLen : MESSAGE_SIZE_LEN.toNat = 2 := rfl
  have hmagic : Rust.slice messageData 0 4 = some MAGIC := by
    have h := Rust.slice_append [] MAGIC
      (signature ++ m.publicKey.val ++ bytesLE 2 m.payload.length ++ m.payload)
    rw [hwhole]
    simpa [MAGIC] using h
  have hsize : Rust.slice messageData 100 102 = some (bytesLE 2 m.payload.length) := by
    have h := Rust.slice_append (MAGIC ++ signature ++ m.publicKey.val)
      (bytesLE 2 m.payload.length) m.payload
    rw [List.length_append, List.length_append, hsignatureLength, hkeyLength, length_bytesLE] at h
    rw [hwhole]
    exact h
  have hnat : natLE (bytesLE 2 m.payload.length) = m.payload.length := by
    rw [natLE_bytesLE]
    exact Nat.mod_eq_of_lt (show m.payload.length < 256 ^ 2 from hfits)
  obtain ⟨signers, hsigners, s, hs, hskey, t, ht, hexpires⟩ := htrusted
  have hany : (signers.any fun s =>
      s.pubkey.val = m.publicKey.val ∧ s.expiresAt.toInt > t.toInt) = true :=
    List.any_eq_true.mpr ⟨s, hs, decide_eq_true ⟨congrArg Subtype.val hskey, hexpires⟩⟩
  have hsignatureStart := hpoints.signature
  have hkeyStart := hpoints.publicKey
  have hpayloadStart := hpoints.message
  have hsizeStart : (BitVec.ofNat 16 (messageOffset.toNat + 100)).toNat =
      messageOffset.toNat + 100 := by
    have hbound := offsets.messageDataOffset.isLt
    rw [BitVec.toNat_ofNat, Nat.mod_eq_of_lt (by omega)]
  simp only [readMessage, except_bind_eq_ok, Rust.require_eq_ok, Rust.okOr_eq_ok,
    Rust.unwrap_eq_ok, Rust.pure_eq_ok, exists_const, ne_eq, not_not, Rust.checkedSub_eq_some,
    Rust.checkedAdd_eq_some, not_or]
  refine ⟨MAGIC, hmagic, by decide, offsets.publicKeyOffset, ?_, rfl,
    BitVec.ofNat 16 (messageOffset.toNat + 100), ?_, offsets.messageDataOffset, ?_, rfl,
    BitVec.ofNat 16 100, ⟨?_, ?_⟩, BitVec.ofNat 16 102, ⟨?_, ?_⟩, bytesLE 2 m.payload.length, ?_,
    ?_, ⟨hpoints.signatureIndex, hpoints.publicKeyIndex, hpoints.messageIndex⟩,
    BitVec.ofNat 16 68, ⟨?_, ?_⟩, m.publicKey.val, ?_, t, ht, signers, hsigners, hany,
    BitVec.ofNat 16 102, ⟨?_, ?_⟩, m.payload, ?_, m.publicKey, dif_pos hkeyLength, rfl⟩
  · omega
  · omega
  · omega
  · omega
  · show 100 = _
    omega
  · omega
  · show 102 = _
    omega
  · exact hsize
  · exact hpoints.size.trans hnat.symm
  · omega
  · show 68 = _
    omega
  · exact hkey
  · omega
  · show 102 = _
    omega
  · rw [hnat]
    exact hpayload

theorem accepts_iff {verify : Bytes → Bytes → Bytes → Bool} {m : VerifyMessage} {k : Pubkey}
    (hsigned : m.SignedBy verify k) :
    (signerStore verify).accepts storage m k ↔ Trusted storage (some m.now) k := by
  constructor
  · rintro ⟨verified, hverified, rfl⟩
    simp only [verifyMessage, except_bind_eq_ok, Rust.okOr_eq_ok, Option.some.injEq,
      exists_eq_left'] at hverified
    obtain ⟨offsets, -, messageOffset, hcover, hread⟩ := hverified
    obtain ⟨hcovers, hoffset⟩ := coverMessage_eq_ok.mp hcover
    exact (readMessage_ok hcovers hoffset hread).2.2
  · intro htrusted
    obtain ⟨instruction, offsets, signature, payload, hentry, hcovers, hformat, hpoints, -⟩ :=
      hsigned
    have hoffset : (offsets.signatureOffset - MAGIC_LEN).toNat =
        offsets.signatureOffset.toNat - MAGIC_LEN.toNat := BitVec.toNat_sub_of_le hcovers.magic
    rw [← hoffset] at hpoints
    refine ⟨⟨k, payload⟩, ?_, rfl⟩
    refine except_bind_eq_ok.mpr ⟨m.sysvar, rfl, except_bind_eq_ok.mpr ⟨offsets, ?_, ?_⟩⟩
    · exact loadOffsets_eq_ok.mpr ⟨instruction, hentry⟩
    · refine except_bind_eq_ok.mpr ⟨offsets.signatureOffset - MAGIC_LEN, ?_, ?_⟩
      · exact coverMessage_eq_ok.mpr ⟨hcovers, hoffset⟩
      · exact readMessage_of_format hformat hpoints htrusted

/-! ## The list of signers -/

/-- The array has room for the signers, and no key has two slots. -/
def WellFormed (storage : Storage) : Prop :=
  storage.numTrustedSigners.toNat ≤ MAX_NUM_TRUSTED_SIGNERS ∧
    Distinct TrustedSignerInfo.pubkey (fun _ => True) (signersOf storage)

def expiry (storage : Storage) : Pubkey → Option I64 :=
  lookup TrustedSignerInfo.pubkey TrustedSignerInfo.expiresAt (signersOf storage)

variable {signers signers' : List TrustedSignerInfo} {k : Pubkey} {e : I64}

theorem slice_signers (h : storage.numTrustedSigners.toNat ≤ MAX_NUM_TRUSTED_SIGNERS) :
    Rust.slice storage.trustedSigners.toList 0 storage.numTrustedSigners.toNat =
      some (signersOf storage) := by
  have hroom : MAX_NUM_TRUSTED_SIGNERS ≤ storage.trustedSigners.toList.length := by
    rw [Vector.length_toList]
    decide
  exact Rust.slice_of_le (Nat.zero_le _) (h.trans hroom)

theorem length_signersOf (h : storage.numTrustedSigners.toNat ≤ MAX_NUM_TRUSTED_SIGNERS) :
    (signersOf storage).length = storage.numTrustedSigners.toNat :=
  Rust.length_slice (slice_signers h)

theorem trusted_iff (h : WellFormed storage) {t : I64} :
    Trusted storage (some t) k ↔ ∃ e, expiry storage k = some e ∧ e.toInt > t.toInt := by
  have hsigners : (storage.initializedTrustedSigners : SigResult _) = .ok (signersOf storage) :=
    Rust.unwrap_eq_ok.mpr (slice_signers h.1)
  constructor
  · rintro ⟨signers, hok, s, hs, rfl, t', ht', hexpires⟩
    cases hsigners.symm.trans hok
    cases ht'
    exact ⟨s.expiresAt, lookup_of_mem h.2 trivial hs, hexpires⟩
  · rintro ⟨e, hlookup, hexpires⟩
    obtain ⟨s, hs, rfl⟩ := Option.map_eq_some_iff.mp hlookup
    have hk := @List.find?_some _ (fun s : TrustedSignerInfo => decide (s.pubkey = k)) _ _ hs
    exact ⟨_, hsigners, s, List.mem_of_find?_eq_some hs, of_decide_eq_true hk, t, rfl, hexpires⟩

/-- An update writes to the slot of its key. -/
theorem changeSigners_splice
    (hdistinct : Distinct TrustedSignerInfo.pubkey (fun _ => True) signers)
    (h : changeSigners signers k e = .ok signers') :
    Splice TrustedSignerInfo.pubkey TrustedSignerInfo.expiresAt (fun _ => True) k
      (expiryOf (k, e)) signers signers' := by
  unfold changeSigners at h
  split at h
  · next he =>
    have hnone : expiryOf (k, e) = none := if_pos he
    obtain ⟨pos, hpos, h⟩ := except_bind_eq_ok.mp h
    cases h
    rw [hnone]
    exact splice_eraseIdx hdistinct trivial (Rust.okOr_eq_ok.mp hpos)
  · next he =>
    have hsome : expiryOf (k, e) = some e := if_neg he
    rw [hsome]
    split at h
    · next pos hpos =>
      cases h
      exact splice_modify hdistinct trivial hpos (fun _ => rfl) fun _ => rfl
    · next hnone =>
      cases h
      exact splice_append (findIdx?_none hnone) rfl rfl

/-- An update with a key that is absent fails where it removes, and adds where it does not. -/
theorem changeSigners_absent (habsent : k ∉ signers.map TrustedSignerInfo.pubkey) :
    changeSigners signers k e =
      if e = 0 then .error (.error (.custom .invalidInstructionData))
      else .ok (signers ++ [{ pubkey := k, expiresAt := e }]) := by
  have hnone : (signers.findIdx? fun s => s.pubkey = k) = none := by
    refine List.findIdx?_eq_none_iff.mpr fun s hs => decide_eq_false fun h => habsent ?_
    exact List.mem_map.mpr ⟨s, hs, h⟩
  unfold changeSigners
  rw [hnone]
  rfl

/-- An update with a key that is there keeps the number of signers or lowers it. -/
theorem changeSigners_present (hpresent : k ∈ signers.map TrustedSignerInfo.pubkey) :
    ∃ signers', changeSigners signers k e = .ok signers' ∧ signers'.length ≤ signers.length := by
  unfold changeSigners
  cases hfind : signers.findIdx? fun s => s.pubkey = k with
  | none =>
    obtain ⟨s, hs, hk⟩ := List.mem_map.mp hpresent
    exact absurd hk (findIdx?_none hfind s hs)
  | some pos =>
    split
    · exact ⟨_, rfl, List.length_eraseIdx_le _ _⟩
    · exact ⟨_, rfl, Nat.le_of_eq (List.length_modify _ _ _)⟩

/-- The storage with a list of signers. -/
def Storage.withSigners (storage : Storage) (signers : List TrustedSignerInfo) : Storage :=
  { storage with
    trustedSigners := storeSigners signers
    numTrustedSigners := UInt8.ofNat signers.length }

theorem toNat_withSigners (h : signers.length ≤ MAX_NUM_TRUSTED_SIGNERS) :
    (storage.withSigners signers).numTrustedSigners.toNat = signers.length := by
  show (UInt8.ofNat signers.length).toNat = _
  rw [UInt8.toNat_ofNat']
  exact Nat.mod_eq_of_lt (Nat.lt_of_le_of_lt h (by decide))

theorem signersOf_withSigners (h : signers.length ≤ MAX_NUM_TRUSTED_SIGNERS) :
    signersOf (storage.withSigners signers) = signers := by
  have hroom : signers.length ≤ SPACE_FOR_TRUSTED_SIGNERS := h.trans (by decide)
  unfold signersOf
  rw [toNat_withSigners h]
  apply List.ext_getElem
  · rw [List.length_take, Vector.length_toList, Nat.min_eq_left hroom]
  · intro i hi hi'
    simp [Storage.withSigners, storeSigners, hi']

/-- What an update does, on a storage account that is in order. -/
theorem update_eq_ok (h : WellFormed storage) {storage' : Storage} :
    update (signing storage.topAuthority) k e (some storage) = .ok storage' ↔
      ∃ signers, changeSigners (signersOf storage) k e = .ok signers ∧
        signers.length ≤ MAX_NUM_TRUSTED_SIGNERS ∧ storage.withSigners signers = storage' := by
  have hspace : storage.numTrustedSigners.toNat ≤ SPACE_FOR_TRUSTED_SIGNERS :=
    h.1.trans (by decide)
  simp only [update, except_bind_eq_ok, signer_eq_ok, check_eq_ok, require_eq_ok, Rust.okOr_eq_ok,
    Rust.unwrap_eq_ok, Rust.pure_eq_ok, exists_const, Option.some.injEq, exists_eq_left', h.1,
    hspace, true_and, slice_signers h.1, signing, gt_iff_lt, not_lt]
  constructor
  · rintro ⟨signers, hsigners, -, hle, rfl⟩
    exact ⟨signers, hsigners, hle, rfl⟩
  · rintro ⟨signers, hsigners, hle, rfl⟩
    exact ⟨signers, hsigners, hle.trans (by decide), hle, rfl⟩

/-- An update fails where it removes an absent key, or adds one to a list that is full. -/
theorem update_fails (h : WellFormed storage) :
    (∃ err, update (signing storage.topAuthority) k e (some storage) = .error err) ↔
      k ∉ (signersOf storage).map TrustedSignerInfo.pubkey ∧
        (e = 0 ∨ (signersOf storage).length = MAX_NUM_TRUSTED_SIGNERS) := by
  have hle : (signersOf storage).length ≤ MAX_NUM_TRUSTED_SIGNERS :=
    (length_signersOf h.1).trans_le h.1
  rw [except_eq_error]
  simp only [Ne, update_eq_ok h]
  constructor
  · intro hfails
    have habsent : k ∉ (signersOf storage).map TrustedSignerInfo.pubkey := fun hpresent => by
      obtain ⟨signers', hok, hlen⟩ := @changeSigners_present _ k e hpresent
      exact hfails _ ⟨signers', hok, hlen.trans hle, rfl⟩
    refine ⟨habsent, ?_⟩
    by_contra hnot
    obtain ⟨he, hroom⟩ := not_or.mp hnot
    refine hfails _ ⟨_, (changeSigners_absent habsent).trans (if_neg he), ?_, rfl⟩
    rw [List.length_append]
    exact Nat.lt_of_le_of_ne hle hroom
  · rintro ⟨habsent, hcase⟩ storage' ⟨signers', hok, hlen, -⟩
    rw [changeSigners_absent habsent] at hok
    split at hok
    · cases hok
    · next he =>
      cases hok
      rw [List.length_append, hcase.resolve_left he] at hlen
      exact absurd hlen (Nat.not_succ_le_self _)

theorem solana_refines {verify : Bytes → Bytes → Bytes → Bool}
    (hstrict : ∀ signature message, verify signature (default : Pubkey).val message = false) :
    Refines (signerStore verify) (fun _ => True) default WellFormed expiry where
  start := by
    rintro storage ⟨payer, topAuthority, treasury, h⟩
    simp only [initializeStorage, except_bind_eq_ok, signer_eq_ok, check_eq_ok, exists_const,
      Rust.pure_eq_ok] at h
    obtain ⟨-, -, rfl⟩ := h
    exact ⟨⟨Nat.zero_le _, fun k _ => Nat.zero_le _⟩, fun k _ => rfl⟩
  step := by
    rintro ⟨k, e⟩ storage storage' hwell h
    obtain ⟨signers, hsigners, hlen, rfl⟩ := (update_eq_ok hwell).mp h
    have hsplice := changeSigners_splice hwell.2 hsigners
    have hof := @signersOf_withSigners storage signers hlen
    refine ⟨⟨(toNat_withSigners hlen).trans_le hlen, ?_⟩, fun k' _ => ?_⟩
    · rw [hof]
      exact hsplice.distinct hwell.2
    · unfold expiry
      rw [hof]
      split
      · next heq =>
        subst heq
        exact hsplice.lookup_self trivial
      · next hne => exact hsplice.lookup_other trivial (Ne.symm hne)
  signed _ hsigned := hsigned
  accepts := by
    rintro storage m k t hwell - - ⟨rfl, hsigned⟩
    exact (accepts_iff hsigned).trans (trusted_iff hwell)
  zero := by
    rintro storage m t ⟨-, -, -, signature, payload, -, -, -, -, hverify⟩ -
    rw [hstrict] at hverify
    cases hverify
  distinct hwell := hwell.2.nodup (List.Sublist.refl _) fun _ _ => trivial
  fails := by
    intro storage k e hwell _
    refine (update_fails hwell).trans (and_congr_right fun _ => or_congr_right ?_)
    rw [SignerStore.Full]
    show _ ↔ some MAX_NUM_TRUSTED_SIGNERS = some (List.map _ _).length
    rw [List.length_map, Option.some.injEq]
    exact eq_comm

end PythCrosschain.Lazer
