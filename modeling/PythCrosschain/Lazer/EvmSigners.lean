import Mathlib.Data.BitVec
import PythCrosschain.Lazer.PythLazer
import PythCrosschain.Lazer.SignerStore
import PythCrosschain.Lib.KeyedSlots

/-!
# Lazer on EVM: the trusted signers

The store is an array of 100 slots, where the zero address marks a slot that is free. A removed
signer leaves a free slot behind, and a new one takes the first free slot.

The zero address is no signer: `verifyUpdate` rejects it. An update that names it finds it in the
first free slot, so it changes no signer and only reverts when there is no free slot
(`updateSlots_zero`).
-/

namespace PythCrosschain.PythLazer

open Lazer KeyedSlots

section

variable (keccak256 : Bytes → Bytes32)
  (tryRecover : Bytes32 → Uint8 → Bytes32 → Bytes32 → Address)
  (transfer : Address → Uint256 → Option Unit)

/-- A message is what `verifyUpdate` is called with. -/
def signerStore :
    SignerStore Contract Address Uint256 (Env × Bytes) (Revert OwnableError) where
  start c := ∃ topAuthority, initializeLazer topAuthority = .ok c
  update u c := updateTrustedSigner c.owner u.1 u.2 c
  slots c := (c.trustedSigners.toList.map TrustedSignerInfo.pubkey).filter (· ≠ 0)
  capacity := some 100
  live expiresAt time := time < expiresAt
  signed c m k t := m.1.block.timestamp = t ∧
    (takeFee transfer c.toState m.1 : Exec OwnableError Unit) = .ok () ∧
    ∃ payload, (payloadOf m.2 : Exec OwnableError Bytes) = .ok payload ∧
      (recoverSigner keccak256 tryRecover m.2 payload : Exec OwnableError Address) = .ok k
  accepts c m k := ∃ payload, (verifyUpdate keccak256 tryRecover transfer c.toState m.1 m.2 :
    Exec OwnableError (Bytes × Address)) = .ok (payload, k)

end

/-! ## Slots -/

variable {trustedSigners trustedSigners' : Vector TrustedSignerInfo 100} {k : Address}
  {e : Uint256}

/-- What the signers with a non-zero key are read from. -/
def expiry (trustedSigners : Vector TrustedSignerInfo 100) : Address → Option Uint256 :=
  lookup TrustedSignerInfo.pubkey TrustedSignerInfo.expiresAt trustedSigners.toList

/-- The zero address marks a free slot. -/
def IsSigner (k : Address) : Prop := k ≠ 0

instance : DecidablePred IsSigner := fun k => inferInstanceAs (Decidable (k ≠ 0))

/-- No signer has two slots. -/
def DistinctSigners (trustedSigners : Vector TrustedSignerInfo 100) : Prop :=
  Distinct TrustedSignerInfo.pubkey IsSigner trustedSigners.toList

theorem findSlot_eq_none :
    findSlot trustedSigners k = none ↔
      k ∉ trustedSigners.toList.map TrustedSignerInfo.pubkey := by
  simp [findSlot, List.findIdx?_eq_none_iff]

/-- An update writes to the slots of its key and to free ones. -/
theorem updateSlots_splice (hdistinct : DistinctSigners trustedSigners)
    (h : (updateSlots k e trustedSigners : Exec OwnableError _) = .ok trustedSigners') :
    Splice TrustedSignerInfo.pubkey TrustedSignerInfo.expiresAt IsSigner k (expiryOf (k, e))
      trustedSigners.toList trustedSigners'.toList := by
  have hzero : ¬IsSigner 0 := fun h => h rfl
  unfold updateSlots at h
  split at h
  · next he =>
    have hnone : expiryOf (k, e) = none := if_pos he
    split at h
    · next i hfind =>
      cases h
      rw [Vector.toList_setIfInBounds, hnone]
      by_cases hk : k = 0
      · subst hk
        refine splice_invalid hzero hfind ?_
        rfl
      · have hlookup : lookup TrustedSignerInfo.pubkey TrustedSignerInfo.expiresAt
            [({ pubkey := 0, expiresAt := 0 } : TrustedSignerInfo)] k = none := by
          simpa [lookup] using Ne.symm hk
        rw [← hlookup]
        exact splice_set hdistinct hk hfind (.inr hzero)
    · cases h
  · next he =>
    have hsome : expiryOf (k, e) = some e := if_neg he
    rw [hsome]
    split at h
    · next i hfind =>
      cases h
      rw [Vector.toList_setIfInBounds]
      by_cases hk : k = 0
      · subst hk
        refine splice_invalid hzero hfind ?_
        rfl
      · have hlookup : lookup TrustedSignerInfo.pubkey TrustedSignerInfo.expiresAt
            [({ pubkey := k, expiresAt := e } : TrustedSignerInfo)] k = some e := by
          simp [lookup]
        rw [← hlookup]
        exact splice_set hdistinct hk hfind (.inl rfl)
    · next hnone =>
      split at h
      · next i hfind =>
        cases h
        rw [Vector.toList_setIfInBounds]
        exact splice_take (findIdx?_none hnone) hzero hfind rfl rfl
      · cases h

/-- An update reverts where it finds no slot. -/
theorem updateSlots_reverts :
    (∃ err, (updateSlots k e trustedSigners : Exec OwnableError _) = .error err) ↔
      findSlot trustedSigners k = none ∧ (e = 0 ∨ findSlot trustedSigners 0 = none) := by
  unfold updateSlots
  cases hk : findSlot trustedSigners k with
  | some i =>
    refine ⟨fun ⟨err, herr⟩ => ?_, fun h => nomatch h.1⟩
    split at herr
    · cases herr
    · cases herr
  | none =>
    by_cases he : e = 0
    · rw [if_pos he]
      exact ⟨fun _ => ⟨rfl, .inl he⟩, fun _ => ⟨_, rfl⟩⟩
    · rw [if_neg he]
      cases hfree : findSlot trustedSigners 0 with
      | some i => exact ⟨fun ⟨_, herr⟩ => (nomatch herr), fun h => (h.2.elim he nofun).elim⟩
      | none => exact ⟨fun _ => ⟨rfl, .inr rfl⟩, fun _ => ⟨_, rfl⟩⟩

/-! ## The contract -/

section

variable {keccak256 : Bytes → Bytes32}
  {tryRecover : Bytes32 → Uint8 → Bytes32 → Bytes32 → Address}
  {transfer : Address → Uint256 → Option Unit} {c c' : Contract}

theorem updateTrustedSigner_owner :
    updateTrustedSigner c.owner k e c = .ok c' ↔ ∃ trustedSigners,
      (updateSlots k e c.trustedSigners : Exec OwnableError _) = .ok trustedSigners ∧
        { c with trustedSigners } = c' := by
  simp only [updateTrustedSigner, bind_eq_ok, require_eq_ok, exists_const, true_and, pure_eq_ok]

theorem updateTrustedSigner_reverts :
    (∃ err, updateTrustedSigner c.owner k e c = .error err) ↔
      ∃ err, (updateSlots k e c.trustedSigners : Exec OwnableError _) = .error err := by
  rw [except_eq_error, except_eq_error]
  constructor
  · intro h trustedSigners hslots
    exact h _ (updateTrustedSigner_owner.mpr ⟨trustedSigners, hslots, rfl⟩)
  · intro h c' hc'
    obtain ⟨trustedSigners, hslots, -⟩ := updateTrustedSigner_owner.mp hc'
    exact h trustedSigners hslots

theorem isValidSigner_iff {s : State} {t : Uint256} :
    isValidSigner s t k = true ↔ ∃ e, expiry s.trustedSigners k = some e ∧ t < e := by
  unfold isValidSigner expiry lookup
  cases s.trustedSigners.toList.find? fun info => info.pubkey = k with
  | none => simp
  | some info => simp

/-- A message that is signed is accepted where its signer is trusted. -/
theorem accepts_iff {m : Env × Bytes} {t : Uint256}
    (h : (signerStore keccak256 tryRecover transfer).signed c m k t) :
    (signerStore keccak256 tryRecover transfer).accepts c m k ↔
      k ≠ 0 ∧ ∃ e, expiry c.trustedSigners k = some e ∧ t < e := by
  obtain ⟨rfl, hfee, payload, hpayload, hsigner⟩ := h
  simp only [signerStore, verifyUpdate, bind_eq_ok, require_eq_ok, pure_eq_ok, exists_const, hfee,
    hpayload, hsigner, Except.ok.injEq, true_and, exists_eq_left', isValidSigner_iff,
    Prod.mk.injEq]
  constructor
  · rintro ⟨_, hzero, htrusted, -⟩
    exact ⟨hzero, htrusted⟩
  · rintro ⟨hzero, htrusted⟩
    exact ⟨_, hzero, htrusted, rfl, trivial⟩

theorem mem_slots (hk : k ≠ 0) :
    k ∈ (signerStore keccak256 tryRecover transfer).slots c ↔
      k ∈ c.trustedSigners.toList.map TrustedSignerInfo.pubkey := by
  show k ∈ List.filter _ _ ↔ _
  rw [List.mem_filter]
  exact and_iff_left (decide_eq_true hk)

theorem full_iff :
    (signerStore keccak256 tryRecover transfer).Full c ↔ findSlot c.trustedSigners 0 = none := by
  have hlength : (c.trustedSigners.toList.map TrustedSignerInfo.pubkey).length = 100 := by simp
  have hfull : (signerStore keccak256 tryRecover transfer).Full c ↔
      ((c.trustedSigners.toList.map TrustedSignerInfo.pubkey).filter (· ≠ 0)).length =
        (c.trustedSigners.toList.map TrustedSignerInfo.pubkey).length := by
    rw [hlength]
    exact ⟨fun h => (Option.some.inj h).symm, fun h => congrArg some h.symm⟩
  rw [hfull, List.length_filter_eq_length_iff, findSlot_eq_none]
  constructor
  · intro h hmem
    exact of_decide_eq_true (h 0 hmem) rfl
  · intro h a ha
    exact decide_eq_true fun hzero => h (hzero ▸ ha)

/-- An update that names the zero address changes no signer, and reverts where no slot is
free. -/
theorem updateSlots_zero :
    (∃ err, (updateSlots 0 e trustedSigners : Exec OwnableError _) = .error err) ↔
      findSlot trustedSigners 0 = none := by
  rw [updateSlots_reverts]
  exact ⟨fun h => h.1, fun h => ⟨h, .inr h⟩⟩

theorem refines :
    Refines (signerStore keccak256 tryRecover transfer) IsSigner 0
      (fun c => DistinctSigners c.trustedSigners) (fun c => expiry c.trustedSigners) where
  start := by
    rintro c ⟨topAuthority, h⟩
    simp only [initializeLazer, bind_eq_ok, require_eq_ok, exists_const, pure_eq_ok] at h
    obtain ⟨-, rfl⟩ := h
    have hpubkey : ∀ info ∈ (Vector.replicate 100 ({} : TrustedSignerInfo)).toList,
        info.pubkey = 0 := by
      intro info hinfo
      rw [Vector.toList_replicate] at hinfo
      rw [(List.mem_replicate.mp hinfo).2]
    constructor
    · intro k hk
      rw [count_eq_zero fun s hs h => hk (h.symm.trans (hpubkey s hs))]
      exact Nat.zero_le _
    · exact fun k hk => lookup_eq_none.mpr fun s hs h => hk (h.symm.trans (hpubkey s hs))
  step := by
    rintro ⟨k, e⟩ c c' hdistinct h
    obtain ⟨trustedSigners, hslots, rfl⟩ := updateTrustedSigner_owner.mp h
    have hsplice := updateSlots_splice hdistinct hslots
    refine ⟨hsplice.distinct hdistinct, fun k' hk' => ?_⟩
    show expiry trustedSigners k' = if k = k' then _ else expiry c.trustedSigners k'
    split
    · next heq =>
      subst heq
      exact hsplice.lookup_self hk'
    · next hne => exact hsplice.lookup_other hk' (Ne.symm hne)
  signed := by
    rintro ⟨k, e⟩ c c' m k' t h hsigned
    obtain ⟨trustedSigners, -, rfl⟩ := updateTrustedSigner_owner.mp h
    exact hsigned
  accepts _ _ hzero hsigned := (accepts_iff hsigned).trans (and_iff_right hzero)
  zero hsigned haccepts := ((accepts_iff hsigned).mp haccepts).1 rfl
  distinct hdistinct := hdistinct.nodup List.filter_sublist fun k hk =>
    of_decide_eq_true (List.mem_filter.mp hk).2
  fails := by
    intro c k e _ hk
    show (∃ err, updateTrustedSigner c.owner k e c = .error err) ↔ _
    rw [updateTrustedSigner_reverts, updateSlots_reverts, mem_slots hk, full_iff, findSlot_eq_none]

end

end PythCrosschain.PythLazer
