import Mathlib.Data.BitVec
import PythCrosschain.Lazer.SignerStore
import PythCrosschain.Lib.Codec
import PythCrosschain.Lib.KeyedSlots
import PythCrosschain.Lib.Move

/-!
# Lazer on Aptos: the contract and its trusted signers

`pyth_lazer.move`. The store is a vector: a removed signer is taken out of it, a new one is put
at its end, and it is never full. The deposit of the fee and the check of a signature are
functions of the framework, and parameters here.
-/

namespace PythCrosschain.LazerAptos

open Move Lazer KeyedSlots

/-! ## Data model -/

abbrev AccountAddress := BitVec 256

def ENO_PERMISSIONS : ℕ := 1
def EINVALID_SIGNER : ℕ := 2
def ENO_SUCH_PUBKEY : ℕ := 4
def EINVALID_SIGNATURE : ℕ := 5
def EINSUFFICIENT_FEE : ℕ := 6

def ED25519_PUBLIC_KEY_LENGTH : ℕ := 32

structure TrustedSignerInfo where
  pubkey : Bytes
  expiresAt : U64
deriving DecidableEq

structure Storage where
  treasury : AccountAddress
  singleUpdateFee : U64
  trustedSigners : List TrustedSignerInfo
deriving DecidableEq

/-- The resources of the module: `PendingAdminCapability` and `Storage` at `@pyth_lazer`, and
the accounts that hold an `AdminCapability`. -/
structure Global where
  pendingAdminCapability : Option AccountAddress := none
  storage : Option Storage := none
  adminCapability : AccountAddress → Bool := fun _ => false

section

variable (pythLazer : AccountAddress) (deposit : AccountAddress → U64 → Option Unit)
  (signatureVerifyStrict : Bytes → Bytes → Bytes → Bool)

/-! ## Functions -/

/-- `initialize`. -/
def initializeLazer (account admin treasury : AccountAddress) (g : Global) : Result Global := do
  assert (account = pythLazer) ENO_PERMISSIONS
  if g.pendingAdminCapability.isSome then .error .resourceAlreadyExists
  else if g.storage.isSome then .error .resourceAlreadyExists
  else return { g with
    pendingAdminCapability := some admin
    storage := some { treasury, singleUpdateFee := 1, trustedSigners := [] } }

def claimAdminCapability (account : AccountAddress) (g : Global) : Result Global := do
  let pending ← orAbort .missingData g.pendingAdminCapability
  assert (account = pending) ENO_PERMISSIONS
  if g.adminCapability account then .error .resourceAlreadyExists
  else return { g with
    adminCapability := Function.update g.adminCapability account true
    pendingAdminCapability := none }

/-- `verify_message`, at a time in seconds. -/
def verifyMessage (now : U64) (message signature trustedSigner : Bytes) (fee : U64) (g : Global) :
    Result Unit := do
  let storage ← orAbort .missingData g.storage
  assert (storage.singleUpdateFee ≤ fee) EINSUFFICIENT_FEE
  orAbort .external (deposit storage.treasury fee)
  let valid := storage.trustedSigners.any fun signerInfo =>
    signerInfo.pubkey = trustedSigner ∧ signerInfo.expiresAt > now
  assert (valid = true) EINVALID_SIGNER
  -- `new_signature_from_bytes` and `new_unvalidated_public_key_from_bytes` check the lengths.
  if signature.length ≠ 64 then .error .external
  else if trustedSigner.length ≠ ED25519_PUBLIC_KEY_LENGTH then .error .external
  else assert (signatureVerifyStrict signature trustedSigner message = true) EINVALID_SIGNATURE

/-- The vector with one signer removed, modified or added. -/
def changeSigners (trustedSigner : Bytes) (expiresAt : U64)
    (trustedSigners : List TrustedSignerInfo) : Result (List TrustedSignerInfo) :=
  let found := trustedSigners.findIdx? (·.pubkey = trustedSigner)
  if expiresAt = 0 then
    match found with
    | some i => return trustedSigners.eraseIdx i
    | none => .error (.code ENO_SUCH_PUBKEY)
  else
    match found with
    | some i => return trustedSigners.modify i ({ · with expiresAt })
    | none => return trustedSigners ++ [{ pubkey := trustedSigner, expiresAt }]

def updateTrustedSigner (account : AccountAddress) (trustedSigner : Bytes) (expiresAt : U64)
    (g : Global) : Result Global := do
  assert (g.adminCapability account = true) ENO_PERMISSIONS
  assert (trustedSigner.length = ED25519_PUBLIC_KEY_LENGTH) EINVALID_SIGNER
  let storage ← orAbort .missingData g.storage
  let trustedSigners ← changeSigners trustedSigner expiresAt storage.trustedSigners
  return { g with storage := some { storage with trustedSigners } }

/-! ## The trusted signers -/

/-- What `verify_message` is called with, and when. -/
structure VerifyMessage where
  now : U64
  message : Bytes
  signature : Bytes
  trustedSigner : Bytes
  fee : U64

/-- The signature is one of the key, and the fee is paid. -/
def VerifyMessage.SignedBy (m : VerifyMessage) (g : Global) (k : Bytes) : Prop :=
  m.trustedSigner = k ∧ m.signature.length = 64 ∧
    signatureVerifyStrict m.signature k m.message = true ∧
    ∃ storage, g.storage = some storage ∧ storage.singleUpdateFee ≤ m.fee ∧
      deposit storage.treasury m.fee = some ()

/-- A key has 32 bytes. -/
def IsKey (k : Bytes) : Prop := k.length = ED25519_PUBLIC_KEY_LENGTH

/-- The signers of the storage. -/
def signersOf (g : Global) : List TrustedSignerInfo :=
  (g.storage.map Storage.trustedSigners).getD []

/-- The store, where `admin` has claimed the capability. -/
def signerStore (admin : AccountAddress) : SignerStore Global Bytes U64 VerifyMessage Abort where
  start g := ∃ treasury pending, initializeLazer pythLazer pythLazer admin treasury {} = .ok pending ∧
    claimAdminCapability admin pending = .ok g
  update u g := updateTrustedSigner admin u.1 u.2 g
  slots g := (signersOf g).map TrustedSignerInfo.pubkey
  capacity := none
  live expiresAt time := expiresAt > time
  signed g m k t := m.now = t ∧ m.SignedBy deposit signatureVerifyStrict g k
  accepts g m k := m.trustedSigner = k ∧ verifyMessage deposit signatureVerifyStrict m.now m.message
    m.signature m.trustedSigner m.fee g = .ok ()

end

/-! ## The store as a map -/

variable {g g' : Global} {k : Bytes} {e : U64} {signers signers' : List TrustedSignerInfo}

def expiry (g : Global) : Bytes → Option U64 :=
  lookup TrustedSignerInfo.pubkey TrustedSignerInfo.expiresAt (signersOf g)

/-- The authority has its capability, and no key has two slots. -/
def WellFormed (admin : AccountAddress) (g : Global) : Prop :=
  g.adminCapability admin = true ∧ g.storage.isSome = true ∧
    Distinct TrustedSignerInfo.pubkey (fun _ => True) (signersOf g)

/-- An update writes to the slot of its key. -/
theorem changeSigners_splice
    (hdistinct : Distinct TrustedSignerInfo.pubkey (fun _ => True) signers)
    (h : changeSigners k e signers = .ok signers') :
    Splice TrustedSignerInfo.pubkey TrustedSignerInfo.expiresAt (fun _ => True) k
      (expiryOf (k, e)) signers signers' := by
  unfold changeSigners at h
  dsimp only at h
  split at h
  · next he =>
    have hnone : expiryOf (k, e) = none := if_pos he
    rw [hnone]
    split at h
    · next i hfind =>
      cases h
      exact splice_eraseIdx hdistinct trivial hfind
    · cases h
  · next he =>
    have hsome : expiryOf (k, e) = some e := if_neg he
    rw [hsome]
    split at h
    · next i hfind =>
      cases h
      exact splice_modify hdistinct trivial hfind (fun _ => rfl) fun _ => rfl
    · next hnone =>
      cases h
      exact splice_append (findIdx?_none hnone) rfl rfl

theorem changeSigners_aborts :
    (∃ abort, changeSigners k e signers = .error abort) ↔
      k ∉ signers.map TrustedSignerInfo.pubkey ∧ e = 0 := by
  have habsent : (signers.findIdx? fun s => s.pubkey = k) = none ↔
      k ∉ signers.map TrustedSignerInfo.pubkey := by
    simp [List.findIdx?_eq_none_iff]
  rw [← habsent]
  unfold changeSigners
  by_cases he : e = 0
  · rw [if_pos he]
    cases signers.findIdx? fun s => s.pubkey = k with
    | some i => exact ⟨fun ⟨_, h⟩ => (nomatch h), fun h => nomatch h.1⟩
    | none => exact ⟨fun _ => ⟨rfl, he⟩, fun _ => ⟨_, rfl⟩⟩
  · rw [if_neg he]
    refine ⟨fun ⟨_, h⟩ => ?_, fun h => absurd h.2 he⟩
    split at h
    · cases h
    · cases h

theorem updateTrustedSigner_eq_ok {admin : AccountAddress} (hwell : WellFormed admin g) :
    updateTrustedSigner admin k e g = .ok g' ↔ IsKey k ∧ ∃ storage, g.storage = some storage ∧
      ∃ signers, changeSigners k e storage.trustedSigners = .ok signers ∧
        { g with storage := some { storage with trustedSigners := signers } } = g' := by
  simp only [updateTrustedSigner, except_bind_eq_ok, assert_eq_ok, orAbort_eq_ok, Move.pure_eq_ok,
    exists_const, hwell.1, true_and]
  exact Iff.rfl

theorem updateTrustedSigner_aborts {admin : AccountAddress} (hwell : WellFormed admin g)
    (hk : IsKey k) :
    (∃ abort, updateTrustedSigner admin k e g = .error abort) ↔
      k ∉ (signersOf g).map TrustedSignerInfo.pubkey ∧ e = 0 := by
  obtain ⟨storage, hstorage⟩ := Option.isSome_iff_exists.mp hwell.2.1
  have hsigners : signersOf g = storage.trustedSigners := by
    rw [signersOf, hstorage]
    rfl
  rw [hsigners, ← changeSigners_aborts, except_eq_error, except_eq_error]
  constructor
  · intro h signers hchange
    exact h _ ((updateTrustedSigner_eq_ok hwell).mpr ⟨hk, storage, hstorage, signers, hchange, rfl⟩)
  · intro h g' hg'
    obtain ⟨-, storage', hstorage', signers, hchange, -⟩ := (updateTrustedSigner_eq_ok hwell).mp hg'
    cases hstorage.symm.trans hstorage'
    exact h signers hchange

section

variable {pythLazer admin : AccountAddress} {deposit : AccountAddress → U64 → Option Unit}
  {signatureVerifyStrict : Bytes → Bytes → Bytes → Bool}

/-- A message that is signed is accepted where its key is trusted. -/
theorem accepts_iff {m : VerifyMessage} (hk : IsKey k)
    (hsigned : m.SignedBy deposit signatureVerifyStrict g k) :
    (signerStore pythLazer deposit signatureVerifyStrict admin).accepts g m k ↔
      ∃ s ∈ signersOf g, s.pubkey = k ∧ s.expiresAt > m.now := by
  obtain ⟨rfl, hlength, hverify, storage, hstorage, hfee, hdeposit⟩ := hsigned
  have hsigners : signersOf g = storage.trustedSigners := by
    rw [signersOf, hstorage]
    rfl
  have hlength : ¬m.signature.length ≠ 64 := not_not.mpr hlength
  have hkey : ¬m.trustedSigner.length ≠ ED25519_PUBLIC_KEY_LENGTH := not_not.mpr hk
  simp only [signerStore, true_and, verifyMessage, except_bind_eq_ok, assert_eq_ok, orAbort_eq_ok,
    exists_const, hstorage, Option.some.injEq, exists_eq_left', hfee, hdeposit, if_neg hlength,
    if_neg hkey, hverify, and_true, List.any_eq_true, decide_eq_true_eq, hsigners]

theorem aptos_refines
    (hstrict : ∀ signature message,
      signatureVerifyStrict signature (List.replicate 32 0) message = false) :
    Refines (signerStore pythLazer deposit signatureVerifyStrict admin) IsKey
      (List.replicate 32 0) (WellFormed admin) expiry where
  start := by
    rintro g ⟨treasury, pending, hinit, hclaim⟩
    simp only [initializeLazer, except_bind_eq_ok, assert_eq_ok, exists_const, Option.isSome_none,
      Bool.false_eq_true, if_false, Move.pure_eq_ok] at hinit
    obtain ⟨-, rfl⟩ := hinit
    simp only [claimAdminCapability, except_bind_eq_ok, assert_eq_ok, orAbort_eq_ok, exists_const,
      Bool.false_eq_true, if_false, Move.pure_eq_ok] at hclaim
    obtain ⟨-, -, -, rfl⟩ := hclaim
    have hadmin : Function.update (fun _ : AccountAddress => false) admin true admin = true :=
      Function.update_self _ _ _
    exact ⟨⟨hadmin, rfl, fun k _ => Nat.zero_le _⟩, fun k _ => rfl⟩
  step := by
    rintro ⟨k, e⟩ g g' hwell h
    obtain ⟨-, storage, hstorage, signers, hchange, rfl⟩ := (updateTrustedSigner_eq_ok hwell).mp h
    have hsigners : signersOf g = storage.trustedSigners := by
      rw [signersOf, hstorage]
      rfl
    have hsplice := changeSigners_splice (hsigners ▸ hwell.2.2) hchange
    refine ⟨⟨hwell.1, rfl, hsplice.distinct (hsigners ▸ hwell.2.2)⟩, fun k' _ => ?_⟩
    show lookup _ _ signers k' = if k = k' then _ else lookup _ _ (signersOf g) k'
    rw [hsigners]
    split
    · next heq =>
      subst heq
      exact hsplice.lookup_self trivial
    · next hne => exact hsplice.lookup_other trivial (Ne.symm hne)
  signed := by
    rintro ⟨k, e⟩ g g' m k' t h ⟨hnow, hkey, hlength, hverify, storage, hstorage, hfee, hdeposit⟩
    obtain ⟨_, -, h⟩ := except_bind_eq_ok.mp h
    obtain ⟨_, -, h⟩ := except_bind_eq_ok.mp h
    obtain ⟨storage', hstorage', h⟩ := except_bind_eq_ok.mp h
    obtain ⟨signers, -, h⟩ := except_bind_eq_ok.mp h
    cases hstorage.symm.trans (orAbort_eq_ok.mp hstorage')
    cases h
    exact ⟨hnow, hkey, hlength, hverify, _, rfl, hfee, hdeposit⟩
  accepts := by
    rintro g m k t hwell hk - ⟨rfl, hsigned⟩
    rw [accepts_iff hk hsigned]
    constructor
    · rintro ⟨s, hs, rfl, hexpires⟩
      exact ⟨s.expiresAt, lookup_of_mem hwell.2.2 trivial hs, hexpires⟩
    · rintro ⟨e, hlookup, hexpires⟩
      obtain ⟨s, hs, rfl⟩ := Option.map_eq_some_iff.mp hlookup
      have hkey := @List.find?_some _ (fun s : TrustedSignerInfo => decide (s.pubkey = k)) _ _ hs
      exact ⟨s, List.mem_of_find?_eq_some hs, of_decide_eq_true hkey, hexpires⟩
  zero := by
    rintro g m t ⟨-, -, -, hverify, -⟩ -
    rw [hstrict] at hverify
    cases hverify
  distinct hwell := hwell.2.2.nodup (List.Sublist.refl _) fun _ _ => trivial
  fails := by
    intro g k e hwell hk
    refine (updateTrustedSigner_aborts hwell hk).trans (and_congr_right fun _ => ?_)
    refine ⟨.inl, fun h => h.resolve_right ?_⟩
    intro h
    cases h

end

end PythCrosschain.LazerAptos
