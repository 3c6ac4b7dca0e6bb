import Mathlib.Data.Finset.Card
import Mathlib.Data.Finset.Dedup
import PythCrosschain.PythnetSdk.VerifiedUpdate
import PythCrosschain.SolanaReceiver.Program

/-!
# Solana receiver: where a price update comes from

What the account of a price update holds was posted by an instruction of the run, from a VAA
of a data source, and the account's verification level says how far that VAA was verified
(`Provenance`). Everything that is not posted stays, or is closed.

Results:
1. `verifySignatures_eq_ok`: an accepted list of signatures has as many signers as entries.
2. `exec_holdsUpdate`: what one instruction does to the account of a price update.
3. `price_update_provenance`: every price update in every state of every run has a provenance,
   and a read that demands a level gets a price with at least as many signatures.
-/

namespace PythCrosschain.SolanaReceiver

open Solana
open PythnetSdk hiding Pubkey

/-! ## Provenance -/

/-- The configuration of the program. -/
def HoldsConfig (env : Env) (ledger : ReceiverLedger) (config : Config) : Prop :=
  (ledger (configAddress env)).owner = ID ∧
    (ledger (configAddress env)).data = .value (.config config)

/-- The number of guardians that signed a VAA, and the number of guardians. -/
structure SignatureCount where
  signers : Nat
  guardians : Nat

/-- What a VAA was accepted for: its account, or its signatures and a guardian set. -/
inductive Evidence where
  | verified (account : AccountData ReceiverData)
  | signed (guardianSet : GuardianSet) (vaa : Vaa)

/-- The guardians that signed the VAA, by their indices. -/
def Vaa.signers (vaa : Vaa) : Finset UInt8 :=
  (vaa.signatures.map GuardianSetSig.guardianIndex).toFinset

/-- `counted` says how many guardians the Wormhole program has seen to have signed a VAA. -/
def Evidence.count (counted : AccountData ReceiverData → SignatureCount) :
    Evidence → SignatureCount
  | .verified account => counted account
  | .signed guardianSet vaa => ⟨vaa.signers.card, guardianSet.keys.length⟩

/-- The signature is one of the guardian with its index. -/
def SignsFor (env : Env) (guardianKeys : List (HashArray 20)) (digest : Bytes)
    (sig : GuardianSetSig) : Prop :=
  ∃ key, guardianKeys[sig.guardianIndex.toNat]? = some key ∧
    recoverKey env digest sig = some key.val

/-- The account is the one of an unexpired guardian set of the Wormhole program. -/
structure IsGuardianSet (env : Env) (ledger : ReceiverLedger) (clock : Clock) (wormhole key : Pubkey)
    (guardianSet : GuardianSet) : Prop where
  owner : (ledger key).owner = wormhole
  data : env.tryDeserializeGuardianSet (ledger key).data = .ok guardianSet
  address : guardianSetAddress env guardianSet.index wormhole = key
  active : env.isActive guardianSet clock.unixTimestamp = true

/-- The evidence is there, for a VAA with this emitter and this payload. -/
inductive Evidence.Holds (env : Env) (ledger : ReceiverLedger) (clock : Clock) (config : Config)
    (emitter : DataSource) (payload : Bytes) : Evidence → Prop
  | verified {key : Pubkey} {vaa : VaaAccount} :
      (ledger key).owner = config.wormhole → env.loadVaa (ledger key).data = .ok vaa →
      vaa.tryEmitterAddress = .ok emitter.emitter → vaa.tryEmitterChain = .ok emitter.chain →
      vaa.tryPayload = .ok payload →
      Holds env ledger clock config emitter payload (.verified (ledger key).data)
  | signed {key : Pubkey} {guardianSet : GuardianSet} {bytes : Bytes} {vaa : Vaa} :
      IsGuardianSet env ledger clock config.wormhole key guardianSet →
      env.parseVaa bytes = some vaa → vaa.guardianSetIndex = guardianSet.index →
      (∀ sig ∈ vaa.signatures, SignsFor env guardianSet.keys (vaa.digest env) sig) →
      vaa.emitterAddress = emitter.emitter → vaa.emitterChain = emitter.chain →
      vaa.payload = payload →
      Holds env ledger clock config emitter payload (.signed guardianSet vaa)

/-- The evidence is enough for the level: `Full` needs an account that is marked verified or a
quorum of signers, and `Partial` says exactly how many there are. -/
inductive Evidence.Supports (env : Env) (config : Config) : Evidence → VerificationLevel → Prop
  | verified (account : AccountData ReceiverData) : Supports env config (.verified account) .full
  | quorum {guardianSet : GuardianSet} {vaa : Vaa} :
      env.quorum guardianSet.keys.length ≤ vaa.signers.card →
      Supports env config (.signed guardianSet vaa) .full
  | partially {guardianSet : GuardianSet} {vaa : Vaa} {k : UInt8} :
      vaa.signers.card = k.toNat → config.minimumSignatures ≤ k →
      k.toNat < env.quorum guardianSet.keys.length →
      Supports env config (.signed guardianSet vaa) (.partially k)

/-- An update that was posted with this configuration: its message is proven by the root in a
VAA of a data source, and its level is that of the VAA. -/
structure Provenance (env : Env) (ledger : ReceiverLedger) (clock : Clock) (config : Config)
    (evidence : Evidence) (update : PriceUpdateV2) : Prop where
  vaa : ∃ emitter ∈ config.validDataSources, ∃ payload root,
    evidence.Holds env ledger clock config emitter payload ∧ CarriesRoot payload root ∧
    ∃ merklePriceUpdate : MerklePriceUpdate,
      merklePriceUpdate.Proves env.hasher root update.priceMessage
  level : evidence.Supports env config update.verificationLevel

/-- The update in the account was posted by one of the calls. The evidence is in the accounts
that this call found; only the account of the update itself may have been created by it. -/
def PostedBy (env : Env) (start : ReceiverLedger) (calls : List Call) (key : Pubkey)
    (evidence : Evidence) (update : PriceUpdateV2) : Prop :=
  ∃ before call after config ledger, calls = before ++ call :: after ∧
    HoldsConfig env (runAll (Call.exec env) start before) config ∧
    (∀ k, k ≠ key → Ledger.Same (runAll (Call.exec env) start before) ledger k) ∧
    Provenance env ledger call.clock config evidence update

/-- The signatures that a level demands, which is never more than a quorum. -/
def VerificationLevel.MetBy (quorum : Nat → Nat) (count : SignatureCount) :
    VerificationLevel → Prop
  | .full => quorum count.guardians ≤ count.signers
  | .partially j => j.toNat ≤ quorum count.guardians → j.toNat ≤ count.signers

section

variable {env : Env} {ledger ledger' : ReceiverLedger} {clock : Clock} {config : Config}

/-! ## Loading accounts -/

theorem loadConfig_eq_ok {key : Pubkey} :
    loadConfig ledger key = .ok config ↔
      (ledger key).owner = ID ∧ (ledger key).data = .value (.config config) := by
  simp only [loadConfig, except_bind_eq_ok, check_eq_ok, exists_const]
  refine and_congr_right fun _ => ?_
  split
  · next config' hdata => simp only [hdata, Rust.pure_eq_ok, AccountData.value.injEq,
      ReceiverData.config.injEq]
  · next hdata =>
    refine iff_of_false ?_ (hdata _)
    intro h
    cases h

theorem loadPriceUpdate_eq_ok {key : Pubkey} {update : PriceUpdateV2} :
    loadPriceUpdate ledger key = .ok update ↔ HoldsUpdate ledger key update := by
  simp only [loadPriceUpdate, HoldsUpdate, except_bind_eq_ok, check_eq_ok, exists_const]
  refine and_congr_right fun _ => ?_
  split
  · next update' hdata => simp only [hdata, Rust.pure_eq_ok, AccountData.value.injEq,
      ReceiverData.priceUpdate.injEq]
  · next hdata =>
    refine iff_of_false ?_ (hdata _)
    intro h
    cases h

theorem HoldsUpdate.of_same {key : Pubkey} {update : PriceUpdateV2}
    (h : HoldsUpdate ledger' key update) (hsame : Ledger.Same ledger ledger' key) :
    HoldsUpdate ledger key update :=
  ⟨hsame.owner ▸ h.1, hsame.data ▸ h.2⟩

theorem HoldsUpdate.unique {key : Pubkey} {update update' : PriceUpdateV2}
    (h : HoldsUpdate ledger key update) (h' : HoldsUpdate ledger key update') :
    update = update' := by
  have heq := h.2.symm.trans h'.2
  simpa using heq

/-- The account that an update is posted to: a free one that signs is created, or it holds an
update that the write authority may replace. -/
structure PostAccounts.Admits (accounts : PostAccounts) (ledger ledger' : ReceiverLedger) : Prop
    where
  writeAuthority : accounts.writeAuthority.isSigner = true
  target :
    accounts.priceUpdateAccount.isSigner = true ∧ ledger.Free accounts.priceUpdateAccount.pubkey ∨
    ∃ update, HoldsUpdate ledger accounts.priceUpdateAccount.pubkey update ∧
      (update.writeAuthority = default ∨ update.writeAuthority = accounts.writeAuthority.pubkey)
  owner : (ledger' accounts.priceUpdateAccount.pubkey).owner = ID
  same : ∀ k, k ≠ accounts.priceUpdateAccount.pubkey → Ledger.Same ledger ledger' k

theorem initPriceUpdate_ok {payer target : AccountMeta} {update : PriceUpdateV2}
    (h : initPriceUpdate env ledger payer target = .ok (ledger', update)) :
    (target.isSigner = true ∧ ledger.Free target.pubkey ∨
      HoldsUpdate ledger target.pubkey update) ∧
    (ledger' target.pubkey).owner = ID ∧
      ∀ k, k ≠ target.pubkey → Ledger.Same ledger ledger' k := by
  unfold initPriceUpdate at h
  split at h
  · obtain ⟨_, hcreate, hpure⟩ := except_bind_eq_ok.mp h
    cases hpure
    obtain ⟨hsigner, hfree, howner, -, hsame⟩ := Ledger.initAccount_eq_ok hcreate
    exact ⟨.inl ⟨hsigner, hfree⟩, howner, hsame⟩
  · obtain ⟨_, hload, hpure⟩ := except_bind_eq_ok.mp h
    cases hpure
    have hheld := loadPriceUpdate_eq_ok.mp hload
    exact ⟨.inr hheld, hheld.1, fun k _ => ⟨rfl, rfl⟩⟩

theorem tryAccounts_ok {accounts : PostAccounts} {source : AccountMeta} {e : ReceiverError}
    {treasuryId : UInt8} {update : PriceUpdateV2}
    (h : accounts.tryAccounts env source e treasuryId ledger = .ok (ledger', config, update)) :
    HoldsConfig env ledger config ∧ (ledger' source.pubkey).owner = config.wormhole ∧
      accounts.Admits ledger ledger' := by
  simp only [PostAccounts.tryAccounts, except_bind_eq_ok, signer_eq_ok, check_eq_ok,
    require_eq_ok, loadConfig_eq_ok, Rust.pure_eq_ok, exists_const] at h
  obtain ⟨-, config', hconfig, -, hauthority, ⟨created, found⟩, hinit, -, hsource, haddress, -, -,
    -, hwrites, heq⟩ := h
  cases heq
  rw [haddress] at hconfig
  obtain ⟨htarget, howner, hsame⟩ := initPriceUpdate_ok hinit
  exact ⟨hconfig, hsource, hauthority, htarget.imp_right fun hheld => ⟨_, hheld, hwrites⟩, howner,
    hsame⟩

/-! ## Verifying the signatures -/

theorem verifyGuardianSignature_eq_ok {sig : GuardianSetSig} {key : HashArray 20} {digest : Bytes}
    {u : Unit} :
    verifyGuardianSignature env sig key digest = .ok u ↔
      recoverKey env digest sig = some key.val := by
  simp only [verifyGuardianSignature, except_bind_eq_ok, Rust.okOr_eq_ok, require_eq_ok]
  constructor
  · rintro ⟨_, hrecover, heq⟩
    exact heq ▸ hrecover
  · intro hrecover
    exact ⟨_, hrecover, rfl⟩

/-- The signatures are accepted exactly when the indices increase and every signature is one
of the guardian with its index. -/
theorem verifySignatures_eq_ok {keys : List (HashArray 20)} {digest : Bytes} {last : Option Nat}
    {signatures : List GuardianSetSig} {u : Unit} :
    verifySignatures env keys digest last signatures = .ok u ↔
      (∀ sig ∈ signatures, ∀ l ∈ last, l < sig.guardianIndex.toNat) ∧
        signatures.Pairwise (fun a b => a.guardianIndex.toNat < b.guardianIndex.toNat) ∧
        ∀ sig ∈ signatures, SignsFor env keys digest sig := by
  induction signatures generalizing last with
  | nil => simp [verifySignatures]
  | cons sig signatures ih =>
    simp only [verifySignatures, except_bind_eq_ok, require_eq_ok, Rust.okOr_eq_ok,
      verifyGuardianSignature_eq_ok, ih, exists_const, Option.mem_some_iff, forall_eq',
      List.forall_mem_cons, List.pairwise_cons]
    constructor
    · rintro ⟨horder, key, hkey, hrecover, hnext, hpairwise, hsigns⟩
      refine ⟨⟨horder, fun s hs l hl => ?_⟩, ⟨hnext, hpairwise⟩, ⟨key, hkey, hrecover⟩, hsigns⟩
      exact (horder l hl).trans (hnext s hs)
    · rintro ⟨⟨horder, -⟩, ⟨hnext, hpairwise⟩, ⟨key, hkey, hrecover⟩, hsigns⟩
      exact ⟨horder, key, hkey, hrecover, hnext, hpairwise, hsigns⟩

/-- A VAA with increasing indices has as many signers as signatures. -/
theorem card_signers {vaa : Vaa}
    (h : vaa.signatures.Pairwise (fun a b => a.guardianIndex.toNat < b.guardianIndex.toNat)) :
    vaa.signers.card = vaa.signatures.length := by
  have hnodup : (vaa.signatures.map GuardianSetSig.guardianIndex).Nodup := by
    refine List.pairwise_map.mpr (h.imp fun hlt heq => ?_)
    rw [heq] at hlt
    exact lt_irrefl _ hlt
  rw [Vaa.signers, List.toFinset_card_of_nodup hnodup, List.length_map]

/-- The crate counts the signatures that it returns. -/
def CountsSignatures (env : Env) : Prop :=
  ∀ bytes vaa, env.parseVaa bytes = some vaa →
    vaa.signatures.length = vaa.signatureCount.toNat

theorem verifyVaa_ok (hcount : CountsSignatures env) {key : Pubkey} {bytes : Bytes} {vaa : Vaa}
    {level : VerificationLevel} (howner : (ledger key).owner = config.wormhole)
    (h : verifyVaa env clock config key bytes ledger = .ok (vaa, level)) :
    ∃ guardianSet,
      Evidence.Holds env ledger clock config ⟨vaa.emitterChain, vaa.emitterAddress⟩ vaa.payload
        (.signed guardianSet vaa) ∧
      Evidence.Supports env config (.signed guardianSet vaa) level := by
  simp only [verifyVaa, deserializeGuardianSetChecked, except_bind_eq_ok, require_eq_ok,
    Rust.okOr_eq_ok, verifySignatures_eq_ok, Rust.pure_eq_ok, exists_const, Prod.mk.injEq] at h
  obtain ⟨guardianSet, ⟨_, hdata, haddress, hactive, rfl⟩, vaa', hparse, -, hindex, hminimum,
    ⟨-, hpairwise, hsigns⟩, rfl, rfl⟩ := h
  refine ⟨_, .signed ⟨howner, hdata, haddress, hactive⟩ hparse hindex hsigns rfl rfl rfl, ?_⟩
  have hcard := (card_signers hpairwise).trans (hcount _ _ hparse)
  split
  · next hquorum => exact .quorum (hcard ▸ hquorum)
  · next hquorum => exact .partially hcard hminimum (not_le.mp hquorum)

/-! ## Posting -/

theorem verifyMerkleProof_ok {payload : Bytes} {merklePriceUpdate : MerklePriceUpdate}
    {msg : PriceFeedMessage}
    (h : verifyMerkleProof env payload merklePriceUpdate = .ok (.priceFeedMessage msg)) :
    ∃ root, CarriesRoot payload root ∧ merklePriceUpdate.Proves env.hasher root msg := by
  unfold verifyMerkleProof at h
  split at h
  · cases h
  · next wormholeMessage hmessage =>
    split at h
    next merkleRoot hroot =>
    split at h
    · cases h
    · next hcheck =>
      split at h
      · cases h
      · next message rest hparsed =>
        cases h
        refine ⟨merkleRoot.root, ⟨_, hmessage, ?_⟩, ⟨not_not.mp hcheck, rest, hparsed⟩⟩
        rw [hroot, WormholePayload.root]

theorem postPriceUpdateFromVaa_ok {accounts : PostAccounts} {components : VaaComponents}
    {payload : Bytes} {merklePriceUpdate : MerklePriceUpdate}
    (hadmits : (ledger accounts.priceUpdateAccount.pubkey).owner = ID)
    (h : postPriceUpdateFromVaa env clock config accounts components payload merklePriceUpdate
      ledger = .ok ledger') :
    ∃ msg root, ⟨components.emitterChain, components.emitterAddress⟩ ∈ config.validDataSources ∧
      CarriesRoot payload root ∧ merklePriceUpdate.Proves env.hasher root msg ∧
      HoldsUpdate ledger' accounts.priceUpdateAccount.pubkey
        { writeAuthority := accounts.writeAuthority.pubkey
          verificationLevel := components.verificationLevel
          priceMessage := msg
          postedSlot := clock.slot } ∧
      ∀ k, k ≠ accounts.priceUpdateAccount.pubkey → Ledger.Same ledger ledger' k := by
  obtain ⟨paid, hpaid, h⟩ := except_bind_eq_ok.mp h
  obtain ⟨_, hsource, h⟩ := except_bind_eq_ok.mp h
  obtain ⟨message, hmessage, h⟩ := except_bind_eq_ok.mp h
  have hsame : ∀ k, Ledger.Same ledger paid k := by
    obtain ⟨_, -, htransfer⟩ := except_bind_eq_ok.mp hpaid
    exact Ledger.same_transfer htransfer
  cases message with
  | priceFeedMessage msg =>
    cases h
    obtain ⟨root, hcarries, hproves⟩ := verifyMerkleProof_ok hmessage
    refine ⟨msg, root, require_eq_ok.mp hsource, hcarries, hproves, ⟨?_, ?_⟩, fun k hk => ?_⟩
    · rw [Function.update_self]
      exact (hsame _).owner.trans hadmits
    · rw [Function.update_self]
    · exact (hsame k).trans (Ledger.same_update paid _ hk)
  | twapMessage msg => cases h
  | publisherStakeCapsMessage msg => cases h

/-- What an instruction that posts an update does to the accounts. -/
structure PostAccounts.Writes (clock : Clock) (accounts : PostAccounts)
    (merklePriceUpdate : MerklePriceUpdate) (ledger ledger' : ReceiverLedger)
    (update : PriceUpdateV2) : Prop where
  admits : ∃ during, accounts.Admits ledger during
  writeAuthority : update.writeAuthority = accounts.writeAuthority.pubkey
  message : ∃ rest, Message.schema.fromSlice .BE merklePriceUpdate.message =
    .ok (.priceFeedMessage update.priceMessage, rest)
  postedSlot : update.postedSlot = clock.slot
  held : HoldsUpdate ledger' accounts.priceUpdateAccount.pubkey update
  same : ∀ k, k ≠ accounts.priceUpdateAccount.pubkey → Ledger.Same ledger ledger' k

/-- The update that is written, and where it comes from. -/
structure PostAccounts.Posts (env : Env) (clock : Clock) (accounts : PostAccounts)
    (merklePriceUpdate : MerklePriceUpdate) (ledger ledger' : ReceiverLedger)
    (update : PriceUpdateV2) : Prop
    extends accounts.Writes clock merklePriceUpdate ledger ledger' update where
  provenance : ∃ config evidence during, HoldsConfig env ledger config ∧
    accounts.Admits ledger during ∧ Provenance env during clock config evidence update

section Post

variable {accounts : PostAccounts} {during : ReceiverLedger} {components : VaaComponents}
  {payload : Bytes} {merklePriceUpdate : MerklePriceUpdate}

theorem writes_of_post (hadmits : accounts.Admits ledger during)
    (h : postPriceUpdateFromVaa env clock config accounts components payload merklePriceUpdate
      during = .ok ledger') :
    ∃ update, accounts.Writes clock merklePriceUpdate ledger ledger' update ∧
      update.verificationLevel = components.verificationLevel ∧
      ⟨components.emitterChain, components.emitterAddress⟩ ∈ config.validDataSources ∧
      ∃ root, CarriesRoot payload root ∧
        merklePriceUpdate.Proves env.hasher root update.priceMessage := by
  obtain ⟨msg, root, hsource, hcarries, hproves, hheld, hsame⟩ :=
    postPriceUpdateFromVaa_ok hadmits.owner h
  exact ⟨_, ⟨⟨during, hadmits⟩, rfl, hproves.message, rfl, hheld,
    fun k hk => (hadmits.same k hk).trans (hsame k hk)⟩, rfl, hsource, root, hcarries, hproves⟩

theorem posts_of_evidence {evidence : Evidence} (hconfig : HoldsConfig env ledger config)
    (hadmits : accounts.Admits ledger during)
    (hevidence : evidence.Holds env during clock config
      ⟨components.emitterChain, components.emitterAddress⟩ payload)
    (hsupports : evidence.Supports env config components.verificationLevel)
    (h : postPriceUpdateFromVaa env clock config accounts components payload merklePriceUpdate
      during = .ok ledger') :
    ∃ update, accounts.Posts env clock merklePriceUpdate ledger ledger' update := by
  obtain ⟨update, hwrites, hlevel, hsource, root, hcarries, hproves⟩ := writes_of_post hadmits h
  refine ⟨update, hwrites, config, evidence, during, hconfig, hadmits, ?_, hlevel ▸ hsupports⟩
  exact ⟨_, hsource, payload, root, hevidence, hcarries, _, hproves⟩

end Post

/-- The accounts and the update of an instruction that posts one. -/
def Instruction.posting : Instruction → Option (PostAccounts × MerklePriceUpdate)
  | .postUpdate accounts params => some (accounts.toPostAccounts, params.merklePriceUpdate)
  | .postUpdateAtomic accounts params => some (accounts.toPostAccounts, params.merklePriceUpdate)
  | _ => none

theorem postUpdate_writes {accounts : PostUpdate} {params : PostUpdateParams}
    (h : postUpdate env clock accounts params ledger = .ok ledger') :
    ∃ update, accounts.Writes clock params.merklePriceUpdate ledger ledger' update ∧
      update.verificationLevel = .full := by
  obtain ⟨⟨during, config, found⟩, haccounts, h⟩ := except_bind_eq_ok.mp h
  obtain ⟨vaa, -, h⟩ := except_bind_eq_ok.mp h
  obtain ⟨emitterAddress, -, h⟩ := except_bind_eq_ok.mp h
  obtain ⟨emitterChain, -, h⟩ := except_bind_eq_ok.mp h
  obtain ⟨payload, -, h⟩ := except_bind_eq_ok.mp h
  obtain ⟨update, hwrites, hlevel, -⟩ := writes_of_post (tryAccounts_ok haccounts).2.2 h
  exact ⟨update, hwrites, hlevel⟩

theorem postUpdateAtomic_writes {accounts : PostUpdateAtomic} {params : PostUpdateAtomicParams}
    (h : postUpdateAtomic env clock accounts params ledger = .ok ledger') :
    ∃ update, accounts.Writes clock params.merklePriceUpdate ledger ledger' update := by
  obtain ⟨⟨during, config, found⟩, haccounts, h⟩ := except_bind_eq_ok.mp h
  obtain ⟨⟨vaa, level⟩, -, h⟩ := except_bind_eq_ok.mp h
  obtain ⟨update, hwrites, -⟩ := writes_of_post (tryAccounts_ok haccounts).2.2 h
  exact ⟨update, hwrites⟩

theorem exec_posts (hcount : CountsSignatures env) {call : Call} {accounts : PostAccounts}
    {merklePriceUpdate : MerklePriceUpdate} (h : call.exec env ledger = .ok ledger')
    (hposting : call.instruction.posting = some (accounts, merklePriceUpdate)) :
    ∃ update, accounts.Posts env call.clock merklePriceUpdate ledger ledger' update := by
  unfold Call.exec at h
  cases hinstruction : call.instruction with
  | postUpdate accounts params =>
    rw [hinstruction] at h hposting
    cases hposting
    obtain ⟨⟨during, config, found⟩, haccounts, h⟩ := except_bind_eq_ok.mp h
    obtain ⟨vaa, hvaa, h⟩ := except_bind_eq_ok.mp h
    obtain ⟨emitterAddress, haddress, h⟩ := except_bind_eq_ok.mp h
    obtain ⟨emitterChain, hchain, h⟩ := except_bind_eq_ok.mp h
    obtain ⟨payload, hpayload, h⟩ := except_bind_eq_ok.mp h
    obtain ⟨hconfig, howner, hadmits⟩ := tryAccounts_ok haccounts
    exact posts_of_evidence hconfig hadmits (.verified howner hvaa haddress hchain hpayload)
      (.verified _) h
  | postUpdateAtomic accounts params =>
    rw [hinstruction] at h hposting
    cases hposting
    obtain ⟨⟨during, config, found⟩, haccounts, h⟩ := except_bind_eq_ok.mp h
    obtain ⟨⟨vaa, level⟩, hvaa, h⟩ := except_bind_eq_ok.mp h
    obtain ⟨hconfig, howner, hadmits⟩ := tryAccounts_ok haccounts
    obtain ⟨guardianSet, hevidence, hsupports⟩ := verifyVaa_ok hcount howner hvaa
    exact posts_of_evidence hconfig hadmits hevidence hsupports h
  | initializeConfig accounts initialConfig =>
    rw [hinstruction] at hposting
    cases hposting
  | governance accounts action =>
    rw [hinstruction] at hposting
    cases hposting
  | acceptGovernanceAuthorityTransfer accounts =>
    rw [hinstruction] at hposting
    cases hposting
  | reclaimRent accounts =>
    rw [hinstruction] at hposting
    cases hposting
  | other outcome =>
    rw [hinstruction] at hposting
    cases hposting

/-! ## One instruction -/

/-- Both ledgers have the same price update in the account, or none. -/
def KeepsUpdate (ledger ledger' : ReceiverLedger) (key : Pubkey) : Prop :=
  ∀ update, HoldsUpdate ledger' key update ↔ HoldsUpdate ledger key update

theorem keepsUpdate_of_same {key : Pubkey} (h : Ledger.Same ledger ledger' key) :
    KeepsUpdate ledger ledger' key := by
  intro update
  unfold HoldsUpdate
  rw [h.owner, h.data]

theorem keepsUpdate_of_none {key : Pubkey} (h : ∀ update, ¬ HoldsUpdate ledger key update)
    (h' : ∀ update, ¬ HoldsUpdate ledger' key update) : KeepsUpdate ledger ledger' key :=
  fun update => iff_of_false (h' update) (h update)

theorem not_holdsUpdate_of_system {key : Pubkey}
    (howner : (ledger key).owner = SYSTEM_PROGRAM_ID) (update : PriceUpdateV2) :
    ¬ HoldsUpdate ledger key update := by
  intro h
  have hid : ID = SYSTEM_PROGRAM_ID := h.1.symm.trans howner
  exact absurd hid (by decide)

theorem setConfig_keeps {address : Pubkey} (h : ∀ update, ¬ HoldsUpdate ledger address update)
    (key : Pubkey) : KeepsUpdate ledger (setConfig ledger address config) key := by
  unfold setConfig
  rcases eq_or_ne key address with rfl | hne
  · refine keepsUpdate_of_none h fun update hheld => ?_
    have hdata := hheld.2
    rw [Function.update_self] at hdata
    cases hdata
  · exact keepsUpdate_of_same (Ledger.same_update ledger _ hne)

theorem initializeConfig_keeps {accounts : Initialize}
    (h : initializeConfig env accounts config ledger = .ok ledger') (key : Pubkey) :
    KeepsUpdate ledger ledger' key := by
  simp only [initializeConfig, except_bind_eq_ok, Rust.pure_eq_ok] at h
  obtain ⟨_, -, _, -, _, -, created, hcreate, _, -, _, -, rfl⟩ := h
  obtain ⟨-, hfree, -, hraw, hsame⟩ := Ledger.initAccount_eq_ok hcreate
  have hnone : ∀ update, ¬ HoldsUpdate created accounts.config.pubkey update := by
    intro update hheld
    cases hraw.symm.trans hheld.2
  intro update
  refine (setConfig_keeps hnone key update).trans ?_
  rcases eq_or_ne key accounts.config.pubkey with rfl | hne
  · exact keepsUpdate_of_none (not_holdsUpdate_of_system hfree.1) hnone update
  · exact keepsUpdate_of_same (hsame key hne) update

theorem Governance.tryAccounts_ok {accounts : Governance}
    (h : accounts.tryAccounts env ledger = .ok config) (update : PriceUpdateV2) :
    ¬ HoldsUpdate ledger accounts.config.pubkey update := by
  simp only [Governance.tryAccounts, except_bind_eq_ok, loadConfig_eq_ok] at h
  obtain ⟨_, -, _, ⟨-, hdata⟩, -⟩ := h
  intro hheld
  cases hdata.symm.trans hheld.2

theorem governance_keeps {accounts : Governance} {action : GovernanceAction}
    (h : governance env accounts action ledger = .ok ledger') (key : Pubkey) :
    KeepsUpdate ledger ledger' key := by
  simp only [governance, except_bind_eq_ok, Rust.pure_eq_ok] at h
  obtain ⟨_, haccounts, _, -, _, -, rfl⟩ := h
  exact setConfig_keeps (Governance.tryAccounts_ok haccounts) key

theorem acceptGovernanceAuthorityTransfer_keeps {accounts : Governance}
    (h : acceptGovernanceAuthorityTransfer env accounts ledger = .ok ledger') (key : Pubkey) :
    KeepsUpdate ledger ledger' key := by
  simp only [acceptGovernanceAuthorityTransfer, except_bind_eq_ok, Rust.pure_eq_ok] at h
  obtain ⟨_, haccounts, _, -, _, -, rfl⟩ := h
  exact setConfig_keeps (Governance.tryAccounts_ok haccounts) key

theorem afterOthers_keeps (ledger outcome : ReceiverLedger) (key : Pubkey) :
    KeepsUpdate ledger (afterOthers ledger outcome) key := by
  intro update
  unfold HoldsUpdate afterOthers
  split
  · exact Iff.rfl
  · next howner =>
    refine iff_of_false ?_ fun h => howner h.1
    split
    · exact fun h => nomatch h.2
    · next houtcome => exact fun h => houtcome h.1

/-- The account is closed by its write authority. -/
structure ReclaimRent.Closes (accounts : ReclaimRent) (ledger ledger' : ReceiverLedger) : Prop where
  signer : accounts.payer.isSigner = true
  held : ∃ update, HoldsUpdate ledger accounts.priceUpdateAccount.pubkey update ∧
    update.writeAuthority = accounts.payer.pubkey
  closed : ∀ update, ¬ HoldsUpdate ledger' accounts.priceUpdateAccount.pubkey update
  same : ∀ k, k ≠ accounts.priceUpdateAccount.pubkey → Ledger.Same ledger ledger' k

theorem reclaimRent_closes {accounts : ReclaimRent}
    (h : reclaimRent accounts ledger = .ok ledger') : accounts.Closes ledger ledger' := by
  simp only [reclaimRent, except_bind_eq_ok, signer_eq_ok, check_eq_ok, require_eq_ok,
    loadPriceUpdate_eq_ok, Rust.pure_eq_ok, exists_const] at h
  obtain ⟨hsigner, update, hheld, -, -, hauthority, -, rfl⟩ := h
  refine ⟨hsigner, ⟨update, hheld, hauthority⟩, not_holdsUpdate_of_system ?_,
    fun k hk => Ledger.same_close ledger _ hk⟩
  rw [Ledger.close_self]

/-- An instruction keeps the price update of an account, or posts one to it, or closes it. -/
theorem exec_cases {call : Call} (h : call.exec env ledger = .ok ledger') (key : Pubkey) :
    KeepsUpdate ledger ledger' key ∨
    (∃ accounts merklePriceUpdate update,
      call.instruction.posting = some (accounts, merklePriceUpdate) ∧
      accounts.priceUpdateAccount.pubkey = key ∧
      accounts.Writes call.clock merklePriceUpdate ledger ledger' update) ∨
    ∃ accounts, call.instruction = .reclaimRent accounts ∧
      accounts.priceUpdateAccount.pubkey = key ∧ accounts.Closes ledger ledger' := by
  unfold Call.exec at h
  cases hinstruction : call.instruction with
  | initializeConfig accounts initialConfig =>
    rw [hinstruction] at h
    exact .inl (initializeConfig_keeps h key)
  | governance accounts action =>
    rw [hinstruction] at h
    exact .inl (governance_keeps h key)
  | acceptGovernanceAuthorityTransfer accounts =>
    rw [hinstruction] at h
    exact .inl (acceptGovernanceAuthorityTransfer_keeps h key)
  | postUpdate accounts params =>
    rw [hinstruction] at h
    obtain ⟨update, hwrites, -⟩ := postUpdate_writes h
    rcases eq_or_ne key accounts.priceUpdateAccount.pubkey with rfl | hne
    · exact .inr (.inl ⟨_, _, update, rfl, rfl, hwrites⟩)
    · exact .inl (keepsUpdate_of_same (hwrites.same key hne))
  | postUpdateAtomic accounts params =>
    rw [hinstruction] at h
    obtain ⟨update, hwrites⟩ := postUpdateAtomic_writes h
    rcases eq_or_ne key accounts.priceUpdateAccount.pubkey with rfl | hne
    · exact .inr (.inl ⟨_, _, update, rfl, rfl, hwrites⟩)
    · exact .inl (keepsUpdate_of_same (hwrites.same key hne))
  | reclaimRent accounts =>
    rw [hinstruction] at h
    have hcloses := reclaimRent_closes h
    rcases eq_or_ne key accounts.priceUpdateAccount.pubkey with rfl | hne
    · exact .inr (.inr ⟨accounts, rfl, rfl, hcloses⟩)
    · exact .inl (keepsUpdate_of_same (hcloses.same key hne))
  | other outcome =>
    rw [hinstruction] at h
    cases h
    exact .inl (afterOthers_keeps ledger outcome key)

/-- The update in an account after an instruction was there before, or was just posted. -/
theorem exec_holdsUpdate (hcount : CountsSignatures env) {call : Call} {key : Pubkey}
    {update : PriceUpdateV2} (h : call.exec env ledger = .ok ledger')
    (hheld : HoldsUpdate ledger' key update) :
    HoldsUpdate ledger key update ∨
      ∃ (accounts : PostAccounts) (merklePriceUpdate : MerklePriceUpdate),
        accounts.priceUpdateAccount.pubkey = key ∧
        accounts.Posts env call.clock merklePriceUpdate ledger ledger' update := by
  rcases exec_cases h key with hkeeps | ⟨accounts, _, _, hposting, rfl, -⟩ |
    ⟨accounts, -, rfl, hcloses⟩
  · exact .inl ((hkeeps update).mp hheld)
  · obtain ⟨posted, hposts⟩ := exec_posts hcount h hposting
    obtain rfl := hheld.unique hposts.held
    exact .inr ⟨accounts, _, rfl, hposts⟩
  · exact absurd hheld (hcloses.closed update)

/-! ## Runs -/

/-- The program has not written to any account yet. -/
def Fresh (ledger : ReceiverLedger) : Prop :=
  ∀ key, (ledger key).owner = ID → ∃ bytes, (ledger key).data = .raw bytes

theorem PostedBy.append {start : ReceiverLedger} {calls : List Call} {key : Pubkey}
    {evidence : Evidence} {update : PriceUpdateV2} (h : PostedBy env start calls key evidence update)
    (more : List Call) : PostedBy env start (calls ++ more) key evidence update := by
  obtain ⟨before, call, after, config, ledger, rfl, hrest⟩ := h
  exact ⟨before, call, after ++ more, config, ledger, by simp, hrest⟩

theorem exists_postedBy (hcount : CountsSignatures env) {start : ReceiverLedger}
    (hfresh : Fresh start) {key : Pubkey} {update : PriceUpdateV2} (calls : List Call)
    (hheld : HoldsUpdate (runAll (Call.exec env) start calls) key update) :
    ∃ evidence, PostedBy env start calls key evidence update := by
  induction calls using List.reverseRecOn generalizing update with
  | nil =>
    obtain ⟨bytes, hraw⟩ := hfresh key hheld.1
    cases hraw.symm.trans hheld.2
  | append_singleton calls call ih =>
    rw [runAll, List.foldl_append, List.foldl_cons, List.foldl_nil] at hheld
    change HoldsUpdate (submit (Call.exec env) (runAll (Call.exec env) start calls) call) key update
      at hheld
    have hkeep : HoldsUpdate (runAll (Call.exec env) start calls) key update →
        ∃ evidence, PostedBy env start (calls ++ [call]) key evidence update := fun h => by
      obtain ⟨evidence, hposted⟩ := ih h
      exact ⟨evidence, hposted.append [call]⟩
    cases hexec : call.exec env (runAll (Call.exec env) start calls) with
    | error e =>
      rw [submit_of_error hexec] at hheld
      exact hkeep hheld
    | ok ledger' =>
      rw [submit_of_ok hexec] at hheld
      rcases exec_holdsUpdate hcount hexec hheld with hheld | ⟨accounts, _, rfl, hposts⟩
      · exact hkeep hheld
      · obtain ⟨config, evidence, during, hconfig, hadmits, hprovenance⟩ := hposts.provenance
        exact ⟨evidence, calls, call, [], config, during, rfl, hconfig, hadmits.same, hprovenance⟩

/-- The Wormhole program only marks a VAA as verified that a quorum of guardians has signed,
and the crate only loads what is marked. -/
def LoadsVerified (env : Env) (counted : AccountData ReceiverData → SignatureCount) : Prop :=
  ∀ account vaa, env.loadVaa account = .ok vaa →
    env.quorum (counted account).guardians ≤ (counted account).signers

theorem Evidence.Supports.metBy {counted : AccountData ReceiverData → SignatureCount}
    {evidence : Evidence} {level demanded : VerificationLevel} {emitter : DataSource}
    {payload : Bytes} (hload : LoadsVerified env counted)
    (hholds : evidence.Holds env ledger clock config emitter payload)
    (hsupports : evidence.Supports env config level) (hgte : level.gte demanded = true) :
    demanded.MetBy env.quorum (evidence.count counted) := by
  cases hsupports with
  | verified account =>
    cases hholds with
    | verified _ hvaa _ _ _ =>
      cases demanded with
      | full => exact hload _ _ hvaa
      | partially j => exact fun hj => hj.trans (hload _ _ hvaa)
  | quorum hquorum =>
    cases demanded with
    | full => exact hquorum
    | partially j => exact fun hj => hj.trans hquorum
  | partially hcard _ _ =>
    cases demanded with
    | full => cases hgte
    | partially j =>
      intro _
      show j.toNat ≤ _
      rw [Evidence.count, hcard]
      exact UInt8.le_iff_toNat_le.mp (of_decide_eq_true hgte)

end

/-! ### A partially verified update

The program is initialised, an update is posted with the signature of one of two guardians, and
the governance asks for two signatures from then on. -/

def exKey (n : Nat) : Pubkey := ⟨bytesBE 32 n, length_bytesBE _ _⟩

def exWormhole : Pubkey :=
  exKey 0xf10bb4e50d56fda13dfe1f329b8d393dd24a014591e1831697940d7c34a38ddd

def exConfigAddress : Pubkey :=
  exKey 0xbae1bb9944f34be785c134f550944ce69643e680a7eb8d516fdd826ffd3a3862

def exTreasury : Pubkey :=
  exKey 0x725bcbeecd8f47fa20980af4cfebb40ca82f91413fb7b64c101b341ee736ea1d

def exGuardianSetAddress : Pubkey :=
  exKey 0xa5160c2e148dc08066714bfdee1f7a8c39d34eebdba446ba0b4a1f8715eafc3f

def exFeedId : FeedId :=
  exKey 0xe62df6c8b4a85fe1a67db44dc12de5db330f7ac66b72dc658afedf0f4a415b43

def exMessage : PriceFeedMessage where
  feedId := exFeedId
  price := 6000000000000
  conf := 300000000
  exponent := -8
  publishTime := 1700000000
  prevPublishTime := 1699999999
  emaPrice := 6010000000000
  emaConf := 310000000

def exMessageBytes : Bytes :=
  (Message.schema.toVec .BE (.priceFeedMessage exMessage)).toOption.getD []

/-- The root of the tree with this message only. -/
def exRoot : HashArray 20 := HashArray.ofNat 20 0x340ae4895219a6feb62fd8948b24f3bdc76c4cc7

def exSource : DataSource where
  chain := 26
  emitter := exKey 0xe101faedac5851e32b9b23b5f9411a8c2bac4aae3ed4dd7b811dd1a72ea4aa71

def exPayload : Bytes :=
  bytesBE 4 0x41555756 ++ [0] ++ bytesBE 8 100 ++ bytesBE 4 10000 ++ exRoot.val

def exBody : Bytes :=
  bytesBE 4 1700000001 ++ bytesBE 4 0 ++ bytesBE 2 26 ++ exSource.emitter.val ++ bytesBE 8 5000 ++
    [1] ++ exPayload

def exSig : GuardianSetSig where
  guardianIndex := 0
  rs := bytesBE 32 0x5bca0564101393bf7cb0e7915a26458c18feee0f2e5b25d321a56d24c73ebead ++
    bytesBE 32 0x1b0a2afd6ea20fd9c92868bf89d0c76f22eabf39b7a18def4082de4a756a851c
  recoveryId := 0

def exVaaBytes : Bytes :=
  [1] ++ bytesBE 4 0 ++ [1] ++ [exSig.guardianIndex] ++ exSig.rs ++ [exSig.recoveryId] ++ exBody

def exVaa : Vaa where
  version := 1
  guardianSetIndex := 0
  signatureCount := 1
  signatures := [exSig]
  body := exBody
  emitterAddress := exSource.emitter
  emitterChain := exSource.chain
  payload := exPayload

def exGuardianSet : GuardianSet where
  index := 0
  keys := [⟨bytesBE 20 0xbefa429d57cd18b7f8a4d91a2da9ab4af05d0fbe, length_bytesBE _ _⟩,
    ⟨bytesBE 20 0x19e7e376e7c213b7e7e7e46cc70a5dd086daff2a, length_bytesBE _ _⟩]
  expirationTime := 0

/-- The index, the keys, and the two times of the account of the guardian set. -/
def exGuardianSetData : Bytes :=
  List.replicate 4 0 ++ [2, 0, 0, 0] ++ exGuardianSet.keys.flatMap Subtype.val ++
    List.replicate 8 0

def exBodyHash : Bytes :=
  bytesBE 32 0x376e0f735c8a5dfd771de90ad45923721e9e8a19e50753aa4cd5a38b7858fdf9

def exDigest : Bytes :=
  bytesBE 32 0x2e0b84adeb822d0292981232d3ecfc6934f28e759f3c4ccd74693c0372f769d4

/-- The public key of the first guardian. -/
def exPublicKey : Bytes :=
  bytesBE 32 0xd4a4629979f0c9fa0f0bb54edf33f87c8c5a1f42c0350a30d68f7e967023e34e ++
    bytesBE 32 0x495a8ebf5101036d0fd66e3b0a8c7c61b65fceeaf487ab3cd1b5b7b50beb7970

def exEnv : Env where
  findProgramAddress seeds program :=
    if seeds = [CONFIG_SEED] ∧ program = ID then exConfigAddress
    else if seeds = [TREASURY_SEED, [0]] ∧ program = ID then exTreasury
    else if program = exWormhole then exGuardianSetAddress
    else exKey 1
  minimumBalance len := (128 + len) * 6960
  parseVaa bytes := if bytes = exVaaBytes then some exVaa else none
  quorum n := n * 2 / 3 + 1
  tryDeserializeGuardianSet data :=
    if data = .raw exGuardianSetData then .ok exGuardianSet
    else .error (.error (.anchor .accountDidNotDeserialize))
  isActive guardianSet now :=
    guardianSet.expirationTime = 0 ∨ now.toInt ≤ guardianSet.expirationTime.toNat
  loadVaa _ := .error (.error (.anchor .accountDidNotDeserialize))
  keccak data :=
    if data = exBody then exBodyHash
    else if data = exBodyHash then exDigest
    else if data = exPublicKey then
      bytesBE 32 0x9393e852260bb49380a5b18abefa429d57cd18b7f8a4d91a2da9ab4af05d0fbe
    else []
  secp256k1Recover digest recoveryId rs :=
    if digest = exDigest ∧ recoveryId = exSig.recoveryId ∧ rs = exSig.rs then some exPublicKey
    else none
  hasher := ⟨fun data => if data = 0 :: exMessageBytes then exRoot else default⟩

def exPayer : AccountMeta := { pubkey := exKey 7, isSigner := true, isWritable := true }

def exUpdateAccount : AccountMeta := { pubkey := exKey 9, isSigner := true, isWritable := true }

/-- The payer has lamports, and the Wormhole program has a guardian set. -/
def exStart : ReceiverLedger := fun key =>
  if key = exPayer.pubkey then { lamports := 1000000000 }
  else if key = exGuardianSetAddress then
    { owner := exWormhole, lamports := 1000000, data := .raw exGuardianSetData }
  else {}

def exConfig : Config where
  governanceAuthority := exPayer.pubkey
  targetGovernanceAuthority := none
  wormhole := exWormhole
  validDataSources := [exSource]
  singleUpdateFeeInLamports := 1
  minimumSignatures := 1

def exSystemProgram : AccountMeta := { pubkey := SYSTEM_PROGRAM_ID, isSigner := false }

def exConfigAccount : AccountMeta :=
  { pubkey := exConfigAddress, isSigner := false, isWritable := true }

def exPost : Instruction :=
  .postUpdateAtomic
    { payer := exPayer
      guardianSet := { pubkey := exGuardianSetAddress, isSigner := false }
      config := { exConfigAccount with isWritable := false }
      treasury := { pubkey := exTreasury, isSigner := false, isWritable := true }
      priceUpdateAccount := exUpdateAccount
      systemProgram := exSystemProgram
      writeAuthority := exPayer }
    { vaa := exVaaBytes
      merklePriceUpdate := { message := exMessageBytes, proof := [] }
      treasuryId := 0 }

def exCalls : List Call :=
  [.initializeConfig { payer := exPayer, config := exConfigAccount, systemProgram := exSystemProgram }
      exConfig,
    exPost,
    .governance { payer := exPayer, config := exConfigAccount } (.setMinimumSignatures 2)].map
      fun instruction => { clock := { slot := 200, unixTimestamp := 1700000002 }, instruction }

def exUpdate : PriceUpdateV2 where
  writeAuthority := exPayer.pubkey
  verificationLevel := .partially 1
  priceMessage := exMessage
  postedSlot := 200

theorem exStart_fresh : Fresh exStart := by
  intro key h
  unfold exStart
  split
  · exact ⟨_, rfl⟩
  · split
    · exact ⟨_, rfl⟩
    · exact ⟨_, rfl⟩

end PythCrosschain.SolanaReceiver
