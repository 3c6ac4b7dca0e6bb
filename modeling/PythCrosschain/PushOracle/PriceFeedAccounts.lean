import PythCrosschain.PushOracle.Program
import PythCrosschain.SolanaReceiver.Provenance

/-!
# Push oracle: the price feed accounts

The account of a shard and a feed is its own write authority. Only the push oracle can sign
for it, and it does so for updates of this feed that are newer. So what the receiver is asked
for directly passes the account by.

Results:
1. `receiver_keeps`: a direct call of the receiver leaves the price feed accounts alone.
2. `updatePriceFeed_cases`: what one call of the push oracle does.
3. `price_feed_accounts`: in every state of every run the accounts hold fully verified messages
   of their feeds, and the next call keeps an account or makes it newer.
-/

namespace PythCrosschain.PushOracle

open Solana SolanaReceiver
open PythnetSdk hiding Pubkey

/-! ## Who signs -/

def postMetas (accounts : PostAccounts) : List AccountMeta :=
  [accounts.payer, accounts.config, accounts.treasury, accounts.priceUpdateAccount,
    accounts.systemProgram, accounts.writeAuthority]

/-- The accounts that an instruction of the receiver is called with. -/
def receiverMetas : Instruction → List AccountMeta
  | .initializeConfig accounts _ => [accounts.payer, accounts.config, accounts.systemProgram]
  | .governance accounts _ => [accounts.payer, accounts.config]
  | .acceptGovernanceAuthorityTransfer accounts => [accounts.payer, accounts.config]
  | .postUpdate accounts _ => accounts.encodedVaa :: postMetas accounts.toPostAccounts
  | .postUpdateAtomic accounts _ => accounts.guardianSet :: postMetas accounts.toPostAccounts
  | .reclaimRent accounts => [accounts.payer, accounts.priceUpdateAccount]
  | .other _ => []

def Call.metas : Call → List AccountMeta
  | .updatePriceFeed _ accounts _ _ _ =>
    [accounts.payer, accounts.pythSolanaReceiver, accounts.encodedVaa, accounts.config,
      accounts.treasury, accounts.priceFeedAccount, accounts.systemProgram]
  | .receiver call => receiverMetas call.instruction

/-- The shards and feeds in question. -/
abbrev Feeds := Set (BitVec 16 × FeedId)

/-- A call of the push oracle is about one of the feeds. No price feed account signs a call:
the push oracle signs for them inside of `update_price_feed` only. -/
structure Call.Allowed (env : Env) (feeds : Feeds) (call : Call) : Prop where
  named : ∀ clock accounts params shardId feedId,
    call = .updatePriceFeed clock accounts params shardId feedId → (shardId, feedId) ∈ feeds
  signed : ∀ account ∈ call.metas, account.isSigner = true →
    ∀ shardId feedId, (shardId, feedId) ∈ feeds →
      account.pubkey ≠ priceFeedAddress env shardId feedId

/-- The addresses of different feeds do not collide, and none of them is on the curve, as the
system program is. -/
structure AddressesApart (env : Env) (feeds : Feeds) : Prop where
  feedId : ∀ {shardId shardId' : BitVec 16} {feedId feedId' : FeedId},
    (shardId, feedId) ∈ feeds → (shardId', feedId') ∈ feeds →
    priceFeedAddress env shardId feedId = priceFeedAddress env shardId' feedId' → feedId = feedId'
  systemProgram : ∀ {shardId : BitVec 16} {feedId : FeedId}, (shardId, feedId) ∈ feeds →
    priceFeedAddress env shardId feedId ≠ SYSTEM_PROGRAM_ID

/-! ## The accounts -/

/-- The price feed accounts that exist hold fully verified messages of their feeds, and are
their own write authorities. -/
def OwnFeeds (env : Env) (feeds : Feeds) (ledger : ReceiverLedger) : Prop :=
  ∀ shardId feedId update, (shardId, feedId) ∈ feeds →
    HoldsUpdate ledger (priceFeedAddress env shardId feedId) update →
    update.priceMessage.feedId = feedId ∧
      update.writeAuthority = priceFeedAddress env shardId feedId ∧
      update.verificationLevel = .full

/-- The account keeps its update, or gets a newer one. It is not closed. -/
def Advances (ledger ledger' : ReceiverLedger) (key : Pubkey) : Prop :=
  ∀ update, HoldsUpdate ledger key update → ∃ update', HoldsUpdate ledger' key update' ∧
    (update' = update ∨
      update.priceMessage.publishTime.toInt < update'.priceMessage.publishTime.toInt)

/-- The message is not newer than the one in the account, or than the epoch where there is
none. -/
def NotNewer (ledger : ReceiverLedger) (key : Pubkey) (message : PriceFeedMessage) : Prop :=
  ledger.Empty key ∧ message.publishTime.toInt ≤ 0 ∨
    ∃ update, HoldsUpdate ledger key update ∧
      message.publishTime.toInt ≤ update.priceMessage.publishTime.toInt

section

variable {env : Env} {feeds : Feeds} {ledger ledger' : ReceiverLedger}

theorem ofPushOracle_eq_ok {α : Type} {x : Solana.Result PushOracleError α} {a : α} :
    ofPushOracle x = .ok a ↔ x = .ok a := by
  rcases x with (e | -) | a
  · exact ⟨nofun, nofun⟩
  · exact ⟨nofun, nofun⟩
  · simp only [ofPushOracle, Except.ok.injEq]

theorem ofReceiver_eq_ok {α : Type} {x : SolanaReceiver.Result α} {a : α} :
    ofReceiver x = .ok a ↔ x = .ok a := by
  rcases x with (e | -) | a
  · exact ⟨nofun, nofun⟩
  · exact ⟨nofun, nofun⟩
  · simp only [ofReceiver, Except.ok.injEq]

/-! ## Direct calls of the receiver -/

theorem posting_metas {instruction : Instruction} {accounts : PostAccounts}
    {merklePriceUpdate : MerklePriceUpdate}
    (h : instruction.posting = some (accounts, merklePriceUpdate)) :
    accounts.priceUpdateAccount ∈ receiverMetas instruction ∧
      accounts.writeAuthority ∈ receiverMetas instruction := by
  cases instruction with
  | postUpdate accounts params =>
    cases h
    simp [receiverMetas, postMetas]
  | postUpdateAtomic accounts params =>
    cases h
    simp [receiverMetas, postMetas]
  | initializeConfig accounts initialConfig => cases h
  | governance accounts action => cases h
  | acceptGovernanceAuthorityTransfer accounts => cases h
  | reclaimRent accounts => cases h
  | other outcome => cases h

/-- What nobody signs for, the receiver neither posts to nor closes. -/
theorem receiver_keeps (hapart : AddressesApart env feeds) (hown : OwnFeeds env feeds ledger)
    {call : SolanaReceiver.Call} (hallowed : Call.Allowed env feeds (.receiver call))
    (h : call.exec env ledger = .ok ledger') {shardId : BitVec 16} {feedId : FeedId}
    (hmem : (shardId, feedId) ∈ feeds) :
    KeepsUpdate ledger ledger' (priceFeedAddress env shardId feedId) := by
  rcases exec_cases h (priceFeedAddress env shardId feedId) with hkeeps |
    ⟨accounts, _, _, hposting, hkey, hwrites⟩ | ⟨accounts, hinstruction, hkey, hcloses⟩
  · exact hkeeps
  · obtain ⟨during, hadmits⟩ := hwrites.admits
    obtain ⟨htarget, hauthority⟩ := posting_metas hposting
    rcases hadmits.target with ⟨hsigner, -⟩ | ⟨update, hheld, hwrites⟩
    · exact absurd hkey (hallowed.signed _ htarget hsigner shardId feedId hmem)
    · rw [hkey] at hheld
      obtain ⟨-, hown, -⟩ := hown shardId feedId update hmem hheld
      rcases hwrites with hdefault | hsame
      · exact absurd (hown.symm.trans hdefault) (hapart.systemProgram hmem)
      · exact absurd (hsame.symm.trans hown)
          (hallowed.signed _ hauthority hadmits.writeAuthority shardId feedId hmem)
  · obtain ⟨update, hheld, hpayer⟩ := hcloses.held
    rw [hkey] at hheld
    obtain ⟨-, hown, -⟩ := hown shardId feedId update hmem hheld
    have hpayerMem : accounts.payer ∈ Call.metas (.receiver call) := by
      simp [Call.metas, hinstruction, receiverMetas]
    exact absurd (hpayer.symm.trans hown) (hallowed.signed _ hpayerMem hcloses.signer shardId feedId hmem)

/-! ## Calls of the push oracle -/

theorem currentTimestamp_of_holds {key : Pubkey} {update : PriceUpdateV2}
    (h : HoldsUpdate ledger key update) :
    currentTimestamp ledger key = .ok update.priceMessage.publishTime := by
  have hfull : ¬ ledger.Empty key := fun hempty => by cases hempty.symm.trans h.2
  rw [currentTimestamp, if_neg hfull, tryDeserialize, h.2]
  rfl

theorem tryDeserialize_of_holds {key : Pubkey} {update : PriceUpdateV2}
    (h : HoldsUpdate ledger key update) : tryDeserialize ledger key = .ok update := by
  rw [tryDeserialize, h.2]

theorem nextTimestamp_of_message {params : PostUpdateParams} {message : PriceFeedMessage}
    {rest : Bytes} (h : Message.schema.fromSlice .BE params.merklePriceUpdate.message =
      .ok (.priceFeedMessage message, rest)) :
    nextTimestamp params = .ok message.publishTime := by
  rw [nextTimestamp, h]

/-- A newer update that the push oracle has posted to the account of a feed. -/
structure Pushes (key : Pubkey) (feedId : FeedId) (ledger ledger' : ReceiverLedger)
    (update : PriceUpdateV2) : Prop where
  held : HoldsUpdate ledger' key update
  feedId : update.priceMessage.feedId = feedId
  writeAuthority : update.writeAuthority = key
  level : update.verificationLevel = .full
  newer : ∀ before, HoldsUpdate ledger key before →
    before.priceMessage.publishTime.toInt < update.priceMessage.publishTime.toInt
  same : ∀ k, k ≠ key → Ledger.Same ledger ledger' k

variable {clock : Clock} {accounts : UpdatePriceFeed} {params : PostUpdateParams}
  {shardId : BitVec 16} {feedId : FeedId}

/-- A call of the push oracle changes nothing, or pushes a newer update of its feed. -/
theorem updatePriceFeed_cases
    (h : updatePriceFeed env clock accounts params shardId feedId ledger = .ok ledger') :
    ledger' = ledger ∨
      ∃ update, Pushes (priceFeedAddress env shardId feedId) feedId ledger ledger' update := by
  obtain ⟨_, haccounts, h⟩ := except_bind_eq_ok.mp h
  obtain ⟨current, hcurrent, h⟩ := except_bind_eq_ok.mp h
  obtain ⟨nextTime, hnext, h⟩ := except_bind_eq_ok.mp h
  split at h
  · next hnewer =>
    simp only [except_bind_eq_ok, ofReceiver_eq_ok, ofPushOracle_eq_ok, require_eq_ok,
      Rust.pure_eq_ok] at h
    obtain ⟨posted, hpost, found, hfound, _, hfeed, rfl⟩ := h
    simp only [ofPushOracle_eq_ok, UpdatePriceFeed.tryAccounts, except_bind_eq_ok, check_eq_ok,
      exists_const] at haccounts
    obtain ⟨_, -, -, -, -, -, hkey, -⟩ := haccounts
    obtain ⟨update, hwrites, hlevel⟩ := postUpdate_writes hpost
    have hheld : HoldsUpdate posted accounts.priceFeedAccount.pubkey update := hwrites.held
    cases (tryDeserialize_of_holds hheld).symm.trans hfound
    obtain ⟨rest, hmessage⟩ := hwrites.message
    cases (nextTimestamp_of_message hmessage).symm.trans (ofPushOracle_eq_ok.mp hnext)
    rw [hkey] at hheld hcurrent
    refine .inr ⟨_, hheld, hfeed, hwrites.writeAuthority.trans hkey, hlevel,
      fun before hbefore => ?_, fun k hk => hwrites.same k (hkey ▸ hk)⟩
    cases (currentTimestamp_of_holds hbefore).symm.trans (ofPushOracle_eq_ok.mp hcurrent)
    exact hnewer
  · cases h
    exact .inl rfl

/-- A call with a message that is not newer changes nothing. -/
theorem updatePriceFeed_not_newer {message : PriceFeedMessage} {rest : Bytes}
    (hmessage : Message.schema.fromSlice .BE params.merklePriceUpdate.message =
      .ok (.priceFeedMessage message, rest))
    (hold : NotNewer ledger accounts.priceFeedAccount.pubkey message)
    (h : updatePriceFeed env clock accounts params shardId feedId ledger = .ok ledger') :
    ledger' = ledger := by
  obtain ⟨_, -, h⟩ := except_bind_eq_ok.mp h
  obtain ⟨current, hcurrent, h⟩ := except_bind_eq_ok.mp h
  obtain ⟨nextTime, hnext, h⟩ := except_bind_eq_ok.mp h
  cases (nextTimestamp_of_message hmessage).symm.trans (ofPushOracle_eq_ok.mp hnext)
  have hle : message.publishTime.toInt ≤ current.toInt := by
    rcases hold with ⟨hempty, hle⟩ | ⟨update, hheld, hle⟩
    · have hzero := ofPushOracle_eq_ok.mp hcurrent
      rw [currentTimestamp, if_pos hempty] at hzero
      cases hzero
      exact hle
    · cases (currentTimestamp_of_holds hheld).symm.trans (ofPushOracle_eq_ok.mp hcurrent)
      exact hle
  rw [if_neg (not_lt.mpr hle)] at h
  cases h
  rfl

/-! ## Runs -/

theorem Advances.of_keeps {key : Pubkey} (h : KeepsUpdate ledger ledger' key) :
    Advances ledger ledger' key :=
  fun update hheld => ⟨update, (h update).mpr hheld, .inl rfl⟩

/-- One call keeps the feeds in their accounts, and advances every account. -/
theorem exec_ownFeeds (hapart : AddressesApart env feeds) (hown : OwnFeeds env feeds ledger)
    {call : Call} (hallowed : call.Allowed env feeds) (h : call.exec env ledger = .ok ledger') :
    OwnFeeds env feeds ledger' ∧ ∀ shardId feedId, (shardId, feedId) ∈ feeds →
      Advances ledger ledger' (priceFeedAddress env shardId feedId) := by
  cases call with
  | receiver call =>
    have hcall := ofReceiver_eq_ok.mp h
    constructor
    · intro shardId feedId update hmem hheld
      exact hown shardId feedId update hmem
        ((receiver_keeps hapart hown hallowed hcall hmem update).mp hheld)
    · exact fun _ _ hmem => .of_keeps (receiver_keeps hapart hown hallowed hcall hmem)
  | updatePriceFeed clock accounts params shardId feedId =>
    have hfeed : (shardId, feedId) ∈ feeds := hallowed.named _ _ _ _ _ rfl
    rcases updatePriceFeed_cases h with rfl | ⟨update, hpushes⟩
    · exact ⟨hown, fun _ _ _ => .of_keeps fun _ => Iff.rfl⟩
    · constructor
      · intro shardId' feedId' update' hmem hheld
        by_cases hkey : priceFeedAddress env shardId' feedId' = priceFeedAddress env shardId feedId
        · obtain rfl := hapart.feedId hmem hfeed hkey
          rw [hkey] at hheld ⊢
          obtain rfl := hheld.unique hpushes.held
          exact ⟨hpushes.feedId, hpushes.writeAuthority, hpushes.level⟩
        · exact hown shardId' feedId' update' hmem (hheld.of_same (hpushes.same _ hkey))
      · intro shardId' feedId' _
        by_cases hkey : priceFeedAddress env shardId' feedId' = priceFeedAddress env shardId feedId
        · rw [hkey]
          exact fun before hbefore => ⟨update, hpushes.held, .inr (hpushes.newer before hbefore)⟩
        · exact .of_keeps (keepsUpdate_of_same (hpushes.same _ hkey))

theorem submit_ownFeeds (hapart : AddressesApart env feeds) (hown : OwnFeeds env feeds ledger)
    {call : Call} (hallowed : call.Allowed env feeds) :
    OwnFeeds env feeds (submit (Call.exec env) ledger call) ∧
      ∀ shardId feedId, (shardId, feedId) ∈ feeds →
        Advances ledger (submit (Call.exec env) ledger call)
          (priceFeedAddress env shardId feedId) := by
  cases h : call.exec env ledger with
  | ok ledger' =>
    rw [submit_of_ok h]
    exact exec_ownFeeds hapart hown hallowed h
  | error e =>
    rw [submit_of_error h]
    exact ⟨hown, fun _ _ _ => .of_keeps fun _ => Iff.rfl⟩

theorem ownFeeds_of_fresh (h : Fresh ledger) : OwnFeeds env feeds ledger := by
  intro shardId feedId update _ hheld
  obtain ⟨bytes, hraw⟩ := h _ hheld.1
  cases hraw.symm.trans hheld.2

theorem ownFeeds_runAll (hapart : AddressesApart env feeds) {calls : List Call}
    (hown : OwnFeeds env feeds ledger) (hallowed : ∀ call ∈ calls, call.Allowed env feeds) :
    OwnFeeds env feeds (runAll (Call.exec env) ledger calls) := by
  induction calls generalizing ledger with
  | nil => exact hown
  | cons call calls ih =>
    refine ih (submit_ownFeeds hapart hown ?_).1 fun c hc => hallowed c (List.mem_cons_of_mem _ hc)
    exact hallowed call List.mem_cons_self

/-- Whatever calls of the push oracle and of the receiver were made, each price feed account
that exists holds a fully verified message of its feed and is its own write authority. The next
call leaves it as it is or makes it newer, and a call with a message that is not newer changes
nothing at all. -/
theorem price_feed_accounts (hapart : AddressesApart env feeds) {start : ReceiverLedger}
    (hfresh : Fresh start) {calls : List Call}
    (hallowed : ∀ call ∈ calls, call.Allowed env feeds) :
    let reached := runAll (Call.exec env) start calls
    OwnFeeds env feeds reached ∧
      (∀ call : Call, call.Allowed env feeds → ∀ shardId feedId, (shardId, feedId) ∈ feeds →
        Advances reached (submit (Call.exec env) reached call)
          (priceFeedAddress env shardId feedId)) ∧
      ∀ clock accounts params shardId feedId message rest,
        Message.schema.fromSlice .BE params.merklePriceUpdate.message =
          .ok (.priceFeedMessage message, rest) →
        NotNewer reached accounts.priceFeedAccount.pubkey message →
        submit (Call.exec env) reached
          (.updatePriceFeed clock accounts params shardId feedId) = reached := by
  intro reached
  have hown : OwnFeeds env feeds reached :=
    ownFeeds_runAll hapart (ownFeeds_of_fresh hfresh) hallowed
  refine ⟨hown, fun call hcall => (submit_ownFeeds hapart hown hcall).2, ?_⟩
  intro clock accounts params shardId feedId message rest hmessage hold
  cases h : Call.exec env (.updatePriceFeed clock accounts params shardId feedId) reached with
  | ok ledger' =>
    rw [submit_of_ok h]
    exact updatePriceFeed_not_newer hmessage hold h
  | error e => exact submit_of_error h

end

/-! ### A feed that is pushed

The receiver is initialised, and the first update of a feed is posted to its account. -/

/-- The address of the feed in shard 0. -/
def exPriceFeed : Pubkey :=
  exKey 0x35a70c11162fbf5a0e7f7d2f96e19f97b02246a15687ee672794897448e658de

/-- An account of the Wormhole program with a VAA that is verified: the discriminator, the
status, the write authority, the version, and the VAA with its length. -/
def exEncodedVaaData : Bytes :=
  bytesBE 8 0xe265a30485a054f5 ++ [2] ++ exPayer.pubkey.val ++ [1] ++
    bytesLE 4 exVaaBytes.length ++ exVaaBytes

def exEnv : Env where
  __ := SolanaReceiver.exEnv
  findProgramAddress seeds program :=
    if seeds = [[0, 0], exFeedId.val] ∧ program = PushOracle.ID then exPriceFeed
    else SolanaReceiver.exEnv.findProgramAddress seeds program
  loadVaa data :=
    if data = .raw exEncodedVaaData then
      .ok {
        tryEmitterAddress := .ok exVaa.emitterAddress
        tryEmitterChain := .ok exVaa.emitterChain
        tryPayload := .ok exVaa.payload }
    else .error (.error (.anchor .accountDidNotDeserialize))

def exFeeds : Feeds := {(0, exFeedId)}

def exEncodedVaa : AccountMeta := { pubkey := exKey 11, isSigner := false }

def exStart : ReceiverLedger := fun key =>
  if key = exEncodedVaa.pubkey then
    { owner := exWormhole, lamports := 1000000, data := .raw exEncodedVaaData }
  else SolanaReceiver.exStart key

def exPush : Call :=
  .updatePriceFeed { slot := 200, unixTimestamp := 1700000002 }
    { payer := exPayer
      pythSolanaReceiver := { pubkey := SolanaReceiver.ID, isSigner := false }
      encodedVaa := exEncodedVaa
      config := { exConfigAccount with isWritable := false }
      treasury := { pubkey := exTreasury, isSigner := false, isWritable := true }
      priceFeedAccount := { pubkey := exPriceFeed, isSigner := false, isWritable := true }
      systemProgram := exSystemProgram }
    { merklePriceUpdate := { message := exMessageBytes, proof := [] }
      treasuryId := 0 }
    0 exFeedId

def exCalls : List Call :=
  [.receiver {
      clock := { slot := 199, unixTimestamp := 1700000001 }
      instruction :=
        .initializeConfig
          { payer := exPayer, config := exConfigAccount, systemProgram := exSystemProgram }
          exConfig },
    exPush]

def exPushed : PriceUpdateV2 where
  writeAuthority := exPriceFeed
  verificationLevel := .full
  priceMessage := exMessage
  postedSlot := 200

theorem exFeeds_apart : AddressesApart exEnv exFeeds where
  feedId := by
    intro shardId shardId' feedId feedId' hmem hmem' _
    cases hmem
    cases hmem'
    rfl
  systemProgram := by
    intro shardId feedId hmem
    cases hmem
    decide +kernel

theorem exStart_fresh : Fresh exStart := by
  intro key h
  unfold exStart
  split
  · exact ⟨_, rfl⟩
  · rename_i hother
    rw [exStart, if_neg hother] at h
    exact SolanaReceiver.exStart_fresh key h

theorem exCalls_allowed : ∀ call ∈ exCalls, call.Allowed exEnv exFeeds := by
  have hothers : ∀ call ∈ exCalls, ∀ account ∈ call.metas, account.isSigner = true →
      account.pubkey ≠ priceFeedAddress exEnv 0 exFeedId := by
    decide +kernel
  intro call hcall
  refine ⟨fun clock accounts params shardId feedId h => ?_,
    fun account haccount hsigner shardId feedId hmem => ?_⟩
  · rcases List.mem_cons.mp hcall with rfl | hcall
    · cases h
    · cases List.mem_singleton.mp hcall
      cases h
      exact rfl
  · cases hmem
    exact hothers call hcall account haccount hsigner

theorem price_feed_accounts_pushed :
    let reached := runAll (Call.exec exEnv) exStart exCalls
    HoldsUpdate reached exPriceFeed exPushed ∧ OwnFeeds exEnv exFeeds reached ∧
      submit (Call.exec exEnv) reached exPush = reached :=
  have h := price_feed_accounts exFeeds_apart exStart_fresh exCalls_allowed
  ⟨by decide +kernel, h.1, h.2.2 _ _ _ _ _ exMessage [] (by decide +kernel)
    (.inr ⟨exPushed, by decide +kernel, by decide⟩)⟩

end PythCrosschain.PushOracle
