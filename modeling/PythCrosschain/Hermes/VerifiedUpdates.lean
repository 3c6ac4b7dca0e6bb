import PythCrosschain.Hermes.PriceFeeds
import PythCrosschain.Hermes.StoreUpdate
import PythCrosschain.Pyth.MerkleAgreement
import PythCrosschain.PythnetSdk.Membership
import PythCrosschain.PythnetSdk.VerifiedUpdate

/-!
# Hermes: the updates of an answer verify

A message state is built from two updates of one slot, whatever was received for that slot:
its proof is one in the tree whose root is in its own VAA (`MessageState.ProvenBy`). An
update of an answer combines message states that were found one by one, and has the VAA of
the first only. It verifies because message states of one slot have VAAs with one root.

Results:
1. `Params.provenBy_of_build`: what a task builds is proven.
2. `System.Reachable.sound`: every cache holds only what was received, or was built from it.
3. `hermes_updates_verify`: every message state in the cache is proven, and every update of an
   answer verifies.
-/

namespace PythCrosschain.Hermes

open PythnetSdk

/-! ## Proven message states -/

namespace MessageState

def vaa (m : MessageState) : Bytes := m.proofSet.wormholeMerkleProof.vaa

/-- The VAA of the message state is one for its slot and carries `root`, and its proof is one
of its message in the tree with that root. -/
structure ProvenBy (P : Params) (m : MessageState) (root : WormholeMerkleRoot) : Prop where
  vaa : P.merkleRoot m.vaa = .ok root
  slot : root.slot.toNat = m.slot
  proof : MerkleTree.check P.hasher root.root m.proofSet.wormholeMerkleProof.proof m.rawMessage
    = true
  message : ∃ rest, Message.schema.fromSlice .BE m.rawMessage = .ok (m.message, rest)

end MessageState

section Received

variable {ι : Type} (P : Params) (updates : ι → Update)

/-- The VAAs that are received for one slot carry one root. -/
def OneRoot : Prop :=
  ∀ i j vaa vaa' root root', updates i = .vaa vaa → updates j = .vaa vaa' →
    P.merkleRoot vaa = .ok root → P.merkleRoot vaa' = .ok root' →
    root.slot = root'.slot → root.root = root'.root

/-- The hasher gives no received message the hash of zeros, with which a tree fills its
unused node. -/
def NoZeroLeaf : Prop :=
  ∀ i messages, updates i = .accumulatorMessages messages →
    ∀ rawMessage ∈ messages.rawMessages, MerkleTree.hashLeaf P.hasher rawMessage ≠ default

/-- The message state has a received VAA, which proves it. -/
structure MessageState.Verified (m : MessageState) : Prop where
  received : ∃ i, updates i = .vaa m.vaa
  proven : ∃ root, m.ProvenBy P root

/-- The update has a received VAA, and each of its messages is proven by the root in that VAA
and is one of the price feeds. -/
def UpdateVerifies (priceIds : List FeedId) (updateData : Bytes) : Prop :=
  ∃ vaa priceUpdates root,
    AccumulatorUpdateData.tryFromSlice updateData = .ok (.new (.wormholeMerkle vaa priceUpdates)) ∧
    (∃ i, updates i = .vaa vaa) ∧ P.merkleRoot vaa = .ok root ∧
    ∀ update ∈ priceUpdates, ∃ msg, update.Proves P.hasher root.root msg ∧ msg.feedId ∈ priceIds

/-- Messages that were received for the slot. -/
structure ReceivedMessages (slot : Slot) (messages : AccumulatorMessages) : Prop where
  slot : messages.slot = slot
  received : ∃ i, updates i = .accumulatorMessages messages

/-- A VAA that was received for the slot, with the root in it. -/
structure ReceivedRoot (slot : Slot) (state : WormholeMerkleState) : Prop where
  slot : state.root.slot.toNat = slot
  received : ∃ i, updates i = .vaa state.vaa
  root : P.merkleRoot state.vaa = .ok state.root

/-- The caches hold what was received for their slots, and message states that are verified. -/
structure Shared.Sound (shared : Shared) : Prop where
  messages : ∀ e ∈ shared.accumulatorMessagesCache.entries, ReceivedMessages updates e.1 e.2
  roots : ∀ e ∈ shared.wormholeMerkleStateCache.entries, ReceivedRoot P updates e.1 e.2
  states : ∀ key, ∀ e ∈ (shared.messageCache.of key).entries,
    e.2.key = key ∧ e.2.Verified P updates

/-- A task holds what was received for its slot. -/
def Task.Sound : Task → Prop
  | .received update => ∃ i, updates i = update
  | .fetchedMessages slot messages => ∀ m ∈ messages, ReceivedMessages updates slot m
  | .fetched slot messages state =>
    (∀ m ∈ messages, ReceivedMessages updates slot m) ∧
      ∀ s ∈ state, ReceivedRoot P updates slot s
  | _ => True

end Received

/-! ## Building message states -/

namespace Params

variable {P : Params} {messages : AccumulatorMessages} {state : WormholeMerkleState}

theorem constructMessageStatesProofs_eq_ok {proofs : List WormholeMerkleMessageProof}
    (h : P.constructMessageStatesProofs messages state = .ok proofs) {i : Nat}
    {rawMessage : RawMessage} (hraw : messages.rawMessages[i]? = some rawMessage)
    {proof : WormholeMerkleMessageProof} (hproof : proofs[i]? = some proof) :
    ∃ tree, MerkleTree.new P.hasher messages.rawMessages = some tree ∧
      tree.root = state.root.root ∧ tree.prove P.hasher rawMessage = some proof.proof ∧
      proof.vaa = state.vaa := by
  unfold constructMessageStatesProofs at h
  split at h
  · cases h
    cases hproof
  · next tree htree =>
    split at h
    · cases h
    · next hroot =>
      refine ⟨tree, htree, not_not.mp hroot, ?_⟩
      obtain ⟨hi, rfl⟩ := List.getElem?_eq_some_iff.mp hraw
      obtain ⟨hi', rfl⟩ := List.getElem?_eq_some_iff.mp hproof
      have hat := (except_mapM_eq_ok.mp h).get hi hi'
      simp only [List.get_eq_getElem] at hat
      split at hat
      · next path hpath =>
        rw [← Except.ok.inj hat]
        exact ⟨hpath, rfl⟩
      · cases hat

/-- What is built from messages and a VAA of one slot is proven by the root in that VAA. -/
theorem provenBy_of_build {now : UnixTimestamp} {messageStates : List MessageState}
    (h : P.buildMessageStates now messages state = .ok messageStates)
    (hslot : state.root.slot.toNat = messages.slot) (hvaa : P.merkleRoot state.vaa = .ok state.root)
    (hzero : ∀ rawMessage ∈ messages.rawMessages,
      MerkleTree.hashLeaf P.hasher rawMessage ≠ default)
    {m : MessageState} (hm : m ∈ messageStates) : m.vaa = state.vaa ∧ m.ProvenBy P state.root := by
  obtain ⟨proofs, hproofs, h⟩ := except_bind_eq_ok.mp h
  obtain ⟨⟨rawMessage, i⟩, hraw, hbuild⟩ := exists_of_mem_mapM h hm
  have hat := List.mem_zipIdx_iff_getElem?.mp hraw
  have hmem : rawMessage ∈ messages.rawMessages := List.mem_of_getElem? hat
  unfold buildMessageState at hbuild
  split at hbuild
  · cases hbuild
  · next parsed rest hparsed =>
    split at hbuild
    · cases hbuild
    · next proof hproof =>
      cases hbuild
      obtain ⟨tree, htree, hroot, hprove, hsame⟩ :=
        constructMessageStatesProofs_eq_ok hproofs hat hproof
      have hchecked := (MerkleTree.check_prove (MerkleTree.new_builtFrom htree) hmem hprove).mpr
        fun hleaf => absurd hleaf (hzero rawMessage hmem)
      refine ⟨hsame, ?_, hslot, hroot ▸ hchecked, rest, hparsed⟩
      show P.merkleRoot proof.vaa = _
      rw [hsame]
      exact hvaa

end Params

/-! ## What the caches hold -/

theorem KeyCache.mem_of_retrieve {keyCache : KeyCache} {requestTime : RequestTime}
    {m : MessageState} (h : keyCache.retrieve requestTime = some m) :
    ∃ time, (time, m) ∈ keyCache.entries := by
  cases requestTime with
  | latest =>
    obtain ⟨e, hlast, rfl⟩ := Option.map_eq_some_iff.mp h
    exact ⟨e.1, List.mem_of_getLast? hlast⟩
  | firstAfter publishTime =>
    simp only [retrieve] at h
    split at h
    · cases h
    · obtain ⟨e, hfirst, rfl⟩ := Option.map_eq_some_iff.mp h
      exact ⟨e.1, List.mem_of_find?_eq_some hfirst⟩
  | atSlot slot =>
    obtain ⟨e, hfind, rfl⟩ := Option.map_eq_some_iff.mp h
    exact ⟨e.1, List.mem_reverse.mp (List.mem_of_find?_eq_some hfind)⟩

section Invariant

variable {ι : Type} {P : Params} {updates : ι → Update} {shared : Shared} {now : UnixTimestamp}

theorem Shared.Sound.store (h : shared.Sound P updates) {messageStates : List MessageState}
    (hverified : ∀ m ∈ messageStates, m.Verified P updates) (cacheSize : Nat) :
    { shared with
      messageCache := storeMessageStates cacheSize messageStates shared.messageCache }.Sound
        P updates := by
  refine ⟨h.messages, h.roots, fun key e he => ?_⟩
  rcases mem_storeMessageStates he with hin | ⟨m, hm, hkey, rfl⟩
  · exact h.states key e hin
  · exact ⟨hkey, hverified m hm⟩

theorem Shared.Sound.prune (h : shared.Sound P updates) (currentKeys : List MessageStateKey) :
    { shared with
      messageCache := pruneRemovedKeys currentKeys shared.messageCache }.Sound P updates :=
  ⟨h.messages, h.roots, fun key e he => h.states key e (mem_pruneRemovedKeys he)⟩

theorem Shared.Sound.aggregate (h : shared.Sound P updates) (slot : Slot)
    (messageStates : List MessageState) :
    (updateAggregateState now slot messageStates shared).Sound P updates := by
  unfold updateAggregateState
  cases shared.latestCompletedSlot with
  | none => exact ⟨h.messages, h.roots, h.states⟩
  | some latest =>
    dsimp only
    split
    · have hpruned := h.prune (messageStates.map MessageState.key)
      exact ⟨hpruned.messages, hpruned.roots, hpruned.states⟩
    · exact ⟨h.messages, h.roots, h.states⟩

/-- A step keeps the caches and the task sound. -/
theorem stepTask_sound (hzero : NoZeroLeaf P updates) (h : shared.Sound P updates) {task : Task}
    (htask : task.Sound P updates) :
    (P.stepTask now shared task).1.Sound P updates ∧
      (P.stepTask now shared task).2.Sound P updates := by
  cases task with
  | received update =>
    obtain ⟨i, hi⟩ := htask
    cases update with
    | vaa vaaBytes =>
      rw [Params.stepTask]
      cases hroot : P.merkleRoot vaaBytes with
      | error e => exact ⟨h, trivial⟩
      | ok root =>
        refine ⟨⟨h.messages, ?_, h.states⟩, trivial⟩
        exact SortedMap.forall_insert_truncate h.roots ⟨rfl, ⟨i, hi⟩, hroot⟩ _
    | accumulatorMessages messages =>
      refine ⟨⟨?_, h.roots, h.states⟩, trivial⟩
      exact SortedMap.forall_insert_truncate h.messages ⟨rfl, i, hi⟩ _
  | storedUpdate slot => exact ⟨⟨h.messages, h.roots, h.states⟩, trivial⟩
  | observed slot => exact ⟨h, fun m hm => h.messages _ (SortedMap.mem_of_get? hm)⟩
  | fetchedMessages slot messages =>
    exact ⟨h, htask, fun s hs => h.roots _ (SortedMap.mem_of_get? hs)⟩
  | fetched slot messages state =>
    cases messages with
    | none => exact ⟨h, trivial⟩
    | some messages =>
      cases state with
      | none => exact ⟨h, trivial⟩
      | some state =>
        rw [Params.stepTask]
        cases hbuild : P.buildMessageStates now messages state with
        | error e => exact ⟨h, trivial⟩
        | ok messageStates =>
          obtain ⟨hslot, i, hi⟩ := htask.1 messages rfl
          have hreceived := htask.2 state rfl
          refine ⟨h.store (fun m hm => ?_) P.cacheSize, trivial⟩
          obtain ⟨hvaa, hproven⟩ := Params.provenBy_of_build hbuild
            (hreceived.slot.trans hslot.symm) hreceived.root (hzero i messages hi) hm
          exact ⟨hvaa ▸ hreceived.received, _, hproven⟩
  | storedMessageStates slot messageStates => exact ⟨h.aggregate slot messageStates, trivial⟩
  | finished result => exact ⟨h, trivial⟩

/-- What a query finds in a sound cache is verified, under the key of the lookup. -/
theorem Shared.Sound.retrieve (h : shared.Sound P updates) {key : MessageStateKey}
    {requestTime : RequestTime} {m : MessageState}
    (hm : retrieveMessageState shared.messageCache key requestTime = some m) :
    m.key = key ∧ m.Verified P updates := by
  rw [retrieve_of] at hm
  obtain ⟨time, hentry⟩ := KeyCache.mem_of_retrieve hm
  exact h.states key _ hentry

variable [DecidableEq ι]

theorem System.Reachable.sound (hzero : NoZeroLeaf P updates) {σ : System ι}
    (h : System.Reachable P updates σ) :
    σ.shared.Sound P updates ∧ ∀ i, (σ.tasks i).Sound P updates := by
  induction h with
  | refl => exact ⟨⟨nofun, nofun, nofun⟩, fun i => ⟨i, rfl⟩⟩
  | tail _ hstep ih =>
    obtain ⟨i, now, rfl⟩ := hstep
    obtain ⟨hshared, htask⟩ := stepTask_sound hzero ih.1 (ih.2 i)
    refine ⟨hshared, fun j => ?_⟩
    unfold System.step
    rcases eq_or_ne j i with rfl | hne
    · simp only [Function.update_self]
      exact htask
    · simp only [Function.update_of_ne hne]
      exact ih.2 j

end Invariant

/-! ## Update data -/

/-- An update is made of messages of one slot, with the VAA of the first. -/
theorem mem_combineMessages {iter : List RawMessageWithMerkleProof} {result : List Bytes}
    (h : combineMessages iter = .ok result) {data : Bytes} (hmem : data ∈ result) :
    ∃ first ∈ iter, ∃ batch : List RawMessageWithMerkleProof,
      (∀ m ∈ batch, m ∈ iter ∧ m.slot = first.slot) ∧
      AccumulatorUpdateData.schema.toVec .BE
        (.new (.wormholeMerkle first.proof.vaa (batch.map (·.update)))) = .ok data := by
  induction iter using combineMessages.induct generalizing result with
  | case1 =>
    rw [combineMessages] at h
    cases h
    cases hmem
  | case2 message iter slot next =>
    rename_i ih
    rw [combineMessages] at h
    obtain ⟨first, hfirst, h⟩ := except_bind_eq_ok.mp h
    obtain ⟨result, hresult, h⟩ := except_bind_eq_ok.mp h
    cases h
    have happend : next.1 ++ next.2 = iter := takeRun_append _ _ iter
    rcases List.mem_cons.mp hmem with rfl | hmem
    · refine ⟨message, List.mem_cons_self, message :: next.1, fun m hm => ?_, hfirst⟩
      rcases List.mem_cons.mp hm with rfl | hm
      · exact ⟨List.mem_cons_self, rfl⟩
      · have htaken := of_mem_takeRun
          (fun m : RawMessageWithMerkleProof => decide (m.slot = slot)) hm
        refine ⟨List.mem_cons_of_mem _ ?_, of_decide_eq_true htaken⟩
        rw [← happend]
        exact List.mem_append_left _ hm
    · obtain ⟨first, hin, batch, hbatch, hdata⟩ := ih hresult hmem
      have hrest : ∀ m ∈ next.2, m ∈ message :: iter := fun m hm => by
        rw [← happend]
        exact List.mem_cons_of_mem _ (List.mem_append_right _ hm)
      exact ⟨first, hrest first hin, batch, fun m hm => ⟨hrest m (hbatch m hm).1, (hbatch m hm).2⟩,
        hdata⟩

section Query

variable {ι : Type} {P : Params} {updates : ι → Update}

/-- An update of verified message states verifies, whichever of them it combines. -/
theorem updateVerifies_of_verified (hroot : OneRoot P updates) {messages : List MessageState}
    {priceIds : List FeedId}
    (hmessages : ∀ m ∈ messages, m.Verified P updates ∧
      ∃ id ∈ priceIds, m.key = ⟨id, .priceFeedMessage⟩)
    {result : List Bytes}
    (hresult : constructUpdateData (messages.map RawMessageWithMerkleProof.fromMessageState) =
      .ok result) {updateData : Bytes} (hmem : updateData ∈ result) :
    UpdateVerifies P updates priceIds updateData := by
  have hperm := (sortByKey_stablySorted (fun m : RawMessageWithMerkleProof => m.slot)
    (messages.map RawMessageWithMerkleProof.fromMessageState)).perm
  have hfrom : ∀ m ∈ sortByKey (fun m : RawMessageWithMerkleProof => m.slot)
      (messages.map RawMessageWithMerkleProof.fromMessageState),
      ∃ state ∈ messages, .fromMessageState state = m :=
    fun m hm => List.mem_map.mp (hperm.mem_iff.mp hm)
  obtain ⟨_, hfirst, batch, hbatch, hdata⟩ := mem_combineMessages hresult hmem
  obtain ⟨first, hin, rfl⟩ := hfrom _ hfirst
  obtain ⟨⟨⟨i, hi⟩, root, hproven⟩, -⟩ := hmessages first hin
  have hparsed := AccumulatorUpdateData.tryFromSlice_new hdata []
  rw [List.append_nil] at hparsed
  refine ⟨_, _, root, hparsed, ⟨i, hi⟩, hproven.vaa, fun update hupdate => ?_⟩
  obtain ⟨_, hm, rfl⟩ := List.mem_map.mp hupdate
  obtain ⟨hsorted, hslot⟩ := hbatch _ hm
  obtain ⟨m, hmem', rfl⟩ := hfrom _ hsorted
  obtain ⟨⟨⟨j, hj⟩, root', hproven'⟩, id, hid, hkey⟩ := hmessages m hmem'
  -- The message state has a VAA of its own, with the root of the first one's.
  have hsame : root'.root = root.root := by
    refine hroot j i _ _ _ _ hj hi hproven'.vaa hproven.vaa (BitVec.eq_of_toNat_eq ?_)
    rw [hproven'.slot, hproven.slot]
    exact hslot
  obtain ⟨rest, hmessage⟩ := hproven'.message
  obtain ⟨hfeed, htype⟩ := MessageStateKey.mk.inj hkey
  cases hkind : m.message with
  | priceFeedMessage msg =>
    rw [hkind] at hmessage hfeed
    have hin' : msg.feedId ∈ priceIds := by
      obtain rfl : msg.feedId = id := hfeed
      exact hid
    exact ⟨msg, ⟨hsame ▸ hproven'.proof, rest, hmessage⟩, hin'⟩
  | twapMessage msg =>
    rw [hkind] at htype
    cases htype
  | publisherStakeCapsMessage msg =>
    rw [hkind] at htype
    cases htype

variable [DecidableEq ι]

/-- Whatever order the tasks take their steps in, every message state in the cache has a
received VAA of its own slot, whose root proves it; and every update that a query answers
with has a received VAA, whose root proves each of its messages, which are of requested feeds.
The lookups of the query may find the caches of different states of the run. -/
theorem hermes_updates_verify (hroot : OneRoot P updates) (hzero : NoZeroLeaf P updates) :
    (∀ σ, System.Reachable P updates σ → ∀ key, ∀ e ∈ (σ.shared.messageCache.of key).entries,
      e.2.key = key ∧ e.2.Verified P updates) ∧
    ∀ messageCaches priceIds requestTime answer,
      (∀ n, ∃ σ, System.Reachable P updates σ ∧ messageCaches n = σ.shared.messageCache) →
      getVerifiedPriceFeeds messageCaches priceIds requestTime = .ok answer →
      ∀ updateData ∈ answer.allUpdateData, UpdateVerifies P updates priceIds updateData := by
  constructor
  · intro σ hσ
    exact (hσ.sound hzero).1.states
  · intro messageCaches priceIds requestTime answer hcaches hanswer updateData hmem
    obtain ⟨messages, result, hresult, hin, hfound⟩ := mem_allUpdateData hanswer hmem
    refine updateVerifies_of_verified hroot (fun m hm => ?_) hresult hin
    obtain ⟨n, id, hid, hretrieved⟩ := hfound m hm
    obtain ⟨σ, hσ, hcache⟩ := hcaches n
    rw [hcache] at hretrieved
    obtain ⟨hkey, hverified⟩ := (hσ.sound hzero).1.retrieve hretrieved
    exact ⟨hverified, id, hid, hkey⟩

end Query

/-! ### Two VAAs of one slot

The VAAs differ in the guardian that signed them. Other messages for the slot arrive as well. -/

/-- The hashes of the messages of the feeds 1, 2 and 3 in slot 8. -/
def exLeaf : Nat → HashArray 20
  | 1 => ⟨bytesBE 20 0x56aaf52e2582fffcf56ac71b016af4eb372c5cc9, length_bytesBE _ _⟩
  | 2 => ⟨bytesBE 20 0xb2cdfa1803612e49ad6129105cf42bf02f60e5bd, length_bytesBE _ _⟩
  | _ => ⟨bytesBE 20 0x8952ba9970e98a84362c4fb39a46af9cb7abbb0f, length_bytesBE _ _⟩

/-- The root of the tree of the feeds 1 and 2. -/
def exSlotRoot : WormholeMerkleRoot where
  slot := 8
  ringSize := 10000
  root := ⟨bytesBE 20 0x0ddd03289d158edf6dbaf94a89bbfe8202b8ea66, length_bytesBE _ _⟩

/-- The first 20 bytes of Keccak-256 of the strings in the trees. -/
def exKeccak160 : Hasher 20 where
  digest s :=
    if s = 0 :: exRawMessage 8 1 then exLeaf 1
    else if s = 0 :: exRawMessage 8 2 then exLeaf 2
    else if s = 0 :: exRawMessage 8 3 then exLeaf 3
    else if s = 1 :: (exLeaf 1).val ++ (exLeaf 2).val then exSlotRoot.root
    else default

def exKeccakParams : Params where
  hasher := exKeccak160
  vaaPayload := exVaaPayload
  cacheSize := 10

/-- A VAA with one signature. -/
def exSignedVaa (guardianIndex : UInt8) : Bytes :=
  [1] ++ bytesBE 4 4 ++ [1, guardianIndex] ++ List.replicate 65 guardianIndex ++
    bytesBE 4 1700000000 ++ bytesBE 4 0 ++ bytesBE 2 26 ++
    bytesBE 32 0xe101faedac5851e32b9b23b5f9411a8c2bac4aae3ed4dd7b811dd1a72ea4aa71 ++
    bytesBE 8 5000 ++ [1] ++
    (WormholeMessage.schema.toVec .BE (.new (.merkle exSlotRoot))).toOption.getD []

def exSlotUpdates : Fin 4 → Update
  | 0 => .vaa (exSignedVaa 3)
  | 1 => .accumulatorMessages (exAccumulatorMessages 8 [1, 2])
  | 2 => .vaa (exSignedVaa 7)
  | 3 => .accumulatorMessages (exAccumulatorMessages 8 [3])

/-- Task 1 stores the message states with the first VAA. -/
def exFirst : System (Fin 4) :=
  System.run exKeccakParams 100 (.start exSlotUpdates) [0, 1, 1, 1, 1, 1]

/-- Task 2 stores them again with the second VAA; then task 3 replaces the messages. -/
def exSecond : System (Fin 4) :=
  System.run exKeccakParams 101 exFirst [2, 2, 2, 2, 2, 3, 3, 3, 3, 3]

/-- Feed 1 is found before task 2 stores, feed 2 after. -/
def exCaches : Nat → MessageCache
  | 0 => exFirst.shared.messageCache
  | _ => exSecond.shared.messageCache

theorem exSlotUpdates_root (i : Fin 4) (vaa : Bytes) (h : exSlotUpdates i = .vaa vaa) :
    exKeccakParams.merkleRoot vaa = .ok exSlotRoot := by
  have hroot : ∀ guardianIndex ∈ [3, 7],
      (exKeccakParams.merkleRoot (exSignedVaa guardianIndex)).toOption = some exSlotRoot := by
    decide +kernel
  have hok : ∀ x : Except StoreUpdateError WormholeMerkleRoot,
      x.toOption = some exSlotRoot → x = .ok exSlotRoot := by
    rintro (e | root) hx
    · cases hx
    · exact congrArg _ (Option.some.inj hx)
  match i with
  | 0 =>
    cases h
    exact hok _ (hroot 3 (by decide))
  | 1 => cases h
  | 2 =>
    cases h
    exact hok _ (hroot 7 (by decide))
  | 3 => cases h

theorem exSlotUpdates_noZeroLeaf : NoZeroLeaf exKeccakParams exSlotUpdates := by
  have hleaf : ∀ feeds ∈ [[1, 2], [3]],
      ∀ rawMessage ∈ (exAccumulatorMessages 8 feeds).rawMessages,
        MerkleTree.hashLeaf exKeccakParams.hasher rawMessage ≠ default := by
    decide +kernel
  intro i messages h
  match i with
  | 0 => cases h
  | 1 =>
    cases h
    exact hleaf [1, 2] (by decide)
  | 2 => cases h
  | 3 =>
    cases h
    exact hleaf [3] (by decide)

theorem exSlotUpdates_oneRoot : OneRoot exKeccakParams exSlotUpdates := by
  intro i j vaa vaa' root root' hi hj hroot hroot' _
  cases (exSlotUpdates_root i vaa hi).symm.trans hroot
  cases (exSlotUpdates_root j vaa' hj).symm.trans hroot'
  rfl

theorem exCaches_reachable (n : Nat) : ∃ σ, System.Reachable exKeccakParams exSlotUpdates σ ∧
    exCaches n = σ.shared.messageCache := by
  have hfirst : System.Reachable exKeccakParams exSlotUpdates exFirst :=
    System.reachable_run .refl 100 _
  cases n with
  | zero => exact ⟨_, hfirst, rfl⟩
  | succ n => exact ⟨_, System.reachable_run hfirst 101 _, rfl⟩

/-- The two lookups find message states with different VAAs. -/
theorem exCaches_fetch :
    ∃ messages, fetchMessageStates exCaches [(exFeed 1).feedId, (exFeed 2).feedId] .latest
        (.only .priceFeedMessage) = .ok messages ∧
      messages.map (fun m => (m.slot, m.message.type, m.vaa)) =
        [(8, .priceFeedMessage, exSignedVaa 3), (8, .priceFeedMessage, exSignedVaa 7)] ∧
      ∀ m ∈ messages, (RawMessageWithMerkleProof.fromMessageState m).WithinLimits := by
  have hfetch : ∃ messages ∈ (fetchMessageStates exCaches
      [(exFeed 1).feedId, (exFeed 2).feedId] .latest (.only .priceFeedMessage)).toOption,
      messages.map (fun m => (m.slot, m.message.type, m.vaa)) =
        [(8, .priceFeedMessage, exSignedVaa 3), (8, .priceFeedMessage, exSignedVaa 7)] ∧
      ∀ m ∈ messages, m.rawMessage.length ≤ 65535 ∧ m.vaa.length ≤ 65535 ∧
        m.proofSet.wormholeMerkleProof.proof.length ≤ 255 := by
    decide +kernel
  obtain ⟨messages, hsome, hmessages, hlimits⟩ := hfetch
  cases hquery : fetchMessageStates exCaches [(exFeed 1).feedId, (exFeed 2).feedId] .latest
      (.only .priceFeedMessage) with
  | error e =>
    rw [hquery] at hsome
    cases hsome
  | ok found =>
    rw [hquery] at hsome
    cases hsome
    refine ⟨_, rfl, hmessages, fun m hm => ?_⟩
    obtain ⟨hraw, hvaa, hpath⟩ := hlimits m hm
    exact ⟨hraw, hvaa, hpath⟩

/-- The answer has both feeds, and its updates verify. -/
theorem hermes_updates_verify_ex :
    ∃ answer, getVerifiedPriceFeeds exCaches [(exFeed 1).feedId, (exFeed 2).feedId] .latest =
        .ok answer ∧
      answer.priceFeeds.length = 2 ∧
      ∀ updateData ∈ answer.allUpdateData, UpdateVerifies exKeccakParams exSlotUpdates
        [(exFeed 1).feedId, (exFeed 2).feedId] updateData := by
  obtain ⟨messages, hfetch, hmessages, hlimits⟩ := exCaches_fetch
  have hlength : messages.length = 2 := by
    rw [← List.length_map, hmessages]
    rfl
  have htype : ∀ m ∈ messages, m.message.type = .priceFeedMessage := by
    intro m hm
    have hmem := List.mem_map_of_mem (f := fun m : MessageState => (m.slot, m.message.type, m.vaa))
      hm
    rw [hmessages] at hmem
    rcases List.mem_cons.mp hmem with h | h
    · exact (Prod.mk.inj (Prod.mk.inj h).2).1
    · exact (Prod.mk.inj (Prod.mk.inj (List.mem_singleton.mp h)).2).1
  obtain ⟨answer, hanswer, hfeeds⟩ := exists_answer hfetch htype hlimits
  refine ⟨answer, hanswer, hfeeds.trans hlength, ?_⟩
  exact (hermes_updates_verify exSlotUpdates_oneRoot exSlotUpdates_noZeroLeaf).2 exCaches _ .latest
    answer exCaches_reachable hanswer

end PythCrosschain.Hermes
