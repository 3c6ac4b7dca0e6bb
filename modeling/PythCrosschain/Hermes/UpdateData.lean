import PythCrosschain.Hermes.Cache
import PythCrosschain.Lib.StableSort
import PythCrosschain.Pyth.UpdateReads

/-!
# Hermes: update data

`construct_update_data` of `wormhole_merkle.rs`. The messages are sorted by their slot,
and each update carries the messages of a slot, up to 255 of them, with the VAA of the
first of them.

The result is `construct_update_data_exact`: the updates carry every message once, in
order, and both the SDK and the contract read each of them as what it was made of.
-/

namespace PythCrosschain.Hermes

open PythnetSdk

/-! ## Construction -/

def MAX_MESSAGE_IN_SINGLE_UPDATE_DATA : Nat := 255

structure RawMessageWithMerkleProof where
  slot : Slot
  rawMessage : RawMessage
  proof : WormholeMerkleMessageProof
deriving DecidableEq

namespace RawMessageWithMerkleProof

/-- `From<MessageState>`. -/
def fromMessageState (messageState : MessageState) : RawMessageWithMerkleProof where
  slot := messageState.slot
  rawMessage := messageState.rawMessage
  proof := messageState.proofSet.wormholeMerkleProof

def update (message : RawMessageWithMerkleProof) : MerklePriceUpdate where
  message := message.rawMessage
  proof := message.proof.proof

/-- The sizes that the length prefixes of the format can hold. -/
structure WithinLimits (message : RawMessageWithMerkleProof) : Prop where
  rawMessage : message.rawMessage.length ≤ 65535
  vaa : message.proof.vaa.length ≤ 65535
  path : message.proof.proof.length ≤ 255

theorem WithinLimits.fits {message : RawMessageWithMerkleProof} (h : message.WithinLimits) :
    message.update.Fits :=
  ⟨h.rawMessage, h.path⟩

end RawMessageWithMerkleProof

/-- The loop over the sorted messages. -/
def combineMessages (iter : List RawMessageWithMerkleProof) : Except SerializerError (List Bytes) :=
  match iter with
  | [] => return []
  | message :: iter => do
    let slot := message.slot
    -- `next_if`, while there is room for another update
    let next := takeRun (fun m => m.slot = slot) (MAX_MESSAGE_IN_SINGLE_UPDATE_DATA - 1) iter
    let updates := message.update :: next.1.map RawMessageWithMerkleProof.update
    let data ← AccumulatorUpdateData.schema.toVec .BE
      (.new (.wormholeMerkle message.proof.vaa updates))
    let result ← combineMessages next.2
    return data :: result
termination_by iter.length
decreasing_by exact Nat.lt_succ_of_le (length_takeRun_rest_le _ _ _)

def constructUpdateData (messages : List RawMessageWithMerkleProof) :
    Except SerializerError (List Bytes) :=
  combineMessages (sortByKey (fun m => m.slot) messages)

/-! ## What an update delivers -/

/-- An update carries a batch of messages of one slot, with the VAA of the first: that
is what `try_from_slice` returns, and what the contract visits wherever the update lies
in its calldata. -/
structure Delivers (batch : List RawMessageWithMerkleProof) (updateData : Bytes) : Prop where
  size : batch.length ≤ MAX_MESSAGE_IN_SINGLE_UPDATE_DATA
  slot : ∃ slot, ∀ message ∈ batch, message.slot = slot
  parsed : ∃ first ∈ batch.head?,
    AccumulatorUpdateData.tryFromSlice updateData =
      .ok (.new (.wormholeMerkle first.proof.vaa (batch.map (·.update)))) ∧
    ∀ (m : Machine) (b : CalldataBytes), b.bytes m = updateData →
      Pyth.Visits m b first.proof.vaa (batch.map (·.update))

/-- One round of the loop writes an update that delivers its batch. -/
theorem round_delivers {message : RawMessageWithMerkleProof} {rest : List RawMessageWithMerkleProof}
    (hslot : ∀ m ∈ rest, m.slot = message.slot)
    (hlength : rest.length ≤ MAX_MESSAGE_IN_SINGLE_UPDATE_DATA - 1)
    (hlimits : ∀ m ∈ message :: rest, m.WithinLimits) :
    ∃ updateData, AccumulatorUpdateData.schema.toVec .BE (.new (.wormholeMerkle message.proof.vaa
        ((message :: rest).map (·.update)))) = .ok updateData ∧
      Delivers (message :: rest) updateData := by
  have hvaa := (hlimits message List.mem_cons_self).vaa
  have hsize : (message :: rest).length ≤ MAX_MESSAGE_IN_SINGLE_UPDATE_DATA :=
    Nat.succ_le_succ hlength
  have hcount : ((message :: rest).map (·.update)).length ≤ 255 := by
    rw [List.length_map]
    exact hsize
  have hfits : ∀ update ∈ (message :: rest).map (·.update), update.Fits := by
    intro update hupdate
    obtain ⟨m, hm, rfl⟩ := List.mem_map.mp hupdate
    exact (hlimits m hm).fits
  have hwrite := AccumulatorUpdateData.toVec_eq hvaa hcount hfits
  refine ⟨_, hwrite, hsize, ⟨message.slot, ?_⟩, message, rfl, ?_, fun m b hbytes => ?_⟩
  · intro m hm
    rcases List.mem_cons.mp hm with rfl | hm
    · rfl
    · exact hslot m hm
  · have hparsed := AccumulatorUpdateData.tryFromSlice_new hwrite []
    rwa [List.append_nil] at hparsed
  · exact Pyth.visits_of_layout hvaa hcount hfits hbytes

/-- The loop cuts its messages into batches and delivers them. -/
theorem combineMessages_delivers {iter : List RawMessageWithMerkleProof}
    (hlimits : ∀ m ∈ iter, m.WithinLimits) :
    ∃ batches updateData, combineMessages iter = .ok updateData ∧ batches.flatten = iter ∧
      List.Forall₂ Delivers batches updateData := by
  induction iter using combineMessages.induct with
  | case1 => exact ⟨[], [], by rw [combineMessages]; rfl, rfl, .nil⟩
  | case2 message iter slot next ih =>
    have happend : next.1 ++ next.2 = iter := takeRun_append _ _ iter
    have hsplit : message :: iter = (message :: next.1) ++ next.2 := by rw [← happend]; rfl
    rw [hsplit] at hlimits
    obtain ⟨batches, updateData, hrun, hflatten, hdelivers⟩ :=
      ih fun m hm => hlimits m (List.mem_append_right _ hm)
    have hslot : ∀ m ∈ next.1, m.slot = message.slot := fun m hm => by
      have htaken := of_mem_takeRun
        (fun m : RawMessageWithMerkleProof => decide (m.slot = slot)) hm
      exact of_decide_eq_true htaken
    obtain ⟨data, hwrite, hbatch⟩ := round_delivers hslot (length_takeRun_le _ _ iter)
      fun m hm => hlimits m (List.mem_append_left _ hm)
    refine ⟨(message :: next.1) :: batches, data :: updateData, ?_, ?_, .cons hbatch hdelivers⟩
    · rw [combineMessages]
      exact except_bind_eq_ok.mpr ⟨data, hwrite, except_bind_eq_ok.mpr ⟨updateData, hrun, rfl⟩⟩
    · rw [List.flatten_cons, hflatten, hsplit]

/-- The updates carry every message exactly once, stably sorted by the slot, and each of
them is read as it was made. -/
theorem construct_update_data_exact {messages : List RawMessageWithMerkleProof}
    (hlimits : ∀ message ∈ messages, message.WithinLimits) :
    ∃ batches updateData, constructUpdateData messages = .ok updateData ∧
      StablySorted (fun m => m.slot) messages batches.flatten ∧
      List.Forall₂ Delivers batches updateData := by
  have hsorted := sortByKey_stablySorted (fun m : RawMessageWithMerkleProof => m.slot) messages
  obtain ⟨batches, updateData, hrun, hflatten, hdelivers⟩ :=
    combineMessages_delivers fun m hm => hlimits m (hsorted.perm.mem_iff.mp hm)
  exact ⟨batches, updateData, hrun, hflatten ▸ hsorted, hdelivers⟩

def exMessage (slot : Slot) (byte : UInt8) : RawMessageWithMerkleProof where
  slot := slot
  rawMessage := [0, byte]
  proof := { proof := [default], vaa := [1, 2, 3] }

theorem construct_update_data_exact_pair :
    ∃ batches updateData, constructUpdateData [exMessage 11 7, exMessage 10 8] = .ok updateData ∧
      StablySorted (fun m => m.slot) [exMessage 11 7, exMessage 10 8] batches.flatten ∧
      List.Forall₂ Delivers batches updateData := by
  refine construct_update_data_exact fun message hmessage => ?_
  rcases List.mem_cons.mp hmessage with rfl | hmessage
  · exact ⟨by decide, by decide, by decide⟩
  · obtain rfl := List.mem_singleton.mp hmessage
    exact ⟨by decide, by decide, by decide⟩

end PythCrosschain.Hermes
