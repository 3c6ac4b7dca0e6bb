import Mathlib.Logic.Relation
import PythCrosschain.Hermes.Cache
import PythCrosschain.PythnetSdk.WireV1

/-!
# Hermes: storing updates

`store_update` of `aggregate.rs`, as the tasks that run it. A task takes one step for each
lock that it acquires; between two steps it holds what it has read so far (`Task`), and
other tasks run. The metrics are left out.

Parsing the envelope of a VAA is outside of this repository, so `Params` has it.
-/

namespace PythCrosschain.Hermes

open PythnetSdk

/-! ## Data model -/

structure AccumulatorMessages where
  slot : Slot
  rawMessages : List RawMessage

structure WormholeMerkleState where
  root : WormholeMerkleRoot
  vaa : Bytes

inductive Update where
  | vaa (vaaBytes : Bytes)
  | accumulatorMessages (accumulatorMessages : AccumulatorMessages)

/-- An event that is emitted when an aggregation is completed. -/
inductive AggregationEvent where
  | new (slot : Slot)
  | outOfOrder (slot : Slot)
deriving DecidableEq

inductive StoreUpdateError where
  | invalidVaa
  | invalidWormholeMessage
  | invalidMerkleRoot
  | failedToProveMessage
  | failedToDeserializeMessage
  | missingProof
deriving DecidableEq

/-- The caches and the aggregate state, which the tasks share. The events are newest first. -/
structure Shared where
  accumulatorMessagesCache : SortedMap Slot AccumulatorMessages := SortedMap.empty
  wormholeMerkleStateCache : SortedMap Slot WormholeMerkleState := SortedMap.empty
  messageCache : MessageCache := fun _ => none
  latestCompletedSlot : Option Slot := none
  latestCompletedUpdateTime : Option UnixTimestamp := none
  latestObservedSlot : Option Slot := none
  events : List AggregationEvent := []

/-- What the functions are run with: the hasher of the Merkle trees, the payload of a
serialized VAA, and the size of the caches. -/
structure Params where
  hasher : Hasher 20
  vaaPayload : Bytes → Option Bytes
  cacheSize : Nat

namespace Params

variable (P : Params)

/-! ## Message states -/

def constructMessageStatesProofs (accumulatorMessages : AccumulatorMessages)
    (wormholeMerkleState : WormholeMerkleState) :
    Except StoreUpdateError (List WormholeMerkleMessageProof) :=
  match MerkleTree.new P.hasher accumulatorMessages.rawMessages with
  -- It only happens when the message set is empty.
  | none => .ok []
  | some merkleAcc =>
    if merkleAcc.root ≠ wormholeMerkleState.root.root then .error .invalidMerkleRoot
    else accumulatorMessages.rawMessages.mapM fun m =>
      match merkleAcc.prove P.hasher m with
      | some proof => .ok { proof, vaa := wormholeMerkleState.vaa }
      | none => .error .failedToProveMessage

/-- One message state. -/
def buildMessageState (proofs : List WormholeMerkleMessageProof) (slot : Slot)
    (currentTime : UnixTimestamp) (message : RawMessage × Nat) :
    Except StoreUpdateError MessageState :=
  match Message.schema.fromSlice .BE message.1 with
  | .error _ => .error .failedToDeserializeMessage
  | .ok (parsed, _) =>
    match proofs[message.2]? with
    | none => .error .missingProof
    | some proof => .ok
        { slot
          message := parsed
          rawMessage := message.1
          proofSet := { wormholeMerkleProof := proof }
          receivedAt := currentTime }

def buildMessageStates (currentTime : UnixTimestamp) (accumulatorMessages : AccumulatorMessages)
    (wormholeMerkleState : WormholeMerkleState) : Except StoreUpdateError (List MessageState) := do
  let proofs ← P.constructMessageStatesProofs accumulatorMessages wormholeMerkleState
  accumulatorMessages.rawMessages.zipIdx.mapM
    (buildMessageState proofs accumulatorMessages.slot currentTime)

/-! ## The steps of a task -/

def storeAccumulatorMessages (accumulatorMessages : AccumulatorMessages) (shared : Shared) :
    Shared :=
  { shared with
    accumulatorMessagesCache :=
      (shared.accumulatorMessagesCache.insert accumulatorMessages.slot
        accumulatorMessages).truncate P.cacheSize }

def storeWormholeMerkleState (wormholeMerkleState : WormholeMerkleState) (shared : Shared) :
    Shared :=
  { shared with
    wormholeMerkleStateCache :=
      (shared.wormholeMerkleStateCache.insert wormholeMerkleState.root.slot.toNat
        wormholeMerkleState).truncate P.cacheSize }

/-- The Merkle root that a VAA attests. -/
def merkleRoot (vaaBytes : Bytes) : Except StoreUpdateError WormholeMerkleRoot :=
  match P.vaaPayload vaaBytes with
  | none => .error .invalidVaa
  | some payload =>
    match WormholeMessage.tryFromBytes payload with
    | .error _ => .error .invalidWormholeMessage
    | .ok message =>
      match message.payload with
      | .merkle root => .ok root

end Params

/-- The last section of `store_update`, under the lock of the aggregate state. -/
def updateAggregateState (now : UnixTimestamp) (slot : Slot) (messageStates : List MessageState)
    (shared : Shared) : Shared :=
  let messageStateKeys := messageStates.map MessageState.key
  let shared :=
    match shared.latestCompletedSlot with
    | none =>
      { shared with latestCompletedSlot := some slot, events := .new slot :: shared.events }
    | some latest =>
      if slot > latest then
        { shared with
          messageCache := pruneRemovedKeys messageStateKeys shared.messageCache
          latestCompletedSlot := some slot
          events := .new slot :: shared.events }
      else { shared with events := .outOfOrder slot :: shared.events }
  { shared with
    latestCompletedSlot := (shared.latestCompletedSlot.map (max · slot)).or (some slot)
    latestCompletedUpdateTime := some now }

/-- Where a task is in `store_update`, and what it holds. -/
inductive Task where
  | received (update : Update)
  | storedUpdate (slot : Slot)
  | observed (slot : Slot)
  | fetchedMessages (slot : Slot) (accumulatorMessages : Option AccumulatorMessages)
  | fetched (slot : Slot) (accumulatorMessages : Option AccumulatorMessages)
      (wormholeMerkleState : Option WormholeMerkleState)
  | storedMessageStates (slot : Slot) (messageStates : List MessageState)
  | finished (result : Except StoreUpdateError Unit)

namespace Params

variable (P : Params)

/-- One step of a task: the code up to the end of the next section under a lock. -/
def stepTask (now : UnixTimestamp) (shared : Shared) : Task → Shared × Task
  | .received (.vaa vaaBytes) =>
    match P.merkleRoot vaaBytes with
    | .error e => (shared, .finished (.error e))
    | .ok root =>
      (P.storeWormholeMerkleState { root, vaa := vaaBytes } shared,
        .storedUpdate root.slot.toNat)
  | .received (.accumulatorMessages accumulatorMessages) =>
    (P.storeAccumulatorMessages accumulatorMessages shared,
      .storedUpdate accumulatorMessages.slot)
  | .storedUpdate slot => ({ shared with latestObservedSlot := some slot }, .observed slot)
  | .observed slot =>
    (shared, .fetchedMessages slot (shared.accumulatorMessagesCache.get? slot))
  | .fetchedMessages slot accumulatorMessages =>
    (shared, .fetched slot accumulatorMessages (shared.wormholeMerkleStateCache.get? slot))
  | .fetched slot (some accumulatorMessages) (some wormholeMerkleState) =>
    match P.buildMessageStates now accumulatorMessages wormholeMerkleState with
    | .error e => (shared, .finished (.error e))
    | .ok messageStates =>
      ({ shared with
          messageCache := storeMessageStates P.cacheSize messageStates shared.messageCache },
        .storedMessageStates slot messageStates)
  | .fetched .. => (shared, .finished (.ok ()))
  | .storedMessageStates slot messageStates =>
    (updateAggregateState now slot messageStates shared, .finished (.ok ()))
  | .finished result => (shared, .finished result)

end Params

/-- What the tasks share, and the tasks. -/
structure System (ι : Type) where
  shared : Shared
  tasks : ι → Task

namespace System

variable {ι : Type} [DecidableEq ι] (P : Params)

/-- The task `i` takes its next step at the time `now`. -/
def step (i : ι) (now : UnixTimestamp) (σ : System ι) : System ι :=
  let next := P.stepTask now σ.shared (σ.tasks i)
  { shared := next.1, tasks := Function.update σ.tasks i next.2 }

/-- Nothing is stored yet, and every task has received its update. -/
def start (updates : ι → Update) : System ι where
  shared := {}
  tasks i := .received (updates i)

/-- The states that the tasks reach, in any order of their steps. -/
def Reachable (updates : ι → Update) : System ι → Prop :=
  Relation.ReflTransGen (fun σ σ' => ∃ i now, σ' = σ.step P i now) (start updates)

end System

end PythCrosschain.Hermes
