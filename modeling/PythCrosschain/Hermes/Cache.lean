import Mathlib.Data.List.Induction
import Mathlib.Data.Prod.Lex
import PythCrosschain.Lib.SortedMap
import PythCrosschain.PythnetSdk.Messages

/-!
# Hermes: the cache of message states

`cache.rs`. The message cache keeps the message states of each key in a map by
their time, at most `cacheSize` of them. Slots and unix timestamps are only
compared, so they are numbers.
-/

namespace PythCrosschain.Hermes

open PythnetSdk

/-- A slot, a `u64`. -/
abbrev Slot := Nat

/-- The number of seconds since the unix epoch, an `i64`. -/
abbrev UnixTimestamp := Int

abbrev RawMessage := Bytes

structure MessageStateKey where
  feedId : FeedId
  type : MessageType
deriving DecidableEq

/-- Ordered by the publish time first, as the derived `Ord` does. -/
structure MessageStateTime where
  publishTime : UnixTimestamp
  slot : Slot
deriving DecidableEq, Repr

namespace MessageStateTime

def lex (time : MessageStateTime) : UnixTimestamp ×ₗ Slot := toLex (time.publishTime, time.slot)

theorem lex_injective : Function.Injective lex := by
  rintro ⟨publishTime, slot⟩ ⟨publishTime', slot'⟩ h
  obtain ⟨rfl, rfl⟩ := Prod.mk.inj (toLex_inj.mp h)
  rfl

instance : LinearOrder MessageStateTime := LinearOrder.lift' lex lex_injective

theorem le_iff {a b : MessageStateTime} :
    a ≤ b ↔ a.publishTime < b.publishTime ∨ a.publishTime = b.publishTime ∧ a.slot ≤ b.slot :=
  Prod.Lex.toLex_le_toLex

theorem publishTime_mono {a b : MessageStateTime} (h : a ≤ b) : a.publishTime ≤ b.publishTime := by
  rcases le_iff.mp h with hlt | ⟨heq, -⟩
  · exact hlt.le
  · exact heq.le

/-- A time from the second `t` on is at least the lookup time. -/
theorem lookupTime_le {t : UnixTimestamp} {time : MessageStateTime} (h : t ≤ time.publishTime) :
    ⟨t, 0⟩ ≤ time := by
  rcases h.lt_or_eq with hlt | heq
  · exact le_iff.mpr (.inl hlt)
  · exact le_iff.mpr (.inr ⟨heq, Nat.zero_le _⟩)

end MessageStateTime

structure WormholeMerkleMessageProof where
  proof : MerklePath 20
  vaa : Bytes
deriving DecidableEq

structure ProofSet where
  wormholeMerkleProof : WormholeMerkleMessageProof
deriving DecidableEq

structure MessageState where
  slot : Slot
  message : Message
  rawMessage : RawMessage
  proofSet : ProofSet
  receivedAt : UnixTimestamp
deriving DecidableEq

namespace MessageState

def time (m : MessageState) : MessageStateTime := ⟨m.message.publishTime.toInt, m.slot⟩

def key (m : MessageState) : MessageStateKey := ⟨m.message.feedId, m.message.type⟩

end MessageState

inductive RequestTime where
  | latest
  | firstAfter (publishTime : UnixTimestamp)
  | atSlot (slot : Slot)

/-- The message states of one key by their time. -/
abbrev KeyCache := SortedMap MessageStateTime MessageState

/-- `MessageCache`, the map from keys to their caches. -/
abbrev MessageCache := MessageStateKey → Option KeyCache

/-- One round of the loop of `store_message_states`. -/
def storeMessageState (cacheSize : Nat) (messageCache : MessageCache) (state : MessageState) :
    MessageCache :=
  let cache := (messageCache state.key).getD SortedMap.empty
  Function.update messageCache state.key
    (some ((cache.insert state.time state).truncate cacheSize))

def storeMessageStates (cacheSize : Nat) (messageStates : List MessageState)
    (messageCache : MessageCache) : MessageCache :=
  messageStates.foldl (storeMessageState cacheSize) messageCache

/-- Remove the keys that are not present in `currentKeys`. -/
def pruneRemovedKeys (currentKeys : List MessageStateKey) (messageCache : MessageCache) :
    MessageCache :=
  fun key => if key ∈ currentKeys then messageCache key else none

/-- The lookup in the cache of one key. -/
def KeyCache.retrieve (keyCache : KeyCache) : RequestTime → Option MessageState
  | .latest => keyCache.last?.map (·.2)
  | .firstAfter time =>
    -- Before the first element we are not sure that it is the closest one.
    if keyCache.first?.any (fun oldest => time < oldest.2.time.publishTime) then none
    else (keyCache.firstFrom ⟨time, 0⟩).map (·.2)
  | .atSlot slot => (keyCache.entries.reverse.find? (·.1.slot = slot)).map (·.2)

def retrieveMessageState (messageCache : MessageCache) (key : MessageStateKey)
    (requestTime : RequestTime) : Option MessageState :=
  match messageCache key with
  | some keyCache => keyCache.retrieve requestTime
  | none => none

/-! ## Runs -/

/-- A write to the message cache. -/
inductive CacheWrite where
  | store (messageStates : List MessageState)
  | prune (currentKeys : List MessageStateKey)

def CacheWrite.apply (cacheSize : Nat) (messageCache : MessageCache) :
    CacheWrite → MessageCache
  | .store messageStates => storeMessageStates cacheSize messageStates messageCache
  | .prune currentKeys => pruneRemovedKeys currentKeys messageCache

/-- The cache after a run of writes to an empty cache. -/
def runWrites (cacheSize : Nat) (writes : List CacheWrite) : MessageCache :=
  writes.foldl (CacheWrite.apply cacheSize) fun _ => none

/-- The message states that a write stores. -/
def CacheWrite.stored : CacheWrite → List MessageState
  | .store messageStates => messageStates
  | .prune _ => []

/-- The message states of a key that a run has stored. -/
def storedStates (key : MessageStateKey) (writes : List CacheWrite) : List MessageState :=
  (writes.flatMap CacheWrite.stored).filter (·.key = key)

/-- `time` is still in the cache of a key. -/
def Cached (messageCache : MessageCache) (key : MessageStateKey) (time : MessageStateTime) :
    Prop :=
  ∃ keyCache, messageCache key = some keyCache ∧ time ∈ keyCache.keys

/-- The cache of `key` holds the newest `cacheSize` of its states `history`, each
under its own time. -/
def HoldsNewest (cacheSize : Nat) (messageCache : MessageCache) (key : MessageStateKey)
    (history : List MessageState) : Prop :=
  ((messageCache key).getD SortedMap.empty).Newest cacheSize (history.map fun m => (m.time, m))

section Store

variable {cacheSize : Nat} {messageCache : MessageCache} {key : MessageStateKey}
  {history : List MessageState}

theorem storeMessageState_other {state : MessageState} (hkey : key ≠ state.key) :
    storeMessageState cacheSize messageCache state key = messageCache key :=
  Function.update_of_ne hkey _ _

theorem storeMessageState_newest {state : MessageState}
    (h : HoldsNewest cacheSize messageCache state.key history) :
    HoldsNewest cacheSize (storeMessageState cacheSize messageCache state) state.key
      (state :: history) := by
  unfold HoldsNewest storeMessageState
  rw [Function.update_self]
  exact SortedMap.Newest.insert h state.time state

theorem storeMessageStates_newest (messageStates : List MessageState)
    (h : HoldsNewest cacheSize messageCache key history) :
    HoldsNewest cacheSize (storeMessageStates cacheSize messageStates messageCache) key
      ((messageStates.filter (·.key = key)).reverse ++ history) := by
  induction messageStates generalizing messageCache history with
  | nil => exact h
  | cons state messageStates ih =>
    rcases eq_or_ne state.key key with rfl | hkey
    · have hstep := ih (storeMessageState_newest h)
      rw [List.filter_cons_of_pos (by simp), List.reverse_cons, List.append_assoc]
      exact hstep
    · rw [List.filter_cons_of_neg (by simp [hkey])]
      refine ih ?_
      unfold HoldsNewest
      rw [storeMessageState_other hkey.symm]
      exact h

end Store

/-- A run that never prunes a key keeps its newest states. -/
theorem runWrites_newest {cacheSize : Nat} {key : MessageStateKey} (writes : List CacheWrite)
    (hkept : ∀ keys, .prune keys ∈ writes → key ∈ keys) :
    HoldsNewest cacheSize (runWrites cacheSize writes) key (storedStates key writes).reverse := by
  induction writes using List.reverseRecOn with
  | nil => exact SortedMap.Newest.empty cacheSize
  | append_singleton writes write ih =>
    have h := ih fun keys hmem => hkept keys (List.mem_append_left _ hmem)
    rw [runWrites, List.foldl_append, storedStates, List.flatMap_append, List.filter_append,
      List.reverse_append]
    cases write with
    | store messageStates =>
      rw [List.flatMap_singleton]
      exact storeMessageStates_newest messageStates h
    | prune currentKeys =>
      have hin : key ∈ currentKeys :=
        hkept currentKeys (List.mem_append_right _ List.mem_cons_self)
      show HoldsNewest cacheSize (pruneRemovedKeys currentKeys (runWrites cacheSize writes)) key _
      unfold HoldsNewest pruneRemovedKeys
      rw [if_pos hin]
      exact h

end PythCrosschain.Hermes
