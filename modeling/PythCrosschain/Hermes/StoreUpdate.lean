import Mathlib.Data.Fintype.Basic
import PythCrosschain.Hermes.Aggregate
import PythCrosschain.Lib.Codec

/-!
# Hermes: updates that are stored at the same time

A task stores its message states under the lock of the message cache, and decides under
another lock, later, whether its slot is new. In between it waits (`Awaits`), and other
tasks may remove what it stored: `prune_removed_keys` knows only the keys of the task that
calls it.

Results:
1. `store_update_loses_state`: a task of an older slot prunes a feed that only the newer
   slot has, and the event of the newer slot comes without its message state.
2. `retrievable_iff`: which message states of the cache some request returns.
3. `store_update_keeps_states`: where no task prunes a key that a waiting task of a newer
   slot stored, and none stores another message state over one that is waited for or hides
   it from all requests, nothing is lost.
-/

namespace PythCrosschain.Hermes

open PythnetSdk

/-! ## Being in the cache -/

/-- Some request for its key returns the message state. -/
def Retrievable (messageCache : MessageCache) (m : MessageState) : Prop :=
  ∃ requestTime, retrieveMessageState messageCache m.key requestTime = some m

/-- The cache of a key, empty when there is none. -/
def MessageCache.of (messageCache : MessageCache) (key : MessageStateKey) : KeyCache :=
  (messageCache key).getD SortedMap.empty

/-- The cache of its key holds `cacheSize` newer entries. -/
def Displaced (cacheSize : Nat) (messageCache : MessageCache) (m : MessageState) : Prop :=
  (messageCache.of m.key).Displaced cacheSize m.time

/-- Among entries with these times a request finds the one with this time: at its slot, where
none is newer, or first after its publish time, where none of that second is older. -/
def Visible (times : List MessageStateTime) (time : MessageStateTime) : Prop :=
  (∀ t ∈ times, t.slot = time.slot → t ≤ time) ∨
    ∀ t ∈ times, t.publishTime = time.publishTime → time ≤ t

/-- The message state is in the cache, or was displaced. -/
def Stored (cacheSize : Nat) (messageCache : MessageCache) (m : MessageState) : Prop :=
  (m.time, m) ∈ (messageCache.of m.key).entries ∨ Displaced cacheSize messageCache m

/-- Every entry is stored under its own time. -/
def WellTimed (messageCache : MessageCache) : Prop :=
  ∀ key, ∀ e ∈ (messageCache.of key).entries, e.1 = e.2.time

/-- The message state can be retrieved, or was displaced. -/
structure Kept (cacheSize : Nat) (messageCache : MessageCache) (m : MessageState) : Prop where
  stored : Stored cacheSize messageCache m
  visible : Visible (messageCache.of m.key).keys m.time

namespace KeyCache

variable {keyCache : KeyCache} {time : MessageStateTime} {m : MessageState}

theorem retrieve_atSlot (hmem : (time, m) ∈ keyCache.entries)
    (hnewest : ∀ t ∈ keyCache.keys, t.slot = time.slot → t ≤ time) :
    keyCache.retrieve (.atSlot time.slot) = some m := by
  obtain ⟨e, he⟩ : ∃ e, keyCache.entries.reverse.find? (·.1.slot = time.slot) = some e :=
    Option.isSome_iff_exists.mp (List.find?_isSome.mpr ⟨_, List.mem_reverse.mpr hmem, by simp⟩)
  obtain ⟨hin, hslot, hgreatest⟩ := SortedMap.findLast_greatest he
  have hle : e.1 ≤ time := hnewest e.1 (List.mem_map_of_mem hin) (of_decide_eq_true hslot)
  have hge : time ≤ e.1 := hgreatest _ hmem (by simp)
  have heq : e = (time, m) := SortedMap.entry_unique hin hmem (le_antisymm hle hge)
  simp only [retrieve, he, heq, Option.map_some]

theorem retrieve_firstAfter_publishTime (htimed : ∀ e ∈ keyCache.entries, e.1 = e.2.time)
    (hmem : (time, m) ∈ keyCache.entries)
    (holdest : ∀ t ∈ keyCache.keys, t.publishTime = time.publishTime → time ≤ t) :
    keyCache.retrieve (.firstAfter time.publishTime) = some m := by
  have hguard : keyCache.first?.any (fun oldest => time.publishTime < oldest.2.time.publishTime)
      = false := by
    cases hfirst : keyCache.first? with
    | none => rfl
    | some oldest =>
      obtain ⟨hin, hleast⟩ := SortedMap.first_least hfirst
      rw [Option.any_some, ← htimed oldest hin]
      exact decide_eq_false (not_lt.mpr (MessageStateTime.publishTime_mono (hleast _ hmem)))
  have hlookup : ⟨time.publishTime, 0⟩ ≤ time := MessageStateTime.lookupTime_le le_rfl
  obtain ⟨e, he⟩ : ∃ e, keyCache.firstFrom ⟨time.publishTime, 0⟩ = some e :=
    Option.isSome_iff_exists.mp (List.find?_isSome.mpr ⟨_, hmem, decide_eq_true hlookup⟩)
  obtain ⟨hin, hfrom, hleast⟩ := SortedMap.firstFrom_least he
  have hle : e.1 ≤ time := hleast _ hmem hlookup
  -- The entry that is found lies between the lookup time and `time`, so in the same second.
  have hafter := MessageStateTime.publishTime_mono hfrom
  have hsecond : e.1.publishTime = time.publishTime :=
    le_antisymm (MessageStateTime.publishTime_mono hle) hafter
  have hge : time ≤ e.1 := holdest e.1 (List.mem_map_of_mem hin) hsecond
  have heq : e = (time, m) := SortedMap.entry_unique hin hmem (le_antisymm hle hge)
  simp only [retrieve, hguard, he, heq, Option.map_some, Bool.false_eq_true, if_false]

/-- What some request returns is in the cache, and no other entry hides it. -/
theorem visible_of_retrieve (htimed : ∀ e ∈ keyCache.entries, e.1 = e.2.time)
    {requestTime : RequestTime} (h : keyCache.retrieve requestTime = some m) :
    (m.time, m) ∈ keyCache.entries ∧ Visible keyCache.keys m.time := by
  cases requestTime with
  | latest =>
    obtain ⟨⟨time, m⟩, hlast, rfl⟩ := Option.map_eq_some_iff.mp h
    obtain ⟨hin, hgreatest⟩ := SortedMap.last_greatest hlast
    obtain rfl : time = m.time := htimed _ hin
    refine ⟨hin, .inl fun t ht _ => ?_⟩
    obtain ⟨v, hv⟩ := SortedMap.mem_keys.mp ht
    exact hgreatest _ hv
  | firstAfter publishTime =>
    simp only [retrieve] at h
    split at h
    · cases h
    · obtain ⟨⟨time, m⟩, hfirst, rfl⟩ := Option.map_eq_some_iff.mp h
      obtain ⟨hin, hfrom, hleast⟩ := SortedMap.firstFrom_least hfirst
      obtain rfl : time = m.time := htimed _ hin
      refine ⟨hin, .inr fun t ht hsecond => ?_⟩
      obtain ⟨v, hv⟩ := SortedMap.mem_keys.mp ht
      have hafter : publishTime ≤ t.publishTime :=
        hsecond ▸ MessageStateTime.publishTime_mono hfrom
      exact hleast _ hv (MessageStateTime.lookupTime_le hafter)
  | atSlot slot =>
    obtain ⟨⟨time, m⟩, hfind, rfl⟩ := Option.map_eq_some_iff.mp h
    obtain ⟨hin, hslot, hgreatest⟩ := SortedMap.findLast_greatest hfind
    obtain rfl : time = m.time := htimed _ hin
    refine ⟨hin, .inl fun t ht hsame => ?_⟩
    obtain ⟨v, hv⟩ := SortedMap.mem_keys.mp ht
    exact hgreatest _ hv (decide_eq_true (hsame.trans (of_decide_eq_true hslot)))

end KeyCache

theorem retrieve_of (messageCache : MessageCache) (key : MessageStateKey)
    (requestTime : RequestTime) :
    retrieveMessageState messageCache key requestTime =
      (messageCache.of key).retrieve requestTime := by
  unfold retrieveMessageState MessageCache.of
  cases messageCache key with
  | none =>
    cases requestTime with
    | latest => rfl
    | firstAfter t => rfl
    | atSlot slot => rfl
  | some keyCache => rfl

section Store

variable {cacheSize : Nat} {messageCache : MessageCache} {m : MessageState}

/-- A message state can be retrieved exactly when it is in the cache and visible there. -/
theorem retrievable_iff (htimed : WellTimed messageCache) :
    Retrievable messageCache m ↔ (m.time, m) ∈ (messageCache.of m.key).entries ∧
      Visible (messageCache.of m.key).keys m.time := by
  unfold Retrievable
  simp only [retrieve_of]
  constructor
  · rintro ⟨requestTime, h⟩
    exact KeyCache.visible_of_retrieve (htimed m.key) h
  · rintro ⟨hmem, hnewest | holdest⟩
    · exact ⟨_, KeyCache.retrieve_atSlot hmem hnewest⟩
    · exact ⟨_, KeyCache.retrieve_firstAfter_publishTime (htimed m.key) hmem holdest⟩

theorem Kept.retrievable (h : Kept cacheSize messageCache m) (htimed : WellTimed messageCache) :
    Retrievable messageCache m ∨ Displaced cacheSize messageCache m :=
  h.stored.imp_left fun hmem => (retrievable_iff htimed).mpr ⟨hmem, h.visible⟩

/-! ## Storing -/

theorem storeMessageState_of (state : MessageState) :
    (storeMessageState cacheSize messageCache state).of state.key =
      ((messageCache.of state.key).insert state.time state).truncate cacheSize := by
  unfold MessageCache.of storeMessageState
  rw [Function.update_self]
  rfl

theorem storeMessageState_of_other {state : MessageState} {key : MessageStateKey}
    (hkey : key ≠ state.key) :
    (storeMessageState cacheSize messageCache state).of key = messageCache.of key := by
  unfold MessageCache.of
  rw [storeMessageState_other hkey]

/-- What a cache holds was there before, or is one of the message states that were stored. -/
theorem mem_storeMessageStates {states : List MessageState} {key : MessageStateKey}
    {e : MessageStateTime × MessageState}
    (he : e ∈ ((storeMessageStates cacheSize states messageCache).of key).entries) :
    e ∈ (messageCache.of key).entries ∨ ∃ s ∈ states, s.key = key ∧ e = (s.time, s) := by
  induction states generalizing messageCache with
  | nil => exact .inl he
  | cons state states ih =>
    rcases ih he with hin | ⟨s, hs, hkey, rfl⟩
    · rcases eq_or_ne key state.key with rfl | hkey
      · rw [storeMessageState_of] at hin
        rcases SortedMap.mem_insert.mp (SortedMap.mem_of_mem_truncate hin) with rfl | ⟨hin, -⟩
        · exact .inr ⟨state, List.mem_cons_self, rfl, rfl⟩
        · exact .inl hin
      · rw [storeMessageState_of_other hkey] at hin
        exact .inl hin
    · exact .inr ⟨s, List.mem_cons_of_mem _ hs, hkey, rfl⟩

theorem WellTimed.store (h : WellTimed messageCache) (states : List MessageState) :
    WellTimed (storeMessageStates cacheSize states messageCache) := by
  intro key e he
  rcases mem_storeMessageStates he with hin | ⟨s, -, -, rfl⟩
  · exact h key e hin
  · rfl

theorem Stored.store {state : MessageState} (h : Stored cacheSize messageCache m)
    (hsame : state.key = m.key → state.time = m.time → state = m) :
    Stored cacheSize (storeMessageState cacheSize messageCache state) m := by
  unfold Stored Displaced at *
  rcases eq_or_ne m.key state.key with hkey | hkey
  · rw [hkey] at h ⊢
    rw [storeMessageState_of]
    rcases h with hmem | hdisplaced
    · exact SortedMap.mem_insert_truncate hmem (hsame hkey.symm) cacheSize
    · exact .inr (hdisplaced.insert _ _)
  · rw [storeMessageState_of_other hkey]
    exact h

theorem stored_self : Stored cacheSize (storeMessageState cacheSize messageCache m) m := by
  unfold Stored Displaced
  rw [storeMessageState_of]
  exact SortedMap.mem_truncate_or_displaced (SortedMap.mem_insert.mpr (.inl rfl)) cacheSize

/-- A message state that was stored, or is now, stays when no other one of its time is
stored over it. -/
theorem storeMessageStates_stored {states : List MessageState}
    (hsame : ∀ s ∈ states, s.key = m.key → s.time = m.time → s = m)
    (h : Stored cacheSize messageCache m ∨ m ∈ states) :
    Stored cacheSize (storeMessageStates cacheSize states messageCache) m := by
  induction states generalizing messageCache with
  | nil =>
    rcases h with hstored | hmem
    · exact hstored
    · cases hmem
  | cons state states ih =>
    refine ih (fun s hs => hsame s (List.mem_cons_of_mem _ hs)) ?_
    rcases h with hstored | hmem
    · exact .inl (hstored.store (hsame state List.mem_cons_self))
    · rcases List.mem_cons.mp hmem with rfl | hmem
      · exact .inl stored_self
      · exact .inr hmem

/-- The times of the message states of a key. -/
def timesOf (key : MessageStateKey) (messageStates : List MessageState) :
    List MessageStateTime :=
  (messageStates.filter (·.key = key)).map MessageState.time

/-- Storing the message states leaves `m` where a request finds it: none of them has the key
and the time of `m` unless it is `m`, and their times and those in the cache do not hide it. -/
structure Spares (messageCache : MessageCache) (messageStates : List MessageState)
    (m : MessageState) : Prop where
  same : ∀ s ∈ messageStates, s.key = m.key → s.time = m.time → s = m
  visible : Visible ((messageCache.of m.key).keys ++ timesOf m.key messageStates) m.time

theorem Spares.kept {messageStates : List MessageState}
    (hspares : Spares messageCache messageStates m)
    (h : Stored cacheSize messageCache m ∨ m ∈ messageStates) :
    Kept cacheSize (storeMessageStates cacheSize messageStates messageCache) m := by
  have htimes : ∀ t ∈ ((storeMessageStates cacheSize messageStates messageCache).of m.key).keys,
      t ∈ (messageCache.of m.key).keys ++ timesOf m.key messageStates := by
    intro t ht
    obtain ⟨e, he, rfl⟩ := List.mem_map.mp ht
    rcases mem_storeMessageStates he with hin | ⟨s, hs, hkey, rfl⟩
    · exact List.mem_append_left _ (List.mem_map_of_mem hin)
    · refine List.mem_append_right _ (List.mem_map_of_mem (List.mem_filter.mpr ⟨hs, ?_⟩))
      exact decide_eq_true hkey
  exact {
    stored := storeMessageStates_stored hspares.same h
    visible := hspares.visible.imp (fun hnewest t ht => hnewest t (htimes t ht))
      fun holdest t ht => holdest t (htimes t ht) }

/-! ## Pruning -/

theorem pruneRemovedKeys_of {currentKeys : List MessageStateKey} {key : MessageStateKey}
    (hkey : key ∈ currentKeys) :
    (pruneRemovedKeys currentKeys messageCache).of key = messageCache.of key := by
  unfold MessageCache.of pruneRemovedKeys
  rw [if_pos hkey]

/-- Pruning only removes. -/
theorem mem_pruneRemovedKeys {currentKeys : List MessageStateKey} {key : MessageStateKey}
    {e : MessageStateTime × MessageState}
    (he : e ∈ ((pruneRemovedKeys currentKeys messageCache).of key).entries) :
    e ∈ (messageCache.of key).entries := by
  by_cases hkey : key ∈ currentKeys
  · rwa [pruneRemovedKeys_of hkey] at he
  · rw [MessageCache.of, pruneRemovedKeys, if_neg hkey] at he
    cases he

theorem WellTimed.prune (h : WellTimed messageCache) (currentKeys : List MessageStateKey) :
    WellTimed (pruneRemovedKeys currentKeys messageCache) :=
  fun key e he => h key e (mem_pruneRemovedKeys he)

/-- Pruning leaves the caches of the current keys alone. -/
theorem Kept.prune {currentKeys : List MessageStateKey} (h : Kept cacheSize messageCache m)
    (hkey : m.key ∈ currentKeys) :
    Kept cacheSize (pruneRemovedKeys currentKeys messageCache) m := by
  obtain ⟨hstored, hvisible⟩ := h
  unfold Stored Displaced at hstored
  constructor
  · unfold Stored Displaced
    rw [pruneRemovedKeys_of hkey]
    exact hstored
  · rw [pruneRemovedKeys_of hkey]
    exact hvisible

end Store

/-! ## Tasks that wait -/

/-- The message states that a task has stored, with their slot, while it waits for the lock
of the aggregate state. -/
def Task.waiting? : Task → Option (Slot × List MessageState)
  | .storedMessageStates slot messageStates => some (slot, messageStates)
  | _ => none

/-- The message states that a step is about to store, with their slot. -/
def Task.building (P : Params) (now : UnixTimestamp) : Task → Option (Slot × List MessageState)
  | .fetched slot (some accumulatorMessages) (some wormholeMerkleState) =>
    ((P.buildMessageStates now accumulatorMessages wormholeMerkleState).toOption).map (slot, ·)
  | _ => none

/-- A task with this slot would report it as new. -/
def Shared.MayComplete (shared : Shared) (slot : Slot) : Prop :=
  ∀ latest, shared.latestCompletedSlot = some latest → latest < slot

section Tasks

variable {ι : Type} [DecidableEq ι] (P : Params)

/-- The task has stored its message states, and is about to report its slot as new. -/
def System.Awaits (σ : System ι) (i : ι) (slot : Slot) (messageStates : List MessageState) :
    Prop :=
  σ.tasks i = .storedMessageStates slot messageStates ∧ σ.shared.MayComplete slot

/-- A task reports its slot as new only while its message states can be retrieved, those
apart that newer entries have displaced. -/
def System.LosesNothing (σ : System ι) : Prop :=
  ∀ i now slot messageStates, σ.tasks i = .storedMessageStates slot messageStates →
    (σ.step P i now).shared.events = .new slot :: σ.shared.events →
    ∀ m ∈ messageStates, Retrievable (σ.step P i now).shared.messageCache m ∨
      Displaced P.cacheSize (σ.step P i now).shared.messageCache m

/-- Storing takes nothing away from the tasks that wait, nor from the task itself where it
may complete. -/
structure ClearStore (σ : System ι) (slot : Slot) (messageStates : List MessageState) :
    Prop where
  others : ∀ j slot' messageStates', σ.Awaits j slot' messageStates' →
    ∀ m ∈ messageStates', Spares σ.shared.messageCache messageStates m
  own : σ.shared.MayComplete slot →
    ∀ m ∈ messageStates, Spares σ.shared.messageCache messageStates m

/-- Pruning takes nothing away: the keys include those that waiting tasks of newer slots
have stored. -/
def ClearPrune (σ : System ι) (slot : Slot) (messageStates : List MessageState) : Prop :=
  σ.shared.MayComplete slot → ∀ j slot' messageStates', σ.Awaits j slot' messageStates' →
    slot < slot' → ∀ m ∈ messageStates', m.key ∈ messageStates.map MessageState.key

/-- The step takes nothing away from the tasks that wait. -/
def ClearStep (σ : System ι) (i : ι) (now : UnixTimestamp) : Prop :=
  (∀ w ∈ (σ.tasks i).building P now, ClearStore σ w.1 w.2) ∧
    ∀ w ∈ (σ.tasks i).waiting?, ClearPrune σ w.1 w.2

/-- The states that clear steps reach. -/
def System.ClearlyReachable (updates : ι → Update) : System ι → Prop :=
  Relation.ReflTransGen (fun σ σ' => ∃ i now, ClearStep P σ i now ∧ σ' = σ.step P i now)
    (System.start updates)

end Tasks

/-! ## Checking a run -/

theorem Task.waiting?_eq_some {task : Task} {slot : Slot} {messageStates : List MessageState} :
    task.waiting? = some (slot, messageStates) ↔
      task = .storedMessageStates slot messageStates := by
  cases task <;> simp [Task.waiting?]

instance (shared : Shared) (slot : Slot) : Decidable (shared.MayComplete slot) :=
  inferInstanceAs (Decidable (∀ latest ∈ shared.latestCompletedSlot, latest < slot))

instance (times : List MessageStateTime) (time : MessageStateTime) :
    Decidable (Visible times time) :=
  inferInstanceAs (Decidable (_ ∨ _))

instance (messageCache : MessageCache) (messageStates : List MessageState) (m : MessageState) :
    Decidable (Spares messageCache messageStates m) :=
  decidable_of_iff
    ((∀ s ∈ messageStates, s.key = m.key → s.time = m.time → s = m) ∧
      Visible ((messageCache.of m.key).keys ++ timesOf m.key messageStates) m.time)
    ⟨fun h => ⟨h.1, h.2⟩, fun h => ⟨h.same, h.visible⟩⟩

section Check

variable {ι : Type}

/-- What holds for all tasks that wait, checked task by task. -/
theorem forall_awaits {σ : System ι} {p : Slot → List MessageState → Prop} :
    (∀ j, ∀ w ∈ (σ.tasks j).waiting?, σ.shared.MayComplete w.1 → p w.1 w.2) ↔
      ∀ j slot messageStates, σ.Awaits j slot messageStates → p slot messageStates := by
  constructor
  · intro h j slot messageStates hawaits
    exact h j (slot, messageStates) (Task.waiting?_eq_some.mpr hawaits.1) hawaits.2
  · intro h j w hw hmay
    exact h j w.1 w.2 ⟨Task.waiting?_eq_some.mp hw, hmay⟩

instance [Fintype ι] (σ : System ι) (slot : Slot) (messageStates : List MessageState) :
    Decidable (ClearStore σ slot messageStates) :=
  decidable_of_iff
    ((∀ j, ∀ w ∈ (σ.tasks j).waiting?, σ.shared.MayComplete w.1 →
        ∀ m ∈ w.2, Spares σ.shared.messageCache messageStates m) ∧
      (σ.shared.MayComplete slot →
        ∀ m ∈ messageStates, Spares σ.shared.messageCache messageStates m))
    ⟨fun h => ⟨forall_awaits.mp h.1, h.2⟩, fun h => ⟨forall_awaits.mpr h.others, h.own⟩⟩

instance [Fintype ι] (σ : System ι) (slot : Slot) (messageStates : List MessageState) :
    Decidable (ClearPrune σ slot messageStates) :=
  decidable_of_iff
    (σ.shared.MayComplete slot → ∀ j, ∀ w ∈ (σ.tasks j).waiting?, σ.shared.MayComplete w.1 →
      slot < w.1 → ∀ m ∈ w.2, m.key ∈ messageStates.map MessageState.key)
    (forall_congr' fun _ => @forall_awaits ι σ fun slot' messageStates' =>
      slot < slot' → ∀ m ∈ messageStates', m.key ∈ messageStates.map MessageState.key)

instance [DecidableEq ι] [Fintype ι] (P : Params) (σ : System ι) (i : ι) (now : UnixTimestamp) :
    Decidable (ClearStep P σ i now) :=
  inferInstanceAs (Decidable (_ ∧ _))

end Check

/-! ## What one step does -/

section Step

variable {ι : Type} [DecidableEq ι] {P : Params} {σ : System ι} {i : ι} {now : UnixTimestamp}

theorem updateAggregateState_cases (now : UnixTimestamp) (slot : Slot)
    (messageStates : List MessageState) (shared : Shared) :
    let after := updateAggregateState now slot messageStates shared
    (shared.MayComplete slot ∧ after.events = .new slot :: shared.events ∧
        (after.messageCache = shared.messageCache ∨
          after.messageCache =
            pruneRemovedKeys (messageStates.map MessageState.key) shared.messageCache) ∨
      ¬ shared.MayComplete slot ∧ after.events = .outOfOrder slot :: shared.events ∧
        after.messageCache = shared.messageCache) ∧
    ∀ slot', after.MayComplete slot' → slot < slot' ∧ shared.MayComplete slot' := by
  intro after
  unfold Shared.MayComplete
  cases hlatest : shared.latestCompletedSlot with
  | none =>
    have hafter : after.latestCompletedSlot = some slot := by
      simp [after, updateAggregateState, hlatest]
    refine ⟨.inl ⟨by simp, by simp [after, updateAggregateState, hlatest], .inl ?_⟩, ?_⟩
    · simp [after, updateAggregateState, hlatest]
    · intro slot' hmay
      exact ⟨hmay slot hafter, by simp⟩
  | some latest =>
    rcases Nat.lt_or_ge latest slot with hlt | hge
    · have hafter : after.latestCompletedSlot = some slot := by
        simp [after, updateAggregateState, hlatest, hlt]
      refine ⟨.inl ⟨by simpa using hlt, ?_, .inr ?_⟩, ?_⟩
      · simp [after, updateAggregateState, hlatest, hlt]
      · simp [after, updateAggregateState, hlatest, hlt]
      · intro slot' hmay
        have hslot := hmay slot hafter
        exact ⟨hslot, by simpa using hlt.trans hslot⟩
    · have hafter : after.latestCompletedSlot = some latest := by
        simp [after, updateAggregateState, hlatest, Nat.not_lt.mpr hge, hge]
      refine ⟨.inr ⟨by simpa using hge, ?_, ?_⟩, ?_⟩
      · simp [after, updateAggregateState, hlatest, Nat.not_lt.mpr hge]
      · simp [after, updateAggregateState, hlatest, Nat.not_lt.mpr hge]
      · intro slot' hmay
        have hslot := hmay latest hafter
        exact ⟨Nat.lt_of_le_of_lt hge hslot, by simpa using hslot⟩

/-- A step of a task stores message states and makes the task wait, or updates the
aggregate state and ends the task, or leaves what the waiting tasks depend on. -/
theorem step_cases (P : Params) (σ : System ι) (i : ι) (now : UnixTimestamp) :
    (∃ slot accumulatorMessages wormholeMerkleState messageStates,
      σ.tasks i = .fetched slot (some accumulatorMessages) (some wormholeMerkleState) ∧
      P.buildMessageStates now accumulatorMessages wormholeMerkleState = .ok messageStates ∧
      (σ.step P i now).tasks =
        Function.update σ.tasks i (.storedMessageStates slot messageStates) ∧
      (σ.step P i now).shared.messageCache =
        storeMessageStates P.cacheSize messageStates σ.shared.messageCache ∧
      (σ.step P i now).shared.latestCompletedSlot = σ.shared.latestCompletedSlot) ∨
    (∃ slot messageStates, σ.tasks i = .storedMessageStates slot messageStates ∧
      (σ.step P i now).tasks = Function.update σ.tasks i (.finished (.ok ())) ∧
      (σ.step P i now).shared = updateAggregateState now slot messageStates σ.shared) ∨
    (∃ task, (∀ slot messageStates, task ≠ .storedMessageStates slot messageStates) ∧
      (σ.step P i now).tasks = Function.update σ.tasks i task ∧
      (σ.step P i now).shared.messageCache = σ.shared.messageCache ∧
      (σ.step P i now).shared.latestCompletedSlot = σ.shared.latestCompletedSlot) := by
  unfold System.step
  cases htask : σ.tasks i with
  | received update =>
    refine .inr (.inr ?_)
    cases update with
    | vaa vaaBytes =>
      simp only [Params.stepTask]
      cases P.merkleRoot vaaBytes with
      | error e => exact ⟨.finished (.error e), nofun, rfl, rfl, rfl⟩
      | ok root => exact ⟨.storedUpdate root.slot.toNat, nofun, rfl, rfl, rfl⟩
    | accumulatorMessages messages => exact ⟨.storedUpdate messages.slot, nofun, rfl, rfl, rfl⟩
  | storedUpdate slot => exact .inr (.inr ⟨.observed slot, nofun, rfl, rfl, rfl⟩)
  | observed slot =>
    exact .inr (.inr ⟨.fetchedMessages slot _, nofun, rfl, rfl, rfl⟩)
  | fetchedMessages slot messages =>
    exact .inr (.inr ⟨.fetched slot messages _, nofun, rfl, rfl, rfl⟩)
  | fetched slot messages merkleState =>
    cases messages with
    | none => exact .inr (.inr ⟨.finished (.ok ()), nofun, rfl, rfl, rfl⟩)
    | some messages =>
      cases merkleState with
      | none => exact .inr (.inr ⟨.finished (.ok ()), nofun, rfl, rfl, rfl⟩)
      | some merkleState =>
        simp only [Params.stepTask]
        cases hbuild : P.buildMessageStates now messages merkleState with
        | error e => exact .inr (.inr ⟨.finished (.error e), nofun, rfl, rfl, rfl⟩)
        | ok messageStates =>
          exact .inl ⟨slot, messages, merkleState, messageStates, rfl, hbuild, rfl, rfl, rfl⟩
  | storedMessageStates slot messageStates =>
    exact .inr (.inl ⟨slot, messageStates, rfl, rfl, rfl⟩)
  | finished result => exact .inr (.inr ⟨.finished result, nofun, rfl, rfl, rfl⟩)

/-- Everything that a waiting task has stored is kept. -/
structure System.Intact (P : Params) (σ : System ι) : Prop where
  timed : WellTimed σ.shared.messageCache
  kept : ∀ i slot messageStates, σ.Awaits i slot messageStates →
    ∀ m ∈ messageStates, Kept P.cacheSize σ.shared.messageCache m

/-- Storing keeps what it stores and what other tasks wait for. -/
theorem System.Intact.store (h : σ.Intact P) {slot : Slot} {messageStates : List MessageState}
    (hclear : ClearStore σ slot messageStates) {σ' : System ι}
    (htasks : σ'.tasks = Function.update σ.tasks i (.storedMessageStates slot messageStates))
    (hcache : σ'.shared.messageCache =
      storeMessageStates P.cacheSize messageStates σ.shared.messageCache)
    (hlatest : σ'.shared.latestCompletedSlot = σ.shared.latestCompletedSlot) : σ'.Intact P := by
  constructor
  case timed =>
    rw [hcache]
    exact h.timed.store messageStates
  case kept =>
    intro j slot' messageStates' hawaits m hm
    obtain ⟨htask, hmay⟩ := hawaits
    rw [Shared.MayComplete, hlatest] at hmay
    rw [htasks] at htask
    rw [hcache]
    rcases eq_or_ne j i with rfl | hji
    · rw [Function.update_self] at htask
      cases htask
      exact (hclear.own hmay m hm).kept (.inr hm)
    · rw [Function.update_of_ne hji] at htask
      have hawaits : σ.Awaits j slot' messageStates' := ⟨htask, hmay⟩
      have hkept := h.kept j slot' messageStates' hawaits m hm
      exact (hclear.others j slot' messageStates' hawaits m hm).kept (.inl hkept.stored)

/-- Updating the aggregate state keeps what the other tasks wait for. -/
theorem System.Intact.aggregate (h : σ.Intact P) {slot : Slot}
    {messageStates : List MessageState} (hclear : ClearPrune σ slot messageStates)
    {σ' : System ι}
    (htasks : σ'.tasks = Function.update σ.tasks i (.finished (.ok ())))
    (hshared : σ'.shared = updateAggregateState now slot messageStates σ.shared) :
    σ'.Intact P := by
  obtain ⟨hafter, hlatest⟩ := updateAggregateState_cases now slot messageStates σ.shared
  constructor
  case timed =>
    rw [hshared]
    rcases hafter with ⟨-, -, hcache | hcache⟩ | ⟨-, -, hcache⟩
    · exact hcache ▸ h.timed
    · exact hcache ▸ h.timed.prune _
    · exact hcache ▸ h.timed
  case kept =>
    intro j slot' messageStates' hawaits m hm
    obtain ⟨htask, hmay⟩ := hawaits
    rw [hshared] at hmay
    rw [htasks] at htask
    rw [hshared]
    obtain ⟨hnewer, hmay⟩ := hlatest slot' hmay
    rcases eq_or_ne j i with rfl | hji
    · rw [Function.update_self] at htask
      cases htask
    · rw [Function.update_of_ne hji] at htask
      have hawaits : σ.Awaits j slot' messageStates' := ⟨htask, hmay⟩
      have hkept := h.kept j slot' messageStates' hawaits m hm
      rcases hafter with ⟨hcompletes, -, hcache | hcache⟩ | ⟨-, -, hcache⟩
      · rw [hcache]
        exact hkept
      · rw [hcache]
        exact hkept.prune (hclear hcompletes j slot' messageStates' hawaits hnewer m hm)
      · rw [hcache]
        exact hkept

theorem System.Intact.step (h : σ.Intact P) (hclear : ClearStep P σ i now) :
    (σ.step P i now).Intact P := by
  obtain ⟨hstore, hprune⟩ := hclear
  rcases step_cases P σ i now with ⟨slot, messages, merkleState, messageStates, htask, hbuild,
    htasks, hcache, hlatest⟩ | ⟨slot, messageStates, htask, htasks, hshared⟩ |
    ⟨task, hother, htasks, hcache, hlatest⟩
  · have hbuilding : (σ.tasks i).building P now = some (slot, messageStates) := by
      rw [htask, Task.building, hbuild]
      rfl
    exact h.store (hstore (slot, messageStates) hbuilding) htasks hcache hlatest
  · have hwaiting : (σ.tasks i).waiting? = some (slot, messageStates) := by
      rw [htask, Task.waiting?]
    exact h.aggregate (hprune (slot, messageStates) hwaiting) htasks hshared
  · refine ⟨hcache ▸ h.timed, fun j slot' messageStates' hawaits m hm => ?_⟩
    obtain ⟨htask, hmay⟩ := hawaits
    rw [Shared.MayComplete, hlatest] at hmay
    rw [htasks] at htask
    rw [hcache]
    rcases eq_or_ne j i with rfl | hji
    · rw [Function.update_self] at htask
      exact absurd htask (hother _ _)
    · rw [Function.update_of_ne hji] at htask
      exact h.kept j slot' messageStates' ⟨htask, hmay⟩ m hm

theorem System.ClearlyReachable.intact {updates : ι → Update}
    (h : System.ClearlyReachable P updates σ) : σ.Intact P := by
  induction h with
  | refl =>
    constructor
    case timed =>
      intro key e he
      cases he
    case kept =>
      intro i slot messageStates hawaits
      cases hawaits.1
  | tail _ hstep ih =>
    obtain ⟨i, now, hclear, rfl⟩ := hstep
    exact ih.step hclear

/-- In every run whose steps are clear, in whatever order the tasks take them, a task that
reports its slot as new can still retrieve every message state that it built for the slot,
those apart that `cacheSize` newer entries of the same key have displaced. A step is clear
unless it prunes a key that a waiting task of a newer slot has stored, or stores a message
state over one that is waited for, or such that no request finds that one any more. -/
theorem store_update_keeps_states {updates : ι → Update}
    (h : System.ClearlyReachable P updates σ) : σ.LosesNothing P := by
  intro i now slot messageStates htask hevent m hm
  have hshared : (σ.step P i now).shared =
      updateAggregateState now slot messageStates σ.shared := by
    simp only [System.step, htask, Params.stepTask]
  rw [hshared] at hevent ⊢
  obtain ⟨hafter, -⟩ := updateAggregateState_cases now slot messageStates σ.shared
  have hown : m.key ∈ messageStates.map MessageState.key := List.mem_map_of_mem hm
  rcases hafter with ⟨hmay, -, hcache⟩ | ⟨-, hother, -⟩
  · have hkept := h.intact.kept i slot messageStates ⟨htask, hmay⟩ m hm
    rcases hcache with hcache | hcache
    · rw [hcache]
      exact hkept.retrievable h.intact.timed
    · rw [hcache]
      exact (hkept.prune hown).retrievable (h.intact.timed.prune _)
  · rw [hother] at hevent
    cases hevent

end Step

/-! ## Runs -/

section Run

variable {ι : Type} [DecidableEq ι] {P : Params}

/-- The tasks take their steps in the order of the schedule, at one time. -/
def System.run (P : Params) (now : UnixTimestamp) (σ : System ι) (schedule : List ι) : System ι :=
  schedule.foldl (fun σ i => σ.step P i now) σ

/-- All steps of the schedule are clear. -/
def ClearSchedule (P : Params) (now : UnixTimestamp) : List ι → System ι → Prop
  | [], _ => True
  | i :: schedule, σ => ClearStep P σ i now ∧ ClearSchedule P now schedule (σ.step P i now)

instance ClearSchedule.decidable [Fintype ι] (P : Params) (now : UnixTimestamp) :
    (schedule : List ι) → (σ : System ι) → Decidable (ClearSchedule P now schedule σ)
  | [], _ => .isTrue trivial
  | i :: schedule, σ =>
    let _ := ClearSchedule.decidable P now schedule (σ.step P i now)
    inferInstanceAs (Decidable (_ ∧ _))

theorem System.reachable_run {updates : ι → Update} {σ : System ι}
    (h : System.Reachable P updates σ) (now : UnixTimestamp) (schedule : List ι) :
    System.Reachable P updates (σ.run P now schedule) := by
  induction schedule generalizing σ with
  | nil => exact h
  | cons i schedule ih => exact ih (h.tail ⟨i, now, rfl⟩)

theorem ClearSchedule.clearlyReachable {updates : ι → Update} {σ : System ι}
    {now : UnixTimestamp} {schedule : List ι} (hclear : ClearSchedule P now schedule σ)
    (h : System.ClearlyReachable P updates σ) :
    System.ClearlyReachable P updates (σ.run P now schedule) := by
  induction schedule generalizing σ with
  | nil => exact h
  | cons i schedule ih => exact ih hclear.2 (h.tail ⟨i, now, hclear.1, rfl⟩)

end Run

def exHasher : Hasher 20 where
  digest s := ⟨bytesBE 20 (natBE s % (2 ^ 160 - 47)), length_bytesBE _ _⟩

/-- The payload of a VAA: what follows its header, its signatures and the body's header. -/
def exVaaPayload (vaaBytes : Bytes) : Option Bytes :=
  some (vaaBytes.drop (6 + 66 * (vaaBytes.getD 5 0).toNat + 51))

def exParams : Params where
  hasher := exHasher
  vaaPayload := exVaaPayload
  cacheSize := 10

def exFeed (feed : UInt8) : MessageStateKey where
  feedId := ⟨List.replicate 32 feed, List.length_replicate⟩
  type := .priceFeedMessage

/-- The message of a price feed in a slot. -/
def exRawMessage (slot : Nat) (feed : UInt8) : RawMessage :=
  (Message.schema.toVec .BE (.priceFeedMessage
    { feedId := (exFeed feed).feedId
      price := 1
      conf := 1
      exponent := 0
      publishTime := BitVec.ofNat 64 slot
      prevPublishTime := 0
      emaPrice := 1
      emaConf := 1 })).toOption.getD []

def exAccumulatorMessages (slot : Nat) (feeds : List UInt8) : AccumulatorMessages where
  slot := slot
  rawMessages := feeds.map (exRawMessage slot)

def exRoot (slot : Nat) (feeds : List UInt8) : WormholeMerkleRoot where
  slot := BitVec.ofNat 64 slot
  ringSize := 10000
  root := ((MerkleTree.new exHasher (exAccumulatorMessages slot feeds).rawMessages).map
    (·.root)).getD default

/-- A VAA without signatures. -/
def exVaa (slot : Nat) (feeds : List UInt8) : Bytes :=
  1 :: List.replicate 56 0 ++
    (WormholeMessage.schema.toVec .BE (.new (.merkle (exRoot slot feeds)))).toOption.getD []

/-- The two updates of each of the slots 8, 9 and 10. Slot 10 has the feeds 1 and 2. -/
def exUpdates (feeds : List UInt8) : Fin 6 → Update
  | 0 => .vaa (exVaa 8 [1])
  | 1 => .accumulatorMessages (exAccumulatorMessages 8 [1])
  | 2 => .vaa (exVaa 9 feeds)
  | 3 => .accumulatorMessages (exAccumulatorMessages 9 feeds)
  | 4 => .vaa (exVaa 10 [1, 2])
  | 5 => .accumulatorMessages (exAccumulatorMessages 10 [1, 2])

/-- Slot 8 is completed; then task 5 stores the message states of slot 10 and waits, while
task 3 completes slot 9. -/
def exSchedule : List (Fin 6) :=
  [0, 1, 1, 1, 1, 1, 1, 2, 4, 5, 5, 5, 5, 5, 3, 3, 3, 3, 3, 3]

def exWaiting (feeds : List UInt8) : System (Fin 6) :=
  System.run exParams 100 (.start (exUpdates feeds)) exSchedule

/-- Where slot 9 has no feed 2, completing it prunes the message state of feed 2 that task 5
has stored. Task 5 then reports slot 10, and no request finds that message state. -/
theorem store_update_loses_state :
    System.Reachable exParams (exUpdates [1]) (exWaiting [1]) ∧
      ¬ (exWaiting [1]).LosesNothing exParams := by
  refine ⟨System.reachable_run .refl 100 exSchedule, fun h => ?_⟩
  have hwaits : ∃ w ∈ ((exWaiting [1]).tasks 5).waiting?, w.1 = 10 ∧
      ∃ m ∈ w.2, m.key = exFeed 2 := by decide +kernel
  obtain ⟨⟨slot, messageStates⟩, hw, hslot, m, hm, hkey⟩ := hwaits
  cases hslot
  have hevent : ((exWaiting [1]).step exParams 5 100).shared.events =
      .new 10 :: (exWaiting [1]).shared.events := by decide +kernel
  have hnone : ((exWaiting [1]).step exParams 5 100).shared.messageCache (exFeed 2) = none :=
    Option.isNone_iff_eq_none.mp (by decide +kernel)
  rcases h 5 100 10 messageStates (Task.waiting?_eq_some.mp hw) hevent m hm with
    ⟨requestTime, hfound⟩ | ⟨hfull, -⟩
  · rw [hkey, retrieveMessageState, hnone] at hfound
    cases hfound
  · rw [hkey, MessageCache.of, hnone] at hfull
    cases hfull

/-- Where slot 9 has both feeds, the same schedule loses nothing. -/
theorem store_update_keeps_states_run : (exWaiting [1, 2]).LosesNothing exParams :=
  store_update_keeps_states
    (ClearSchedule.clearlyReachable (by decide +kernel) .refl)

end PythCrosschain.Hermes
