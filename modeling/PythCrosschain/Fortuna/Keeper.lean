import Mathlib.Logic.Function.Basic
import Mathlib.Logic.Relation
import PythCrosschain.Evm.Solidity
import PythCrosschain.Fortuna.Blocks
import PythCrosschain.Lib.FirstMatch

/-!
# The keeper's scanners

Scanners go through block ranges, batch by batch, and spawn a task for each event whose
sequence number is not in the cache that they share. Every insertion into the cache is
one step, and the scanners take their steps in any order. The task ignores the requests
of other providers, but the cache does not: the sequence number of another provider's
request keeps the keeper's own request out. The results are:

- `Step.inv`: what a step preserves (`Inv`);
- `revealsOnce_iff`: a request is revealed by exactly one task when the first event with
  its sequence number that a scanner handled is of the configured provider;
- `keeper_reveals_once`: this holds in every run in which no other provider's event is
  the first with the sequence number of an own request.
-/

namespace PythCrosschain.Fortuna

open Relation (ReflTransGen)

structure RequestedWithCallbackEvent where
  sequenceNumber : UInt64
  userRandomNumber : Bytes32
  providerAddress : Address
deriving DecidableEq, Repr

/-- What a task uses of `BlockchainState`: the configured provider and its hash chains. -/
structure BlockchainState where
  providerAddress : Address
  reveal : UInt64 → Option Bytes32

/-- The arguments of `reveal_with_callback`. -/
structure RevealCall where
  providerAddress : Address
  sequenceNumber : UInt64
  userRandomNumber : Bytes32
  providerRevelation : Bytes32
deriving DecidableEq, Repr

/-- The call that the task of an event makes, if any. -/
def processEventWithBackoff (chainState : BlockchainState) (event : RequestedWithCallbackEvent) :
    Option RevealCall := do
  -- ignore requests that are not for the configured provider
  if chainState.providerAddress ≠ event.providerAddress then none
  let providerRevelation ← chainState.reveal event.sequenceNumber
  some
    { providerAddress := event.providerAddress
      sequenceNumber := event.sequenceNumber
      userRandomNumber := event.userRandomNumber
      providerRevelation }

/-- The events of the chain, with their blocks. -/
abbrev EventLog := List (BlockNumber × RequestedWithCallbackEvent)

/-- The events of all providers in a batch of blocks. -/
def getRequestWithCallbackEvents (log : EventLog) (batch : BlockRange) :
    List RequestedWithCallbackEvent :=
  (log.filter fun entry => batch.fromBlock ≤ entry.1 ∧ entry.1 ≤ batch.toBlock).map Prod.snd

/-- Where a scanner is in `process_block_range`. -/
inductive Scanner where
  | waiting
  | scanning (currentBlock lastBlock : BlockNumber)
  | handling (events : List RequestedWithCallbackEvent) (batch : BlockRange)
      (lastBlock : BlockNumber)
deriving DecidableEq, Repr

/-- The shared cache, the tasks spawned so far and the scanners. `handled` are the events
that a scanner took to the cache, in order, and `scanned` the batches that are done. -/
structure Keeper (ι : Type) where
  fulfilledRequestsCache : Finset UInt64 := ∅
  spawned : List RequestedWithCallbackEvent := []
  scanners : ι → Scanner := fun _ => .waiting
  handled : List RequestedWithCallbackEvent := []
  scanned : List BlockRange := []

section

variable {ι : Type} [DecidableEq ι]

/-- The insertion of an event's sequence number into the cache, and the task that is
spawned where it is new. -/
def Keeper.handle (k : Keeper ι) (event : RequestedWithCallbackEvent) : Keeper ι :=
  { k with
    fulfilledRequestsCache := insert event.sequenceNumber k.fulfilledRequestsCache
    spawned :=
      if event.sequenceNumber ∈ k.fulfilledRequestsCache then k.spawned
      else k.spawned ++ [event]
    handled := k.handled ++ [event] }

/-- One scanner gets a range, fetches the events of its next batch, handles one of them,
or is done with the batch or the range. A fetch that fails is repeated and changes
nothing. -/
inductive Step (log : EventLog) : Keeper ι → Keeper ι → Prop
  | receive {k : Keeper ι} {i : ι} (range : BlockRange) :
      k.scanners i = .waiting →
      Step log k
        { k with
          scanners := Function.update k.scanners i (.scanning range.fromBlock range.toBlock) }
  | fetch {k : Keeper ι} {i : ι} {currentBlock lastBlock : BlockNumber} {batch : BlockRange} :
      k.scanners i = .scanning currentBlock lastBlock → currentBlock ≤ lastBlock →
      batch = { fromBlock := currentBlock, toBlock := batchEnd currentBlock lastBlock } →
      Step log k
        { k with
          scanners := Function.update k.scanners i
            (.handling (getRequestWithCallbackEvents log batch) batch lastBlock) }
  | handle {k : Keeper ι} {i : ι} {event : RequestedWithCallbackEvent}
      {events : List RequestedWithCallbackEvent} {batch : BlockRange} {lastBlock : BlockNumber} :
      k.scanners i = .handling (event :: events) batch lastBlock →
      Step log k
        { k.handle event with
          scanners := Function.update k.scanners i (.handling events batch lastBlock) }
  | batchDone {k : Keeper ι} {i : ι} {batch : BlockRange} {lastBlock : BlockNumber} :
      k.scanners i = .handling [] batch lastBlock →
      Step log k
        { k with
          scanners := Function.update k.scanners i (.scanning (batch.toBlock + 1) lastBlock)
          scanned := k.scanned ++ [batch] }
  | rangeDone {k : Keeper ι} {i : ι} {currentBlock lastBlock : BlockNumber} :
      k.scanners i = .scanning currentBlock lastBlock → ¬currentBlock ≤ lastBlock →
      Step log k { k with scanners := Function.update k.scanners i .waiting }

/-- A batch with the block is done. -/
def Keeper.Scanned (k : Keeper ι) (block : BlockNumber) : Prop :=
  ∃ batch ∈ k.scanned, batch.Contains block

/-- The calls of the spawned tasks. -/
def Keeper.revealCalls (chainState : BlockchainState) (k : Keeper ι) : List RevealCall :=
  k.spawned.filterMap (processEventWithBackoff chainState)

/-- Exactly one spawned task calls `reveal_with_callback` for the sequence number. -/
def RevealsOnce (chainState : BlockchainState) (k : Keeper ι) (sequenceNumber : UInt64) : Prop :=
  ((k.revealCalls chainState).filter fun call => call.sequenceNumber = sequenceNumber).length = 1

/-- The first event with the sequence number that was taken to the cache. -/
def Keeper.firstHandled (k : Keeper ι) (sequenceNumber : UInt64) :
    Option RequestedWithCallbackEvent :=
  Dedup.firstWith RequestedWithCallbackEvent.sequenceNumber k.handled sequenceNumber

/-! ## What a step preserves -/

/-- The cache passes the first event with each sequence number, and the events of a batch
that is fetched are handled or still to be handled. -/
structure Inv (log : EventLog) (k : Keeper ι) : Prop where
  tracks : Dedup.Tracks RequestedWithCallbackEvent.sequenceNumber
    { seen := k.fulfilledRequestsCache, passed := k.spawned } k.handled
  pending : ∀ i events batch lastBlock, k.scanners i = .handling events batch lastBlock →
    ∀ entry ∈ log, batch.Contains entry.1 → entry.2 ∈ k.handled ∨ entry.2 ∈ events
  scanned : ∀ batch ∈ k.scanned, ∀ entry ∈ log, batch.Contains entry.1 → entry.2 ∈ k.handled

variable {log : EventLog} {k k' : Keeper ι}

omit [DecidableEq ι] in
theorem tracks_handle (inv : Inv log k) (event : RequestedWithCallbackEvent) :
    Dedup.Tracks RequestedWithCallbackEvent.sequenceNumber
      { seen := (k.handle event).fulfilledRequestsCache, passed := (k.handle event).spawned }
      (k.handle event).handled := by
  have offered := inv.tracks.offer event
  unfold Dedup.offer at offered
  unfold Keeper.handle
  split at offered
  · next known => simpa only [Finset.insert_eq_of_mem known, if_pos known] using offered
  · next fresh => simpa only [if_neg fresh] using offered

theorem mem_getRequestWithCallbackEvents {batch : BlockRange}
    {entry : BlockNumber × RequestedWithCallbackEvent} (listed : entry ∈ log)
    (inside : batch.Contains entry.1) : entry.2 ∈ getRequestWithCallbackEvents log batch :=
  List.mem_map.mpr ⟨entry, List.mem_filter.mpr ⟨listed, decide_eq_true inside⟩, rfl⟩

omit [DecidableEq ι] in
theorem inv_init : Inv log ({} : Keeper ι) where
  tracks := Dedup.tracks_empty
  pending := fun _ _ _ _ waiting => by cases waiting
  scanned := fun _ none => absurd none List.not_mem_nil

/-- A scanner that moves leaves the pending events of the others as they are. -/
theorem pending_update (inv : Inv log k) {i : ι} {scanner : Scanner}
    {handled : List RequestedWithCallbackEvent} (grows : ∀ event ∈ k.handled, event ∈ handled)
    (moved : ∀ events batch lastBlock, scanner = .handling events batch lastBlock →
      ∀ entry ∈ log, batch.Contains entry.1 → entry.2 ∈ handled ∨ entry.2 ∈ events) :
    ∀ j events batch lastBlock,
      Function.update k.scanners i scanner j = .handling events batch lastBlock →
      ∀ entry ∈ log, batch.Contains entry.1 → entry.2 ∈ handled ∨ entry.2 ∈ events := by
  intro j events batch lastBlock at_j entry listed inside
  by_cases same : j = i
  · subst same
    rw [Function.update_self] at at_j
    exact moved events batch lastBlock at_j entry listed inside
  · rw [Function.update_of_ne same] at at_j
    exact (inv.pending j events batch lastBlock at_j entry listed inside).imp_left (grows _)

theorem Step.inv (step : Step log k k') (inv : Inv log k) : Inv log k' := by
  cases step with
  | receive range waiting =>
    exact ⟨inv.tracks, pending_update inv (fun _ old => old) (fun _ _ _ other => by cases other),
      inv.scanned⟩
  | fetch scanning more batch_eq =>
    refine ⟨inv.tracks, pending_update inv (fun _ old => old) ?_, inv.scanned⟩
    intro events batch lastBlock fetched entry listed inside
    cases fetched
    exact Or.inr (mem_getRequestWithCallbackEvents listed inside)
  | @handle i event rest batch last handling =>
    have grows : ∀ e ∈ k.handled, e ∈ (k.handle event).handled :=
      fun e old => List.mem_append_left _ old
    refine ⟨tracks_handle inv event, pending_update inv grows ?_,
      fun b member entry listed inside => grows _ (inv.scanned b member entry listed inside)⟩
    intro events b lastBlock left entry listed inside
    cases left
    rcases inv.pending i _ _ _ handling entry listed inside with old | next
    · exact Or.inl (grows _ old)
    · rcases List.mem_cons.mp next with now | later
      · exact Or.inl (List.mem_append_right _ (List.mem_singleton.mpr now))
      · exact Or.inr later
  | @batchDone i batch last handling =>
    refine ⟨inv.tracks,
      pending_update inv (fun _ old => old) (fun _ _ _ other => by cases other), ?_⟩
    intro b member entry listed inside
    rcases List.mem_append.mp member with old | new
    · exact inv.scanned b old entry listed inside
    · obtain rfl := List.mem_singleton.mp new
      exact (inv.pending i _ _ _ handling entry listed inside).resolve_right List.not_mem_nil
  | rangeDone scanning done =>
    exact ⟨inv.tracks, pending_update inv (fun _ old => old) (fun _ _ _ other => by cases other),
      inv.scanned⟩

theorem inv_of_run (run : ReflTransGen (Step log) ({} : Keeper ι) k) : Inv log k := by
  induction run with
  | refl => exact inv_init
  | tail _ step ih => exact step.inv ih

/-! ## Which requests are revealed -/

variable {chainState : BlockchainState} {sequenceNumber : UInt64}

theorem processEventWithBackoff_eq_some {event : RequestedWithCallbackEvent} {call : RevealCall} :
    processEventWithBackoff chainState event = some call ↔
      event.providerAddress = chainState.providerAddress ∧
      ∃ providerRevelation, chainState.reveal event.sequenceNumber = some providerRevelation ∧
        call =
          { providerAddress := event.providerAddress
            sequenceNumber := event.sequenceNumber
            userRandomNumber := event.userRandomNumber
            providerRevelation } := by
  unfold processEventWithBackoff
  by_cases own : chainState.providerAddress = event.providerAddress
  · rw [if_neg (not_not.mpr own)]
    simp only [Option.bind_eq_bind, Option.bind_eq_some_iff, Option.some.injEq, own,
      true_and]
    exact exists_congr fun _ => and_congr_right fun _ => eq_comm
  · rw [if_pos own]
    exact iff_of_false (by simp) fun called => own called.1.symm

omit [DecidableEq ι] in
/-- The calls for a sequence number are those of the tasks for it. -/
theorem filter_revealCalls (k : Keeper ι) :
    (k.revealCalls chainState).filter (fun call => call.sequenceNumber = sequenceNumber) =
      (k.spawned.filter fun event => event.sequenceNumber = sequenceNumber).filterMap
        (processEventWithBackoff chainState) := by
  unfold Keeper.revealCalls
  induction k.spawned with
  | nil => rfl
  | cons event events ih =>
    cases called : processEventWithBackoff chainState event with
    | none =>
      by_cases same : event.sequenceNumber = sequenceNumber
      · simp [called, same, ih]
      · simp [called, same, ih]
    | some call =>
      obtain ⟨_, _, _, rfl⟩ := processEventWithBackoff_eq_some.mp called
      by_cases same : event.sequenceNumber = sequenceNumber
      · simp [called, same, ih]
      · simp [called, same, ih]

omit [DecidableEq ι] in
/-- A request is revealed by exactly one task when the first event with its sequence
number was of the configured provider, whose hash chains reveal it. -/
theorem revealsOnce_iff (inv : Inv log k) :
    RevealsOnce chainState k sequenceNumber ↔
      (∃ first, k.firstHandled sequenceNumber = some first ∧
        first.providerAddress = chainState.providerAddress) ∧
      (chainState.reveal sequenceNumber).isSome := by
  have passed := inv.tracks.passed sequenceNumber
  unfold RevealsOnce Keeper.firstHandled
  rw [filter_revealCalls, passed]
  cases found : Dedup.firstWith RequestedWithCallbackEvent.sequenceNumber k.handled
      sequenceNumber with
  | none => simp
  | some first =>
    obtain rfl : first.sequenceNumber = sequenceNumber := by
      have same := List.find?_some found
      exact of_decide_eq_true same
    rw [Option.toList_some, List.filterMap_cons, List.filterMap_nil]
    simp only [Option.some.injEq, exists_eq_left']
    cases called : processEventWithBackoff chainState first with
    | none =>
      refine iff_of_false (by simp) fun ⟨own, revealed⟩ => ?_
      obtain ⟨revelation, revealed⟩ := Option.isSome_iff_exists.mp revealed
      have call := processEventWithBackoff_eq_some.mpr ⟨own, revelation, revealed, rfl⟩
      exact absurd (called.symm.trans call) (by simp)
    | some call =>
      obtain ⟨own, revelation, revealed, _⟩ := processEventWithBackoff_eq_some.mp called
      exact iff_of_true rfl ⟨own, Option.isSome_iff_exists.mpr ⟨revelation, revealed⟩⟩

/-! ## Runs without a clash of sequence numbers -/

/-- An event that does not keep an own request out of the cache: it is of the configured
provider, or its sequence number is in the cache already, or no own request has it. -/
def Clear (chainState : BlockchainState) (log : EventLog) (k : Keeper ι)
    (event : RequestedWithCallbackEvent) : Prop :=
  event.providerAddress = chainState.providerAddress ∨
    event.sequenceNumber ∈ k.fulfilledRequestsCache ∨
    ∀ entry ∈ log, entry.2.providerAddress = chainState.providerAddress →
      entry.2.sequenceNumber ≠ event.sequenceNumber

/-- A step that handles no event but a clear one. -/
def ClearStep (chainState : BlockchainState) (log : EventLog) (k k' : Keeper ι) : Prop :=
  Step log k k' ∧ ∀ event, k'.handled = k.handled ++ [event] → Clear chainState log k event

/-- The first event with the sequence number of an own request was of the configured
provider. -/
def FirstOwn (chainState : BlockchainState) (log : EventLog) (k : Keeper ι) : Prop :=
  ∀ entry ∈ log, entry.2.providerAddress = chainState.providerAddress →
    ∀ first, k.firstHandled entry.2.sequenceNumber = some first →
      first.providerAddress = chainState.providerAddress

theorem ClearStep.firstOwn (step : ClearStep chainState log k k') (inv : Inv log k)
    (own : FirstOwn chainState log k) : FirstOwn chainState log k' := by
  obtain ⟨step, clear⟩ := step
  cases step with
  | receive range waiting => exact own
  | fetch scanning more batch_eq => exact own
  | @handle i event rest batch last handling =>
    intro entry listed mine first found
    unfold Keeper.firstHandled at found
    rw [show (Keeper.handled _) = k.handled ++ [event] from rfl, Dedup.firstWith_append] at found
    cases before : Dedup.firstWith RequestedWithCallbackEvent.sequenceNumber k.handled
        entry.2.sequenceNumber with
    | some earlier =>
      rw [before, Option.some_or] at found
      exact own entry listed mine first (before.trans found)
    | none =>
      rw [before, Option.none_or] at found
      split at found
      · next same =>
        cases found
        rcases clear event rfl with ours | known | free
        · exact ours
        · rw [same] at known
          exact absurd ((inv.tracks.seen _).mp known) (Dedup.firstWith_eq_none.mp before)
        · exact absurd same.symm (free entry listed mine)
      · cases found
  | batchDone handling => exact own
  | rangeDone scanning done => exact own

theorem firstOwn_of_run (run : ReflTransGen (ClearStep chainState log) ({} : Keeper ι) k) :
    Inv log k ∧ FirstOwn chainState log k := by
  induction run with
  | refl => exact ⟨inv_init, fun _ _ _ _ found => by cases found⟩
  | tail _ step ih => exact ⟨step.1.inv ih.1, step.firstOwn ih.1 ih.2⟩

/-- **One reveal for each request.** However many scanners go through overlapping ranges,
and in whatever order they take their steps: once the block of a request to the configured
provider is scanned, exactly one spawned task calls `reveal_with_callback` for its
sequence number if and only if the first event with that sequence number that reached the
cache was of the configured provider and its hash chains reveal the number. In a run that
lets no event of another provider reach the cache first with the sequence number of an own
request, this is so for every request that the hash chains reveal. -/
theorem keeper_reveals_once (chainState : BlockchainState) (log : EventLog) (k : Keeper ι)
    {block : BlockNumber} {event : RequestedWithCallbackEvent} (listed : (block, event) ∈ log)
    (own : event.providerAddress = chainState.providerAddress) (scanned : k.Scanned block) :
    (ReflTransGen (Step log) {} k →
      (RevealsOnce chainState k event.sequenceNumber ↔
        (∃ first, k.firstHandled event.sequenceNumber = some first ∧
          first.providerAddress = chainState.providerAddress) ∧
        (chainState.reveal event.sequenceNumber).isSome)) ∧
    (ReflTransGen (ClearStep chainState log) {} k →
      (chainState.reveal event.sequenceNumber).isSome →
      RevealsOnce chainState k event.sequenceNumber) := by
  refine ⟨fun run => revealsOnce_iff (inv_of_run run), fun run revealed => ?_⟩
  obtain ⟨inv, firstOwn⟩ := firstOwn_of_run run
  obtain ⟨batch, done, inside⟩ := scanned
  have handled : event ∈ k.handled := inv.scanned batch done (block, event) listed inside
  obtain ⟨first, found⟩ : ∃ first, k.firstHandled event.sequenceNumber = some first :=
    Dedup.exists_firstWith handled
  exact (revealsOnce_iff inv).mpr
    ⟨⟨first, found, firstOwn (block, event) listed own first found⟩, revealed⟩

end

/-! ### Two requests with the same sequence number -/

/-- The configured provider is 1, and its hash chains reveal everything. -/
def exChainState : BlockchainState where
  providerAddress := 1
  reveal := fun _ => some 0

def exEvent (providerAddress : Address) : RequestedWithCallbackEvent where
  sequenceNumber := 7
  userRandomNumber := 0
  providerAddress := providerAddress

/-- A step that handles nothing is clear. -/
theorem clearStep_of_handled_eq {ι : Type} [DecidableEq ι] {chainState : BlockchainState}
    {log : EventLog} {k k' : Keeper ι} (step : Step log k k') (same : k'.handled = k.handled) :
    ClearStep chainState log k k' :=
  ⟨step, fun event grown => absurd (same.symm.trans grown) (by simp)⟩

/-- A request to the configured provider, and later one to another provider with the same
sequence number. -/
def exLog : EventLog := [(1, exEvent 1), (2, exEvent 2)]

/-- One scanner goes over both blocks, and the other one over the first block at the same time. -/
theorem exRun : ∃ k : Keeper Bool,
    ReflTransGen (ClearStep exChainState exLog) {} k ∧ k.handled.length = 3 ∧ k.Scanned 1 := by
  refine ⟨_, .head (clearStep_of_handled_eq (.receive (i := false) ⟨1, 2⟩ rfl) rfl) <|
    .head (clearStep_of_handled_eq (.receive (i := true) ⟨1, 1⟩ rfl) rfl) <|
    .head (clearStep_of_handled_eq (.fetch (i := false) rfl (by decide) rfl) rfl) <|
    .head (clearStep_of_handled_eq (.fetch (i := true) rfl (by decide) rfl) rfl) <|
    .head ⟨.handle (i := true) rfl, fun event grown => ?_⟩ <|
    .head ⟨.handle (i := false) rfl, fun event grown => ?_⟩ <|
    .head ⟨.handle (i := false) rfl, fun event grown => ?_⟩ <|
    .head (clearStep_of_handled_eq (.batchDone (i := true) rfl) rfl) <|
    .head (clearStep_of_handled_eq (.batchDone (i := false) rfl) rfl) .refl, rfl,
    ⟨_, List.mem_cons_self, by decide⟩⟩
  · cases grown
    exact .inl rfl
  · cases grown
    exact .inl rfl
  · cases grown
    -- the sequence number of the other provider's request is in the cache
    exact .inr (.inl (Finset.mem_insert_self _ _))

theorem keeper_reveals_once_exRun :
    ∃ k : Keeper Bool, ReflTransGen (ClearStep exChainState exLog) {} k ∧ k.handled.length = 3 ∧
      RevealsOnce exChainState k (exEvent 1).sequenceNumber := by
  obtain ⟨k, run, count, scanned⟩ := exRun
  exact ⟨k, run, count,
    (keeper_reveals_once exChainState exLog k List.mem_cons_self rfl scanned).2 run rfl⟩

/-- The request of another provider with the same sequence number, earlier in the block,
keeps the own request from being revealed. -/
theorem clash_not_revealed :
    ∃ k : Keeper Unit, ReflTransGen (Step [(1, exEvent 2), (1, exEvent 1)]) {} k ∧
      k.Scanned 1 ∧ k.revealCalls exChainState = [] ∧
      ¬RevealsOnce exChainState k (exEvent 1).sequenceNumber := by
  refine ⟨_, .head (.receive (i := ()) ⟨1, 1⟩ rfl) <|
    .head (.fetch (i := ()) rfl (by decide) rfl) <| .head (.handle (i := ()) rfl) <|
    .head (.handle (i := ()) rfl) <| .head (.batchDone (i := ()) rfl) .refl,
    ⟨_, List.mem_singleton_self _, by decide⟩, by decide, ?_⟩
  unfold RevealsOnce
  decide

end PythCrosschain.Fortuna
