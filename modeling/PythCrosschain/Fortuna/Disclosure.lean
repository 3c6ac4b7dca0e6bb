import PythCrosschain.Entropy.Blocks
import PythCrosschain.Fortuna.ChainAgreement
import PythCrosschain.Fortuna.Keeper
import PythCrosschain.Lib.Codec

/-!
# What Fortuna discloses

A value of a hash chain gives away all earlier values of its chain. Fortuna hands out values
on three paths: the `revelation` endpoint answers with one, the keeper's tasks submit one for
every request event, and `update_commitments_if_necessary` submits one to advance the
commitment. Each path reads the chain several times, every read at its own moment, while
blocks are added and reorganised (`Server`, `Step`).

The keeper's paths read only blocks that are settled. The endpoint reads the request from
the latest block and the confirmed block number separately: a reorganisation between the two
reads may take the request's block away, and the endpoint then answers for a number that
nobody has asked for. The results are:

- `getRequest_readFrom`, `mem_eventLog`, `commitmentUpdate_lt`: what the three reads tell;
- `Step.sound`: what a step preserves (`Sound`);
- `disclosed_numbers_assigned`: in every run in which no endpoint call answers on a request
  whose block was replaced between its reads, all numbers up to a disclosed one were
  assigned in blocks up to the confirmed block less the delay;
- `revelation_of_replaced_request`: a run in which the endpoint discloses a number that the
  chain never assigned.
-/

namespace PythCrosschain.Fortuna

open Relation (ReflTransGen)
open Entropy (World Event ProviderInfo EntropyChain AssignedIn nextOf)

/-! ## Reading the contract -/

section

variable (keccak256 : Bytes → Bytes32)

/-- `EntropyReader::get_request`, answered in the state `w`. -/
def getRequest (provider : Address) (sequenceNumber : UInt64) (w : World) :
    Option Entropy.Request :=
  let r := w.state.load (Entropy.findRequest keccak256 provider sequenceNumber.toBitVec w.state)
  -- sequence_number == 0 means the request does not exist.
  if r.sequenceNumber ≠ 0 then some r else none

end

/-- The `RequestedWithCallback` events, as the reader returns them. -/
def requestedWithCallback? : Event → Option RequestedWithCallbackEvent
  | .requestedWithCallback _ _ sequenceNumber userRandomNumber request =>
    some
      { sequenceNumber := UInt64.ofBitVec sequenceNumber
        userRandomNumber
        providerAddress := request.provider }
  | _ => none

section

variable {keccak256 : Bytes → Bytes32}

/-- What a block adds to the contract's events, the oldest first. -/
def blockEvents (c : EntropyChain keccak256) (block : Nat) : List Event :=
  let logs := (c.stateAt block).logs
  (logs.take (logs.length - (c.stateAt (block - 1)).logs.length)).reverse

/-- The request events of a chain, with their blocks. -/
def eventLog (c : EntropyChain keccak256) : EventLog :=
  (List.range (c.latest + 1)).flatMap fun block =>
    ((blockEvents c block).filterMap requestedWithCallback?).map (UInt64.ofNat block, ·)

end

/-! ## What is disclosed -/

/-- `BlockchainState`, with the keeper's `block_delays`. -/
structure ServedChain where
  providerAddress : Address
  state : HashChainState
  revealDelayBlocks : BlockNumber
  blockDelays : List UInt64

/-- The errors of `revelation` once both reads succeeded. -/
inductive RestError where
  | noPendingRequest
  | pendingConfirmation
  | unknown
deriving DecidableEq, Repr

section

variable (keccak256 : Bytes → Bytes32) (served : ServedChain)

def ServedChain.reveal (sequenceNumber : UInt64) : Option Bytes32 :=
  (served.state.reveal keccak256 sequenceNumber.toNat).toOption

/-- What the keeper's tasks use of the served chain. -/
def ServedChain.blockchainState : BlockchainState where
  providerAddress := served.providerAddress
  reveal := served.reveal keccak256

/-- `revelation`, after its two reads. -/
def revelation (sequence : UInt64) (maybeRequest : Option Entropy.Request)
    (currentBlockNumber : BlockNumber) : Except RestError Bytes32 :=
  match maybeRequest with
  | some r =>
    if saturatingSub currentBlockNumber served.revealDelayBlocks ≥
        UInt64.ofBitVec r.blockNumber then
      match served.reveal keccak256 sequence with
      | some value => .ok value
      | none => .error .unknown
    else .error .pendingConfirmation
  | none => .error .noPendingRequest

/-- `(max_num_hashes as f64 * UPDATE_COMMITMENTS_THRESHOLD_FACTOR) as u64`, the factor being
0.95. For every `u32` the rounding of the product does not change its integer part. -/
def updateCommitmentsThreshold (maxNumHashes : Uint32) : UInt64 :=
  UInt64.ofNat (maxNumHashes.toNat * 95 / 100)

/-- `update_commitments_if_necessary`: the number to advance the commitment to. -/
def commitmentUpdate (providerInfo : ProviderInfo) : Option UInt64 :=
  let sequenceNumber := UInt64.ofBitVec providerInfo.sequenceNumber
  if providerInfo.maxNumHashes = 0 then none
  else if sequenceNumber - UInt64.ofBitVec providerInfo.currentCommitmentSequenceNumber >
      updateCommitmentsThreshold providerInfo.maxNumHashes then
    some (sequenceNumber - 1)
  else none

/-- The last block that a read of the confirmed block number makes safe. -/
def ServedChain.safeBlock (confirmedBlock : BlockNumber) : BlockNumber :=
  confirmedBlock - served.revealDelayBlocks

/-- The ranges that the keeper processes for a range: itself, and with each block delay. -/
def ServedChain.ranges (blockRange : BlockRange) : List BlockRange :=
  blockRange :: served.blockDelays.map fun delay =>
    { fromBlock := saturatingSub blockRange.fromBlock delay
      toBlock := saturatingSub blockRange.toBlock delay }

/-- How many blocks to look back for events when the keeper starts. -/
def BACKLOG_RANGE : UInt64 := 1000

/-- The range of `process_backlog`. -/
def backlogRange (latestSafeBlock : BlockNumber) : BlockRange where
  fromBlock := saturatingSub latestSafeBlock BACKLOG_RANGE
  toBlock := latestSafeBlock

/-! ## The server and the chain -/

/-- What a node of the served chain shows. -/
abbrev ChainView :=
  View (Entropy.blockRules keccak256) served.revealDelayBlocks.toNat

/-- What Fortuna is doing in one of its tasks. `confirmedBlock` is the confirmed block number
that the task goes by; with a request stands the chain that it was read from. -/
inductive Action where
  | idle
  | revelation (sequence : UInt64)
      (maybeRequest : Option (Option Entropy.Request × EntropyChain keccak256))
      (currentBlockNumber : Option BlockNumber)
  | scanning (confirmedBlock currentBlock lastBlock : BlockNumber)
  | handling (confirmedBlock : BlockNumber) (events : List RequestedWithCallbackEvent)
      (batch : BlockRange) (lastBlock : BlockNumber)
  | updating (confirmedBlock : BlockNumber)

/-- A value that was handed out or submitted, and the confirmed block number that its path
has read. -/
structure Disclosure where
  sequenceNumber : UInt64
  value : Bytes32
  confirmedBlock : BlockNumber
deriving DecidableEq, Repr

/-- Fortuna, for one chain, with the node that it reads. A spawned task stands with the
confirmed block number that its scanner has read. -/
structure Server (ι : Type) where
  view : ChainView keccak256 served
  latest_lt : view.chain.latest < 2 ^ 64
  actions : ι → Action keccak256 := fun _ => .idle
  fulfilledRequestsCache : Finset UInt64 := ∅
  spawned : List (BlockNumber × RequestedWithCallbackEvent) := []
  disclosures : List Disclosure := []

end

section

variable {keccak256 : Bytes → Bytes32} {served : ServedChain} {ι : Type} [DecidableEq ι]

/-- `get_block_number(confirmed_block_status)`. -/
def Server.blockNumber (s : Server keccak256 served ι) : BlockNumber :=
  UInt64.ofNat s.view.confirmed

def Server.act (s : Server keccak256 served ι) (i : ι) (action : Action keccak256) :
    Server keccak256 served ι :=
  { s with actions := Function.update s.actions i action }

/-- Hand out the value of a sequence number, if there is one to hand out. -/
def Server.disclose (s : Server keccak256 served ι) (disclosed : Option (UInt64 × Bytes32))
    (confirmedBlock : BlockNumber) : Server keccak256 served ι :=
  match disclosed with
  | some (sequenceNumber, value) =>
    { s with disclosures := s.disclosures ++ [{ sequenceNumber, value, confirmedBlock }] }
  | none => s

/-- A scanner takes an event to the cache, and spawns a task where it is new. -/
def Server.handle (s : Server keccak256 served ι) (confirmedBlock : BlockNumber)
    (event : RequestedWithCallbackEvent) : Server keccak256 served ι :=
  { s with
    fulfilledRequestsCache := insert event.sequenceNumber s.fulfilledRequestsCache
    spawned :=
      if event.sequenceNumber ∈ s.fulfilledRequestsCache then s.spawned
      else s.spawned ++ [(confirmedBlock, event)] }

/-- The chain moves on, or Fortuna takes one step of one of its tasks. A task may end at any
moment, because it is done or because a read failed. -/
inductive Server.Step : Server keccak256 served ι → Server keccak256 served ι → Prop
  | chain {s : Server keccak256 served ι} (view : ChainView keccak256 served)
      (latest_lt : view.chain.latest < 2 ^ 64) :
      s.view.Next view → Step s { s with view, latest_lt }
  | finish {s : Server keccak256 served ι} (i : ι) : Step s (s.act i .idle)
  | call {s : Server keccak256 served ι} {i : ι} (sequence : UInt64) :
      s.actions i = .idle → Step s (s.act i (.revelation sequence none none))
  | readRequest {s : Server keccak256 served ι} {i : ι} {sequence : UInt64}
      {currentBlockNumber : Option BlockNumber} :
      s.actions i = .revelation sequence none currentBlockNumber →
      Step s (s.act i (.revelation sequence
        (some (getRequest keccak256 served.providerAddress sequence
          (s.view.chain.stateAt s.view.chain.latest), s.view.chain))
        currentBlockNumber))
  | readBlockNumber {s : Server keccak256 served ι} {i : ι} {sequence : UInt64}
      {maybeRequest : Option (Option Entropy.Request × EntropyChain keccak256)} :
      s.actions i = .revelation sequence maybeRequest none →
      Step s (s.act i (.revelation sequence maybeRequest (some s.blockNumber)))
  | respond {s : Server keccak256 served ι} {i : ι} {sequence : UInt64}
      {maybeRequest : Option Entropy.Request} {readFrom : EntropyChain keccak256}
      {currentBlockNumber : BlockNumber} :
      s.actions i =
        .revelation sequence (some (maybeRequest, readFrom)) (some currentBlockNumber) →
      Step s ((s.act i .idle).disclose
        ((revelation keccak256 served sequence maybeRequest currentBlockNumber).toOption.map
          (sequence, ·)) currentBlockNumber)
  | backlog {s : Server keccak256 served ι} {i : ι} {blockRange : BlockRange} :
      s.actions i = .idle →
      blockRange ∈ served.ranges (backlogRange (served.safeBlock s.blockNumber)) →
      Step s (s.act i (.scanning s.blockNumber blockRange.fromBlock blockRange.toBlock))
  | watch {s : Server keccak256 served ι} {i : ι} {blockRange : BlockRange}
      (lastSafeBlockProcessed : BlockNumber) :
      s.actions i = .idle →
      blockRange ∈
        served.ranges (rangeToSend lastSafeBlockProcessed (served.safeBlock s.blockNumber)) →
      Step s (s.act i (.scanning s.blockNumber blockRange.fromBlock blockRange.toBlock))
  | fetch {s : Server keccak256 served ι} {i : ι}
      {confirmedBlock currentBlock lastBlock : BlockNumber} {batch : BlockRange} :
      s.actions i = .scanning confirmedBlock currentBlock lastBlock → currentBlock ≤ lastBlock →
      batch = { fromBlock := currentBlock, toBlock := batchEnd currentBlock lastBlock } →
      Step s (s.act i (.handling confirmedBlock
        (getRequestWithCallbackEvents (eventLog s.view.chain) batch) batch lastBlock))
  | handle {s : Server keccak256 served ι} {i : ι} {confirmedBlock : BlockNumber}
      {event : RequestedWithCallbackEvent} {events : List RequestedWithCallbackEvent}
      {batch : BlockRange} {lastBlock : BlockNumber} :
      s.actions i = .handling confirmedBlock (event :: events) batch lastBlock →
      Step s ((s.handle confirmedBlock event).act i
        (.handling confirmedBlock events batch lastBlock))
  | batchDone {s : Server keccak256 served ι} {i : ι} {confirmedBlock : BlockNumber}
      {batch : BlockRange} {lastBlock : BlockNumber} :
      s.actions i = .handling confirmedBlock [] batch lastBlock →
      Step s (s.act i (.scanning confirmedBlock (batch.toBlock + 1) lastBlock))
  | submit {s : Server keccak256 served ι} {confirmedBlock : BlockNumber}
      {event : RequestedWithCallbackEvent} :
      (confirmedBlock, event) ∈ s.spawned →
      Step s (s.disclose
        ((processEventWithBackoff (served.blockchainState keccak256) event).map fun call =>
          (call.sequenceNumber, call.providerRevelation)) confirmedBlock)
  | checkCommitment {s : Server keccak256 served ι} {i : ι} :
      s.actions i = .idle → Step s (s.act i (.updating s.blockNumber))
  | advance {s : Server keccak256 served ι} {i : ι} {confirmedBlock : BlockNumber}
      {providerInfo : ProviderInfo} :
      s.actions i = .updating confirmedBlock →
      -- `.block(latest_safe_block)`, to ensure that nothing is revealed sooner than it should
      providerInfo = (s.view.chain.stateAt (served.safeBlock confirmedBlock).toNat).state.providers
        served.providerAddress →
      Step s ((s.act i .idle).disclose
        ((commitmentUpdate providerInfo).bind fun sequenceNumber =>
          (served.reveal keccak256 sequenceNumber).map (sequenceNumber, ·)) confirmedBlock)

/-- No endpoint call comes by this step to an answer on a replaced request: where it reads
the confirmed block number after its request, and finds the request's block old enough, that
block is still the one in which it found the request. -/
def Server.Clear (s s' : Server keccak256 served ι) : Prop :=
  ∀ i sequence r readFrom currentBlockNumber,
    s.actions i = .revelation sequence (some (some r, readFrom)) none →
    s'.actions i = .revelation sequence (some (some r, readFrom)) (some currentBlockNumber) →
    UInt64.ofBitVec r.blockNumber ≤ saturatingSub currentBlockNumber served.revealDelayBlocks →
    readFrom.Agree s.view.chain r.blockNumber.toNat

/-! ## What the reads tell -/

/-- The request that is read was made in the block whose number it carries, for the number
that was asked for. -/
theorem getRequest_readFrom
    (hkeys : Function.Injective fun k : Address × Uint64 =>
      keccak256 (Entropy.requestKeyPreimage k.1 k.2))
    {c : EntropyChain keccak256} {provider : Address} {sequenceNumber : UInt64}
    {r : Entropy.Request}
    (h : getRequest keccak256 provider sequenceNumber (c.stateAt c.latest) = some r) :
    r.blockNumber.toNat ≤ c.latest ∧
      sequenceNumber.toNat < nextOf provider (c.stateAt r.blockNumber.toNat) := by
  have hlong := Entropy.requestScheme_long_injective hkeys
  have hflat := Entropy.flatReachable_stateAt (Nat.le_refl c.latest)
  have hledger := Entropy.flatReachable_refines hkeys hflat
  have hload : (c.stateAt c.latest).state.load (Entropy.findRequest keccak256 provider
      sequenceNumber.toBitVec (c.stateAt c.latest).state) = r ∧ r.sequenceNumber ≠ 0 := by
    unfold getRequest at h
    dsimp only at h
    split at h
    · next hlive =>
      cases h
      exact ⟨rfl, hlive⟩
    · cases h
  obtain ⟨hload, hlive⟩ := hload
  rw [Entropy.findRequest_eq] at hload
  have hlookup := Table.lookup_of_live hlong hledger.wellFormed (k := (provider, _))
    (show (Entropy.requestScheme keccak256).live ((Entropy.requestScheme keccak256).key
      ((c.stateAt c.latest).state.load _)) = true from hload ▸ bne_iff_ne.mpr hlive)
  obtain ⟨hmade, hkey, -⟩ := (hledger.lookup _ _).mp (hlookup.trans (congrArg some hload))
  obtain ⟨hprovider, hnumber⟩ : r.provider = provider ∧
    r.sequenceNumber = sequenceNumber.toBitVec := Prod.ext_iff.mp hkey
  obtain ⟨hle, hthere⟩ := Entropy.request_block (Nat.le_refl _) hmade
  have hlt := Entropy.request_lt_next hle hthere
  rw [hprovider, hnumber] at hlt
  exact ⟨hle, hlt⟩

theorem mem_blockEvents {c : EntropyChain keccak256} {block : Nat} {e : Event}
    (h : e ∈ blockEvents c block) : e ∈ (c.stateAt block).logs :=
  List.mem_of_mem_take (List.mem_reverse.mp h)

/-- The number of a request event is assigned after the event's block. -/
theorem mem_eventLog {c : EntropyChain keccak256} {entry : BlockNumber × RequestedWithCallbackEvent}
    (h : entry ∈ eventLog c) :
    ∃ block ≤ c.latest, entry.1 = UInt64.ofNat block ∧
      entry.2.sequenceNumber.toNat < nextOf entry.2.providerAddress (c.stateAt block) := by
  obtain ⟨block, hblock, hentry⟩ := List.mem_flatMap.mp h
  obtain ⟨event, hevent, rfl⟩ := List.mem_map.mp hentry
  obtain ⟨e, he, hread⟩ := List.mem_filterMap.mp hevent
  have hle : block ≤ c.latest := Nat.le_of_lt_succ (List.mem_range.mp hblock)
  refine ⟨block, hle, rfl, ?_⟩
  cases e with
  | requestedWithCallback provider requestor sequenceNumber userRandomNumber request =>
    cases hread
    have he := mem_blockEvents he
    have hnumber := Entropy.requestedWithCallback_number hle he
    have hlt := Entropy.request_lt_next hle (List.mem_filterMap.mpr ⟨_, he, rfl⟩)
    dsimp only
    rw [hnumber]
    exact hlt
  | _ => cases hread

/-- The commitment is advanced to a number that is assigned already. -/
theorem commitmentUpdate_lt {providerInfo : ProviderInfo} {sequenceNumber : UInt64}
    (hregistered : providerInfo.sequenceNumber.toNat = 0 →
      providerInfo.currentCommitmentSequenceNumber = 0)
    (h : commitmentUpdate providerInfo = some sequenceNumber) :
    sequenceNumber.toNat < providerInfo.sequenceNumber.toNat := by
  unfold commitmentUpdate at h
  dsimp only at h
  split at h
  · cases h
  split at h
  · next habove =>
    cases h
    -- An unregistered provider has no distance to its commitment.
    have hpos : providerInfo.sequenceNumber.toNat ≠ 0 := by
      intro hzero
      have hnumber : providerInfo.sequenceNumber = 0 := BitVec.eq_of_toNat_eq hzero
      rw [hregistered hzero, hnumber] at habove
      exact absurd habove (UInt64.not_lt.mpr (UInt64.zero_le))
    have hone : (1 : UInt64) ≤ UInt64.ofBitVec providerInfo.sequenceNumber :=
      UInt64.le_iff_toNat_le.mpr (Nat.pos_of_ne_zero hpos)
    rw [UInt64.toNat_sub_of_le _ _ hone]
    exact Nat.sub_lt (Nat.pos_of_ne_zero hpos) Nat.one_pos
  · cases h

theorem saturatingSub_le (a b : UInt64) : saturatingSub a b ≤ a := by
  unfold saturatingSub
  split
  · exact UInt64.zero_le
  · next hle =>
    have hle : b ≤ a := UInt64.not_lt.mp hle
    rw [UInt64.le_iff_toNat_le, UInt64.toNat_sub_of_le _ _ hle]
    exact Nat.sub_le _ _

theorem batchEnd_le (currentBlock lastBlock : BlockNumber) :
    batchEnd currentBlock lastBlock ≤ lastBlock := by
  unfold batchEnd
  split
  · exact UInt64.le_refl _
  · next hle => exact UInt64.not_lt.mp hle

omit [DecidableEq ι] in
theorem toBlock_le_of_mem_ranges {blockRange of : BlockRange} (h : blockRange ∈ served.ranges of) :
    blockRange.toBlock ≤ of.toBlock := by
  unfold ServedChain.ranges at h
  rcases List.mem_cons.mp h with rfl | hdelayed
  · exact UInt64.le_refl _
  · obtain ⟨delay, -, rfl⟩ := List.mem_map.mp hdelayed
    exact saturatingSub_le _ _

/-! ## What a step preserves -/

/-- A confirmed block number that was read: its safe block is settled. -/
structure Confirmed (view : ChainView keccak256 served) (confirmedBlock : BlockNumber) :
    Prop where
  delay_le : served.revealDelayBlocks ≤ confirmedBlock
  settled : (served.safeBlock confirmedBlock).toNat ≤ view.settled

/-- The served provider's number is assigned by the end of a settled block. -/
structure AssignedBy (view : ChainView keccak256 served) (sequenceNumber : UInt64)
    (block : Nat) : Prop where
  settled : block ≤ view.settled
  assigned : sequenceNumber.toNat < nextOf served.providerAddress (view.chain.stateAt block)

/-- The reads of an endpoint call. A request is one of the chain that it was read from, and
once the block number is read, one of the chain itself where it is old enough. -/
def ReadsSound (view : ChainView keccak256 served) (sequence : UInt64) :
    Option (Option Entropy.Request × EntropyChain keccak256) → Option BlockNumber → Prop
  | some (some r, readFrom), none =>
    r.blockNumber.toNat ≤ readFrom.latest ∧
      sequence.toNat < nextOf served.providerAddress (readFrom.stateAt r.blockNumber.toNat)
  | some (some r, _), some currentBlockNumber =>
    r.blockNumber.toNat ≤ (served.safeBlock currentBlockNumber).toNat →
      AssignedBy view sequence r.blockNumber.toNat
  | _, _ => True

def Action.Sound (view : ChainView keccak256 served) : Action keccak256 → Prop
  | .idle => True
  | .revelation sequence maybeRequest currentBlockNumber =>
    (∀ block, currentBlockNumber = some block → Confirmed view block) ∧
      ReadsSound view sequence maybeRequest currentBlockNumber
  | .scanning confirmedBlock _ lastBlock =>
    Confirmed view confirmedBlock ∧ lastBlock ≤ served.safeBlock confirmedBlock
  | .handling confirmedBlock events _ lastBlock =>
    Confirmed view confirmedBlock ∧ lastBlock ≤ served.safeBlock confirmedBlock ∧
      ∀ event ∈ events, event.providerAddress = served.providerAddress →
        AssignedBy view event.sequenceNumber (served.safeBlock confirmedBlock).toNat
  | .updating confirmedBlock => Confirmed view confirmedBlock

/-- What is in progress goes by settled blocks, and what was disclosed is covered by them. -/
structure Server.Sound (s : Server keccak256 served ι) : Prop where
  actions : ∀ i, (s.actions i).Sound s.view
  spawned : ∀ entry ∈ s.spawned, Confirmed s.view entry.1 ∧
    (entry.2.providerAddress = served.providerAddress →
      AssignedBy s.view entry.2.sequenceNumber (served.safeBlock entry.1).toNat)
  disclosures : ∀ d ∈ s.disclosures,
    served.reveal keccak256 d.sequenceNumber = some d.value ∧ Confirmed s.view d.confirmedBlock ∧
      AssignedBy s.view d.sequenceNumber (served.safeBlock d.confirmedBlock).toNat

section

variable {view view' : ChainView keccak256 served} {s s' : Server keccak256 served ι}
  {confirmedBlock : BlockNumber} {sequenceNumber : UInt64} {block : Nat}

theorem toNat_safeBlock (h : served.revealDelayBlocks ≤ confirmedBlock) :
    (served.safeBlock confirmedBlock).toNat =
      confirmedBlock.toNat - served.revealDelayBlocks.toNat :=
  UInt64.toNat_sub_of_le _ _ h

theorem Confirmed.next (h : Confirmed view confirmedBlock) (hnext : view.Next view') :
    Confirmed view' confirmedBlock :=
  ⟨h.delay_le, Nat.le_trans h.settled hnext.settled_mono⟩

theorem AssignedBy.next (h : AssignedBy view sequenceNumber block) (hnext : view.Next view') :
    AssignedBy view' sequenceNumber block :=
  ⟨Nat.le_trans h.settled hnext.settled_mono, hnext.stateAt_eq h.settled ▸ h.assigned⟩

theorem AssignedBy.later (h : AssignedBy view sequenceNumber block) {later : Nat}
    (hle : block ≤ later) (hsettled : later ≤ view.settled) :
    AssignedBy view sequenceNumber later :=
  ⟨hsettled, Nat.lt_of_lt_of_le h.assigned
    (Entropy.next_mono hle (Nat.le_trans hsettled view.settled_le))⟩

theorem Action.Sound.next {action : Action keccak256} (h : action.Sound view)
    (hnext : view.Next view') : action.Sound view' := by
  cases action with
  | idle => trivial
  | revelation sequence maybeRequest currentBlockNumber =>
    refine ⟨fun block hblock => (h.1 block hblock).next hnext, ?_⟩
    have hreads := h.2
    unfold ReadsSound at hreads ⊢
    split
    · exact hreads
    · exact fun hold => (hreads hold).next hnext
    · trivial
  | scanning => exact ⟨h.1.next hnext, h.2⟩
  | handling =>
    exact ⟨h.1.next hnext, h.2.1, fun event hevent hown => (h.2.2 event hevent hown).next hnext⟩
  | updating => exact Confirmed.next h hnext

omit [DecidableEq ι] in
theorem confirmed_blockNumber (s : Server keccak256 served ι) :
    Confirmed s.view s.blockNumber := by
  have hnumber : s.blockNumber.toNat = s.view.confirmed :=
    UInt64.toNat_ofNat_of_lt' (Nat.lt_of_le_of_lt s.view.confirmed_le s.latest_lt)
  have hdelay : served.revealDelayBlocks ≤ s.blockNumber := by
    rw [UInt64.le_iff_toNat_le, hnumber]
    exact s.view.delay_le
  refine ⟨hdelay, ?_⟩
  rw [toNat_safeBlock hdelay, hnumber]
  exact s.view.le_settled

theorem Server.act_actions (s : Server keccak256 served ι) (i : ι) (action : Action keccak256) :
    (s.act i action).actions i = action :=
  Function.update_self ..

theorem Server.act_act (s : Server keccak256 served ι) (i : ι) (action action' : Action keccak256) :
    (s.act i action).act i action' = s.act i action' := by
  unfold Server.act
  rw [Function.update_idem]

theorem Server.Sound.act (h : s.Sound) {i : ι} {action : Action keccak256}
    (haction : action.Sound s.view) : (s.act i action).Sound := by
  refine ⟨fun j => ?_, h.spawned, h.disclosures⟩
  exact (Function.forall_update_iff s.actions fun _ action => action.Sound s.view).mpr
    ⟨haction, fun j _ => h.actions j⟩ j

/-- A task that ends leaves nothing in progress. -/
theorem Server.Sound.rest (h : s.Sound) (i : ι) : (s.act i .idle).Sound := h.act trivial

omit [DecidableEq ι] in
theorem Server.Sound.disclose (h : s.Sound) {disclosed : Option (UInt64 × Bytes32)}
    (hconfirmed : Confirmed s.view confirmedBlock)
    (hdisclosed : ∀ sequenceNumber value, disclosed = some (sequenceNumber, value) →
      served.reveal keccak256 sequenceNumber = some value ∧
        AssignedBy s.view sequenceNumber (served.safeBlock confirmedBlock).toNat) :
    (s.disclose disclosed confirmedBlock).Sound := by
  cases disclosed with
  | none => exact h
  | some d =>
    refine ⟨h.actions, h.spawned, fun e he => ?_⟩
    rcases List.mem_append.mp he with old | new
    · exact h.disclosures e old
    · obtain rfl := List.mem_singleton.mp new
      obtain ⟨hvalue, hassigned⟩ := hdisclosed d.1 d.2 rfl
      exact ⟨hvalue, hconfirmed, hassigned⟩

/-- The events of a batch that ends in a settled block are assigned by that block. -/
theorem fetched_assigned {batch : BlockRange} {event : RequestedWithCallbackEvent}
    (hevent : event ∈ getRequestWithCallbackEvents (eventLog view.chain) batch)
    (hown : event.providerAddress = served.providerAddress)
    (hbatch : batch.toBlock ≤ served.safeBlock confirmedBlock)
    (hconfirmed : Confirmed view confirmedBlock) (hlatest : view.chain.latest < 2 ^ 64) :
    AssignedBy view event.sequenceNumber (served.safeBlock confirmedBlock).toNat := by
  obtain ⟨entry, hentry, rfl⟩ := List.mem_map.mp hevent
  obtain ⟨hlogged, hinside⟩ := List.mem_filter.mp hentry
  obtain ⟨-, hto⟩ := of_decide_eq_true hinside
  obtain ⟨block, hblock, hnumber, hassigned⟩ := mem_eventLog hlogged
  have hle : block ≤ (served.safeBlock confirmedBlock).toNat := by
    have hto := UInt64.le_iff_toNat_le.mp (UInt64.le_trans hto hbatch)
    rwa [hnumber, UInt64.toNat_ofNat_of_lt' (Nat.lt_of_le_of_lt hblock hlatest)] at hto
  rw [hown] at hassigned
  exact AssignedBy.later ⟨Nat.le_trans hle hconfirmed.settled, hassigned⟩ hle hconfirmed.settled

/-- An endpoint call answers with the value of an assigned number. -/
theorem revelation_assigned {sequence : UInt64} {maybeRequest : Option Entropy.Request}
    {readFrom : EntropyChain keccak256} {value : Bytes32}
    (hreads : ReadsSound view sequence (some (maybeRequest, readFrom)) (some confirmedBlock))
    (hconfirmed : Confirmed view confirmedBlock)
    (hvalue : revelation keccak256 served sequence maybeRequest confirmedBlock = .ok value) :
    served.reveal keccak256 sequence = some value ∧
      AssignedBy view sequence (served.safeBlock confirmedBlock).toNat := by
  cases maybeRequest with
  | none => cases hvalue
  | some r =>
    unfold revelation at hvalue
    dsimp only at hvalue
    split at hvalue
    · next hold =>
      have hsafe : saturatingSub confirmedBlock served.revealDelayBlocks =
          served.safeBlock confirmedBlock :=
        if_neg (UInt64.not_lt.mpr hconfirmed.delay_le)
      rw [hsafe] at hold
      have hold : r.blockNumber.toNat ≤ (served.safeBlock confirmedBlock).toNat :=
        UInt64.le_iff_toNat_le.mp hold
      split at hvalue
      · next revealed =>
        cases hvalue
        exact ⟨revealed, AssignedBy.later (hreads hold) hold hconfirmed.settled⟩
      · cases hvalue
    · cases hvalue

/-- A step keeps the server sound, unless an endpoint call comes by it to an answer on a
replaced request. -/
theorem Server.Step.sound
    (hkeys : Function.Injective fun k : Address × Uint64 =>
      keccak256 (Entropy.requestKeyPreimage k.1 k.2))
    (h : s.Sound) (hstep : s.Step s') (hclear : s.Clear s') : s'.Sound := by
  cases hstep with
  | chain view latest_lt hnext =>
    refine ⟨fun i => (h.actions i).next hnext, fun entry hentry => ?_, fun d hd => ?_⟩
    · obtain ⟨hconfirmed, hassigned⟩ := h.spawned entry hentry
      exact ⟨hconfirmed.next hnext, fun hown => (hassigned hown).next hnext⟩
    · obtain ⟨hvalue, hconfirmed, hassigned⟩ := h.disclosures d hd
      exact ⟨hvalue, hconfirmed.next hnext, hassigned.next hnext⟩
  | finish i => exact h.rest i
  | call sequence hidle => exact h.act ⟨fun _ hnone => (by cases hnone), trivial⟩
  | @readRequest i sequence currentBlockNumber haction =>
    have hcall := h.actions i
    rw [haction] at hcall
    refine h.act ⟨hcall.1, ?_⟩
    cases hread : getRequest keccak256 served.providerAddress sequence
        (s.view.chain.stateAt s.view.chain.latest) with
    | none => trivial
    | some r =>
      obtain ⟨hblock, hassigned⟩ := getRequest_readFrom hkeys hread
      cases currentBlockNumber with
      | none => exact ⟨hblock, hassigned⟩
      | some block =>
        intro hold
        exact ⟨Nat.le_trans hold (hcall.1 block rfl).settled, hassigned⟩
  | @readBlockNumber i sequence maybeRequest haction =>
    have hcall := h.actions i
    rw [haction] at hcall
    have hconfirmed := confirmed_blockNumber s
    refine h.act ⟨fun block hblock => Option.some.inj hblock ▸ hconfirmed, ?_⟩
    match maybeRequest, haction, hcall with
    | none, _, _ => trivial
    | some (none, _), _, _ => trivial
    | some (some r, readFrom), haction, hcall =>
      intro hold
      have hread : (s.act i (.revelation sequence (some (some r, readFrom))
          (some s.blockNumber))).actions i =
          .revelation sequence (some (some r, readFrom)) (some s.blockNumber) :=
        Function.update_self ..
      have hsafe : saturatingSub s.blockNumber served.revealDelayBlocks =
          served.safeBlock s.blockNumber :=
        if_neg (UInt64.not_lt.mpr hconfirmed.delay_le)
      have hagree := hclear i sequence r readFrom s.blockNumber haction hread
        (hsafe ▸ UInt64.le_iff_toNat_le.mpr hold)
      refine ⟨Nat.le_trans hold hconfirmed.settled, ?_⟩
      rw [← hagree.same _ (Nat.le_refl _)]
      exact hcall.2.2
  | @respond i sequence maybeRequest readFrom currentBlockNumber haction =>
    have hcall := h.actions i
    rw [haction] at hcall
    have hconfirmed := hcall.1 _ rfl
    refine (h.rest i).disclose hconfirmed fun n value hdisclosed => ?_
    obtain ⟨_, hok, hpair⟩ := Option.map_eq_some_iff.mp hdisclosed
    cases hpair
    exact revelation_assigned hcall.2 hconfirmed (except_toOption_eq_some.mp hok)
  | backlog hidle hrange =>
    exact h.act ⟨confirmed_blockNumber s, toBlock_le_of_mem_ranges hrange⟩
  | watch last hidle hrange =>
    exact h.act ⟨confirmed_blockNumber s, toBlock_le_of_mem_ranges hrange⟩
  | @fetch i confirmedBlock currentBlock lastBlock batch haction hmore hbatch =>
    have hscan := h.actions i
    rw [haction] at hscan
    obtain ⟨hconfirmed, hlast⟩ := hscan
    refine h.act ⟨hconfirmed, hlast, fun event hevent hown => ?_⟩
    have hto : batch.toBlock ≤ served.safeBlock confirmedBlock := by
      rw [hbatch]
      exact UInt64.le_trans (batchEnd_le _ _) hlast
    exact fetched_assigned hevent hown hto hconfirmed s.latest_lt
  | @handle i confirmedBlock event events batch lastBlock haction =>
    have hscan := h.actions i
    rw [haction] at hscan
    obtain ⟨hconfirmed, hlast, hevents⟩ := hscan
    have hhandled : (s.handle confirmedBlock event).Sound := by
      refine ⟨h.actions, fun entry hentry => ?_, h.disclosures⟩
      unfold Server.handle at hentry
      split at hentry
      · exact h.spawned entry hentry
      · rcases List.mem_append.mp hentry with old | new
        · exact h.spawned entry old
        · obtain rfl := List.mem_singleton.mp new
          exact ⟨hconfirmed, hevents event List.mem_cons_self⟩
    exact hhandled.act ⟨hconfirmed, hlast, fun e he => hevents e (List.mem_cons_of_mem _ he)⟩
  | @batchDone i confirmedBlock batch lastBlock haction =>
    have hscan := h.actions i
    rw [haction] at hscan
    exact h.act ⟨hscan.1, hscan.2.1⟩
  | @submit confirmedBlock event hspawned =>
    obtain ⟨hconfirmed, hassigned⟩ := h.spawned _ hspawned
    refine h.disclose hconfirmed fun n value hdisclosed => ?_
    obtain ⟨call, hcall, hpair⟩ := Option.map_eq_some_iff.mp hdisclosed
    obtain ⟨hown, revelation, hrevealed, rfl⟩ := processEventWithBackoff_eq_some.mp hcall
    cases hpair
    exact ⟨hrevealed, hassigned hown⟩
  | checkCommitment hidle => exact h.act (confirmed_blockNumber s)
  | @advance i confirmedBlock providerInfo haction hinfo =>
    have hconfirmed := h.actions i
    rw [haction] at hconfirmed
    have hconfirmed : Confirmed s.view confirmedBlock := hconfirmed
    refine (h.rest i).disclose hconfirmed fun n value hdisclosed => ?_
    obtain ⟨m, hupdate, hvalue⟩ := Option.bind_eq_some_iff.mp hdisclosed
    obtain ⟨_, hrevealed, hpair⟩ := Option.map_eq_some_iff.mp hvalue
    cases hpair
    refine ⟨hrevealed, hconfirmed.settled, ?_⟩
    have hflat := Entropy.flatReachable_stateAt
      (Nat.le_trans hconfirmed.settled s.view.settled_le)
    refine commitmentUpdate_lt (fun hzero => ?_) (hinfo ▸ hupdate)
    exact Entropy.current_eq_zero hflat served.providerAddress hzero

end

/-! ## Over a run -/

/-- Fortuna before its first step. -/
structure Server.Fresh (s : Server keccak256 served ι) : Prop where
  idle : ∀ i, s.actions i = .idle
  spawned : s.spawned = []
  disclosures : s.disclosures = []

/-- The steps by which no endpoint call comes to an answer on a replaced request. -/
def Server.ClearStep (s s' : Server keccak256 served ι) : Prop := s.Step s' ∧ s.Clear s'

omit [DecidableEq ι] in
theorem Server.Fresh.sound {s : Server keccak256 served ι} (h : s.Fresh) : s.Sound := by
  refine ⟨fun i => ?_, fun entry hentry => ?_, fun d hd => ?_⟩
  · rw [h.idle i]
    trivial
  · rw [h.spawned] at hentry
    cases hentry
  · rw [h.disclosures] at hd
    cases hd

theorem sound_of_run
    (hkeys : Function.Injective fun k : Address × Uint64 =>
      keccak256 (Entropy.requestKeyPreimage k.1 k.2))
    {s₀ s : Server keccak256 served ι} (hfresh : s₀.Fresh)
    (run : ReflTransGen Server.ClearStep s₀ s) : s.Sound := by
  induction run with
  | refl => exact hfresh.sound
  | tail _ hstep ih => exact hstep.1.sound hkeys ih hstep.2

/-- **Disclosure.** Whatever the contract's callers do, however blocks are added and
reorganised above the settled ones, and in whatever order Fortuna's tasks take their steps:
when no endpoint call comes to an answer on a request whose block was replaced after it was
read, every value that was disclosed is the one of its sequence number, and every number of
the provider that is not above it was assigned in a block no later than the confirmed block,
which the disclosing path has read, less the delay. Those are all the numbers whose values
follow from the disclosed one by hashing, whatever the registration. -/
theorem disclosed_numbers_assigned
    (hkeys : Function.Injective fun k : Address × Uint64 =>
      keccak256 (Entropy.requestKeyPreimage k.1 k.2))
    {s₀ s : Server keccak256 served ι} (hfresh : s₀.Fresh)
    (run : ReflTransGen Server.ClearStep s₀ s) :
    ∀ d ∈ s.disclosures, served.reveal keccak256 d.sequenceNumber = some d.value ∧
      ∀ m ≤ d.sequenceNumber.toNat,
        ∃ block ≤ d.confirmedBlock.toNat - served.revealDelayBlocks.toNat,
          AssignedIn s.view.chain served.providerAddress m block := by
  intro d hd
  obtain ⟨hvalue, hconfirmed, hassigned⟩ := (sound_of_run hkeys hfresh run).disclosures d hd
  refine ⟨hvalue, fun m hm => ?_⟩
  rw [← toNat_safeBlock hconfirmed.delay_le]
  exact Entropy.exists_assignedIn (Nat.lt_of_le_of_lt hm hassigned.assigned)

end

/-! ## Two runs -/

open Entropy (Message exInitial exMessage exChain)

/-- A chain whose block 100 makes the calls. -/
def exFork (messages : List Message) (latest : Nat) : EntropyChain exKeccak where
  stateAt n :=
    if n < 100 then exInitial
    else messages.foldl (Entropy.blockComponent exKeccak 100 exInitial).perform exInitial
  latest
  starts := Entropy.genesis_iff.mpr Entropy.exInitial_initial
  follows n _ := by
    refine Entropy.block_iff.mpr ⟨_, rfl, ?_⟩
    by_cases before : n + 1 < 100
    · rw [if_pos before, if_pos (Nat.lt_of_succ_lt before)]
    by_cases after : n < 100
    · obtain rfl : n = 99 := Nat.le_antisymm (Nat.le_of_lt_succ after) (by omega)
      rw [if_pos after, if_neg before]
      exact Component.steps_perform _ _ _ _
    · rw [if_neg before, if_neg after]

/-- Provider 7 registers its chain of ten values. -/
def exRegistering : List Message := [exMessage 7 (.register 0 (exChain 0) [] 10 [])]

/-- The same, and user 9 makes a request. -/
def exRequesting : List Message :=
  exRegistering ++
    [exMessage 9 (.request 7 (Entropy.constructUserCommitment exKeccak 33) false)]

/-- Fortuna serves provider 7 and waits for one block. -/
def exServed : ServedChain where
  providerAddress := 7
  state := { offsets := [0], hashChains := exChains }
  revealDelayBlocks := 1
  blockDelays := []

/-- The latest block is the confirmed one. -/
def exView (messages : List Message) (latest : Nat) (h : 1 ≤ latest) :
    ChainView exKeccak exServed where
  chain := exFork messages latest
  confirmed := latest
  settled := latest - 1
  delay_le := h
  confirmed_le := Nat.le_refl _
  le_settled := Nat.le_refl _
  settled_le := Nat.sub_le _ _

/-- Fortuna in front of a node, doing nothing. -/
def exServer (messages : List Message) (latest : Nat) (h : 1 ≤ latest) (hlt : latest < 2 ^ 64) :
    Server exKeccak exServed Unit where
  view := exView messages latest h
  latest_lt := hlt

/-- The call for number 1, after it has read the request in block 100. -/
def exReading (messages : List Message) (latest : Nat) (h : 1 ≤ latest) (hlt : latest < 2 ^ 64)
    (currentBlockNumber : Option BlockNumber) : Server exKeccak exServed Unit :=
  (exServer messages latest h hlt).act () (.revelation 1
    (some (getRequest exKeccak 7 1 ((exFork exRequesting 100).stateAt 100),
      exFork exRequesting 100)) currentBlockNumber)

/-- The call answers, and is done. -/
def exAnswered (messages : List Message) : Server exKeccak exServed Unit :=
  ((exReading messages 101 (by decide) (by decide) (some 101)).act () .idle).disclose
    (some (1, exChain 1)) 101

theorem exAnswered_respond (messages : List Message) :
    (exReading messages 101 (by decide) (by decide) (some 101)).Step (exAnswered messages) := by
  have answer : (revelation exKeccak exServed 1
      (getRequest exKeccak 7 1 ((exFork exRequesting 100).stateAt 100)) 101).toOption.map
        ((1 : UInt64), ·) = some (1, exChain 1) := by
    decide +kernel
  unfold exAnswered
  rw [← answer]
  exact .respond rfl

theorem exServer_fresh (messages : List Message) :
    (exServer messages 100 (by decide) (by decide)).Fresh :=
  ⟨fun _ => rfl, rfl, rfl⟩

/-- The call starts and reads the request. -/
theorem exReading_steps :
    (exServer exRequesting 100 (by decide) (by decide)).Step
      ((exServer exRequesting 100 (by decide) (by decide)).act () (.revelation 1 none none)) ∧
    ((exServer exRequesting 100 (by decide) (by decide)).act () (.revelation 1 none none)).Step
      (exReading exRequesting 100 (by decide) (by decide) none) := by
  refine ⟨.call 1 rfl, ?_⟩
  have read := @Server.Step.readRequest exKeccak exServed Unit _
    ((exServer exRequesting 100 (by decide) (by decide)).act () (.revelation 1 none none))
    () 1 none (Server.act_actions ..)
  rw [Server.act_act] at read
  exact read

/-- One block is added, whether or not block 100 is replaced. -/
theorem exReading_chain (messages : List Message) :
    (exReading exRequesting 100 (by decide) (by decide) none).Step
      (exReading messages 101 (by decide) (by decide) none) := by
  refine .chain (exView messages 101 (by decide)) (by decide : 101 < 2 ^ 64) ⟨⟨?_, ?_, ?_⟩, rfl⟩
  · exact Nat.sub_le 100 1
  · exact Nat.le_of_lt (by decide : 99 < 101)
  · intro i hi
    have before : i < 100 := Nat.lt_succ_of_le hi
    exact (if_pos before).trans (if_pos before).symm

theorem exReading_readBlockNumber (messages : List Message) :
    (exReading messages 101 (by decide) (by decide) none).Step
      (exReading messages 101 (by decide) (by decide) (some 101)) := by
  have read := @Server.Step.readBlockNumber exKeccak exServed Unit _
    (exReading messages 101 (by decide) (by decide) none) () 1 _ (Server.act_actions ..)
  unfold exReading at read
  rw [Server.act_act] at read
  exact read

/-- The request is one of block 100. -/
theorem exRequest_block {r : Entropy.Request}
    (h : getRequest exKeccak 7 1 ((exFork exRequesting 100).stateAt 100) = some r) :
    r.blockNumber.toNat = 100 := by
  have number : (getRequest exKeccak 7 1 ((exFork exRequesting 100).stateAt 100)).map
      (·.blockNumber.toNat) = some 100 := by
    decide +kernel
  rw [h] at number
  exact Option.some.inj number

/-- Where block 100 stays, the steps of the call are clear. -/
theorem exReading_clear :
    ReflTransGen Server.ClearStep (exServer exRequesting 100 (by decide) (by decide))
      (exAnswered exRequesting) := by
  have action (messages : List Message) (latest : Nat) (h : 1 ≤ latest) (hlt : latest < 2 ^ 64)
      (block : Option BlockNumber) : (exReading messages latest h hlt block).actions () = _ :=
    Server.act_actions ..
  refine .tail (.tail (.tail (.tail (.single ⟨exReading_steps.1, ?_⟩) ⟨exReading_steps.2, ?_⟩)
    ⟨exReading_chain exRequesting, ?_⟩) ⟨exReading_readBlockNumber exRequesting, ?_⟩)
    ⟨exAnswered_respond exRequesting, ?_⟩
  · intro i sequence r readFrom block before
    cases before
  · intro i sequence r readFrom block before
    cases (Server.act_actions ..).symm.trans before
  · intro i sequence r readFrom block before after
    cases (action ..).symm.trans after
  · intro i sequence r readFrom block before _ _
    have before := (action ..).symm.trans before
    simp only [Action.revelation.injEq, Option.some.injEq, Prod.mk.injEq] at before
    obtain ⟨-, ⟨read, rfl⟩, -⟩ := before
    rw [exRequest_block read]
    exact ⟨Nat.le_refl _, Nat.le_succ 100, fun _ _ => rfl⟩
  · intro i sequence r readFrom block before
    cases (action ..).symm.trans before

/-- The endpoint answers with the value of number 1, which block 100 assigns. -/
theorem disclosed_numbers_assigned_run :
    ∃ block ≤ 100, AssignedIn (exFork exRequesting 101) 7 1 block :=
  (disclosed_numbers_assigned Entropy.exKeccak_requestKey_injective (exServer_fresh exRequesting)
    exReading_clear _ (List.mem_singleton_self _)).2 1 (Nat.le_refl _)

/-- The reorganisation replaces the block of the request between the two reads. Number 1 is
assigned nowhere on the chain, but the endpoint answers with its value. -/
theorem revelation_of_replaced_request :
    ∃ s₀ s : Server exKeccak exServed Unit, s₀.Fresh ∧ ReflTransGen Server.Step s₀ s ∧
      ∃ d ∈ s.disclosures, ∃ m ≤ d.sequenceNumber.toNat,
        ¬∃ block ≤ d.confirmedBlock.toNat - exServed.revealDelayBlocks.toNat,
          AssignedIn s.view.chain exServed.providerAddress m block := by
  refine ⟨_, exAnswered exRegistering, exServer_fresh exRequesting, ?_, _,
    List.mem_singleton_self _, 1, Nat.le_refl _, ?_⟩
  · exact ((((ReflTransGen.single exReading_steps.1).tail exReading_steps.2).tail
      (exReading_chain exRegistering)).tail (exReading_readBlockNumber exRegistering)).tail
      (exAnswered_respond exRegistering)
  · rintro ⟨block, -, assigned⟩
    have unassigned : nextOf 7 ((exFork exRegistering 101).stateAt block) ≤ 1 := by
      by_cases before : block < 100
      · rw [show (exFork exRegistering 101).stateAt block = exInitial from if_pos before]
        decide +kernel
      · rw [show (exFork exRegistering 101).stateAt block = _ from if_neg before]
        decide +kernel
    exact absurd assigned.after (Nat.not_lt_of_le unassigned)

end PythCrosschain.Fortuna
