import Mathlib.Data.List.Nodup
import PythCrosschain.Pulse.Contract

/-!
# Pulse: which callbacks are attempted

`CallbackLaw` says that every active request gets exactly one callback, on the
requester and with the gas limit that were recorded. It fails for a request that
a later one has evicted to the overflow mapping (`evicted_callback_lost`):
`clearRequest` deletes its record, and the callback then goes to the zero
address with no gas; where the zero address has no code, that reverts the
execution (`executeCallback_evicted`). In runs that execute requests only while they
are in their array slot the law holds (`callback_in_slot`).
-/

namespace PythCrosschain.Pulse

/-! ## Calls -/

/-- A call of a public function with its arguments. -/
inductive Call where
  | requestPriceUpdatesWithCallback (publishTime : Uint256) (priceIds : List Bytes32)
      (callbackGasLimit : Uint256)
  | executeCallback (sequenceNumber : Uint64) (updateData : List Bytes) (priceIds : List Bytes32)
  | withdrawFees (amount : Uint128)
  | withdrawAsFeeManager (provider : Address) (amount : Uint128)
  | registerProvider (feeInWei : Uint128)
  | setFeeManager (manager : Address)
  | setProviderFee (newFeeInWei : Uint128)
  | setDefaultProvider (provider : Address)
  | setExclusivityPeriod (periodSeconds : Uint256)

/-- The functions that accept value. -/
def Call.payable : Call → Bool
  | .requestPriceUpdatesWithCallback .. => true
  | .executeCallback .. => true
  | _ => false

/-- A call with its caller and chain. -/
structure Message where
  env : PulseEnv
  call : Call

section

variable (keccak256 : Bytes → Bytes32)

/-- Run a call to its end, or to its external call. -/
def execute (m : Message) (w : World) : Result (Outcome World Pending) := do
  require (m.call.payable ∨ m.env.value = 0) .noData
  match m.call with
  | .requestPriceUpdatesWithCallback publishTime priceIds callbackGasLimit =>
    return .done (← requestPriceUpdatesWithCallback keccak256 m.env publishTime priceIds
      callbackGasLimit w)
  | .executeCallback sequenceNumber updateData priceIds =>
    executeCallback keccak256 m.env sequenceNumber updateData priceIds w
  | .withdrawFees amount => withdrawFees m.env amount w
  | .withdrawAsFeeManager provider amount => withdrawAsFeeManager m.env provider amount w
  | .registerProvider feeInWei => return .done (← registerProvider m.env feeInWei w)
  | .setFeeManager manager => return .done (← setFeeManager m.env manager w)
  | .setProviderFee newFeeInWei => return .done (← setProviderFee m.env newFeeInWei w)
  | .setDefaultProvider provider => return .done (← setDefaultProvider m.env provider w)
  | .setExclusivityPeriod periodSeconds =>
    return .done (← setExclusivityPeriod m.env periodSeconds w)

/-- The contract after its initialization. -/
def Initial (w : World) : Prop :=
  ∃ owner admin pythFeeInWei pythAddress defaultProvider prefillRequestStorage
    exclusivityPeriodSeconds s balance,
    initializePulse owner admin pythFeeInWei pythAddress defaultProvider prefillRequestStorage
      exclusivityPeriodSeconds {} = .ok s ∧
    w = { state := s, balance }

/-- The Pulse contract as a re-entrant component. -/
def component : Component World Message Pending where
  init := Initial
  start m w := (execute keccak256 m w).toOption
  resume := resume keccak256

/-! ## The law of callbacks -/

/-- How requests are keyed in the two storage levels. -/
def requestScheme : SlotScheme Request Uint64 Bytes32 ShortKey where
  key req := req.sequenceNumber
  live n := n != 0
  long n := (requestKey keccak256 n).1
  short n := (requestKey keccak256 n).2
  deactivate req := { req with sequenceNumber := 0 }
  empty := {}
  live_deactivate _ := rfl
  live_empty := rfl

/-- The active request with a sequence number: what `findActiveRequest` refers to. -/
def Active (s : State) (sequenceNumber : Uint64) (req : Request) : Prop :=
  ∃ ref, findActiveRequest keccak256 sequenceNumber s = .ok ref ∧ s.load ref = req

/-- The request is in its slot of the `requests` array: no later request with
the same short key has evicted it. -/
def InSlot (s : State) (sequenceNumber : Uint64) : Prop :=
  (s.requests (requestKey keccak256 sequenceNumber).2).sequenceNumber = sequenceNumber

instance (s : State) (n : Uint64) : Decidable (InSlot keccak256 s n) :=
  inferInstanceAs (Decidable (_ = _))

/-- The attempt that a request asks for. -/
def Request.attempt (req : Request) : Attempt :=
  ⟨req.sequenceNumber, req.requester, req.callbackGasLimit⟩

/-- An execution of `req` that passes its checks, for a requester with code,
attempts the callback that the request asks for. -/
def Executes (w : World) (req : Request) : Prop :=
  ∀ env updateData priceIds checked,
    checkExecution keccak256 env req.sequenceNumber updateData priceIds w.state = .ok checked →
    env.extcodesize req.requester ≠ 0 →
    ∃ w' k, executeCallback keccak256 env req.sequenceNumber updateData priceIds w =
        .ok (.external w' k) ∧
      w'.attempts = req.attempt :: w.attempts

/-- Every attempt is the one that its request asked for; a request has had no
attempt while it is active and one attempt afterwards; and an active request
that meets `P` can be executed. -/
structure CallbackLaw (P : State → Uint64 → Prop) (w : World) : Prop where
  recorded : ∀ a ∈ w.attempts, ∃ req ∈ w.requests, a = req.attempt
  active : ∀ req ∈ w.requests, Active keccak256 w.state req.sequenceNumber req →
    (w.attempts.map (·.sequenceNumber)).count req.sequenceNumber = 0
  executed : ∀ req ∈ w.requests, ¬ Active keccak256 w.state req.sequenceNumber req →
    (w.attempts.map (·.sequenceNumber)).count req.sequenceNumber = 1
  executes : ∀ req ∈ w.requests, Active keccak256 w.state req.sequenceNumber req →
    P w.state req.sequenceNumber → Executes keccak256 w req

/-- The calls of `executeCallback` that find their request in its slot, and all
other calls. -/
def ExecutesInSlot (m : Message) (w : World) : Prop :=
  match m.call with
  | .executeCallback sequenceNumber _ _ => InSlot keccak256 w.state sequenceNumber
  | _ => True

instance (m : Message) (w : World) : Decidable (ExecutesInSlot keccak256 m w) := by
  unfold ExecutesInSlot
  split <;> infer_instance

/-! ## What one move changes -/

/-- What a call that meets `ExecutesInSlot`, or the rest of a call, changes of
the request table and the history. -/
inductive Change (w w' : World) : Prop
  | quiet :
      w'.state.table = w.state.table →
      w'.state.currentSequenceNumber = w.state.currentSequenceNumber →
      w'.requests = w.requests → w'.attempts = w.attempts → Change w w'
  | request (req : Request) :
      req.sequenceNumber = w.state.currentSequenceNumber →
      w'.state.currentSequenceNumber.toNat = w.state.currentSequenceNumber.toNat + 1 →
      w'.state.table = w.state.table.insert (requestScheme keccak256) req →
      w'.requests = req :: w.requests → w'.attempts = w.attempts → Change w w'
  | attempt (req : Request) :
      Active keccak256 w.state req.sequenceNumber req →
      w'.state.table = w.state.table.clear (requestScheme keccak256) req.sequenceNumber →
      w'.state.currentSequenceNumber = w.state.currentSequenceNumber →
      w'.requests = w.requests → w'.attempts = req.attempt :: w.attempts → Change w w'

/-- What any move changes of the request table, and which request it clears. -/
inductive TableChange (w w' : World) : Prop
  | quiet :
      w'.state.table = w.state.table →
      w'.state.currentSequenceNumber = w.state.currentSequenceNumber →
      w'.requests = w.requests → w'.attempts = w.attempts → TableChange w w'
  | request (req : Request) :
      req.sequenceNumber = w.state.currentSequenceNumber →
      w'.state.currentSequenceNumber.toNat = w.state.currentSequenceNumber.toNat + 1 →
      w'.state.table = w.state.table.insert (requestScheme keccak256) req →
      w'.requests = req :: w.requests → w'.attempts = w.attempts → TableChange w w'
  | clear (n : Uint64) (req : Request) :
      Active keccak256 w.state n req →
      w'.state.table = w.state.table.clear (requestScheme keccak256) n →
      w'.state.currentSequenceNumber = w.state.currentSequenceNumber →
      w'.requests = w.requests →
      w'.attempts.map (·.sequenceNumber) = n :: w.attempts.map (·.sequenceNumber) →
      TableChange w w'

end

section Functions

variable {keccak256 : Bytes → Bytes32}

theorem Change.tableChange {w w' : World} (h : Change keccak256 w w') :
    TableChange keccak256 w w' := by
  cases h with
  | quiet htable hcurrent hrequests hattempts =>
    exact .quiet htable hcurrent hrequests hattempts
  | request req hn hnext htable hrequests hattempts =>
    exact .request req hn hnext htable hrequests hattempts
  | attempt req hactive htable hcurrent hrequests hattempts =>
    refine .clear req.sequenceNumber req hactive htable hcurrent hrequests ?_
    rw [hattempts]
    rfl

theorem findRequest_eq {n : Uint64} {s : State} :
    findRequest keccak256 n s = s.table.find (requestScheme keccak256) n := rfl

theorem findActiveRequest_eq_ok {n : Uint64} {s : State} {ref : RequestRef} :
    findActiveRequest keccak256 n s = .ok ref ↔
      s.table.lookup (requestScheme keccak256) n = some (s.load ref) ∧
      s.table.find (requestScheme keccak256) n = ref := by
  rw [Table.lookup_eq_some]
  simp only [findActiveRequest, bind_eq_ok, require_eq_ok, pure_eq_ok, exists_const]
  rw [findRequest_eq]
  constructor
  · rintro ⟨⟨hactive, hn⟩, rfl⟩
    refine ⟨⟨?_, hn, rfl⟩, rfl⟩
    rw [← hn]
    exact hactive
  · rintro ⟨⟨hlive, hn, -⟩, rfl⟩
    have hn : (s.load (s.table.find (requestScheme keccak256) n)).sequenceNumber = n := hn
    refine ⟨⟨?_, hn⟩, rfl⟩
    rw [isActive, hn]
    exact hlive

theorem active_iff {n : Uint64} {s : State} {req : Request} :
    Active keccak256 s n req ↔ s.table.lookup (requestScheme keccak256) n = some req := by
  constructor
  · rintro ⟨ref, href, rfl⟩
    exact (findActiveRequest_eq_ok.mp href).1
  · intro h
    have hload := (Table.lookup_eq_some.mp h).2.2
    exact ⟨_, findActiveRequest_eq_ok.mpr ⟨h.trans (congrArg some hload.symm), rfl⟩, hload⟩

theorem clearRequest_table {n : Uint64} {s : State} :
    (clearRequest keccak256 n s).table = s.table.clear (requestScheme keccak256) n := by
  unfold Table.clear
  split
  · next h =>
    have h : (s.requests (requestKey keccak256 n).2).sequenceNumber = n := h
    simp only [clearRequest, if_pos h]
    rfl
  · next h =>
    have h : ¬ (s.requests (requestKey keccak256 n).2).sequenceNumber = n := h
    simp only [clearRequest, if_neg h]
    rfl

theorem clearRequest_current {n : Uint64} {s : State} :
    (clearRequest keccak256 n s).currentSequenceNumber = s.currentSequenceNumber := by
  simp only [clearRequest]
  split <;> rfl

/-- Allocating a slot and writing a request to it inserts the request. -/
theorem allocRequest_store {req : Request} {n : Uint64} {s : State}
    (hn : req.sequenceNumber = n) :
    let alloc := allocRequest keccak256 n s
    (alloc.2.store alloc.1 req).table = s.table.insert (requestScheme keccak256) req ∧
    (alloc.2.store alloc.1 req).currentSequenceNumber = s.currentSequenceNumber := by
  subst hn
  cases hactive : isActive (s.requests (requestKey keccak256 req.sequenceNumber).2) with
  | true =>
    simp only [isActive] at hactive
    simp only [allocRequest, Table.insert, requestScheme, State.table, isActive, hactive, if_true]
    exact ⟨rfl, rfl⟩
  | false =>
    simp only [isActive] at hactive
    simp only [allocRequest, Table.insert, requestScheme, State.table, isActive, hactive,
      Bool.false_eq_true, if_false]
    exact ⟨rfl, rfl⟩

theorem writeRequest_spec {env : PulseEnv} {n : Uint64} {publishTime gas : Uint256}
    {priceIds : List Bytes32} {s : State} :
    let write := writeRequest keccak256 env n publishTime priceIds gas s
    write.1.sequenceNumber = n ∧
    write.2.table = s.table.insert (requestScheme keccak256) write.1 ∧
    write.2.currentSequenceNumber = s.currentSequenceNumber :=
  ⟨rfl, allocRequest_store rfl⟩

theorem collectFee_spec {env : PulseEnv} {provider : Address} {s s' : State}
    (h : collectFee env provider s = .ok s') :
    s'.table = s.table ∧ s'.currentSequenceNumber = s.currentSequenceNumber := by
  simp only [collectFee, bind_eq_ok, checkedAdd_eq_ok, pure_eq_ok] at h
  obtain ⟨_, _, _, _, _, _, _, _, rfl⟩ := h
  exact ⟨rfl, rfl⟩

theorem requestPriceUpdatesWithCallback_change {env : PulseEnv} {publishTime gas : Uint256}
    {priceIds : List Bytes32} {w w' : World}
    (h : requestPriceUpdatesWithCallback keccak256 env publishTime priceIds gas w = .ok w') :
    Change keccak256 w w' := by
  simp only [requestPriceUpdatesWithCallback, bind_eq_ok, require_eq_ok, pure_eq_ok,
    exists_const] at h
  obtain ⟨-, _, _, -, -, next, hnext, _, _, -, s, hfee, rfl⟩ := h
  obtain ⟨htable, hcurrent⟩ := collectFee_spec hfee
  obtain ⟨hn, hinsert, hsame⟩ := @writeRequest_spec keccak256 env
    w.state.currentSequenceNumber publishTime gas priceIds
    { w.state with currentSequenceNumber := next }
  refine .request _ hn ?_ (htable.trans hinsert) rfl rfl
  exact (congrArg BitVec.toNat (hcurrent.trans hsame)).trans (checkedAdd_eq_ok.mp hnext)

/-- `checkExecution` returns the reference of the active request. -/
theorem checkExecution_find {env : PulseEnv} {n : Uint64} {updateData : List Bytes}
    {priceIds : List Bytes32} {s : State} {ref : RequestRef} {priceFeeds : List PriceFeed}
    (h : checkExecution keccak256 env n updateData priceIds s = .ok (ref, priceFeeds)) :
    findActiveRequest keccak256 n s = .ok ref := by
  simp only [checkExecution, bind_eq_ok, require_eq_ok, exists_const, callResult_eq_ok, pure_eq_ok,
    Prod.mk.injEq] at h
  obtain ⟨_, href, _, -, -, -, _, -, _, -, _, -, rfl, -⟩ := h
  exact href

/-- Clearing the record of a request that is in its slot leaves the requester
and the gas limit readable. -/
theorem load_clearRequest_slot {n : Uint64} {s : State} (h : InSlot keccak256 s n) :
    (clearRequest keccak256 n s).load (findRequest keccak256 n s) =
      { s.load (findRequest keccak256 n s) with sequenceNumber := 0 } := by
  have h : (s.requests (requestKey keccak256 n).2).sequenceNumber = n := h
  simp only [findRequest, clearRequest, if_pos h]
  simp [State.load, State.store, State.table, Table.load]

/-- Clearing the record of a request in the overflow mapping deletes it. -/
theorem load_clearRequest_overflow {n : Uint64} {s : State} (h : ¬ InSlot keccak256 s n) :
    (clearRequest keccak256 n s).load (findRequest keccak256 n s) = {} := by
  have h : ¬ (s.requests (requestKey keccak256 n).2).sequenceNumber = n := h
  simp only [findRequest, clearRequest, if_neg h]
  simp [State.load, State.store, State.table, Table.load]

/-- A successful execution of a request in the overflow mapping calls the zero
address, with no gas. -/
theorem executeCallback_evicted {env : PulseEnv} {n : Uint64} {updateData : List Bytes}
    {priceIds : List Bytes32} {w : World} {o : Outcome World Pending}
    (hslot : ¬ InSlot keccak256 w.state n)
    (h : executeCallback keccak256 env n updateData priceIds w = .ok o) :
    env.extcodesize 0 ≠ 0 ∧ o.state.attempts = ⟨n, 0, 0⟩ :: w.attempts := by
  simp only [executeCallback, bind_eq_ok, require_eq_ok, Prod.exists, exists_const,
    pure_eq_ok] at h
  obtain ⟨ref, priceFeeds, hcheck, hcode, rfl⟩ := h
  obtain ⟨-, rfl⟩ := findActiveRequest_eq_ok.mp (checkExecution_find hcheck)
  have hload := load_clearRequest_overflow hslot
  rw [findRequest_eq] at hload
  rw [hload] at hcode
  exact ⟨hcode, by rw [Outcome.state, hload]⟩

theorem executeCallback_change {env : PulseEnv} {n : Uint64} {updateData : List Bytes}
    {priceIds : List Bytes32} {w : World} {o : Outcome World Pending}
    (hslot : InSlot keccak256 w.state n)
    (h : executeCallback keccak256 env n updateData priceIds w = .ok o) :
    Change keccak256 w o.state := by
  simp only [executeCallback, bind_eq_ok, require_eq_ok, Prod.exists, exists_const,
    pure_eq_ok] at h
  obtain ⟨ref, priceFeeds, hcheck, -, rfl⟩ := h
  have href := checkExecution_find hcheck
  obtain ⟨hlookup, hfind⟩ := findActiveRequest_eq_ok.mp href
  have hn : (w.state.load ref).sequenceNumber = n := (Table.lookup_eq_some.mp hlookup).2.1
  have hload := load_clearRequest_slot hslot
  rw [findRequest_eq, hfind] at hload
  refine .attempt (w.state.load ref) ⟨ref, hn ▸ href, rfl⟩ ?_ clearRequest_current rfl ?_
  · rw [hn]
    exact clearRequest_table
  · simp only [Outcome.state, hload, Request.attempt, hn]

/-- A call that writes providers or settings and emits an event about them. -/
theorem Change.of_settings {w : World} {s : State} {e : Event}
    (htable : s.table = w.state.table)
    (hcurrent : s.currentSequenceNumber = w.state.currentSequenceNumber)
    (hrequest : e.request? = none) :
    Change keccak256 w (({ w with state := s } : World).emit e) := by
  refine .quiet htable hcurrent ?_ rfl
  simp [World.requests, World.emit, hrequest]

theorem updateOwnProvider_change {w w' : World} {env : PulseEnv}
    {update : ProviderInfo → ProviderInfo} {event : ProviderInfo → Event}
    (h : updateOwnProvider env update event w = .ok w')
    (hrequest : ∀ info, (event info).request? = none) : Change keccak256 w w' := by
  simp only [updateOwnProvider, bind_eq_ok, require_eq_ok, exists_const, pure_eq_ok] at h
  obtain ⟨-, rfl⟩ := h
  exact .of_settings rfl rfl (hrequest _)

theorem execute_change {m : Message} {w : World} {o : Outcome World Pending}
    (hslot : ExecutesInSlot keccak256 m w) (h : execute keccak256 m w = .ok o) :
    Change keccak256 w o.state := by
  obtain ⟨env, call⟩ := m
  simp only [execute, bind_eq_ok, require_eq_ok, exists_const] at h
  obtain ⟨-, h⟩ := h
  cases call with
  | requestPriceUpdatesWithCallback =>
    simp only [bind_eq_ok, pure_eq_ok] at h
    obtain ⟨w', h, rfl⟩ := h
    exact requestPriceUpdatesWithCallback_change h
  | executeCallback => exact executeCallback_change hslot h
  | withdrawFees =>
    simp only [withdrawFees, bind_eq_ok, pure_eq_ok] at h
    obtain ⟨_, -, _, -, _, -, _, -, rfl⟩ := h
    exact .quiet rfl rfl rfl rfl
  | withdrawAsFeeManager =>
    simp only [withdrawAsFeeManager, bind_eq_ok, pure_eq_ok] at h
    obtain ⟨_, -, _, -, _, -, _, -, rfl⟩ := h
    exact .quiet rfl rfl rfl rfl
  | registerProvider =>
    simp only [registerProvider, bind_eq_ok, pure_eq_ok] at h
    obtain ⟨w', ⟨_, -, rfl⟩, rfl⟩ := h
    exact .of_settings rfl rfl rfl
  | setFeeManager | setProviderFee =>
    simp only [bind_eq_ok, pure_eq_ok] at h
    obtain ⟨w', h, rfl⟩ := h
    exact updateOwnProvider_change h fun _ => rfl
  | setDefaultProvider =>
    simp only [setDefaultProvider, bind_eq_ok, pure_eq_ok] at h
    obtain ⟨w', ⟨_, -, _, -, rfl⟩, rfl⟩ := h
    exact .of_settings rfl rfl rfl
  | setExclusivityPeriod =>
    simp only [setExclusivityPeriod, bind_eq_ok, pure_eq_ok] at h
    obtain ⟨w', ⟨_, -, rfl⟩, rfl⟩ := h
    exact .of_settings rfl rfl rfl

theorem resume_change {k : Pending} {ok : Bool} {w : World} {o : Outcome World Pending}
    (h : resume keccak256 k ok w = some o) : Change keccak256 w o.state := by
  cases k with
  | withdrawal recipient amount =>
    cases ok with
    | false => cases h
    | true =>
      cases h
      exact .of_settings rfl rfl rfl
  | pulseCallback ref n sender priceIds priceFeeds callbackError =>
    cases ok with
    | false =>
      cases h
      exact .quiet rfl rfl rfl rfl
    | true =>
      cases h
      exact .quiet rfl rfl rfl rfl

/-- Every move of a run that executes requests only in their slots is one of
the changes. -/
theorem move_change {w w' : World}
    (h : ((component keccak256).restrict (ExecutesInSlot keccak256)).Move w w') :
    Change keccak256 w w' := by
  cases h with
  | start h =>
    obtain ⟨hslot, h⟩ := Component.restrict_start h
    exact execute_change hslot (toOption_eq_some.mp h)
  | resume h => exact resume_change h

/-! ## Runs -/

/-- The counter is above all requests, and the table holds those that were not
attempted. -/
structure Booked (keccak256 : Bytes → Bytes32) (w : World) : Prop where
  started : 0 < w.state.currentSequenceNumber.toNat
  assigned : ∀ req ∈ w.requests,
    req.sequenceNumber.toNat < w.state.currentSequenceNumber.toNat
  ledger : w.state.table.Ledger (requestScheme keccak256) w.requests
    (w.attempts.map (·.sequenceNumber))

theorem initial_booked {w : World} (h : Initial w) :
    Booked keccak256 w ∧ w.attempts = [] ∧ w.state.firstUnfulfilledSeq = 0 := by
  obtain ⟨_, _, _, _, _, _, _, s, balance, hs, rfl⟩ := h
  simp only [initializePulse, bind_eq_ok, require_eq_ok, exists_const] at hs
  obtain ⟨-, -, -, -, hs⟩ := hs
  have hdead : ∀ req : Request, req.sequenceNumber = 0 →
      ¬ (requestScheme keccak256).live ((requestScheme keccak256).key req) := by
    intro req hreq
    simp [requestScheme, hreq]
  split at hs
  · cases pure_eq_ok.mp hs
    exact ⟨⟨Nat.one_pos, by simp [World.requests],
      .empty ⟨fun _ hi => hdead _ rfl hi, fun _ hk => hdead _ rfl hk⟩⟩, rfl, rfl⟩
  · cases pure_eq_ok.mp hs
    exact ⟨⟨Nat.one_pos, by simp [World.requests],
      .empty ⟨fun _ hi => hdead _ rfl hi, fun _ hk => hdead _ rfl hk⟩⟩, rfl, rfl⟩

/-- The next sequence number is not the zero of inactive requests. -/
theorem Booked.next_live {w : World} (h : Booked keccak256 w) {req : Request}
    (hn : req.sequenceNumber = w.state.currentSequenceNumber) :
    (requestScheme keccak256).live ((requestScheme keccak256).key req) = true := by
  have hne : req.sequenceNumber ≠ 0 := by
    intro h0
    rw [hn] at h0
    exact Nat.ne_of_gt h.started (congrArg BitVec.toNat h0)
  simpa [requestScheme] using hne

theorem Booked.step (hkeys : Function.Injective fun n : Uint64 => keccak256 (packed 8 n))
    {w w' : World} (h : Booked keccak256 w) (hc : TableChange keccak256 w w') :
    Booked keccak256 w' := by
  have hlong : Function.Injective (requestScheme keccak256).long := hkeys
  cases hc with
  | quiet htable hcurrent hrequests hattempts =>
    refine ⟨?_, ?_, ?_⟩
    · rw [hcurrent]
      exact h.started
    · rw [hrequests, hcurrent]
      exact h.assigned
    · rw [htable, hrequests, hattempts]
      exact h.ledger
  | request req hn hnext htable hrequests hattempts =>
    have hfresh : (requestScheme keccak256).key req ∉
        w.requests.map (requestScheme keccak256).key := by
      intro hmem
      obtain ⟨old, hold, hkey⟩ := List.mem_map.mp hmem
      have hkey : old.sequenceNumber = req.sequenceNumber := hkey
      have hlt := h.assigned old hold
      rw [hkey, hn] at hlt
      exact Nat.lt_irrefl _ hlt
    refine ⟨?_, ?_, ?_⟩
    · rw [hnext]
      exact Nat.succ_pos _
    · rw [hrequests]
      intro r hr
      rcases List.mem_cons.mp hr with rfl | hr
      · rw [hn, hnext]
        exact Nat.lt_succ_self _
      · rw [hnext]
        exact Nat.lt_succ_of_lt (h.assigned r hr)
    · rw [htable, hrequests, hattempts]
      exact h.ledger.insert hlong (h.next_live hn) hfresh
  | clear n req hactive htable hcurrent hrequests hattempts =>
    refine ⟨?_, ?_, ?_⟩
    · rw [hcurrent]
      exact h.started
    · rw [hrequests, hcurrent]
      exact h.assigned
    · rw [htable, hrequests, hattempts]
      exact h.ledger.clear hlong (active_iff.mp hactive)

/-- How the table, the counter and the attempts relate to the requests. -/
structure Delivered (keccak256 : Bytes → Bytes32) (w : World) : Prop where
  started : 0 < w.state.currentSequenceNumber.toNat
  assigned : ∀ req ∈ w.requests,
    req.sequenceNumber.toNat < w.state.currentSequenceNumber.toNat
  ledger : w.state.table.Ledger (requestScheme keccak256) w.requests
    (w.attempts.map (·.sequenceNumber))
  recorded : ∀ a ∈ w.attempts, ∃ req ∈ w.requests, a = req.attempt

theorem Booked.delivered {w : World} (h : Booked keccak256 w)
    (hrecorded : ∀ a ∈ w.attempts, ∃ req ∈ w.requests, a = req.attempt) :
    Delivered keccak256 w :=
  ⟨h.started, h.assigned, h.ledger, hrecorded⟩

theorem initial_delivered {w : World} (h : Initial w) : Delivered keccak256 w := by
  obtain ⟨hbooked, hattempts, -⟩ := initial_booked h
  exact hbooked.delivered (by simp [hattempts])

theorem Delivered.step (hkeys : Function.Injective fun n : Uint64 => keccak256 (packed 8 n))
    {w w' : World} (h : Delivered keccak256 w) (hc : Change keccak256 w w') :
    Delivered keccak256 w' := by
  have hbooked : Booked keccak256 w' :=
    Booked.step hkeys ⟨h.started, h.assigned, h.ledger⟩ hc.tableChange
  refine hbooked.delivered ?_
  cases hc with
  | quiet _ _ hrequests hattempts =>
    rw [hrequests, hattempts]
    exact h.recorded
  | request req _ _ _ hrequests hattempts =>
    rw [hrequests, hattempts]
    intro a ha
    obtain ⟨r, hr, hra⟩ := h.recorded a ha
    exact ⟨r, List.mem_cons_of_mem _ hr, hra⟩
  | attempt req hactive _ _ hrequests hattempts =>
    rw [hrequests, hattempts]
    intro a ha
    rcases List.mem_cons.mp ha with rfl | ha
    · exact ⟨req, ((h.ledger.lookup _ _).mp (active_iff.mp hactive)).1, rfl⟩
    · exact h.recorded a ha

/-- A request in its slot is executed as it asks for. -/
theorem executes_of_inSlot {w : World} {req : Request}
    (hactive : Active keccak256 w.state req.sequenceNumber req)
    (hslot : InSlot keccak256 w.state req.sequenceNumber) : Executes keccak256 w req := by
  rintro env updateData priceIds ⟨ref, priceFeeds⟩ hcheck hcode
  obtain ⟨ref', href', hload'⟩ := hactive
  have href := checkExecution_find hcheck
  rw [href'] at href
  cases href
  have hload := load_clearRequest_slot hslot
  rw [findRequest_eq, (findActiveRequest_eq_ok.mp href').2, hload'] at hload
  refine ⟨_, _, bind_eq_ok.mpr ⟨_, hcheck, bind_eq_ok.mpr ⟨(), require_eq_ok.mpr ?_, rfl⟩⟩, ?_⟩
  · rw [hload]
    exact hcode
  · rw [hload]
    rfl

/-- In every run that executes requests only while they are in their slot of
the `requests` array, the law of callbacks holds in every configuration, for
all requests that are in their slot. -/
theorem callback_in_slot (hkeys : Function.Injective fun n : Uint64 => keccak256 (packed 8 n))
    {c : Config World Pending}
    (hc : ((component keccak256).restrict (ExecutesInSlot keccak256)).Reachable c) :
    CallbackLaw keccak256 (InSlot keccak256) c.state := by
  have h : Delivered keccak256 c.state :=
    hc.invariant (fun _ => initial_delivered) fun _ _ _ hw hm => hw.step hkeys (move_change hm)
  refine ⟨h.recorded, fun req _ hactive => ?_, fun req hreq hinactive => ?_,
    fun req _ hactive hslot => executes_of_inSlot hactive hslot⟩
  · exact List.count_eq_zero.mpr ((h.ledger.lookup _ _).mp (active_iff.mp hactive)).2.2
  · refine List.nodup_iff_count_eq_one.mp h.ledger.distinct _ ?_
    have hgone : ¬ req.sequenceNumber ∉ c.state.attempts.map (·.sequenceNumber) :=
      fun hgone => hinactive (active_iff.mpr ((h.ledger.lookup _ _).mpr ⟨hreq, rfl, hgone⟩))
    exact Decidable.not_not.mp hgone

end Functions

/-! ## A run in which a request is evicted -/

/-- A call without value, of a sender whose price feeds parse to nothing, on a
chain where only account 9 has code. -/
def exMessage (sender : Address) (call : Call) : Message where
  env :=
    { sender
      value := 0
      block := { number := 100, timestamp := 1000, blockhash := fun _ => 0 }
      extcodesize := fun a => if a = 9 then 1 else 0
      parsePriceFeedUpdates := fun _ _ _ _ _ => some []
      callbackError := none }
  call := call

/-- The contract right after its deployment. -/
def exInitial : World :=
  { state := (initializePulse 1 2 0 5 7 true 0 {}).toOption.getD {} }

theorem exInitial_initial : Initial exInitial := ⟨1, 2, 0, 5, 7, true, 0, _, 0, rfl, rfl⟩

/-- Provider 7 registers and account 9 makes a request. -/
def exRequested : World :=
  [exMessage 7 (.registerProvider 0), exMessage 9 (.requestPriceUpdatesWithCallback 900 [] 50000)]
    |>.foldl ((component exKeccak).restrict (ExecutesInSlot exKeccak)).perform exInitial

theorem exRequested_reachable :
    ((component exKeccak).restrict (ExecutesInSlot exKeccak)).Reachable ⟨exRequested, []⟩ :=
  ⟨exInitial, exInitial_initial, Component.steps_perform _ _ _ _⟩

/-- The request of the run. -/
def exRequest : Request where
  sequenceNumber := 1
  publishTime := 900
  callbackGasLimit := 50000
  requester := 9
  provider := 7

theorem exKeccak_packed_injective :
    Function.Injective fun n : Uint64 => exKeccak (packed 8 n) := fun _ _ h =>
  packed_inj (by decide)
    (exKeccak_inj (k := 8) (by decide) (length_packed _ _) (length_packed _ _) h)

theorem callback_in_slot_run :
    ∃ w, CallbackLaw exKeccak (InSlot exKeccak) w ∧ w.attempts = [exRequest.attempt] := by
  let m := exMessage 7 (.executeCallback 1 [] [])
  have hactive : Active exKeccak exRequested.state 1 exRequest :=
    active_iff.mpr (by decide +kernel)
  have hslot : InSlot exKeccak exRequested.state 1 := by decide +kernel
  have hcheck : checkExecution exKeccak m.env 1 [] [] exRequested.state =
      .ok (.slot (requestKey exKeccak 1).2, []) :=
    toOption_eq_some.mp (by decide +kernel)
  obtain ⟨w, k, hexec, hattempts⟩ :=
    @executes_of_inSlot exKeccak exRequested exRequest hactive hslot m.env [] [] _ hcheck
      (by decide +kernel)
  have hstart : ((component exKeccak).restrict (ExecutesInSlot exKeccak)).start m exRequested =
      some (.external w k) := by
    have hexecutes : ExecutesInSlot exKeccak m exRequested := hslot
    rw [Component.start_restrict hexecutes]
    exact toOption_eq_some.mpr hexec
  have hnone : exRequested.attempts = [] := by decide +kernel
  have hreachable := exRequested_reachable.steps (.single (.enter hstart))
  have hlaw := callback_in_slot exKeccak_packed_injective hreachable
  exact ⟨w, hlaw, by rw [hattempts, hnone]⟩

/-- Account 9 makes a second request; its key selects the slot of the first. -/
def exEvicted : World :=
  [exMessage 9 (.requestPriceUpdatesWithCallback 950 [] 60000)]
    |>.foldl (component exKeccak).perform exRequested

theorem exEvicted_reachable : (component exKeccak).Reachable ⟨exEvicted, []⟩ :=
  exRequested_reachable.of_restrict.steps (Component.steps_perform _ _ _ _)

/-- The law of callbacks does not hold for evicted requests: the first request
of the run is active and passes all checks, but no execution of it succeeds. -/
theorem evicted_callback_lost :
    ¬ ∀ c : Config World Pending, (component exKeccak).Reachable c →
      CallbackLaw exKeccak (fun _ _ => True) c.state := by
  intro hlaw
  have h := hlaw _ exEvicted_reachable
  have hrequest : exRequest ∈ exEvicted.requests := by decide +kernel
  have hactive : Active exKeccak exEvicted.state 1 exRequest :=
    active_iff.mpr (by decide +kernel)
  have hslot : ¬ InSlot exKeccak exEvicted.state 1 := by decide +kernel
  let env := (exMessage 7 (.executeCallback 1 [] [])).env
  have hcheck : checkExecution exKeccak env 1 [] [] exEvicted.state =
      .ok (.overflow (requestKey exKeccak 1).1, []) :=
    toOption_eq_some.mp (by decide +kernel)
  obtain ⟨w', k, hexec, -⟩ :=
    h.executes exRequest hrequest hactive trivial env [] [] _ hcheck (by decide +kernel)
  have hzero : env.extcodesize 0 = 0 := by decide +kernel
  exact (executeCallback_evicted hslot hexec).1 hzero

end PythCrosschain.Pulse
