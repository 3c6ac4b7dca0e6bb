import Mathlib.Data.Set.Card
import PythCrosschain.Lib.Cursor
import PythCrosschain.Pulse.Callback

/-!
# Pulse: which requests are tracked as active

`firstUnfulfilledSeq` is a cursor over the sequence numbers that only executions
move, and `getFirstActiveRequests` collects requests from there on. Both loops
are those of `Lib.Cursor` over the active requests (`firstUnfulfilledFrom_toNat`,
`activeRequestsFrom_eq`). In every configuration of a run, evicted requests and
callbacks that call the contract again included:

- no request below `firstUnfulfilledSeq` is active, and `firstUnfulfilledSeq` is
  at most `currentSequenceNumber`;
- `getFirstActiveRequests` returns the first active requests (`request_tracking`).
-/

namespace PythCrosschain.Pulse

section

variable (keccak256 : Bytes → Bytes32)

/-- The first `count` active requests, in the order of their sequence numbers,
as they were when they were made. -/
structure FirstActive (w : World) (count : Nat) (found : List Request) : Prop where
  length : found.length = min count {n | ∃ req, Active keccak256 w.state n req}.ncard
  ascending : found.Pairwise fun a b => a.sequenceNumber < b.sequenceNumber
  active : ∀ req ∈ found, Active keccak256 w.state req.sequenceNumber req
  created : ∀ req ∈ found, ∀ old, old ∈ w.requests ∧ old.sequenceNumber = req.sequenceNumber ↔
    old = req
  smallest : ∀ req ∈ found, ∀ n other, Active keccak256 w.state n other →
    n < req.sequenceNumber → other ∈ found

/-- The request that the loops find under a number, if it is active. -/
def activeAt (s : State) (n : ℕ) : Option Request :=
  let req := s.load (findRequest keccak256 (BitVec.ofNat 64 n) s)
  if isActive req then some req else none

end

section Loops

variable {keccak256 : Bytes → Bytes32}

theorem activeAt_toNat {s : State} {n : Uint64} :
    activeAt keccak256 s n.toNat =
      if isActive (s.load (findRequest keccak256 n s)) then
        some (s.load (findRequest keccak256 n s))
      else none := by
  rw [activeAt, BitVec.ofNat_toNat, BitVec.setWidth_eq]

/-- A sequence number below the counter has a successor. -/
theorem toNat_succ {n limit : Uint64} (h : n < limit) : (n + 1).toNat = n.toNat + 1 := by
  have hlimit := limit.isLt
  have h : n.toNat < limit.toNat := h
  rw [BitVec.toNat_add, Nat.mod_eq_of_lt]
  · rfl
  · exact Nat.lt_of_le_of_lt h hlimit

theorem firstUnfulfilledFrom_toNat {s : State} (fuel : ℕ) (n : Uint64) :
    (firstUnfulfilledFrom keccak256 s fuel n).toNat =
      Cursor.skip (activeAt keccak256 s) s.currentSequenceNumber.toNat fuel n.toNat := by
  induction fuel generalizing n with
  | zero => rfl
  | succ fuel ih =>
    unfold firstUnfulfilledFrom Cursor.skip
    rw [activeAt_toNat]
    cases hactive : isActive (s.load (findRequest keccak256 n s)) with
    | true => simp
    | false =>
      simp only [and_true, Bool.false_eq_true, if_false, Option.isNone_none]
      split
      · next h =>
        rw [ih, toNat_succ h]
        exact (if_pos h).symm
      · next h => exact (if_neg h).symm

theorem activeRequestsFrom_eq {s : State} {count : Nat} (fuel : ℕ) (n : Uint64)
    (found : List Request) :
    activeRequestsFrom keccak256 s count fuel n found =
      Cursor.gather (activeAt keccak256 s) s.currentSequenceNumber.toNat count fuel n.toNat
        found := by
  induction fuel generalizing n found with
  | zero => rfl
  | succ fuel ih =>
    unfold activeRequestsFrom Cursor.gather
    rw [activeAt_toNat]
    split
    · next h =>
      refine Eq.trans ?_ (if_pos h).symm
      dsimp only
      rw [ih, toNat_succ h.2]
      split
      · rfl
      · rw [Option.toList_none, List.append_nil]
    · next h => exact (if_neg h).symm

end Loops

/-! ## What one move changes -/

section Moves

variable {keccak256 : Bytes → Bytes32}

@[simp] theorem clearRequest_firstUnfulfilledSeq {n : Uint64} {s : State} :
    (clearRequest keccak256 n s).firstUnfulfilledSeq = s.firstUnfulfilledSeq := by
  simp only [clearRequest]
  split <;> rfl

theorem executeCallback_clears {env : PulseEnv} {n : Uint64} {updateData : List Bytes}
    {priceIds : List Bytes32} {w : World} {o : Outcome World Pending}
    (h : executeCallback keccak256 env n updateData priceIds w = .ok o) :
    TableChange keccak256 w o.state ∧
      o.state.state.firstUnfulfilledSeq = w.state.firstUnfulfilledSeq := by
  simp only [executeCallback, bind_eq_ok, require_eq_ok, Prod.exists, exists_const,
    pure_eq_ok] at h
  obtain ⟨ref, priceFeeds, hcheck, -, rfl⟩ := h
  have hactive : Active keccak256 w.state n _ := ⟨ref, checkExecution_find hcheck, rfl⟩
  exact ⟨.clear n _ hactive clearRequest_table clearRequest_current rfl rfl,
    clearRequest_firstUnfulfilledSeq⟩

theorem writeRequest_firstUnfulfilledSeq {env : PulseEnv} {n : Uint64} {publishTime gas : Uint256}
    {priceIds : List Bytes32} {s : State} :
    (writeRequest keccak256 env n publishTime priceIds gas s).2.firstUnfulfilledSeq =
      s.firstUnfulfilledSeq := by
  simp only [writeRequest, allocRequest]
  split <;> rfl

theorem collectFee_firstUnfulfilledSeq {env : PulseEnv} {provider : Address} {s s' : State}
    (h : collectFee env provider s = .ok s') :
    s'.firstUnfulfilledSeq = s.firstUnfulfilledSeq := by
  simp only [collectFee, bind_eq_ok, pure_eq_ok] at h
  obtain ⟨_, _, _, _, _, _, _, _, rfl⟩ := h
  rfl

/-- A call leaves the cursor where it is. -/
theorem execute_firstUnfulfilledSeq {m : Message} {w : World} {o : Outcome World Pending}
    (h : execute keccak256 m w = .ok o) :
    o.state.state.firstUnfulfilledSeq = w.state.firstUnfulfilledSeq := by
  obtain ⟨env, call⟩ := m
  simp only [execute, bind_eq_ok, require_eq_ok, exists_const] at h
  obtain ⟨-, h⟩ := h
  cases call with
  | requestPriceUpdatesWithCallback =>
    simp only [requestPriceUpdatesWithCallback, bind_eq_ok, require_eq_ok, pure_eq_ok,
      exists_const] at h
    obtain ⟨w', ⟨-, _, _, -, -, _, -, _, _, -, s, hfee, rfl⟩, rfl⟩ := h
    exact (collectFee_firstUnfulfilledSeq hfee).trans writeRequest_firstUnfulfilledSeq
  | executeCallback => exact (executeCallback_clears h).2
  | withdrawFees =>
    simp only [withdrawFees, bind_eq_ok, pure_eq_ok] at h
    obtain ⟨_, -, _, -, _, -, _, -, rfl⟩ := h
    rfl
  | withdrawAsFeeManager =>
    simp only [withdrawAsFeeManager, bind_eq_ok, pure_eq_ok] at h
    obtain ⟨_, -, _, -, _, -, _, -, rfl⟩ := h
    rfl
  | registerProvider =>
    simp only [registerProvider, bind_eq_ok, pure_eq_ok] at h
    obtain ⟨w', ⟨_, -, rfl⟩, rfl⟩ := h
    rfl
  | setFeeManager | setProviderFee =>
    simp only [setFeeManager, setProviderFee, updateOwnProvider, bind_eq_ok, pure_eq_ok] at h
    obtain ⟨w', ⟨_, -, rfl⟩, rfl⟩ := h
    rfl
  | setDefaultProvider =>
    simp only [setDefaultProvider, bind_eq_ok, pure_eq_ok] at h
    obtain ⟨w', ⟨_, -, _, -, rfl⟩, rfl⟩ := h
    rfl
  | setExclusivityPeriod =>
    simp only [setExclusivityPeriod, bind_eq_ok, pure_eq_ok] at h
    obtain ⟨w', ⟨_, -, rfl⟩, rfl⟩ := h
    rfl

theorem execute_tableChange {m : Message} {w : World} {o : Outcome World Pending}
    (h : execute keccak256 m w = .ok o) : TableChange keccak256 w o.state := by
  cases hcall : m.call with
  | executeCallback n updateData priceIds =>
    simp only [execute, hcall, bind_eq_ok, require_eq_ok, exists_const] at h
    exact (executeCallback_clears h.2).1
  | _ =>
    have hslot : ExecutesInSlot keccak256 m w := by
      simp [ExecutesInSlot, hcall]
    exact (execute_change hslot h).tableChange

/-- The rest of a call leaves the cursor where it is, or runs its loop. -/
theorem resume_cursor {k : Pending} {ok : Bool} {w : World} {o : Outcome World Pending}
    (h : resume keccak256 k ok w = some o) :
    o.state.state = w.state ∨ o.state.state = updateFirstUnfulfilled keccak256 w.state := by
  cases k with
  | withdrawal recipient amount =>
    cases ok with
    | false => cases h
    | true =>
      cases h
      exact .inl rfl
  | pulseCallback ref n sender priceIds priceFeeds callbackError =>
    cases ok with
    | false =>
      cases h
      exact .inr rfl
    | true =>
      cases h
      exact .inr rfl

end Moves

/-! ## Runs -/

section Runs

variable {keccak256 : Bytes → Bytes32}

/-- The cursor is not beyond the counter, and has only passed inactive requests. -/
structure Tracked (keccak256 : Bytes → Bytes32) (w : World) : Prop extends
    Booked keccak256 w where
  cursor_le : w.state.firstUnfulfilledSeq.toNat ≤ w.state.currentSequenceNumber.toNat
  passed : ∀ n < w.state.firstUnfulfilledSeq,
    w.state.table.lookup (requestScheme keccak256) n = none

theorem initial_tracked {w : World} (h : Initial w) : Tracked keccak256 w := by
  obtain ⟨hbooked, -, hcursor⟩ := @initial_booked keccak256 w h
  refine ⟨hbooked, ?_, ?_⟩
  · rw [hcursor]
    exact Nat.zero_le _
  · intro n hn
    rw [hcursor] at hn
    exact absurd hn (Nat.not_lt_zero n.toNat)

/-- The loops find a request under a number exactly if it is active. -/
theorem Booked.activeAt_toNat (hkeys : Function.Injective fun n : Uint64 => keccak256 (packed 8 n))
    {w : World} (h : Booked keccak256 w) (n : Uint64) :
    activeAt keccak256 w.state n.toNat =
      w.state.table.lookup (requestScheme keccak256) n := by
  rw [Pulse.activeAt_toNat]
  split
  · next hactive =>
    exact (Table.lookup_of_live (S := requestScheme keccak256) hkeys h.ledger.wellFormed
      hactive).symm
  · next hinactive =>
    symm
    rw [Option.eq_none_iff_forall_ne_some]
    intro req hreq
    obtain ⟨hlive, hkey, hload⟩ := Table.lookup_eq_some.mp hreq
    refine hinactive ?_
    rw [findRequest_eq, show w.state.load _ = req from hload]
    rw [← hkey] at hlive
    exact hlive

/-- A call keeps the cursor's invariant: only requests below the counter are added. -/
theorem Tracked.call (hkeys : Function.Injective fun n : Uint64 => keccak256 (packed 8 n))
    {w w' : World} (h : Tracked keccak256 w) (hc : TableChange keccak256 w w')
    (hcursor : w'.state.firstUnfulfilledSeq = w.state.firstUnfulfilledSeq) :
    Tracked keccak256 w' := by
  have hlong : Function.Injective (requestScheme keccak256).long := hkeys
  refine ⟨h.toBooked.step hkeys hc, ?_, ?_⟩
  · rw [hcursor]
    cases hc with
    | quiet _ hcurrent => exact hcurrent ▸ h.cursor_le
    | request _ _ hnext => exact hnext ▸ Nat.le_succ_of_le h.cursor_le
    | clear _ _ _ _ hcurrent => exact hcurrent ▸ h.cursor_le
  · intro n hn
    rw [hcursor] at hn
    cases hc with
    | quiet htable => exact htable ▸ h.passed n hn
    | request req hnumber _ htable =>
      have hne : n ≠ req.sequenceNumber := by
        rintro rfl
        rw [hnumber] at hn
        exact absurd hn (Nat.not_lt.mpr h.cursor_le)
      rw [htable, Table.lookup_insert hlong h.ledger.wellFormed (h.next_live hnumber)]
      exact (Function.update_of_ne hne _ _).trans (h.passed n hn)
    | clear m req _ htable =>
      rw [htable, Table.lookup_clear hlong h.ledger.wellFormed]
      rcases eq_or_ne n m with rfl | hne
      · exact Function.update_self ..
      · rw [Function.update_of_ne hne]
        exact h.passed n hn

/-- The loop of an execution keeps it: it passes inactive requests only. -/
theorem Tracked.advance (hkeys : Function.Injective fun n : Uint64 => keccak256 (packed 8 n))
    {w : World} (h : Tracked keccak256 w) {w' : World} (hbooked : Booked keccak256 w')
    (hstate : w'.state = updateFirstUnfulfilled keccak256 w.state) : Tracked keccak256 w' := by
  have hcursor : w'.state.firstUnfulfilledSeq.toNat =
      Cursor.skip (activeAt keccak256 w.state) w.state.currentSequenceNumber.toNat
        (w.state.currentSequenceNumber.toNat - w.state.firstUnfulfilledSeq.toNat)
        w.state.firstUnfulfilledSeq.toNat := by
    rw [hstate]
    exact firstUnfulfilledFrom_toNat _ _
  refine ⟨hbooked, ?_, ?_⟩
  · rw [hcursor, hstate]
    exact Cursor.skip_le h.cursor_le _
  · intro n hn
    have hn : n.toNat < w'.state.firstUnfulfilledSeq.toNat := hn
    rw [show w'.state.table = w.state.table by rw [hstate]; rfl]
    rcases Nat.lt_or_ge n.toNat w.state.firstUnfulfilledSeq.toNat with hlt | hge
    · exact h.passed n hlt
    · rw [← h.toBooked.activeAt_toNat hkeys]
      rw [hcursor] at hn
      exact Cursor.skip_passed _ hge hn

theorem Tracked.move (hkeys : Function.Injective fun n : Uint64 => keccak256 (packed 8 n))
    {w w' : World} (h : Tracked keccak256 w) (hm : (component keccak256).Move w w') :
    Tracked keccak256 w' := by
  cases hm with
  | start hstart =>
    have hexecute := toOption_eq_some.mp hstart
    exact h.call hkeys (execute_tableChange hexecute) (execute_firstUnfulfilledSeq hexecute)
  | resume hresume =>
    have hchange := (resume_change hresume).tableChange
    rcases resume_cursor hresume with hsame | hadvance
    · exact h.call hkeys hchange (by rw [hsame])
    · exact h.advance hkeys (h.toBooked.step hkeys hchange) hadvance

theorem reachable_tracked (hkeys : Function.Injective fun n : Uint64 => keccak256 (packed 8 n))
    {c : Config World Pending} (hc : (component keccak256).Reachable c) :
    Tracked keccak256 c.state :=
  hc.invariant (fun _ => initial_tracked) fun _ _ _ h hm => h.move hkeys hm

/-- The active requests, in the order of their sequence numbers. -/
def activeRequests (keccak256 : Bytes → Bytes32) (s : State) : List Request :=
  Cursor.records (activeAt keccak256 s) s.currentSequenceNumber.toNat s.firstUnfulfilledSeq.toNat

theorem getFirstActiveRequests_eq (count : Nat) (s : State) :
    getFirstActiveRequests keccak256 count s = (activeRequests keccak256 s).take count := by
  rw [getFirstActiveRequests, activeRequestsFrom_eq, Cursor.gather_eq (by omega) (Nat.zero_le _)]
  rfl

theorem Tracked.mem_activeRequests
    (hkeys : Function.Injective fun n : Uint64 => keccak256 (packed 8 n)) {w : World}
    (h : Tracked keccak256 w) {req : Request} :
    req ∈ activeRequests keccak256 w.state ↔ Active keccak256 w.state req.sequenceNumber req := by
  rw [activeRequests, Cursor.mem_records, active_iff]
  constructor
  · rintro ⟨m, -, hm, hreq⟩
    obtain ⟨n, rfl⟩ : ∃ n : Uint64, n.toNat = m :=
      ⟨BitVec.ofNat 64 m, Nat.mod_eq_of_lt (hm.trans w.state.currentSequenceNumber.isLt)⟩
    rw [h.toBooked.activeAt_toNat hkeys] at hreq
    rwa [show req.sequenceNumber = n from (Table.lookup_eq_some.mp hreq).2.1]
  · intro hreq
    refine ⟨req.sequenceNumber.toNat, ?_, ?_, ?_⟩
    · refine Nat.not_lt.mp fun hlt => ?_
      rw [h.passed _ hlt] at hreq
      cases hreq
    · exact h.assigned req ((h.ledger.lookup _ _).mp hreq).1
    · rw [h.toBooked.activeAt_toNat hkeys]
      exact hreq

theorem Tracked.activeRequests_ascending
    (hkeys : Function.Injective fun n : Uint64 => keccak256 (packed 8 n)) {w : World}
    (h : Tracked keccak256 w) :
    (activeRequests keccak256 w.state).Pairwise
      fun a b => a.sequenceNumber.toNat < b.sequenceNumber.toNat := by
  refine Cursor.records_ascending (fun m hm req hreq => ?_) _
  obtain ⟨n, rfl⟩ : ∃ n : Uint64, n.toNat = m :=
    ⟨BitVec.ofNat 64 m, Nat.mod_eq_of_lt (hm.trans w.state.currentSequenceNumber.isLt)⟩
  rw [h.toBooked.activeAt_toNat hkeys] at hreq
  exact congrArg BitVec.toNat (Table.lookup_eq_some.mp hreq).2.1

theorem Tracked.length_activeRequests
    (hkeys : Function.Injective fun n : Uint64 => keccak256 (packed 8 n)) {w : World}
    (h : Tracked keccak256 w) :
    (activeRequests keccak256 w.state).length =
      {n | ∃ req, Active keccak256 w.state n req}.ncard := by
  have hset : {n | ∃ req, Active keccak256 w.state n req} =
      ((activeRequests keccak256 w.state).map (·.sequenceNumber)).toFinset := by
    ext n
    simp only [Set.mem_ofPred_eq, List.coe_toFinset, List.mem_map, h.mem_activeRequests hkeys]
    constructor
    · rintro ⟨req, hreq⟩
      have hn : req.sequenceNumber = n := (Table.lookup_eq_some.mp (active_iff.mp hreq)).2.1
      exact ⟨req, hn ▸ hreq, hn⟩
    · rintro ⟨req, hreq, rfl⟩
      exact ⟨req, hreq⟩
  have hnodup : ((activeRequests keccak256 w.state).map (·.sequenceNumber)).Nodup := by
    refine List.pairwise_map.mpr ((h.activeRequests_ascending hkeys).imp ?_)
    intro a b hab he
    rw [he] at hab
    exact Nat.lt_irrefl _ hab
  rw [hset, Set.ncard_coe_finset, List.toFinset_card_of_nodup hnodup, List.length_map]

/-- In every configuration of a run, `firstUnfulfilledSeq` has only inactive
requests below it and is at most the next sequence number, and
`getFirstActiveRequests` returns the first active requests. -/
theorem request_tracking (hkeys : Function.Injective fun n : Uint64 => keccak256 (packed 8 n))
    {c : Config World Pending} (hc : (component keccak256).Reachable c) :
    (∀ n < c.state.state.firstUnfulfilledSeq, ∀ req, ¬ Active keccak256 c.state.state n req) ∧
    c.state.state.firstUnfulfilledSeq ≤ c.state.state.currentSequenceNumber ∧
    ∀ count, FirstActive keccak256 c.state count
      (getFirstActiveRequests keccak256 count c.state.state) := by
  have h := reachable_tracked hkeys hc
  refine ⟨fun n hn req hreq => ?_, h.cursor_le, fun count => ?_⟩
  · have hnone := h.passed n hn
    rw [active_iff.mp hreq] at hnone
    cases hnone
  rw [getFirstActiveRequests_eq]
  have hascending := h.activeRequests_ascending hkeys
  refine ⟨?_, ?_, ?_, ?_, ?_⟩
  · rw [List.length_take, h.length_activeRequests hkeys]
  · exact hascending.sublist (List.take_sublist _ _)
  · intro req hreq
    exact (h.mem_activeRequests hkeys).mp (List.mem_of_mem_take hreq)
  · intro req hreq old
    have hlookup := active_iff.mp ((h.mem_activeRequests hkeys).mp (List.mem_of_mem_take hreq))
    obtain ⟨hmade, -, hgone⟩ := (h.ledger.lookup _ _).mp hlookup
    constructor
    · rintro ⟨hold, hnumber⟩
      have hold := (h.ledger.lookup _ old).mpr ⟨hold, hnumber, hgone⟩
      exact Option.some.inj (hold.symm.trans hlookup)
    · rintro rfl
      exact ⟨hmade, rfl⟩
  · intro req hreq n other hother hlt
    have hn : other.sequenceNumber = n := (Table.lookup_eq_some.mp (active_iff.mp hother)).2.1
    subst hn
    exact Cursor.mem_take_of_lt hascending hreq ((h.mem_activeRequests hkeys).mpr hother) hlt

/-- After the second request has evicted the first, the first is still the first
active one. -/
theorem request_tracking_run :
    (getFirstActiveRequests exKeccak 1 exEvicted.state).length =
      min 1 {n | ∃ req, Active exKeccak exEvicted.state n req}.ncard ∧
    getFirstActiveRequests exKeccak 1 exEvicted.state = [exRequest] :=
  ⟨((request_tracking exKeccak_packed_injective exEvicted_reachable).2.2 1).length,
    by decide +kernel⟩

end Runs

end PythCrosschain.Pulse
