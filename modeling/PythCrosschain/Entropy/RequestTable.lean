import PythCrosschain.Entropy.Change

/-!
# Entropy: the request table refines a map

`History` relates the table and the counters to the events of a run, whatever
keys collide: every record in flight was announced by its request, and no
provider's sequence number is assigned twice. With request keys that do not
collide the table is exactly the map of the requests that were made and not yet
revealed (`Refines`).

Results:
1. `reachable_history`: `History` holds in every reachable configuration.
2. `request_table_refines_map`: a request is in flight if and only if it was
   made and not revealed, it is then the record that was written, and no
   request is made or revealed twice.
-/

namespace PythCrosschain.Entropy

/-- The key of a request. -/
def Request.key (req : Request) : Address × Uint64 := (req.provider, req.sequenceNumber)

/-- The key of the request that a reveal is for. -/
def Reveal.key (rv : Reveal) : Address × Uint64 := rv.request.key

section

variable (keccak256 : Bytes → Bytes32)

/-- How the table and the counters relate to the events. -/
structure History (w : World) : Prop where
  inFlight : w.state.table.AllLive (requestScheme keccak256) (· ∈ w.requests)
  assigned : ∀ req ∈ w.requests, 0 < req.sequenceNumber.toNat ∧
    req.sequenceNumber.toNat < (w.state.chains req.provider).sequenceNumber.toNat
  distinct : (w.requests.map Request.key).Nodup
  revealed : ∀ rv ∈ w.reveals, rv.request ∈ w.requests

/-- The table holds the requests that were made and not revealed. -/
def Refines (w : World) : Prop :=
  w.state.table.Ledger (requestScheme keccak256) w.requests (w.reveals.map Reveal.key)

end

section

variable {keccak256 : Bytes → Bytes32}

/-! ## The initial state -/

theorem initial_table {w : World} (h : Initial w) :
    (∀ i, (w.state.requests i).sequenceNumber = 0) ∧
    (∀ k, (w.state.requestsOverflow k).sequenceNumber = 0) ∧
    w.logs = [] := by
  obtain ⟨_, _, _, _, _, s, balance, hs, rfl⟩ := h
  simp only [initializeEntropy, bind_eq_ok, require_eq_ok, exists_const] at hs
  obtain ⟨-, -, -, hs⟩ := hs
  split at hs
  · cases pure_eq_ok.mp hs
    exact ⟨fun _ => rfl, fun _ => rfl, rfl⟩
  · cases pure_eq_ok.mp hs
    exact ⟨fun _ => rfl, fun _ => rfl, rfl⟩

/-- Nothing is in flight in a table whose sequence numbers are all zero. -/
theorem not_live_of_zero {req : Request} (h : req.sequenceNumber = 0) :
    ¬ (requestScheme keccak256).live ((requestScheme keccak256).key req) := by
  simp [requestScheme, h]

theorem initial_empty {w : World} (h : Initial w) :
    w.state.table.AllLive (requestScheme keccak256) (fun _ => False) ∧
    w.requests = [] ∧ w.reveals = [] := by
  obtain ⟨hslots, hoverflow, hlogs⟩ := initial_table h
  refine ⟨⟨fun i hi => ?_, fun k hk => ?_⟩, ?_, ?_⟩
  · exact not_live_of_zero (hslots i) hi
  · exact not_live_of_zero (hoverflow k) hk
  · simp [World.requests, hlogs]
  · simp [World.reveals, hlogs]

theorem initial_history {w : World} (h : Initial w) : History keccak256 w := by
  obtain ⟨hempty, hrequests, hreveals⟩ := @initial_empty keccak256 w h
  exact ⟨hempty.mono fun _ hf => hf.elim, by simp [hrequests], by simp [hrequests],
    by simp [hreveals]⟩

theorem initial_refines {w : World} (h : Initial w) : Refines keccak256 w := by
  obtain ⟨hempty, hrequests, hreveals⟩ := @initial_empty keccak256 w h
  unfold Refines
  rw [hrequests, hreveals]
  exact .empty hempty

/-! ## What was made and revealed, for any keys -/

/-- No move decreases a provider's next sequence number. -/
theorem Change.sequenceNumber_le {w w' : World} (h : Change keccak256 w w') (p : Address) :
    (w.state.chains p).sequenceNumber.toNat ≤ (w'.state.chains p).sequenceNumber.toNat := by
  have hupdate : ∀ (q : Address) (c : ChainPosition),
      w'.state.chains = Function.update w.state.chains q c →
      (w.state.chains q).sequenceNumber.toNat ≤ c.sequenceNumber.toNat →
      (w.state.chains p).sequenceNumber.toNat ≤ (w'.state.chains p).sequenceNumber.toNat := by
    intro q c hc hle
    rw [hc]
    exact (Function.forall_update_iff _ fun p (c : ChainPosition) =>
      (w.state.chains p).sequenceNumber.toNat ≤ c.sequenceNumber.toNat).mpr
      ⟨hle, fun _ _ => Nat.le_refl _⟩ p
  cases h with
  | quiet hchains => rw [hchains]
  | register q c chainLength _ _ _ _ hnext _ hchains =>
    exact hupdate q c hchains (by omega)
  | request req env userCommitment next hmade hnext _ hchains =>
    refine hupdate req.provider _ hchains ?_
    have hn := congrArg BitVec.toNat hmade.sequenceNumber
    simp only
    omega
  | reveal rv h =>
    refine hupdate rv.request.provider _ h.chains ?_
    unfold ChainPosition.afterReveal
    split <;> exact Nat.le_refl _
  | advance q target next _ _ _ _ hle _ _ hchains => exact hupdate q _ hchains hle

/-- The requests that were made keep a sequence number below the counter. -/
theorem assigned_of_le {w w' : World}
    (h : ∀ req ∈ w.requests, 0 < req.sequenceNumber.toNat ∧
      req.sequenceNumber.toNat < (w.state.chains req.provider).sequenceNumber.toNat)
    (hc : Change keccak256 w w') {req : Request} (hreq : req ∈ w.requests) :
    0 < req.sequenceNumber.toNat ∧
      req.sequenceNumber.toNat < (w'.state.chains req.provider).sequenceNumber.toNat :=
  ⟨(h req hreq).1, Nat.lt_of_lt_of_le (h req hreq).2 (Change.sequenceNumber_le hc req.provider)⟩

/-- A request that is made now has a key that no earlier request has. -/
theorem MadeIn.fresh {w : World} {env : Env} {userCommitment : Bytes32} {req : Request}
    (hmade : MadeIn keccak256 w env userCommitment req) (h : History keccak256 w) :
    req.key ∉ w.requests.map Request.key := by
  intro hmem
  obtain ⟨old, hold, hkey⟩ := List.mem_map.mp hmem
  obtain ⟨hp, hn⟩ := Prod.ext_iff.mp hkey
  have hp : old.provider = req.provider := hp
  have hn : old.sequenceNumber = req.sequenceNumber := hn
  have hlt := (h.assigned old hold).2
  rw [hp, hn, hmade.sequenceNumber] at hlt
  exact Nat.lt_irrefl _ hlt

theorem MadeIn.live {w : World} {env : Env} {userCommitment : Bytes32} {req : Request}
    (hmade : MadeIn keccak256 w env userCommitment req) :
    (requestScheme keccak256).live ((requestScheme keccak256).key req) = true := by
  have hne : req.sequenceNumber ≠ 0 := by
    rw [hmade.sequenceNumber]
    exact hmade.registered
  simpa [requestScheme] using hne

/-- A move that leaves the table and adds neither a request nor a reveal. -/
theorem History.frame {w w' : World} (h : History keccak256 w) (hc : Change keccak256 w w')
    (htable : w'.state.table = w.state.table) (hrequests : w'.requests = w.requests)
    (hreveals : w'.reveals = w.reveals) : History keccak256 w' := by
  refine ⟨?_, ?_, ?_, ?_⟩
  · rw [htable, hrequests]
    exact h.inFlight
  · rw [hrequests]
    exact fun req => assigned_of_le h.assigned hc
  · rw [hrequests]
    exact h.distinct
  · rw [hrequests, hreveals]
    exact h.revealed

theorem History.step {w w' : World} (h : History keccak256 w) (he : Effect keccak256 w w') :
    History keccak256 w' := by
  rcases he.change.requests_cases with ⟨htable, hrequests, hreveals⟩ |
    ⟨req, env, userCommitment, next, hreq⟩ | ⟨rv, hrv⟩
  · exact h.frame he.change htable hrequests hreveals
  · refine ⟨?_, ?_, ?_, ?_⟩
    · rw [hreq.table, hreq.requests]
      exact (h.inFlight.mono fun _ => List.mem_cons_of_mem _).insert List.mem_cons_self
    · rw [hreq.requests]
      intro r hr
      rcases List.mem_cons.mp hr with rfl | hr
      · rw [hreq.chains, Function.update_self]
        have hne : r.sequenceNumber ≠ 0 := hreq.made.sequenceNumber ▸ hreq.made.registered
        refine ⟨Nat.pos_of_ne_zero fun h0 => hne (BitVec.eq_of_toNat_eq h0), ?_⟩
        exact Nat.lt_of_lt_of_eq (Nat.lt_succ_self _) hreq.succ.symm
      · exact assigned_of_le h.assigned he.change hr
    · rw [hreq.requests, List.map_cons, List.nodup_cons]
      exact ⟨hreq.made.fresh h, h.distinct⟩
    · rw [hreq.requests, hreq.reveals]
      exact fun rv hrv => List.mem_cons_of_mem _ (h.revealed rv hrv)
  · refine ⟨?_, ?_, ?_, ?_⟩
    · rw [hrv.table, hrv.requests]
      exact h.inFlight.clear _
    · rw [hrv.requests]
      exact fun req => assigned_of_le h.assigned he.change
    · rw [hrv.requests]
      exact h.distinct
    · rw [hrv.requests, hrv.reveals]
      intro r hr
      rcases List.mem_cons.mp hr with rfl | hr
      · exact h.inFlight.lookup (inFlight_iff.mp hrv.inFlight)
      · exact h.revealed r hr

theorem reachable_history {c : Config World Pending} (h : (component keccak256).Reachable c) :
    History keccak256 c.state :=
  h.invariant (fun _ => initial_history) fun _ _ _ hw hm => hw.step (move_effect hm)

theorem flatReachable_history {w : World} (h : (component keccak256).FlatReachable w) :
    History keccak256 w :=
  h.invariant (fun _ => initial_history) fun _ _ _ hw hm => hw.step (move_effect hm)

/-! ## The table as a map -/

/-- The long keys of different requests differ. -/
theorem requestScheme_long_injective
    (hkeys : Function.Injective fun k : Address × Uint64 =>
      keccak256 (requestKeyPreimage k.1 k.2)) :
    Function.Injective (requestScheme keccak256).long := hkeys

theorem Refines.step {w w' : World}
    (hkeys : Function.Injective fun k : Address × Uint64 =>
      keccak256 (requestKeyPreimage k.1 k.2))
    (hhist : History keccak256 w) (h : Refines keccak256 w) (he : Effect keccak256 w w') :
    Refines keccak256 w' := by
  have hlong := requestScheme_long_injective hkeys
  unfold Refines at h ⊢
  rcases he.change.requests_cases with ⟨htable, hrequests, hreveals⟩ |
    ⟨req, env, userCommitment, next, hreq⟩ | ⟨rv, hrv⟩
  · rw [htable, hrequests, hreveals]
    exact h
  · rw [hreq.table, hreq.requests, hreq.reveals]
    exact h.insert hlong hreq.made.live (hreq.made.fresh hhist)
  · rw [hrv.table, hrv.requests, hrv.reveals]
    exact h.clear hlong (inFlight_iff.mp hrv.inFlight)

theorem flatReachable_refines
    (hkeys : Function.Injective fun k : Address × Uint64 =>
      keccak256 (requestKeyPreimage k.1 k.2))
    {w : World} (h : (component keccak256).FlatReachable w) : Refines keccak256 w :=
  h.invariant (fun _ => initial_refines) fun _ _ hw hrefines hm =>
    hrefines.step hkeys (flatReachable_history hw) (move_effect hm)

/-- The request table refines a map from providers and sequence numbers to
requests. In every reachable configuration, in the middle of a callback
included: `findActiveRequest` finds the request of a provider and a sequence
number if and only if it was made and not revealed, and it is the record that
was written when it was made; no two requests have the same key, and none is
revealed twice. -/
theorem request_table_refines_map
    (hkeys : Function.Injective fun k : Address × Uint64 =>
      keccak256 (requestKeyPreimage k.1 k.2))
    {c : Config World Pending} (hc : (component keccak256).Reachable c) :
    (∀ provider sequenceNumber req,
      InFlight keccak256 c.state.state provider sequenceNumber req ↔
        req ∈ c.state.requests ∧ req.key = (provider, sequenceNumber) ∧
        (provider, sequenceNumber) ∉ c.state.reveals.map Reveal.key) ∧
    (c.state.requests.map Request.key).Nodup ∧
    (c.state.reveals.map Reveal.key).Nodup := by
  have hrefines := flatReachable_refines hkeys hc.flat
  refine ⟨fun provider sequenceNumber req => ?_, (reachable_history hc).distinct,
    hrefines.distinct⟩
  rw [inFlight_iff]
  exact hrefines.lookup _ _

end

/-! ## A run -/

theorem exKeccak_requestKey_injective :
    Function.Injective fun k : Address × Uint64 => exKeccak (requestKeyPreimage k.1 k.2) := by
  rintro ⟨p, n⟩ ⟨q, m⟩ h
  have hlen : ∀ (p : Address) (n : Uint64), (requestKeyPreimage p n).length = 28 := by
    simp [requestKeyPreimage]
  have hstring := exKeccak_inj (Nat.le_refl 28) (hlen p n) (hlen q m) h
  obtain ⟨hp, hn⟩ := List.append_inj hstring (by simp)
  rw [packed_inj (by decide) hp, packed_inj (by decide) hn]

/-- The contract right after its deployment. -/
def exInitial : World :=
  { state := (initializeEntropy 1 2 0 7 true {}).toOption.getD {} }

theorem exInitial_initial : Initial exInitial := ⟨1, 2, 0, 7, true, _, 0, rfl, rfl⟩

/-- A call without value in block 100, to a contract that only knows accounts
without code. -/
def exMessage (sender : Address) (call : Call) : Message where
  env :=
    { sender
      value := 0
      block := { number := 100, timestamp := 0, blockhash := fun _ => 0 }
      extcodesize := fun _ => 0 }
  owner := 1
  call := call

/-- The provider's hash chain: ten values, the last of which is 5. -/
def exChain (i : Nat) : Bytes32 := (hashWord exKeccak)^[9 - i] 5

/-- Provider 7 registers the chain, and user 9 makes two requests. -/
def exRequests : List Message :=
  [exMessage 7 (.register 0 (exChain 0) [] 10 []),
    exMessage 9 (.request 7 (constructUserCommitment exKeccak 33) false),
    exMessage 9 (.request 7 (constructUserCommitment exKeccak 44) false)]

/-- The world in which both requests are in flight. -/
def exInFlight : World := exRequests.foldl (component exKeccak).perform exInitial

/-- The first request that `exRequests` makes. -/
def exRequest : Request where
  provider := 7
  sequenceNumber := 1
  numHashes := 1
  commitment :=
    exKeccak (commitmentPreimage (constructUserCommitment exKeccak 33) (exChain 0))
  blockNumber := 100
  requester := 9

theorem exInFlight_reachable : (component exKeccak).Reachable ⟨exInFlight, []⟩ :=
  ⟨exInitial, exInitial_initial, Component.steps_perform _ _ _ _⟩

theorem request_table_refines_map_run :
    InFlight exKeccak exInFlight.state 7 1 exRequest :=
  ((request_table_refines_map exKeccak_requestKey_injective exInFlight_reachable).1 7 1
    exRequest).mpr ⟨by decide +kernel, by decide +kernel, by decide +kernel⟩

end PythCrosschain.Entropy
