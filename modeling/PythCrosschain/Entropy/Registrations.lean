import PythCrosschain.Entropy.ChainPosition

/-!
# Entropy: the registrations of a run

`Registered` does not say who registered, so the registering calls are recorded beside
the contract (`recordedComponent`), with the entries that their events report.
`registrationsOf` lists those of one provider, the latest one first.

`Recorded` relates them to the contract: the latest one started the current chain, they
start at increasing sequence numbers, and every request was made under the registration
that was the latest one then, with all later ones starting above it.
-/

namespace PythCrosschain.Entropy

/-! ## Recording the registrations -/

/-- A call of `register`, as far as it concerns the hash chain. -/
structure Registration where
  provider : Address
  commitment : Bytes32
  chainLength : Uint64
deriving DecidableEq, Repr

/-- The registrations so far, newest first, after one more call. -/
def recordRegistration (m : Message) (calls : List Registration) : List Registration :=
  match m.call with
  | .register _ commitment _ chainLength _ => ⟨m.env.sender, commitment, chainLength⟩ :: calls
  | _ => calls

/-- The world with the registrations made so far, newest first. -/
abbrev RecordedWorld := World × List Registration

/-- The contract, with its registrations recorded. -/
def recordedComponent (keccak256 : Bytes → Bytes32) : Component RecordedWorld Message Pending :=
  (component keccak256).annotated [] recordRegistration

/-- The registrations of a provider and the entries that they wrote, newest first. -/
def registrationsOf (x : RecordedWorld) (provider : Address) :
    List (Registration × ProviderInfo) :=
  (x.2.zip x.1.registrations).filter (·.1.provider = provider)

/-- The sequence number at which the chain of a registration starts. -/
def offset (r : Registration × ProviderInfo) : Nat :=
  r.2.originalCommitmentSequenceNumber.toNat

/-- What a registration does to the chains: it starts one at the next sequence number. -/
structure Starts (w w' : World) (r : Registration) (info : ProviderInfo) : Prop where
  commitment : info.originalCommitment = r.commitment
  offset : info.originalCommitmentSequenceNumber = (w.state.chains r.provider).sequenceNumber
  last : info.endSequenceNumber.toNat =
    info.originalCommitmentSequenceNumber.toNat + r.chainLength.toNat
  next : info.sequenceNumber.toNat = (w.state.chains r.provider).sequenceNumber.toNat + 1
  chains : w'.state.chains = Function.update w.state.chains r.provider info.chain
  requests : w'.requests = w.requests

section

variable (keccak256 : Bytes → Bytes32)

/-- `req` was made in the world of `x₀` with this user commitment, and all
registrations of its provider since then start above its sequence number. -/
structure MadeUnder (x x₀ : RecordedWorld) (userCommitment : Bytes32) (req : Request) : Prop where
  reachable : (recordedComponent keccak256).FlatReachable x₀
  made : ∃ env, MadeIn keccak256 x₀.1 env userCommitment req
  hashed : x₀.1.hashed ⊆ x.1.hashed
  newer : ∃ newer, registrationsOf x req.provider = newer ++ registrationsOf x₀ req.provider ∧
    ∀ r ∈ newer, req.sequenceNumber.toNat < offset r

/-- How the registrations relate to the chains and to the requests. -/
structure Recorded (x : RecordedWorld) : Prop where
  latest : ∀ provider, (x.1.state.chains provider).sequenceNumber ≠ 0 →
    ∃ r older, registrationsOf x provider = r :: older ∧
      (x.1.state.chains provider).originalCommitment = r.1.commitment ∧
      (x.1.state.chains provider).originalCommitmentSequenceNumber.toNat = offset r ∧
      (x.1.state.chains provider).endSequenceNumber.toNat = offset r + r.1.chainLength.toNat
  below : ∀ provider, ∀ r ∈ registrationsOf x provider,
    offset r < (x.1.state.chains provider).sequenceNumber.toNat
  increasing : ∀ provider,
    (registrationsOf x provider).Pairwise fun newer older => offset older < offset newer
  made : ∀ req ∈ x.1.requests, ∃ x₀ userCommitment, MadeUnder keccak256 x x₀ userCommitment req

end

section

variable {keccak256 : Bytes → Bytes32}

/-! ## What one move records -/

/-- A call is recorded if and only if it emits `Registered`, and it then starts a chain. -/
theorem execute_registrations {m : Message} {w : World} {o : Outcome World Pending}
    {calls : List Registration} (h : execute keccak256 m w = .ok o) :
    (recordRegistration m calls = calls ∧ o.state.registrations = w.registrations) ∨
    ∃ r info, recordRegistration m calls = r :: calls ∧
      o.state.registrations = info :: w.registrations ∧ Starts w o.state r info := by
  obtain ⟨env, owner, call⟩ := m
  simp only [execute, bind_eq_ok, require_eq_ok, exists_const] at h
  obtain ⟨-, h⟩ := h
  cases call with
  | register feeInWei commitment commitmentMetadata chainLength uri =>
    simp only [register, bind_eq_ok, require_eq_ok, checkedAdd_eq_ok, exists_const,
      pure_eq_ok] at h
    obtain ⟨w', ⟨-, last, hlast, next, hnext, rfl⟩, rfl⟩ := h
    exact .inr ⟨_, _, rfl, rfl, rfl, rfl, hlast, hnext, chains_setProvider _ _ _, rfl⟩
  | withdraw amount =>
    simp only [withdraw, startWithdrawal, bind_eq_ok, pure_eq_ok] at h
    obtain ⟨_, -, _, -, _, -, rfl⟩ := h
    exact .inl ⟨rfl, rfl⟩
  | withdrawAsFeeManager provider amount =>
    simp only [withdrawAsFeeManager, startWithdrawal, bind_eq_ok, pure_eq_ok] at h
    obtain ⟨_, -, _, -, _, -, _, -, rfl⟩ := h
    exact .inl ⟨rfl, rfl⟩
  | request provider userCommitment useBlockHash =>
    simp only [request, bind_eq_ok, pure_eq_ok, Prod.exists, Prod.mk.injEq] at h
    obtain ⟨_, _, ⟨_, _, -, -, rfl⟩, rfl⟩ := h
    exact .inl ⟨rfl, rfl⟩
  | requestWithCallback provider userRandomNumber =>
    simp only [requestWithCallback, bind_eq_ok, pure_eq_ok, Prod.exists, Prod.mk.injEq] at h
    obtain ⟨_, _, ⟨_, _, -, -, rfl⟩, rfl⟩ := h
    exact .inl ⟨rfl, rfl⟩
  | advanceProviderCommitment provider advancedSequenceNumber providerRevelation =>
    simp only [advanceProviderCommitment, bind_eq_ok, pure_eq_ok] at h
    obtain ⟨_, ⟨_, -, _, -, _, -, _, -, _, -, _, -, rfl⟩, rfl⟩ := h
    exact .inl ⟨rfl, rfl⟩
  | reveal provider sequenceNumber userRevelation providerRevelation =>
    simp only [reveal, bind_eq_ok, pure_eq_ok, Prod.exists, Prod.mk.injEq] at h
    obtain ⟨_, _, ⟨_, -, _, -, _, -, _, _, -, -, rfl⟩, rfl⟩ := h
    exact .inl ⟨rfl, rfl⟩
  | revealWithCallback provider sequenceNumber userRandomNumber providerRevelation =>
    simp only [revealWithCallback, bind_eq_ok, Prod.exists] at h
    obtain ⟨_, -, _, -, _, _, -, h⟩ := h
    split at h
    · cases pure_eq_ok.mp h
      exact .inl ⟨rfl, rfl⟩
    · cases pure_eq_ok.mp h
      exact .inl ⟨rfl, rfl⟩
  | setProviderFee | setProviderUri | setFeeManager | setMaxNumHashes =>
    simp only [setProviderFee, setProviderUri, setFeeManager, setMaxNumHashes, updateOwnProvider,
      bind_eq_ok, pure_eq_ok] at h
    obtain ⟨_, ⟨_, -, rfl⟩, rfl⟩ := h
    exact .inl ⟨rfl, rfl⟩
  | setProviderFeeAsFeeManager | setPythFee =>
    simp only [setProviderFeeAsFeeManager, setPythFee, bind_eq_ok, pure_eq_ok] at h
    obtain ⟨_, ⟨_, -, rfl⟩, rfl⟩ := h
    exact .inl ⟨rfl, rfl⟩
  | proposeAdmin | setDefaultProvider =>
    simp only [proposeAdmin, setDefaultProvider, bind_eq_ok, pure_eq_ok] at h
    obtain ⟨_, ⟨_, -, _, -, rfl⟩, rfl⟩ := h
    exact .inl ⟨rfl, rfl⟩
  | acceptAdmin =>
    simp only [acceptAdmin, bind_eq_ok, pure_eq_ok] at h
    obtain ⟨_, ⟨_, -, rfl⟩, rfl⟩ := h
    exact .inl ⟨rfl, rfl⟩

theorem resume_registrations {k : Pending} {ok : Bool} {w : World} {o : Outcome World Pending}
    (h : resume k ok w = some o) : o.state.registrations = w.registrations := by
  cases ok with
  | false => cases k <;> cases h
  | true =>
    cases k with
    | withdrawal => cases h; rfl
    | entropyCallback => cases h; rfl

/-- The move adds one registration, of `r.provider`. -/
structure Registers (x y : RecordedWorld) (r : Registration) (info : ProviderInfo) : Prop where
  own : registrationsOf y r.provider = (r, info) :: registrationsOf x r.provider
  others : ∀ p, p ≠ r.provider → registrationsOf y p = registrationsOf x p
  starts : Starts x.1 y.1 r info

theorem registrationsOf_cons {x y : RecordedWorld} {r : Registration} {info : ProviderInfo}
    (hcalls : y.2 = r :: x.2) (hregistrations : y.1.registrations = info :: x.1.registrations)
    (p : Address) :
    registrationsOf y p =
      if r.provider = p then (r, info) :: registrationsOf x p else registrationsOf x p := by
  rw [registrationsOf, hcalls, hregistrations, List.zip_cons_cons, List.filter_cons]
  simp only [decide_eq_true_eq]
  rfl

/-- A move is one of the contract, and records the registration that it makes. -/
theorem recorded_move {x y : RecordedWorld} (h : (recordedComponent keccak256).Move x y) :
    Effect keccak256 x.1 y.1 ∧
    ((y.1.registrations = x.1.registrations ∧
        ∀ p, registrationsOf y p = registrationsOf x p) ∨
      ∃ r info, Registers x y r info) := by
  rcases Component.annotated_move h with ⟨m, o, ho, rfl⟩ | ⟨k, ok, o, ho, rfl⟩
  · refine ⟨execute_effect (toOption_eq_some.mp ho), ?_⟩
    rcases @execute_registrations _ _ _ _ x.2 (toOption_eq_some.mp ho) with
      ⟨hcalls, hregistrations⟩ | ⟨r, info, hcalls, hregistrations, hstarts⟩
    · refine .inl ⟨hregistrations, fun p => ?_⟩
      simp only [registrationsOf, hcalls, hregistrations]
    · have hcons := @registrationsOf_cons x (o.state, recordRegistration m x.2) r info hcalls
        hregistrations
      refine .inr ⟨r, info, ?_, fun p hp => ?_, hstarts⟩
      · rw [hcons, if_pos rfl]
      · rw [hcons, if_neg hp.symm]
  · refine ⟨resume_effect ho, .inl ⟨resume_registrations ho, fun p => ?_⟩⟩
    simp only [registrationsOf, resume_registrations ho]

/-! ## What one move keeps -/

/-- `c'` is a later position of the same registration as `c`. -/
structure ChainPosition.SameRegistration (c c' : ChainPosition) : Prop where
  commitment : c'.originalCommitment = c.originalCommitment
  offset : c'.originalCommitmentSequenceNumber = c.originalCommitmentSequenceNumber
  last : c'.endSequenceNumber = c.endSequenceNumber
  registered : c'.sequenceNumber ≠ 0 → c.sequenceNumber ≠ 0

theorem ChainPosition.SameRegistration.refl (c : ChainPosition) : c.SameRegistration c :=
  ⟨rfl, rfl, rfl, id⟩

/-- A move that registers nobody stays within all registrations. -/
theorem Change.sameRegistration {w w' : World} (h : Change keccak256 w w')
    (hregistrations : w'.registrations = w.registrations) (hcount : Counters w) (p : Address) :
    (w.state.chains p).SameRegistration (w'.state.chains p) := by
  have hupdate : ∀ (q : Address) (c : ChainPosition),
      w'.state.chains = Function.update w.state.chains q c →
      (w.state.chains q).SameRegistration c →
      (w.state.chains p).SameRegistration (w'.state.chains p) := by
    intro q c hc hsame
    rw [hc]
    exact (Function.forall_update_iff _ fun p (c : ChainPosition) =>
      (w.state.chains p).SameRegistration c).mpr ⟨hsame, fun _ _ => .refl _⟩ p
  cases h with
  | quiet hchains =>
    rw [hchains]
    exact .refl _
  | register _ _ _ _ _ _ _ _ _ _ _ _ _ hnew =>
    obtain ⟨info, -, hnew⟩ := hnew
    exact absurd (hnew.symm.trans hregistrations) (List.cons_ne_self _ _)
  | request req env userCommitment next hmade _ _ hchains =>
    exact hupdate req.provider _ hchains ⟨rfl, rfl, rfl, fun _ => hmade.registered⟩
  | reveal rv hrv =>
    refine hupdate rv.request.provider _ hrv.chains ?_
    unfold ChainPosition.afterReveal
    split
    · exact ⟨rfl, rfl, rfl, id⟩
    · exact .refl _
  | advance q target next _ _ hend _ _ _ _ hchains =>
    refine hupdate q _ hchains ⟨rfl, rfl, rfl, fun _ hzero => ?_⟩
    have hend : target.toNat < (w.state.chains q).endSequenceNumber.toNat := hend
    rcases hcount q with hun | hord
    · have := hun.2
      omega
    · have hlt := hord.current_lt
      rw [hzero] at hlt
      exact Nat.not_lt_zero _ hlt

theorem MadeUnder.of_same {x y x₀ : RecordedWorld} {userCommitment : Bytes32} {req : Request}
    (h : MadeUnder keccak256 x x₀ userCommitment req) (hhashed : x.1.hashed ⊆ y.1.hashed)
    (hsame : registrationsOf y req.provider = registrationsOf x req.provider) :
    MadeUnder keccak256 y x₀ userCommitment req :=
  ⟨h.reachable, h.made, List.Subset.trans h.hashed hhashed, hsame ▸ h.newer⟩

/-- A registration is above the numbers of all earlier requests. -/
theorem MadeUnder.of_registers {x y x₀ : RecordedWorld} {userCommitment : Bytes32}
    {req : Request} {r : Registration} {info : ProviderInfo}
    (h : MadeUnder keccak256 x x₀ userCommitment req) (hhashed : x.1.hashed ⊆ y.1.hashed)
    (hregisters : Registers x y r info)
    (hassigned : req.sequenceNumber.toNat <
      (x.1.state.chains req.provider).sequenceNumber.toNat) :
    MadeUnder keccak256 y x₀ userCommitment req := by
  rcases eq_or_ne req.provider r.provider with hp | hp
  · obtain ⟨newer, hnewer, habove⟩ := h.newer
    refine ⟨h.reachable, h.made, List.Subset.trans h.hashed hhashed, (r, info) :: newer, ?_, ?_⟩
    · rw [hp, hregisters.own, ← hp, hnewer, List.cons_append]
    · intro r' hr'
      rcases List.mem_cons.mp hr' with rfl | hr'
      · rw [hp, ← hregisters.starts.offset] at hassigned
        exact hassigned
      · exact habove r' hr'
  · exact h.of_same hhashed (hregisters.others _ hp)

theorem Recorded.registers {x y : RecordedWorld} (h : Recorded keccak256 x)
    (hhist : History keccak256 x.1) (hhashed : x.1.hashed ⊆ y.1.hashed) {r : Registration}
    {info : ProviderInfo} (hregisters : Registers x y r info) : Recorded keccak256 y := by
  have hstarts := hregisters.starts
  have hoffset : offset (r, info) = (x.1.state.chains r.provider).sequenceNumber.toNat :=
    congrArg BitVec.toNat hstarts.offset
  refine ⟨fun p hp => ?_, fun p r' hr' => ?_, fun p => ?_, fun req hreq => ?_⟩
  · rw [hstarts.chains] at hp ⊢
    rcases eq_or_ne p r.provider with rfl | hne
    · rw [Function.update_self]
      exact ⟨_, _, hregisters.own, hstarts.commitment, rfl, hstarts.last⟩
    · rw [Function.update_of_ne hne] at hp ⊢
      rw [hregisters.others p hne]
      exact h.latest p hp
  · rw [hstarts.chains]
    rcases eq_or_ne p r.provider with rfl | hne
    · rw [hregisters.own] at hr'
      rw [Function.update_self]
      have hnext : info.chain.sequenceNumber.toNat =
          (x.1.state.chains r.provider).sequenceNumber.toNat + 1 := hstarts.next
      rcases List.mem_cons.mp hr' with rfl | hr'
      · omega
      · have := h.below r.provider r' hr'
        omega
    · rw [Function.update_of_ne hne]
      rw [hregisters.others p hne] at hr'
      exact h.below p r' hr'
  · rcases eq_or_ne p r.provider with rfl | hne
    · rw [hregisters.own, List.pairwise_cons]
      refine ⟨fun r' hr' => ?_, h.increasing r.provider⟩
      rw [hoffset]
      exact h.below r.provider r' hr'
    · rw [hregisters.others p hne]
      exact h.increasing p
  · rw [hstarts.requests] at hreq
    obtain ⟨x₀, uc, hmade⟩ := h.made req hreq
    exact ⟨x₀, uc, hmade.of_registers hhashed hregisters (hhist.assigned req hreq).2⟩

theorem Recorded.same {x y : RecordedWorld} (h : Recorded keccak256 x)
    (hx : (recordedComponent keccak256).FlatReachable x) (hcount : Counters x.1)
    (he : Effect keccak256 x.1 y.1) (hregistrations : y.1.registrations = x.1.registrations)
    (hsame : ∀ p, registrationsOf y p = registrationsOf x p) : Recorded keccak256 y := by
  have hold : ∀ req ∈ x.1.requests, ∃ x₀ userCommitment,
      MadeUnder keccak256 y x₀ userCommitment req := by
    intro req hreq
    obtain ⟨x₀, uc, hmade⟩ := h.made req hreq
    exact ⟨x₀, uc, hmade.of_same he.hashed (hsame _)⟩
  refine ⟨fun p hp => ?_, fun p r hr => ?_, fun p => ?_, ?_⟩
  · have hwithin := he.change.sameRegistration hregistrations hcount p
    rw [hsame, hwithin.commitment, hwithin.offset, hwithin.last]
    exact h.latest p (hwithin.registered hp)
  · rw [hsame] at hr
    exact Nat.lt_of_lt_of_le (h.below p r hr) (he.change.sequenceNumber_le p)
  · rw [hsame]
    exact h.increasing p
  · intro req hreq
    rcases he.change.requests_cases with ⟨-, hrequests, -⟩ | ⟨new, env, uc, next, hnew⟩ |
      ⟨rv, hrv⟩
    · exact hold req (hrequests ▸ hreq)
    · rw [hnew.requests] at hreq
      rcases List.mem_cons.mp hreq with rfl | hreq
      · exact ⟨x, uc, hx, ⟨env, hnew.made⟩, he.hashed, [], hsame _, by simp⟩
      · exact hold req hreq
    · exact hold req (hrv.requests ▸ hreq)

theorem flatReachable_recorded {x : RecordedWorld}
    (h : (recordedComponent keccak256).FlatReachable x) : Recorded keccak256 x := by
  refine h.invariant (fun x hx => ?_) fun x y hx hrec hm => ?_
  · obtain ⟨hinit, hcalls⟩ := hx
    have hnone : ∀ p, registrationsOf x p = [] := fun p => by simp [registrationsOf, hcalls]
    refine ⟨fun p hp => ?_, fun p r hr => ?_, fun p => ?_, fun req hreq => ?_⟩
    · rw [initial_chains hinit p] at hp
      exact absurd rfl hp
    · rw [hnone] at hr
      cases hr
    · rw [hnone]
      exact .nil
    · simp [World.requests, (initial_table hinit).2.2] at hreq
  · have hflat := hx.of_annotated
    obtain ⟨he, ⟨hregistrations, hsame⟩ | ⟨r, info, hregisters⟩⟩ := recorded_move hm
    · exact hrec.same hx (flatReachable_counters hflat) he hregistrations hsame
    · exact hrec.registers (flatReachable_history hflat) he.hashed hregisters

end

end PythCrosschain.Entropy
