import PythCrosschain.Entropy.Run

/-!
# Entropy: what one move changes

Most of what the functions write does not matter to the requests and the hash
chains. `Change` says once what a move may do to these: nothing, a registration,
a request, a reveal, or an advance of a commitment. `move_effect` shows that
every call and every continuation is one of the five; the invariants of a run
are proved over them.
-/

namespace PythCrosschain.Entropy

/-- A provider's hash chain and counters. -/
structure ChainPosition where
  originalCommitment : Bytes32
  originalCommitmentSequenceNumber : Uint64
  currentCommitment : Bytes32
  currentCommitmentSequenceNumber : Uint64
  sequenceNumber : Uint64
  endSequenceNumber : Uint64

def ProviderInfo.chain (info : ProviderInfo) : ChainPosition where
  originalCommitment := info.originalCommitment
  originalCommitmentSequenceNumber := info.originalCommitmentSequenceNumber
  currentCommitment := info.currentCommitment
  currentCommitmentSequenceNumber := info.currentCommitmentSequenceNumber
  sequenceNumber := info.sequenceNumber
  endSequenceNumber := info.endSequenceNumber

/-- The hash chains of all providers. -/
def State.chains (s : State) (provider : Address) : ChainPosition := (s.providers provider).chain

theorem chains_setProvider (s : State) (provider : Address) (info : ProviderInfo) :
    (s.setProvider provider info).chains = Function.update s.chains provider info.chain := by
  funext p
  rcases eq_or_ne p provider with rfl | hp
  · simp [State.chains]
  · simp [State.chains, hp]

/-- Writing a provider entry without touching its chain. -/
theorem chains_setProvider_same {s : State} {provider : Address} {info : ProviderInfo}
    (h : info.chain = (s.providers provider).chain) :
    (s.setProvider provider info).chains = s.chains := by
  rw [chains_setProvider, h]
  exact Function.update_eq_self provider s.chains

section

variable (keccak256 : Bytes → Bytes32)

/-- `req` was made in the world `w` by a call in `env` with this user
commitment: it has the provider's next sequence number, and commits to the
user's commitment and to the provider's commitment of that moment. -/
structure MadeIn (w : World) (env : Env) (userCommitment : Bytes32) (req : Request) : Prop where
  requester : req.requester = env.sender
  blockNumber : req.blockNumber.toNat = env.block.number.toNat
  registered : (w.state.chains req.provider).sequenceNumber ≠ 0
  inChain : (w.state.chains req.provider).sequenceNumber <
    (w.state.chains req.provider).endSequenceNumber
  sequenceNumber : req.sequenceNumber = (w.state.chains req.provider).sequenceNumber
  numHashes : req.sequenceNumber.toNat =
    (w.state.chains req.provider).currentCommitmentSequenceNumber.toNat + req.numHashes.toNat
  commitment : req.commitment = keccak256
    (commitmentPreimage userCommitment (w.state.chains req.provider).currentCommitment)

/-- What the reveal `rv` proves: its two numbers open the request's commitment,
and they give the random number. -/
structure Opens (rv : Reveal) : Prop where
  commitment : rv.request.commitment = keccak256
    (commitmentPreimage (hashWord keccak256 rv.userRevelation)
      ((hashWord keccak256)^[rv.request.numHashes.toNat] rv.providerRevelation))
  randomNumber : rv.request.useBlockhash = false →
    rv.randomNumber =
      combineRandomValues keccak256 rv.userRevelation rv.providerRevelation 0

/-- The strings that the two sides of a reveal's commitment were hashed from. -/
def openingPreimages (rv : Reveal) : List Bytes :=
  wordBytes rv.userRevelation ::
    commitmentPreimage (hashWord keccak256 rv.userRevelation)
      ((hashWord keccak256)^[rv.request.numHashes.toNat] rv.providerRevelation) ::
    chainPreimages keccak256 rv.request.numHashes.toNat rv.providerRevelation

/-- The chain position after a reveal of `req`. -/
def ChainPosition.afterReveal (c : ChainPosition) (req : Request) (providerRevelation : Bytes32) :
    ChainPosition :=
  if c.currentCommitmentSequenceNumber < req.sequenceNumber then
    { c with
      currentCommitmentSequenceNumber := req.sequenceNumber
      currentCommitment := providerRevelation }
  else c

/-- What the reveal `rv` of a request in flight changes. -/
structure RevealChange (w w' : World) (rv : Reveal) : Prop where
  inFlight : InFlight keccak256 w.state rv.request.provider rv.request.sequenceNumber rv.request
  opens : Opens keccak256 rv
  hashed : openingPreimages keccak256 rv ⊆ w'.hashed
  chains : w'.state.chains = Function.update w.state.chains rv.request.provider
    ((w.state.chains rv.request.provider).afterReveal rv.request rv.providerRevelation)
  table : w'.state.table = w.state.table.clear (requestScheme keccak256)
    (rv.request.provider, rv.request.sequenceNumber)
  requests : w'.requests = w.requests
  reveals : w'.reveals = rv :: w.reveals

/-- What one move changes of the chains, the request table and the history: the requests,
the reveals and the registrations. -/
inductive Change (w w' : World) : Prop
  | quiet :
      w'.state.chains = w.state.chains → w'.state.table = w.state.table →
      w'.requests = w.requests → w'.reveals = w.reveals →
      w'.registrations = w.registrations → Change w w'
  | register (provider : Address) (c : ChainPosition) (chainLength : Uint64) :
      chainLength ≠ 0 →
      c.originalCommitment = c.currentCommitment →
      c.originalCommitmentSequenceNumber = (w.state.chains provider).sequenceNumber →
      c.currentCommitmentSequenceNumber = (w.state.chains provider).sequenceNumber →
      c.sequenceNumber.toNat = (w.state.chains provider).sequenceNumber.toNat + 1 →
      c.endSequenceNumber.toNat =
        (w.state.chains provider).sequenceNumber.toNat + chainLength.toNat →
      w'.state.chains = Function.update w.state.chains provider c →
      w'.state.table = w.state.table →
      w'.requests = w.requests → w'.reveals = w.reveals →
      (∃ info : ProviderInfo, info.chain = c ∧ w'.registrations = info :: w.registrations) →
      Change w w'
  | request (req : Request) (env : Env) (userCommitment : Bytes32) (next : Uint64) :
      MadeIn keccak256 w env userCommitment req →
      next.toNat = req.sequenceNumber.toNat + 1 →
      commitmentPreimage userCommitment (w.state.chains req.provider).currentCommitment ∈
        w'.hashed →
      w'.state.chains = Function.update w.state.chains req.provider
        { w.state.chains req.provider with sequenceNumber := next } →
      w'.state.table = w.state.table.insert (requestScheme keccak256) req →
      w'.requests = req :: w.requests → w'.reveals = w.reveals →
      w'.registrations = w.registrations → Change w w'
  | reveal (rv : Reveal) :
      RevealChange keccak256 w w' rv → w'.registrations = w.registrations → Change w w'
  | advance (provider : Address) (target next : Uint64) (providerRevelation : Bytes32) :
      (w.state.chains provider).currentCommitmentSequenceNumber < target →
      target < (w.state.chains provider).endSequenceNumber →
      (hashWord keccak256)^[target.toNat -
        (w.state.chains provider).currentCommitmentSequenceNumber.toNat] providerRevelation =
        (w.state.chains provider).currentCommitment →
      (w.state.chains provider).sequenceNumber.toNat ≤ next.toNat →
      target.toNat < next.toNat →
      next.toNat ≤ max (w.state.chains provider).sequenceNumber.toNat (target.toNat + 1) →
      w'.state.chains = Function.update w.state.chains provider
        { w.state.chains provider with
          currentCommitmentSequenceNumber := target
          currentCommitment := providerRevelation
          sequenceNumber := next } →
      w'.state.table = w.state.table →
      w'.requests = w.requests → w'.reveals = w.reveals →
      w'.registrations = w.registrations →
      chainPreimages keccak256 (target.toNat -
        (w.state.chains provider).currentCommitmentSequenceNumber.toNat) providerRevelation ⊆
        w'.hashed → Change w w'

/-- What the request `req` of a call in `env` changes. -/
structure RequestChange (w w' : World) (req : Request) (env : Env) (userCommitment : Bytes32)
    (next : Uint64) : Prop where
  made : MadeIn keccak256 w env userCommitment req
  succ : next.toNat = req.sequenceNumber.toNat + 1
  hashed : commitmentPreimage userCommitment (w.state.chains req.provider).currentCommitment ∈
    w'.hashed
  chains : w'.state.chains = Function.update w.state.chains req.provider
    { w.state.chains req.provider with sequenceNumber := next }
  table : w'.state.table = w.state.table.insert (requestScheme keccak256) req
  requests : w'.requests = req :: w.requests
  reveals : w'.reveals = w.reveals

/-- A move only adds to the history, and changes the rest as `Change` says. -/
structure Effect (w w' : World) : Prop where
  logs : w.logs <:+ w'.logs
  hashed : w.hashed ⊆ w'.hashed
  change : Change keccak256 w w'

end

/-- A move makes a request, reveals one, or leaves the requests alone. -/
theorem Change.requests_cases {keccak256 : Bytes → Bytes32} {w w' : World}
    (h : Change keccak256 w w') :
    (w'.state.table = w.state.table ∧ w'.requests = w.requests ∧ w'.reveals = w.reveals) ∨
    (∃ req env userCommitment next,
      RequestChange keccak256 w w' req env userCommitment next) ∨
    ∃ rv, RevealChange keccak256 w w' rv := by
  cases h with
  | quiet _ htable hrequests hreveals => exact .inl ⟨htable, hrequests, hreveals⟩
  | register _ _ _ _ _ _ _ _ _ _ htable hrequests hreveals =>
    exact .inl ⟨htable, hrequests, hreveals⟩
  | advance _ _ _ _ _ _ _ _ _ _ _ htable hrequests hreveals =>
    exact .inl ⟨htable, hrequests, hreveals⟩
  | request req env userCommitment next hmade hnext hhashed hchains htable hrequests hreveals =>
    exact .inr (.inl ⟨req, env, userCommitment, next, hmade, hnext, hhashed, hchains, htable,
      hrequests, hreveals⟩)
  | reveal rv hrv => exact .inr (.inr ⟨rv, hrv⟩)

/-! ## The functions -/

section Functions

variable {keccak256 : Bytes → Bytes32}

theorem assignSequenceNumber_spec {provider : Address} {n : Uint64} {s s' : State}
    (h : assignSequenceNumber provider s = .ok (n, s')) :
    ∃ next : Uint64,
      (s.chains provider).sequenceNumber ≠ 0 ∧
      (s.chains provider).sequenceNumber < (s.chains provider).endSequenceNumber ∧
      n = (s.chains provider).sequenceNumber ∧
      next.toNat = n.toNat + 1 ∧
      s'.chains = Function.update s.chains provider
        { s.chains provider with sequenceNumber := next } ∧
      s'.table = s.table := by
  simp only [assignSequenceNumber, bind_eq_ok, require_eq_ok, checkedAdd_eq_ok, pure_eq_ok,
    exists_const, Prod.mk.injEq] at h
  obtain ⟨hreg, hend, next, hnext, rfl, rfl⟩ := h
  exact ⟨next, hreg, hend, rfl, hnext, chains_setProvider _ _ _, rfl⟩

theorem collectFee_spec {env : Env} {provider : Address} {s s' : State}
    (h : collectFee env provider s = .ok s') : s'.chains = s.chains ∧ s'.table = s.table := by
  simp only [collectFee, bind_eq_ok, require_eq_ok, checkedAdd_eq_ok, pure_eq_ok,
    exists_const] at h
  obtain ⟨_, _, _, _, _, _, _, _, _, _, _, rfl⟩ := h
  exact ⟨chains_setProvider_same (s := s) rfl, rfl⟩

theorem writeRequest_spec {env : Env} {provider : Address}
    {userCommitment : Bytes32} {useBlockhash isRequestWithCallback : Bool} {n : Uint64}
    {ref : RequestRef} {s s' : State}
    (h : writeRequest keccak256 env provider userCommitment useBlockhash isRequestWithCallback n s
      = .ok (ref, s')) :
    ∃ req : Request,
      s'.load ref = req ∧ req.provider = provider ∧ req.sequenceNumber = n ∧
      req.requester = env.sender ∧ req.blockNumber.toNat = env.block.number.toNat ∧
      n.toNat = (s.chains provider).currentCommitmentSequenceNumber.toNat + req.numHashes.toNat ∧
      req.commitment = keccak256
        (commitmentPreimage userCommitment (s.chains provider).currentCommitment) ∧
      s'.chains = s.chains ∧
      s'.table = s.table.insert (requestScheme keccak256) req := by
  simp only [writeRequest, bind_eq_ok, require_eq_ok, checkedSub_eq_ok, safeCast_eq_ok,
    pure_eq_ok, exists_const, Prod.mk.injEq, allocRequest_providers] at h
  obtain ⟨distance, hdistance, numHashes, hnum, -, blockNumber, hblock, rfl, rfl⟩ := h
  refine ⟨_, ?_, rfl, rfl, rfl, hblock, ?_, rfl, ?_, allocRequest_store rfl rfl⟩
  · simp [State.load, State.store, State.table, Table.load, allocRequest]
  · rw [hdistance, hnum]
    rfl
  · funext p
    simp [State.chains]

theorem requestHelper_spec {w : World} {env : Env} {provider : Address}
    {userCommitment : Bytes32} {useBlockhash isRequestWithCallback : Bool} {ref : RequestRef}
    {s : State}
    (h : requestHelper keccak256 env provider userCommitment useBlockhash isRequestWithCallback
      w.state = .ok (ref, s)) :
    ∃ (req : Request) (next : Uint64),
      s.load ref = req ∧ req.provider = provider ∧
      MadeIn keccak256 w env userCommitment req ∧
      next.toNat = req.sequenceNumber.toNat + 1 ∧
      s.chains = Function.update w.state.chains provider
        { w.state.chains provider with sequenceNumber := next } ∧
      s.table = w.state.table.insert (requestScheme keccak256) req := by
  simp only [requestHelper, bind_eq_ok, Prod.exists] at h
  obtain ⟨n, s₁, hassign, s₂, hfee, hwrite⟩ := h
  obtain ⟨next, hreg, hend, rfl, hnext, hchains₁, htable₁⟩ := assignSequenceNumber_spec hassign
  obtain ⟨hchains₂, htable₂⟩ := collectFee_spec hfee
  obtain ⟨req, hload, rfl, hn, hsender, hblock, hnum, hcommit, hchains, htable⟩ :=
    writeRequest_spec hwrite
  rw [hchains₂, hchains₁] at hnum hcommit hchains
  rw [htable₂, htable₁] at htable
  simp only [Function.update_self] at hnum hcommit
  refine ⟨req, next, hload, rfl, ⟨hsender, hblock, hreg, hend, hn, ?_, hcommit⟩, ?_, hchains,
    htable⟩
  · rw [hn]
    exact hnum
  · rw [hn]
    exact hnext

/-- The effect of a call that stores a request and announces it. -/
theorem Effect.of_requestHelper {w w' : World} {env : Env} {provider : Address}
    {userCommitment : Bytes32} {useBlockhash isRequestWithCallback : Bool} {ref : RequestRef}
    {s : State} {e : Event}
    (h : requestHelper keccak256 env provider userCommitment useBlockhash isRequestWithCallback
      w.state = .ok (ref, s))
    (hstate : w'.state = s) (hlogs : w'.logs = e :: w.logs)
    (hrequest : e.request? = some (s.load ref)) (hreveal : e.reveal? = none)
    (hregistered : e.registered? = none) (hold : w.hashed ⊆ w'.hashed)
    (hnew : requestPreimages keccak256 provider userCommitment w.state ⊆ w'.hashed) :
    Effect keccak256 w w' := by
  obtain ⟨req, next, hload, rfl, hmade, hnext, hchains, htable⟩ := requestHelper_spec h
  refine ⟨⟨[e], by rw [hlogs]; rfl⟩, hold, .request req env userCommitment next hmade hnext
    (hnew List.mem_cons_self) ?_ ?_ ?_ ?_ ?_⟩
  · rw [hstate, hchains]
  · rw [hstate, htable]
  · simp [World.requests, hlogs, hrequest, hload]
  · simp [World.reveals, hlogs, hreveal]
  · simp [World.registrations, hlogs, hregistered]

theorem request_effect {w w' : World} {env : Env} {provider : Address}
    {userCommitment : Bytes32} {useBlockHash : Bool} {n : Uint64}
    (h : request keccak256 env provider userCommitment useBlockHash w = .ok (n, w')) :
    Effect keccak256 w w' := by
  simp only [request, bind_eq_ok, Prod.exists, pure_eq_ok, Prod.mk.injEq] at h
  obtain ⟨ref, s, hreq, -, rfl⟩ := h
  exact .of_requestHelper hreq rfl rfl rfl rfl rfl (List.subset_append_right _ _)
    (List.subset_append_left _ _)

theorem requestWithCallback_effect {w w' : World} {env : Env} {provider : Address}
    {userRandomNumber : Bytes32} {n : Uint64}
    (h : requestWithCallback keccak256 env provider userRandomNumber w = .ok (n, w')) :
    Effect keccak256 w w' := by
  simp only [requestWithCallback, bind_eq_ok, Prod.exists, pure_eq_ok, Prod.mk.injEq] at h
  obtain ⟨ref, s, hreq, -, rfl⟩ := h
  refine .of_requestHelper hreq rfl rfl rfl rfl rfl ?_ ?_
  · exact List.subset_cons_of_subset _ (List.subset_append_right _ _)
  · exact List.subset_cons_of_subset _ (List.subset_append_left _ _)

theorem constructProviderCommitment_setWidth (numHashes : Uint32) (revelation : Bytes32) :
    constructProviderCommitment keccak256 (numHashes.setWidth 64) revelation =
      (hashWord keccak256)^[numHashes.toNat] revelation := by
  have hwidth : (numHashes.setWidth 64).toNat = numHashes.toNat := by
    rw [BitVec.toNat_setWidth]
    have := numHashes.isLt
    omega
  rw [constructProviderCommitment, hwidth]

theorem revealBlockHash_unused {env : Env} {req : Request} {blockHash : Bytes32}
    (hno : req.useBlockhash = false) (h : revealBlockHash env req = .ok blockHash) :
    blockHash = 0 := by
  simp only [revealBlockHash, hno, Bool.false_eq_true, if_false, pure_eq_ok] at h
  exact h.symm

theorem openingPreimages_subset {provider : Address} {n : Uint64} {rv : Reveal}
    {blockHash : Bytes32} :
    openingPreimages keccak256 rv ⊆ revealPreimages keccak256 provider n rv.request
      rv.userRevelation rv.providerRevelation blockHash := by
  rw [revealPreimages, constructProviderCommitment_setWidth]
  intro x hx
  rcases List.mem_cons.mp hx with rfl | hx
  · simp
  · rcases List.mem_cons.mp hx with rfl | hx
    · simp [constructUserCommitment, hashWord]
    · exact List.mem_append_right _ hx

theorem revealHelper_spec {env : Env} {req : Request}
    {userRevelation providerRevelation : Bytes32} {revelation : Revelation} {s s' : State}
    (h : revealHelper keccak256 env req userRevelation providerRevelation s
      = .ok (revelation, s')) :
    Opens keccak256 ⟨req, userRevelation, providerRevelation, revelation.randomNumber⟩ ∧
    s'.table = s.table ∧
    s'.chains = Function.update s.chains req.provider
      ((s.chains req.provider).afterReveal req providerRevelation) := by
  simp only [revealHelper, bind_eq_ok, require_eq_ok, pure_eq_ok, exists_const,
    Prod.mk.injEq] at h
  obtain ⟨hcommit, blockHash, hblock, rfl, rfl⟩ := h
  refine ⟨⟨?_, ?_⟩, ?_, ?_⟩
  · rw [← hcommit, constructProviderCommitment_setWidth]
    rfl
  · intro hno
    rw [revealBlockHash_unused hno hblock]
  · split <;> rfl
  · split
    · next hlt =>
      rw [chains_setProvider, ChainPosition.afterReveal]
      rw [if_pos (show (s.chains req.provider).currentCommitmentSequenceNumber <
        req.sequenceNumber from hlt)]
      rfl
    · next hlt =>
      rw [ChainPosition.afterReveal]
      rw [if_neg (show ¬(s.chains req.provider).currentCommitmentSequenceNumber <
        req.sequenceNumber from hlt)]
      exact (Function.update_eq_self _ _).symm

/-- A call that reveals a request, reports it and clears it. -/
theorem revealHelper_change {w w' : World} {env : Env} {provider : Address} {n : Uint64}
    {userRevelation providerRevelation : Bytes32} {revelation : Revelation} {ref : RequestRef}
    {s : State} {e : Event}
    (href : findActiveRequest keccak256 provider n w.state = .ok ref)
    (h : revealHelper keccak256 env (w.state.load ref) userRevelation providerRevelation w.state
      = .ok (revelation, s))
    (hstate : w'.state = clearRequest keccak256 provider n s) (hlogs : w'.logs = e :: w.logs)
    (hrequest : e.request? = none)
    (hreveal : e.reveal? = some
      ⟨s.load ref, userRevelation, providerRevelation, revelation.randomNumber⟩)
    (hregistered : e.registered? = none)
    (hhashed : w'.hashed = revealPreimages keccak256 provider n (w.state.load ref)
      userRevelation providerRevelation revelation.blockHash ++ w.hashed) :
    ∃ rv, Effect keccak256 w w' ∧ RevealChange keccak256 w w' rv ∧
      rv.request.provider = provider ∧ rv.request.sequenceNumber = n ∧
      rv.userRevelation = userRevelation ∧ rv.providerRevelation = providerRevelation := by
  obtain ⟨hopens, htable, hchains⟩ := revealHelper_spec h
  have hload : s.load ref = w.state.load ref := by rw [State.load, htable, State.load]
  rw [hload] at hreveal
  have hkey := (Table.lookup_eq_some.mp (findActiveRequest_eq_ok.mp href).1).2.1
  obtain ⟨hp, hn⟩ : (w.state.load ref).provider = provider ∧
      (w.state.load ref).sequenceNumber = n := Prod.ext_iff.mp hkey
  have hchange : RevealChange keccak256 w w' ⟨w.state.load ref, userRevelation,
      providerRevelation, revelation.randomNumber⟩ := by
    refine ⟨⟨ref, ?_, rfl⟩, hopens, ?_, ?_, ?_, ?_, ?_⟩
    · rw [hp, hn, href]
    · rw [hhashed]
      exact List.subset_append_of_subset_left _ openingPreimages_subset
    · rw [hstate, ← hchains]
      exact congrArg (fun f p => (f p).chain) clearRequest_providers
    · rw [hp, hn, hstate, clearRequest_table, htable]
    · simp [World.requests, hlogs, hrequest]
    · simp [World.reveals, hlogs, hreveal]
  have hregistrations : w'.registrations = w.registrations := by
    simp [World.registrations, hlogs, hregistered]
  refine ⟨_, ⟨⟨[e], by rw [hlogs]; rfl⟩, ?_, .reveal _ hchange hregistrations⟩, hchange, hp, hn,
    rfl, rfl⟩
  rw [hhashed]
  exact List.subset_append_right _ _

/-- A successful reveal of a request, through `reveal` or `revealWithCallback`,
and the world that it leaves (before the callback runs). -/
inductive Reveals (keccak256 : Bytes → Bytes32) (w : World) (provider : Address) (n : Uint64)
    (userRevelation providerRevelation : Bytes32) : World → Prop
  | reveal {env : Env} {randomNumber : Bytes32} {w' : World} :
      reveal keccak256 env provider n userRevelation providerRevelation w
        = .ok (randomNumber, w') →
      Reveals keccak256 w provider n userRevelation providerRevelation w'
  | revealWithCallback {env : Env} {o : Outcome World Pending} :
      revealWithCallback keccak256 env provider n userRevelation providerRevelation w = .ok o →
      Reveals keccak256 w provider n userRevelation providerRevelation o.state

theorem Reveals.change {w w' : World} {provider : Address} {n : Uint64}
    {userRevelation providerRevelation : Bytes32}
    (h : Reveals keccak256 w provider n userRevelation providerRevelation w') :
    ∃ rv, Effect keccak256 w w' ∧ RevealChange keccak256 w w' rv ∧
      rv.request.provider = provider ∧ rv.request.sequenceNumber = n ∧
      rv.userRevelation = userRevelation ∧ rv.providerRevelation = providerRevelation := by
  cases h with
  | reveal h =>
    simp only [Entropy.reveal, bind_eq_ok, require_eq_ok, Prod.exists, exists_const, pure_eq_ok,
      Prod.mk.injEq] at h
    obtain ⟨ref, href, -, -, revelation, s, hreveal, -, rfl⟩ := h
    exact revealHelper_change href hreveal rfl rfl rfl rfl rfl rfl
  | revealWithCallback h =>
    simp only [Entropy.revealWithCallback, bind_eq_ok, require_eq_ok, Prod.exists,
      exists_const] at h
    obtain ⟨ref, href, -, revelation, s, hreveal, hcall⟩ := h
    split at hcall
    · cases pure_eq_ok.mp hcall
      exact revealHelper_change href hreveal rfl rfl rfl rfl rfl rfl
    · cases pure_eq_ok.mp hcall
      exact revealHelper_change href hreveal rfl rfl rfl rfl rfl rfl

theorem bumpSequenceNumber_bounds {n target next : Uint64}
    (h : bumpSequenceNumber n target = .ok next) :
    n.toNat ≤ next.toNat ∧ target.toNat < next.toNat ∧
      next.toNat ≤ max n.toNat (target.toNat + 1) := by
  unfold bumpSequenceNumber at h
  split at h
  · next hle =>
    have hadd : next.toNat = target.toNat + 1 := checkedAdd_eq_ok.mp h
    have hle : n.toNat ≤ target.toNat := hle
    omega
  · next hlt =>
    cases pure_eq_ok.mp h
    have hlt : ¬ n.toNat ≤ target.toNat := hlt
    omega

theorem advanceProviderCommitment_effect {w w' : World} {provider : Address} {target : Uint64}
    {providerRevelation : Bytes32}
    (h : advanceProviderCommitment keccak256 provider target providerRevelation w = .ok w') :
    Effect keccak256 w w' := by
  simp only [advanceProviderCommitment, bind_eq_ok, require_eq_ok, checkedSub_eq_ok,
    safeCast_eq_ok, exists_const, pure_eq_ok, constructProviderCommitment_setWidth] at h
  obtain ⟨hcur, hend, distance, hdistance, numHashes, hnum, hchain, next, hnext, rfl⟩ := h
  have hsteps : numHashes.toNat = target.toNat -
      (w.state.chains provider).currentCommitmentSequenceNumber.toNat := by
    rw [hnum, hdistance]
    exact (Nat.add_sub_cancel_left ..).symm
  have hbounds : (w.state.chains provider).sequenceNumber.toNat ≤ next.toNat ∧
      target.toNat < next.toNat ∧
      next.toNat ≤ max (w.state.chains provider).sequenceNumber.toNat (target.toNat + 1) := by
    exact bumpSequenceNumber_bounds hnext
  refine ⟨List.suffix_refl _, List.subset_append_right _ _, .advance provider target next
    providerRevelation hcur hend ?_ hbounds.1 hbounds.2.1 hbounds.2.2 ?_ rfl rfl rfl rfl ?_⟩
  · rw [← hsteps]
    exact hchain
  · exact chains_setProvider _ _ _
  · rw [← hsteps]
    exact List.subset_append_left _ _

/-! ## Moves -/

theorem register_effect {w w' : World} {env : Env} {feeInWei : Uint128} {commitment : Bytes32}
    {commitmentMetadata uri : Bytes} {chainLength : Uint64}
    (h : register env feeInWei commitment commitmentMetadata chainLength uri w = .ok w') :
    Effect keccak256 w w' := by
  simp only [register, bind_eq_ok, require_eq_ok, checkedAdd_eq_ok, exists_const,
    pure_eq_ok] at h
  obtain ⟨hlength, last, hlast, next, hnext, rfl⟩ := h
  exact ⟨List.suffix_cons _ _, List.Subset.refl _, .register env.sender _ chainLength hlength rfl
    rfl rfl hnext hlast (chains_setProvider _ _ _) rfl rfl rfl ⟨_, rfl, rfl⟩⟩

/-- A move that touches neither a chain nor a request, and reports neither. -/
theorem Effect.of_quiet {w w' : World} {e : Event}
    (hchains : w'.state.chains = w.state.chains) (htable : w'.state.table = w.state.table)
    (hlogs : w'.logs = w.logs ∨ w'.logs = e :: w.logs) (hrequest : e.request? = none)
    (hreveal : e.reveal? = none) (hregistered : e.registered? = none)
    (hhashed : w'.hashed = w.hashed) : Effect keccak256 w w' := by
  refine ⟨?_, by rw [hhashed]; exact List.Subset.refl _, .quiet hchains htable ?_ ?_ ?_⟩
  · rcases hlogs with h | h
    · exact h ▸ List.suffix_refl w'.logs
    · exact ⟨[e], by rw [h]; rfl⟩
  · rcases hlogs with h | h
    · simp [World.requests, h]
    · simp [World.requests, h, hrequest]
  · rcases hlogs with h | h
    · simp [World.reveals, h]
    · simp [World.reveals, h, hreveal]
  · rcases hlogs with h | h
    · simp [World.registrations, h]
    · simp [World.registrations, h, hregistered]

theorem startWithdrawal_effect {w : World} {env : Env} {provider : Address} {amount : Uint128}
    {o : Outcome World Pending} (h : startWithdrawal env provider amount w = .ok o) :
    Effect keccak256 w o.state := by
  simp only [startWithdrawal, bind_eq_ok, require_eq_ok, exists_const, pure_eq_ok] at h
  obtain ⟨-, accrued, -, -, rfl⟩ := h
  exact .of_quiet (e := .withdrawal provider env.sender amount)
    (chains_setProvider_same rfl) rfl (.inl rfl) rfl rfl rfl rfl

theorem updateOwnProvider_effect {w w' : World} {env : Env} {update : ProviderInfo → ProviderInfo}
    {event : ProviderInfo → Event} (h : updateOwnProvider env update event w = .ok w')
    (hchain : ∀ info, (update info).chain = info.chain)
    (hrequest : ∀ info, (event info).request? = none)
    (hreveal : ∀ info, (event info).reveal? = none)
    (hregistered : ∀ info, (event info).registered? = none) : Effect keccak256 w w' := by
  simp only [updateOwnProvider, bind_eq_ok, require_eq_ok, exists_const, pure_eq_ok] at h
  obtain ⟨-, rfl⟩ := h
  exact .of_quiet (chains_setProvider_same (hchain _)) rfl (.inr rfl) (hrequest _) (hreveal _)
    (hregistered _) rfl

theorem setProviderFeeAsFeeManager_effect {w w' : World} {env : Env} {provider : Address}
    {newFeeInWei : Uint128} (h : setProviderFeeAsFeeManager env provider newFeeInWei w = .ok w') :
    Effect keccak256 w w' := by
  simp only [setProviderFeeAsFeeManager, bind_eq_ok, pure_eq_ok] at h
  obtain ⟨_, -, rfl⟩ := h
  exact .of_quiet (chains_setProvider_same rfl) rfl (.inr rfl) rfl rfl rfl rfl

/-- The functions of `EntropyGovernance` touch neither providers nor requests. -/
theorem governance_effect {w : World} {s : State} {e : Event}
    (hproviders : s.providers = w.state.providers) (htable : s.table = w.state.table)
    (hrequest : e.request? = none) (hreveal : e.reveal? = none)
    (hregistered : e.registered? = none) :
    Effect keccak256 w (({ w with state := s } : World).emit e) :=
  .of_quiet (congrArg (fun f p => (f p).chain) hproviders) htable (.inr rfl) hrequest hreveal
    hregistered rfl

theorem execute_effect {m : Message} {w : World} {o : Outcome World Pending}
    (h : execute keccak256 m w = .ok o) : Effect keccak256 w o.state := by
  obtain ⟨env, owner, call⟩ := m
  simp only [execute, bind_eq_ok, require_eq_ok, exists_const] at h
  obtain ⟨-, h⟩ := h
  cases call with
  | register =>
    simp only [bind_eq_ok, pure_eq_ok] at h
    obtain ⟨w', h, rfl⟩ := h
    exact register_effect h
  | withdraw => exact startWithdrawal_effect h
  | withdrawAsFeeManager =>
    obtain ⟨_, -, h⟩ := bind_eq_ok.mp h
    exact startWithdrawal_effect h
  | request =>
    simp only [bind_eq_ok, pure_eq_ok] at h
    obtain ⟨_, h, rfl⟩ := h
    exact request_effect h
  | requestWithCallback =>
    simp only [bind_eq_ok, pure_eq_ok] at h
    obtain ⟨_, h, rfl⟩ := h
    exact requestWithCallback_effect h
  | advanceProviderCommitment =>
    simp only [bind_eq_ok, pure_eq_ok] at h
    obtain ⟨w', h, rfl⟩ := h
    exact advanceProviderCommitment_effect h
  | reveal =>
    simp only [bind_eq_ok, pure_eq_ok] at h
    obtain ⟨_, h, rfl⟩ := h
    obtain ⟨rv, heffect, -⟩ := (Reveals.reveal h).change
    exact heffect
  | revealWithCallback =>
    obtain ⟨rv, heffect, -⟩ := (Reveals.revealWithCallback h).change
    exact heffect
  | setProviderFee | setProviderUri | setFeeManager | setMaxNumHashes =>
    simp only [bind_eq_ok, pure_eq_ok] at h
    obtain ⟨w', h, rfl⟩ := h
    exact updateOwnProvider_effect h (fun _ => rfl) (fun _ => rfl) (fun _ => rfl) (fun _ => rfl)
  | setProviderFeeAsFeeManager =>
    simp only [bind_eq_ok, pure_eq_ok] at h
    obtain ⟨w', h, rfl⟩ := h
    exact setProviderFeeAsFeeManager_effect h
  | proposeAdmin =>
    simp only [proposeAdmin, bind_eq_ok, pure_eq_ok] at h
    obtain ⟨w', ⟨_, -, _, -, rfl⟩, rfl⟩ := h
    exact governance_effect rfl rfl rfl rfl rfl
  | acceptAdmin =>
    simp only [acceptAdmin, bind_eq_ok, pure_eq_ok] at h
    obtain ⟨w', ⟨_, -, rfl⟩, rfl⟩ := h
    exact governance_effect rfl rfl rfl rfl rfl
  | setPythFee =>
    simp only [setPythFee, bind_eq_ok, pure_eq_ok] at h
    obtain ⟨w', ⟨_, -, rfl⟩, rfl⟩ := h
    exact governance_effect rfl rfl rfl rfl rfl
  | setDefaultProvider =>
    simp only [setDefaultProvider, bind_eq_ok, pure_eq_ok] at h
    obtain ⟨w', ⟨_, -, _, -, rfl⟩, rfl⟩ := h
    exact governance_effect rfl rfl rfl rfl rfl

theorem resume_effect {k : Pending} {ok : Bool} {w : World} {o : Outcome World Pending}
    (h : resume k ok w = some o) : Effect keccak256 w o.state := by
  cases ok with
  | false => cases k <;> simp [resume] at h
  | true =>
    cases k with
    | withdrawal provider recipient amount =>
      cases h
      exact .of_quiet rfl rfl (.inr rfl) rfl rfl rfl rfl
    | entropyCallback requester n provider randomNumber =>
      cases h
      exact .of_quiet (e := .withdrawal 0 0 0) rfl rfl (.inl rfl) rfl rfl rfl rfl

/-- Every move of the contract is one of the changes. -/
theorem move_effect {w w' : World} (h : (component keccak256).Move w w') :
    Effect keccak256 w w' := by
  cases h with
  | start h => exact execute_effect (toOption_eq_some.mp h)
  | resume h => exact resume_effect h

end Functions

end PythCrosschain.Entropy
