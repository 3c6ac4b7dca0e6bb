import PythCrosschain.Entropy.Registrations
import PythCrosschain.Fortuna.HashChainState

/-!
# The provider's chains agree with the contract

A provider that registers with the heads of its hash chains can reveal every request made
to it: `HashChainState.reveal` finds the chain of the registration that the request was
made under, and the value that it gives hashes to the commitment that the contract held
when the request was made.

Result: `reveal_agrees_with_contract`.
-/

namespace PythCrosschain.Fortuna

open Entropy

section

variable (keccak256 : Bytes → Bytes32)

/-- The registration committed to the head of the chain, and to its length. -/
structure CommitsTo (chain : PebbleHashChain) (r : Registration) : Prop where
  built : ∃ secret length sampleInterval,
    PebbleHashChain.new keccak256 secret length sampleInterval = some chain
  commitment : chain.revealIth keccak256 0 = .ok r.commitment
  chainLength : r.chainLength.toNat = chain.length

/-- The strings that the values of the chains were hashed from. -/
def chainStrings (chains : List PebbleHashChain) : Set Bytes :=
  {s | ∃ chain ∈ chains, ∃ i value,
    0 < i ∧ chain.revealIth keccak256 i = .ok value ∧ s = wordBytes value}

/-- The chains of a provider, at the sequence numbers of its registrations. -/
def chainStateOf (x : RecordedWorld) (provider : Address) (chains : List PebbleHashChain) :
    HashChainState where
  offsets := (registrationsOf x provider).reverse.map offset
  hashChains := chains

end

section

variable {keccak256 : Bytes → Bytes32}

/-- The values of a chain that was committed to. -/
theorem CommitsTo.values {chain : PebbleHashChain} {r : Registration}
    (h : CommitsTo keccak256 chain r) : ∃ x : Nat → Bytes32, x 0 = r.commitment ∧
      (∀ i < chain.length, chain.revealIth keccak256 i = .ok (x i)) ∧
      ∀ i, i + 1 < chain.length → x i = hashWord keccak256 (x (i + 1)) := by
  obtain ⟨secret, length, sampleInterval, hnew⟩ := h.built
  have hlength : chain.length = length := length_new hnew
  refine ⟨fun i => (hashWord keccak256)^[length - 1 - i] (hashWord keccak256 secret), ?_,
    fun i hi => revealIth_new hnew (hlength ▸ hi), fun i hi => ?_⟩
  · have hhead := revealIth_new hnew (hlength ▸ revealIth_lt h.commitment)
    exact Except.ok.inj (hhead.symm.trans h.commitment)
  · have hstep : length - 1 - i = (length - 1 - (i + 1)) + 1 := by omega
    simp only [hstep, Function.iterate_succ_apply']

/-- With the two right revelations, only the block hash can stop a reveal. -/
theorem revealHelper_accepts {env : Env} {req : Request}
    {userRevelation providerRevelation : Bytes32} {s : State}
    (h : keccak256 (commitmentPreimage (constructUserCommitment keccak256 userRevelation)
      ((hashWord keccak256)^[req.numHashes.toNat] providerRevelation)) = req.commitment) :
    (revealHelper keccak256 env req userRevelation providerRevelation s).map Prod.fst =
      (revealBlockHash env req).map fun blockHash =>
        ⟨combineRandomValues keccak256 userRevelation providerRevelation blockHash, blockHash⟩ := by
  rw [← constructProviderCommitment_setWidth] at h
  simp only [revealHelper, require, if_pos h]
  cases revealBlockHash env req with
  | error e => rfl
  | ok blockHash => rfl

/-- The chain of the registration with `older` ones before it. -/
theorem chain_of_registration {chains : List PebbleHashChain}
    {newer older : List (Registration × ProviderInfo)} {r : Registration × ProviderInfo}
    (h : List.Forall₂ (CommitsTo keccak256) chains
      ((newer ++ r :: older).reverse.map Prod.fst)) :
    ∃ chain, chains[older.length]? = some chain ∧ CommitsTo keccak256 chain r.1 := by
  obtain ⟨hlength, hcommits⟩ := List.forall₂_iff_get.mp h
  have hindex : older.length < ((newer ++ r :: older).reverse.map Prod.fst).length := by
    simp
  have hcommitted := hcommits older.length (hlength ▸ hindex) hindex
  refine ⟨_, List.getElem?_eq_getElem (hlength ▸ hindex), ?_⟩
  simpa using hcommitted

/-- Which chain reveals a sequence number of the registration `r`. -/
theorem reveal_of_registration {chains : List PebbleHashChain} {chain : PebbleHashChain}
    {newer older : List (Registration × ProviderInfo)} {r : Registration × ProviderInfo}
    {sequenceNumber : Nat} (hchain : chains[older.length]? = some chain)
    (hbelow : ∀ r' ∈ older, offset r' < offset r) (hle : offset r ≤ sequenceNumber)
    (habove : ∀ r' ∈ newer, sequenceNumber < offset r') :
    HashChainState.reveal keccak256 ⟨(newer ++ r :: older).reverse.map offset, chains⟩
      sequenceNumber = chain.revealIth keccak256 (sequenceNumber - offset r) := by
  have hsplit : (newer ++ r :: older).reverse.map offset =
      older.reverse.map offset ++ offset r :: newer.reverse.map offset := by simp
  rw [hsplit]
  refine reveal_of_split (by simpa using hchain) (fun o ho => ?_) hle fun o ho => ?_
  · obtain ⟨r', hr', rfl⟩ := List.mem_map.mp ho
    exact Nat.le_trans (Nat.le_of_lt (hbelow r' (List.mem_reverse.mp hr'))) hle
  · obtain ⟨r', hr', rfl⟩ := List.mem_map.mp ho
    exact habove r' (List.mem_reverse.mp hr')

/-- The walk from a value to the head of a chain goes through the strings of the chain. -/
theorem walk_in_chainStrings {chains : List PebbleHashChain} {chain : PebbleHashChain}
    (hchain : chain ∈ chains) {x : Nat → Bytes32}
    (hvalues : ∀ i < chain.length, chain.revealIth keccak256 i = .ok (x i))
    (hsteps : ∀ i, i + 1 < chain.length → x i = hashWord keccak256 (x (i + 1))) {k : Nat}
    (hk : k < chain.length) :
    ∀ s ∈ chainPreimages keccak256 k (x k), s ∈ chainStrings keccak256 chains := by
  intro s hs
  obtain ⟨j, hj, rfl⟩ := List.mem_map.mp hs
  have hj : j < k := List.mem_range.mp hj
  have hback := HashChain.walk_back hsteps (show (k - j) + j < chain.length by omega)
  rw [Nat.sub_add_cancel (Nat.le_of_lt hj)] at hback
  rw [hback]
  exact ⟨chain, hchain, k - j, x (k - j), Nat.sub_pos_of_lt hj, hvalues _ (by omega), rfl⟩

/-- The commitment that the contract holds is the value of the provider's chain. -/
theorem currentCommitment_eq {w : World} {provider : Address} {chain : PebbleHashChain}
    {chains : List PebbleHashChain} (hpositions : Positions keccak256 w)
    (hchain : chain ∈ chains)
    (hno : NoCollision keccak256 ({s | s ∈ w.hashed} ∪ chainStrings keccak256 chains))
    {x : Nat → Bytes32} (hhead : x 0 = (w.state.chains provider).originalCommitment)
    (hvalues : ∀ i < chain.length, chain.revealIth keccak256 i = .ok (x i))
    (hsteps : ∀ i, i + 1 < chain.length → x i = hashWord keccak256 (x (i + 1))) {k : Nat}
    (hk : k = (w.state.chains provider).currentCommitmentSequenceNumber.toNat -
      (w.state.chains provider).originalCommitmentSequenceNumber.toNat)
    (hlt : k < chain.length) : (w.state.chains provider).currentCommitment = x k := by
  have hlinked := hpositions.linked provider
  have hwalked := hpositions.walked provider
  rw [ChainPosition.Linked, ← hk] at hlinked
  rw [ChainPosition.Walked, ← hk] at hwalked
  refine walk_start_unique hno (fun s hs => .inl (hwalked hs))
    (fun s hs => .inr (walk_in_chainStrings hchain hvalues hsteps hlt s hs)) ?_
  exact hlinked.trans (hhead.symm.trans (HashChain.walk_to_head hsteps hlt).symm)

/-- A request was made under a registration `r` of its provider, and commits to the value
of its own number on every chain that `r` committed to. -/
theorem request_commits_to_value {x x₀ : RecordedWorld} {userCommitment : Bytes32} {req : Request}
    (h : MadeUnder keccak256 x x₀ userCommitment req) :
    ∃ r older, registrationsOf x₀ req.provider = r :: older ∧
      offset r ≤ req.sequenceNumber.toNat ∧
      ∀ (chains : List PebbleHashChain) (chain : PebbleHashChain), chain ∈ chains →
        CommitsTo keccak256 chain r.1 →
        NoCollision keccak256 ({s | s ∈ x.1.hashed} ∪ chainStrings keccak256 chains) →
        ∃ v, chain.revealIth keccak256 (req.sequenceNumber.toNat - offset r) = .ok v ∧
          keccak256 (commitmentPreimage userCommitment
            ((hashWord keccak256)^[req.numHashes.toNat] v)) = req.commitment := by
  obtain ⟨env, hmade⟩ := h.made
  obtain ⟨r, older, hregistered, hcommitment, hoffset, hlast⟩ :=
    (flatReachable_recorded h.reachable).latest req.provider hmade.registered
  have hflat := h.reachable.of_annotated
  have hord := (flatReachable_counters hflat).ordered_of_lt (.inr hmade.inChain)
  have hnumber := congrArg BitVec.toNat hmade.sequenceNumber
  have hnumHashes := hmade.numHashes
  have horiginal := hoffset ▸ hord.original_le
  have hinChain : (x₀.1.state.chains req.provider).sequenceNumber.toNat <
      (x₀.1.state.chains req.provider).endSequenceNumber.toNat := hmade.inChain
  refine ⟨r, older, hregistered, by omega, fun chains chain hchain hcommits hno => ?_⟩
  obtain ⟨values, hhead, hvalues, hsteps⟩ := hcommits.values
  rw [hlast, hcommits.chainLength] at hinChain
  have hno₀ : NoCollision keccak256
      ({s | s ∈ x₀.1.hashed} ∪ chainStrings keccak256 chains) :=
    Set.InjOn.mono (Set.union_subset_union_left _ fun s hs => h.hashed hs) hno
  have hpositions := flatReachable_positions hflat (Set.InjOn.mono Set.subset_union_left hno₀)
  -- The commitment that the request was made with is a value of the chain.
  have hcurrent := currentCommitment_eq hpositions hchain hno₀ (hhead.trans hcommitment.symm)
    hvalues hsteps rfl (by rw [hoffset]; omega)
  rw [hoffset] at hcurrent
  have hposition : req.sequenceNumber.toNat - offset r =
      (x₀.1.state.chains req.provider).currentCommitmentSequenceNumber.toNat - offset r +
        req.numHashes.toNat := by omega
  have hlength : req.sequenceNumber.toNat - offset r < chain.length := by omega
  refine ⟨_, hvalues _ hlength, ?_⟩
  rw [hmade.commitment, hcurrent, hposition, HashChain.walk_back hsteps (hposition ▸ hlength)]

/-- Off chain and on chain agree. `c` is any reachable configuration of the contract,
and `chains` are the chains of a provider, oldest first: each of its registrations, however
many and whenever they were made, committed to the head of its chain and to the chain's
length. Provided that neither the strings hashed on chain so far nor the strings that the
values of the chains were hashed from collide, every request in flight is revealed: the
offsets are in increasing order, `reveal` succeeds, and the contract accepts the value for
this request, together with any user revelation that gives the user's commitment.
`revealHelper` then returns the random number, unless the request asked for a block hash
that is not available. -/
theorem reveal_agrees_with_contract {c : Config RecordedWorld Pending}
    (hc : (recordedComponent keccak256).Reachable c) {provider : Address}
    {chains : List PebbleHashChain}
    (hchains : List.Forall₂ (CommitsTo keccak256) chains
      ((registrationsOf c.state provider).reverse.map Prod.fst))
    (hno : NoCollision keccak256
      ({s | s ∈ c.state.1.hashed} ∪ chainStrings keccak256 chains))
    {n : Uint64} {req : Request}
    (hreq : InFlight keccak256 c.state.1.state provider n req) :
    (chainStateOf c.state provider chains).offsets.Pairwise (· < ·) ∧
    ∃ x₀ userCommitment, MadeUnder keccak256 c.state x₀ userCommitment req ∧
    ∃ v, (chainStateOf c.state provider chains).reveal keccak256 n.toNat = .ok v ∧
      ∀ env userRevelation,
        constructUserCommitment keccak256 userRevelation = userCommitment →
        (revealHelper keccak256 env req userRevelation v c.state.1.state).map Prod.fst =
          (revealBlockHash env req).map fun blockHash =>
            ⟨combineRandomValues keccak256 userRevelation v blockHash, blockHash⟩ := by
  have hrecorded := flatReachable_recorded hc.flat
  have hlookup := inFlight_iff.mp hreq
  have hmem : req ∈ c.state.1.requests :=
    (flatReachable_history hc.flat.of_annotated).inFlight.lookup hlookup
  obtain ⟨rfl, rfl⟩ : req.provider = provider ∧ req.sequenceNumber = n :=
    Prod.ext_iff.mp (Table.lookup_eq_some.mp hlookup).2.1
  obtain ⟨x₀, uc, hunder⟩ := hrecorded.made req hmem
  obtain ⟨newer, hnewer, habove⟩ := hunder.newer
  obtain ⟨r, older, hregistered, hle, hcommits⟩ :=
    request_commits_to_value hunder
  rw [hregistered] at hnewer
  -- The chain of the registration that the request was made under.
  obtain ⟨chain, hchain, hcommitted⟩ := chain_of_registration (hnewer ▸ hchains)
  obtain ⟨v, hreveal, hcommitment⟩ :=
    hcommits chains chain (List.mem_of_getElem? hchain) hcommitted hno
  have hincreasing := hrecorded.increasing req.provider
  have hbelow : ∀ r' ∈ older, offset r' < offset r := by
    rw [hnewer, List.pairwise_append] at hincreasing
    exact (List.pairwise_cons.mp hincreasing.2.1).1
  refine ⟨?_, x₀, uc, hunder, v, ?_, fun env userRevelation huser => ?_⟩
  · rw [chainStateOf, List.pairwise_map, List.pairwise_reverse]
    exact hincreasing
  · rw [chainStateOf, hnewer, reveal_of_registration hchain hbelow hle habove]
    exact hreveal
  · exact revealHelper_accepts (huser ▸ hcommitment)

/-- The strings of a chain are among those that its construction hashed. -/
theorem revealed_in_preimages {secret value : Bytes32} {length sampleInterval i : Nat}
    {chain : PebbleHashChain}
    (hnew : PebbleHashChain.new keccak256 secret length sampleInterval = some chain)
    (h : chain.revealIth keccak256 i = .ok value) :
    wordBytes value ∈ chainPreimages keccak256 length (hashWord keccak256 secret) := by
  have hi : i < length := length_new hnew ▸ revealIth_lt h
  have hvalue := Except.ok.inj (h.symm.trans (revealIth_new hnew hi))
  rw [hvalue]
  exact List.mem_map_of_mem (List.mem_range.mpr (by omega))

end

/-! ## A run -/

/-- The secret whose hash is `word`. -/
def exSecret (word : Bytes32) : Bytes32 := word - BitVec.ofNat 256 (32 * 2 ^ 240)

/-- A chain of `length` values that ends in `last`. -/
def exPebbles (last : Bytes32) (length sampleInterval : Nat) (hpos : 0 < sampleInterval) :
    PebbleHashChain where
  hash := (newLoop exKeccak (exSecret last) length sampleInterval).2.reverse
  sampleInterval := sampleInterval
  length := length
  sampleInterval_pos := hpos

theorem exPebbles_new (last : Bytes32) (length sampleInterval : Nat) (hpos : 0 < sampleInterval) :
    PebbleHashChain.new exKeccak (exSecret last) length sampleInterval =
      some (exPebbles last length sampleInterval hpos) :=
  dif_pos hpos

/-- The chains of provider 7: ten values that end in 5, then four that end in 6. -/
def exChains : List PebbleHashChain :=
  [exPebbles 5 10 3 (by decide), exPebbles 6 4 2 (by decide)]

/-- Provider 7 registers its first chain, user 9 makes a request, the provider rotates to
its second chain, and user 9 makes another request. -/
def exRotation : List Message :=
  [exMessage 7 (.register 0 (exChain 0) [] 10 []),
    exMessage 9 (.request 7 (constructUserCommitment exKeccak 33) false),
    exMessage 7 (.register 0 ((hashWord exKeccak)^[3] 6) [] 4 []),
    exMessage 9 (.request 7 (constructUserCommitment exKeccak 44) false)]

def exRotated : RecordedWorld :=
  exRotation.foldl (recordedComponent exKeccak).perform (exInitial, [])

theorem exRotated_reachable : (recordedComponent exKeccak).Reachable ⟨exRotated, []⟩ :=
  ⟨(exInitial, []), ⟨exInitial_initial, rfl⟩, Component.steps_perform _ _ _ _⟩

theorem exRotated_registrations :
    (registrationsOf exRotated 7).reverse.map Prod.fst =
      [⟨7, exChain 0, 10⟩, ⟨7, (hashWord exKeccak)^[3] 6, 4⟩] := by
  decide +kernel

theorem exRotated_commits : List.Forall₂ (CommitsTo exKeccak) exChains
    ((registrationsOf exRotated 7).reverse.map Prod.fst) := by
  rw [exRotated_registrations]
  refine .cons ⟨⟨_, _, _, exPebbles_new 5 10 3 (by decide)⟩, by decide +kernel, rfl⟩ (.cons
    ⟨⟨_, _, _, exPebbles_new 6 4 2 (by decide)⟩, by decide +kernel, rfl⟩ .nil)

/-- All that the provider hashed for the two chains. -/
def exPreimages : List Bytes :=
  chainPreimages exKeccak 10 (hashWord exKeccak (exSecret 5)) ++
    chainPreimages exKeccak 4 (hashWord exKeccak (exSecret 6))

theorem exRotated_noCollision : NoCollision exKeccak
    ({s | s ∈ exRotated.1.hashed} ∪ chainStrings exKeccak exChains) := by
  have h : ∀ s ∈ exRotated.1.hashed ++ exPreimages,
      ∀ t ∈ exRotated.1.hashed ++ exPreimages, exKeccak s = exKeccak t → s = t := by
    decide +kernel
  refine Set.InjOn.mono ?_ (fun s hs t ht => h s hs t ht)
  rintro s (hs | ⟨chain, hchain, i, value, -, hvalue, rfl⟩)
  · exact List.mem_append_left _ hs
  · refine List.mem_append_right _ ?_
    rcases List.mem_cons.mp hchain with rfl | hchain
    · exact List.mem_append_left _ (revealed_in_preimages (exPebbles_new _ _ _ _) hvalue)
    · rw [List.mem_singleton.mp hchain] at hvalue
      exact List.mem_append_right _ (revealed_in_preimages (exPebbles_new _ _ _ _) hvalue)

/-- The request made before the rotation is still in flight, and is revealed. -/
theorem reveal_agrees_with_contract_run :
    ∃ x₀ userCommitment, MadeUnder exKeccak exRotated x₀ userCommitment exRequest ∧
    ∃ v, (chainStateOf exRotated 7 exChains).reveal exKeccak 1 = .ok v ∧
      ∀ env userRevelation, constructUserCommitment exKeccak userRevelation = userCommitment →
        (revealHelper exKeccak env exRequest userRevelation v exRotated.1.state).map Prod.fst =
          (revealBlockHash env exRequest).map fun blockHash =>
            ⟨combineRandomValues exKeccak userRevelation v blockHash, blockHash⟩ :=
  (@reveal_agrees_with_contract exKeccak ⟨exRotated, []⟩ exRotated_reachable 7 exChains
    exRotated_commits exRotated_noCollision 1 exRequest
    (inFlight_iff.mpr (by decide +kernel))).2

end PythCrosschain.Fortuna
