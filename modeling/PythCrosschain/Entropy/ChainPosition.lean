import PythCrosschain.Entropy.RequestTable
import PythCrosschain.Lib.HashChain

/-!
# Entropy: the position in the hash chain

The counters of every provider are ordered in every reachable configuration
(`reachable_counters`), for any `keccak256`. Where no two of the strings hashed
so far collide, the current commitment is as many steps from the original one
as the counters say, and those steps were hashed on the way (`Positions`). The
proof carries one more fact: every request made since the latest registration
committed to a value of the current chain, while older requests have sequence
numbers below it and can not move the current commitment any more.

Result: `hash_chain_position`.
-/

namespace PythCrosschain.Entropy

/-- The counters of a registered provider. -/
structure ChainPosition.Ordered (c : ChainPosition) : Prop where
  original_le : c.originalCommitmentSequenceNumber.toNat ≤ c.currentCommitmentSequenceNumber.toNat
  current_lt : c.currentCommitmentSequenceNumber.toNat < c.sequenceNumber.toNat
  le_end : c.sequenceNumber.toNat ≤ c.endSequenceNumber.toNat

/-- A provider that never registered has no numbers to give. -/
def ChainPosition.Unregistered (c : ChainPosition) : Prop :=
  c.sequenceNumber.toNat = 0 ∧ c.endSequenceNumber.toNat = 0

def Counters (w : World) : Prop :=
  ∀ provider, (w.state.chains provider).Unregistered ∨ (w.state.chains provider).Ordered

/-- A provider with a number to give, or one given already, is registered. -/
theorem Counters.ordered_of_lt {w : World} (h : Counters w) {provider : Address} {n : Nat}
    (hlt : n < (w.state.chains provider).sequenceNumber.toNat ∨
      n < (w.state.chains provider).endSequenceNumber.toNat) :
    (w.state.chains provider).Ordered := by
  rcases h provider with hun | hord
  · rcases hlt with hlt | hlt
    · exact absurd (hun.1 ▸ hlt) (Nat.not_lt_zero _)
    · exact absurd (hun.2 ▸ hlt) (Nat.not_lt_zero _)
  · exact hord

theorem Counters.update {w w' : World} (h : Counters w) {provider : Address} {c : ChainPosition}
    (hchains : w'.state.chains = Function.update w.state.chains provider c)
    (hc : c.Unregistered ∨ c.Ordered) : Counters w' := by
  unfold Counters
  rw [hchains]
  exact (Function.forall_update_iff _ fun _ (c : ChainPosition) => c.Unregistered ∨ c.Ordered).mpr
    ⟨hc, fun p _ => h p⟩

section

variable (keccak256 : Bytes → Bytes32)

/-- The current commitment is that many steps from the original one. -/
def ChainPosition.Linked (c : ChainPosition) : Prop :=
  (hashWord keccak256)^[c.currentCommitmentSequenceNumber.toNat -
    c.originalCommitmentSequenceNumber.toNat] c.currentCommitment = c.originalCommitment

/-- The steps from the current commitment to the original one were hashed. -/
def ChainPosition.Walked (c : ChainPosition) (hashed : List Bytes) : Prop :=
  chainPreimages keccak256 (c.currentCommitmentSequenceNumber.toNat -
    c.originalCommitmentSequenceNumber.toNat) c.currentCommitment ⊆ hashed

/-- `req` committed to a value of the chain `c`, `numHashes` before its own. -/
def ChainPosition.Commits (c : ChainPosition) (hashed : List Bytes) (req : Request) : Prop :=
  ∃ userCommitment providerCommitment position,
    req.commitment = keccak256 (commitmentPreimage userCommitment providerCommitment) ∧
    commitmentPreimage userCommitment providerCommitment ∈ hashed ∧
    req.sequenceNumber.toNat = position + req.numHashes.toNat ∧
    c.originalCommitmentSequenceNumber.toNat ≤ position ∧
    (hashWord keccak256)^[position - c.originalCommitmentSequenceNumber.toNat]
      providerCommitment = c.originalCommitment ∧
    chainPreimages keccak256 (position - c.originalCommitmentSequenceNumber.toNat)
      providerCommitment ⊆ hashed

/-- Where the chains are, and what the requests of the current chains
committed to. -/
structure Positions (w : World) : Prop where
  linked : ∀ provider, (w.state.chains provider).Linked keccak256
  walked : ∀ provider, (w.state.chains provider).Walked keccak256 w.hashed
  commits : ∀ req ∈ w.requests,
    (w.state.chains req.provider).originalCommitmentSequenceNumber.toNat <
      req.sequenceNumber.toNat →
    (w.state.chains req.provider).Commits keccak256 w.hashed req

/-- No two of the strings hashed so far have the same hash. -/
def World.NoCollision (w : World) : Prop := PythCrosschain.NoCollision keccak256 {s | s ∈ w.hashed}

end

section

variable {keccak256 : Bytes → Bytes32}

/-! ## The counters -/

theorem Counters.step {w w' : World} (h : Counters w) (hhist : History keccak256 w)
    (he : Effect keccak256 w w') : Counters w' := by
  cases he.change with
  | quiet hchains =>
    intro p
    rw [hchains]
    exact h p
  | register q c chainLength hlength _ horiginal hcurrent hnext hend hchains =>
    refine h.update hchains (.inr ⟨?_, ?_, ?_⟩)
    · rw [horiginal, hcurrent]
    · rw [hcurrent]
      omega
    · have hpos : 0 < chainLength.toNat :=
        Nat.pos_of_ne_zero fun h0 => hlength (BitVec.eq_of_toNat_eq h0)
      omega
  | request req env userCommitment next hmade hnext _ hchains =>
    have hn := congrArg BitVec.toNat hmade.sequenceNumber
    have hlt : (w.state.chains req.provider).sequenceNumber.toNat <
        (w.state.chains req.provider).endSequenceNumber.toNat := hmade.inChain
    have hord := h.ordered_of_lt (.inr hlt)
    refine h.update hchains (.inr ⟨hord.original_le, ?_, ?_⟩)
    · exact Nat.lt_of_lt_of_le hord.current_lt (by simp only; omega)
    · simp only
      omega
  | reveal rv hrv =>
    have hmem := hhist.inFlight.lookup (inFlight_iff.mp hrv.inFlight)
    have hlt := (hhist.assigned _ hmem).2
    have hord := h.ordered_of_lt (.inl hlt)
    refine h.update hrv.chains (.inr ?_)
    unfold ChainPosition.afterReveal
    split
    · next hcur => exact ⟨Nat.le_trans hord.original_le (Nat.le_of_lt hcur), hlt, hord.le_end⟩
    · exact hord
  | advance q target next v hcur hend _ hle hlt hmax hchains =>
    have hcur : (w.state.chains q).currentCommitmentSequenceNumber.toNat < target.toNat := hcur
    have hend : target.toNat < (w.state.chains q).endSequenceNumber.toNat := hend
    have hord := h.ordered_of_lt (.inr hend)
    refine h.update hchains (.inr ⟨?_, hlt, ?_⟩)
    · exact Nat.le_trans hord.original_le (Nat.le_of_lt hcur)
    · have := hord.le_end
      simp only
      omega

theorem initial_chains {w : World} (h : Initial w) (p : Address) :
    w.state.chains p = ProviderInfo.chain {} := by
  obtain ⟨_, _, _, _, _, s, balance, hs, rfl⟩ := h
  simp only [initializeEntropy, bind_eq_ok, require_eq_ok, exists_const] at hs
  obtain ⟨-, -, -, hs⟩ := hs
  split at hs
  · cases pure_eq_ok.mp hs
    rfl
  · cases pure_eq_ok.mp hs
    rfl

theorem initial_counters {w : World} (h : Initial w) : Counters w := fun p => by
  rw [initial_chains h p]
  exact .inl ⟨rfl, rfl⟩

theorem flatReachable_counters {w : World} (h : (component keccak256).FlatReachable w) :
    Counters w :=
  h.invariant (fun _ => initial_counters) fun _ _ hw hc hm =>
    hc.step (flatReachable_history hw) (move_effect hm)

/-! ## The chains -/

theorem ChainPosition.Commits.mono {c : ChainPosition} {hashed hashed' : List Bytes}
    {req : Request} (h : c.Commits keccak256 hashed req) (hsub : hashed ⊆ hashed') :
    c.Commits keccak256 hashed' req := by
  obtain ⟨uc, pc, position, hcommit, hmem, hposition, hle, hlinked, hwalked⟩ := h
  exact ⟨uc, pc, position, hcommit, hsub hmem, hposition, hle, hlinked,
    List.Subset.trans hwalked hsub⟩

/-- The strings of two walks one after the other. -/
theorem chainPreimages_sub {hashed : List Bytes} {a b : Bytes32} {i j k : Nat} (hij : i ≤ j)
    (hjk : j ≤ k) (hab : (hashWord keccak256)^[k - j] a = b)
    (hfirst : chainPreimages keccak256 (k - j) a ⊆ hashed)
    (hrest : chainPreimages keccak256 (j - i) b ⊆ hashed) :
    chainPreimages keccak256 (k - i) a ⊆ hashed := by
  intro s hs
  obtain ⟨n, hn, rfl⟩ := List.mem_map.mp hs
  have hn := List.mem_range.mp hn
  rcases Nat.lt_or_ge n (k - j) with hlt | hge
  · exact hfirst (List.mem_map_of_mem (List.mem_range.mpr hlt))
  · refine hrest (List.mem_map.mpr ⟨n - (k - j), List.mem_range.mpr (by omega), ?_⟩)
    rw [← hab, ← Function.iterate_add_apply, Nat.sub_add_cancel hge]

/-- Two walks to one end, over strings that do not collide, have one start. -/
theorem walk_start_unique {S : Set Bytes} (hno : NoCollision keccak256 S) {k : Nat}
    {a b : Bytes32} (ha : ∀ s ∈ chainPreimages keccak256 k a, s ∈ S)
    (hb : ∀ s ∈ chainPreimages keccak256 k b, s ∈ S)
    (h : (hashWord keccak256)^[k] a = (hashWord keccak256)^[k] b) : a = b := by
  have hword : Set.InjOn (hashWord keccak256) {x | wordBytes x ∈ S} :=
    fun a ha b hb hab => wordBytes_inj.mp (hno ha hb hab)
  exact HashChain.iterate_inj hword
    (fun i hi => ha _ (List.mem_map_of_mem (List.mem_range.mpr hi)))
    (fun i hi => hb _ (List.mem_map_of_mem (List.mem_range.mpr hi))) h

/-- An opening of a commitment to the chain is a value of the chain. -/
theorem ChainPosition.Commits.opened {c : ChainPosition} {hashed : List Bytes} {rv : Reveal}
    (h : c.Commits keccak256 hashed rv.request) (hopens : Opens keccak256 rv)
    (hsub : openingPreimages keccak256 rv ⊆ hashed)
    (hno : PythCrosschain.NoCollision keccak256 {s | s ∈ hashed}) :
    (hashWord keccak256)^[rv.request.sequenceNumber.toNat -
      c.originalCommitmentSequenceNumber.toNat] rv.providerRevelation = c.originalCommitment ∧
    chainPreimages keccak256 (rv.request.sequenceNumber.toNat -
      c.originalCommitmentSequenceNumber.toNat) rv.providerRevelation ⊆ hashed := by
  obtain ⟨uc, pc, position, hcommit, hmem, hposition, hle, hlinked, hwalked⟩ := h
  have hpreimage : commitmentPreimage (hashWord keccak256 rv.userRevelation)
      ((hashWord keccak256)^[rv.request.numHashes.toNat] rv.providerRevelation) =
      commitmentPreimage uc pc :=
    hno (hsub (List.mem_cons_of_mem _ List.mem_cons_self)) hmem
      (hopens.commitment.symm.trans hcommit)
  have hsteps : rv.request.numHashes.toNat = rv.request.sequenceNumber.toNat - position := by
    omega
  have hprovider := (wordBytes_append_inj hpreimage).2
  have hopening : chainPreimages keccak256 rv.request.numHashes.toNat rv.providerRevelation ⊆
      hashed :=
    fun s hs => hsub (List.mem_cons_of_mem _ (List.mem_cons_of_mem _ hs))
  rw [hsteps] at hprovider hopening
  have hposition : position ≤ rv.request.sequenceNumber.toNat := by omega
  exact ⟨HashChain.iterate_sub hle hposition hprovider hlinked,
    chainPreimages_sub hle hposition hprovider hopening hwalked⟩

/-- A move of one provider's position within its registration. -/
theorem Positions.update {w w' : World} (h : Positions keccak256 w)
    (hhashed : w.hashed ⊆ w'.hashed) {provider : Address} {c : ChainPosition}
    (hchains : w'.state.chains = Function.update w.state.chains provider c)
    (hlinked : c.Linked keccak256) (hwalked : c.Walked keccak256 w'.hashed)
    (horiginal : c.originalCommitment = (w.state.chains provider).originalCommitment)
    (hnumber : c.originalCommitmentSequenceNumber =
      (w.state.chains provider).originalCommitmentSequenceNumber)
    (hrequests : ∀ req ∈ w'.requests, req ∈ w.requests ∨
      (w'.state.chains req.provider).Commits keccak256 w'.hashed req) :
    Positions keccak256 w' := by
  have hsame : ∀ p, (w'.state.chains p).originalCommitment =
        (w.state.chains p).originalCommitment ∧
      (w'.state.chains p).originalCommitmentSequenceNumber =
        (w.state.chains p).originalCommitmentSequenceNumber := by
    intro p
    rw [hchains]
    rcases eq_or_ne p provider with rfl | hp
    · rw [Function.update_self]
      exact ⟨horiginal, hnumber⟩
    · rw [Function.update_of_ne hp]
      exact ⟨rfl, rfl⟩
  refine ⟨?_, ?_, fun req hreq hlt => ?_⟩
  · rw [hchains]
    exact (Function.forall_update_iff _ fun _ (c : ChainPosition) => c.Linked keccak256).mpr
      ⟨hlinked, fun p _ => h.linked p⟩
  · rw [hchains]
    exact (Function.forall_update_iff _
      fun _ (c : ChainPosition) => c.Walked keccak256 w'.hashed).mpr
      ⟨hwalked, fun p _ => List.Subset.trans (h.walked p) hhashed⟩
  · rcases hrequests req hreq with hold | hnew
    · rw [(hsame _).2] at hlt
      obtain ⟨uc, pc, position, hcommits⟩ := (h.commits req hold hlt).mono hhashed
      refine ⟨uc, pc, position, ?_⟩
      rw [(hsame _).1, (hsame _).2]
      exact hcommits
    · exact hnew

/-- A registration starts a chain above the numbers of all earlier requests. -/
theorem Positions.register {w w' : World} (h : Positions keccak256 w)
    (hhist : History keccak256 w) (hhashed : w.hashed ⊆ w'.hashed) {provider : Address}
    {c : ChainPosition} (hcommitment : c.originalCommitment = c.currentCommitment)
    (horiginal :
      c.originalCommitmentSequenceNumber = (w.state.chains provider).sequenceNumber)
    (hcurrent : c.currentCommitmentSequenceNumber = (w.state.chains provider).sequenceNumber)
    (hchains : w'.state.chains = Function.update w.state.chains provider c)
    (hrequests : w'.requests = w.requests) : Positions keccak256 w' := by
  refine ⟨?_, ?_, fun req hreq hlt => ?_⟩
  · rw [hchains]
    refine (Function.forall_update_iff _ fun _ (c : ChainPosition) => c.Linked keccak256).mpr
      ⟨?_, fun p _ => h.linked p⟩
    rw [ChainPosition.Linked, horiginal, hcurrent, Nat.sub_self]
    exact hcommitment.symm
  · rw [hchains]
    refine (Function.forall_update_iff _
      fun _ (c : ChainPosition) => c.Walked keccak256 w'.hashed).mpr
      ⟨?_, fun p _ => List.Subset.trans (h.walked p) hhashed⟩
    rw [ChainPosition.Walked, horiginal, hcurrent, Nat.sub_self]
    exact List.nil_subset _
  · rw [hrequests] at hreq
    rw [hchains] at hlt ⊢
    rcases eq_or_ne req.provider provider with rfl | hp
    · rw [Function.update_self, horiginal] at hlt
      have hold := (hhist.assigned req hreq).2
      omega
    · rw [Function.update_of_ne hp] at hlt ⊢
      exact (h.commits req hreq hlt).mono hhashed

theorem Positions.step {w w' : World} (h : Positions keccak256 w) (hhist : History keccak256 w)
    (hcount : Counters w) (he : Effect keccak256 w w') (hno : w'.NoCollision keccak256) :
    Positions keccak256 w' := by
  cases he.change with
  | quiet hchains _ hrequests =>
    refine ⟨fun p => ?_, fun p => ?_, fun req hreq hlt => ?_⟩
    · rw [hchains]
      exact h.linked p
    · rw [hchains]
      exact List.Subset.trans (h.walked p) he.hashed
    · rw [hrequests] at hreq
      rw [hchains] at hlt ⊢
      exact (h.commits req hreq hlt).mono he.hashed
  | register q c chainLength _ hcommitment horiginal hcurrent _ _ hchains _ hrequests =>
    exact h.register hhist he.hashed hcommitment horiginal hcurrent hchains hrequests
  | request req env uc next hmade hnext hmem hchains _ hrequests =>
    have hwalked := List.Subset.trans (h.walked req.provider) he.hashed
    refine h.update he.hashed hchains (h.linked req.provider) hwalked rfl rfl fun r hr => ?_
    rw [hrequests] at hr
    rcases List.mem_cons.mp hr with rfl | hr
    · -- The new request commits to the current commitment of its chain.
      have hord := hcount.ordered_of_lt (.inr hmade.inChain)
      refine .inr ⟨uc, _, _, hmade.commitment, hmem, hmade.numHashes, ?_⟩
      rw [hchains, Function.update_self]
      exact ⟨hord.original_le, h.linked r.provider, hwalked⟩
    · exact .inl hr
  | reveal rv hrv =>
    have hnew : ((w.state.chains rv.request.provider).afterReveal rv.request
          rv.providerRevelation).Linked keccak256 ∧
        ((w.state.chains rv.request.provider).afterReveal rv.request
          rv.providerRevelation).Walked keccak256 w'.hashed := by
      unfold ChainPosition.afterReveal
      split
      · next hcur =>
        -- A reveal that moves the chain is of a request of the current chain.
        have hmem := hhist.inFlight.lookup (inFlight_iff.mp hrv.inFlight)
        have hord := hcount.ordered_of_lt (.inl (hhist.assigned _ hmem).2)
        have hcommits := h.commits _ hmem (Nat.lt_of_le_of_lt hord.original_le hcur)
        exact (hcommits.mono he.hashed).opened hrv.opens hrv.hashed hno
      · exact ⟨h.linked _, List.Subset.trans (h.walked _) he.hashed⟩
    refine h.update he.hashed hrv.chains hnew.1 hnew.2 ?_ ?_ fun r hr => .inl (hrv.requests ▸ hr)
    · unfold ChainPosition.afterReveal
      split <;> rfl
    · unfold ChainPosition.afterReveal
      split <;> rfl
  | advance q target next v hcur hend hwalk _ _ _ hchains _ hrequests _ _ hhashed =>
    have hend : target.toNat < (w.state.chains q).endSequenceNumber.toNat := hend
    have hord := hcount.ordered_of_lt (.inr hend)
    have hle := Nat.le_of_lt hcur
    refine h.update he.hashed hchains ?_ ?_ rfl rfl fun r hr => .inl (hrequests ▸ hr)
    · exact HashChain.iterate_sub hord.original_le hle hwalk (h.linked q)
    · exact chainPreimages_sub hord.original_le hle hwalk hhashed
        (List.Subset.trans (h.walked q) he.hashed)

theorem initial_positions {w : World} (h : Initial w) : Positions keccak256 w := by
  refine ⟨fun p => ?_, fun p => ?_, fun req hreq => ?_⟩
  · rw [initial_chains h p]
    rfl
  · rw [initial_chains h p]
    exact List.nil_subset _
  · simp [World.requests, (initial_table h).2.2] at hreq

theorem World.NoCollision.mono {w w' : World} (h : w'.NoCollision keccak256)
    (hsub : w.hashed ⊆ w'.hashed) : w.NoCollision keccak256 :=
  Set.InjOn.mono (fun _ hs => hsub hs) h

theorem flatReachable_positions {w : World} (h : (component keccak256).FlatReachable w) :
    w.NoCollision keccak256 → Positions keccak256 w := by
  refine h.invariant (P := fun w => w.NoCollision keccak256 → Positions keccak256 w)
    (fun _ h0 _ => initial_positions h0) fun w w' hw hpositions hm hno => ?_
  have he := move_effect hm
  exact (hpositions (hno.mono he.hashed)).step (flatReachable_history hw)
    (flatReachable_counters hw) he hno

/-- The position of a registered provider in its hash chain, in every reachable
configuration. The counters are ordered. Where the strings hashed so far do not
collide, the current commitment is on the chain that ends in the original
commitment, at the distance that the counters say. So when the provider
committed to the head `x 0` of a chain `x`, and hashing a word is injective, the
current commitment is the chain's value at that distance, and a request with the
number `n` of this registration can only be revealed with the chain's value at
`n`. -/
theorem hash_chain_position {c : Config World Pending} (hc : (component keccak256).Reachable c)
    {provider : Address} (hregistered : (c.state.state.providers provider).sequenceNumber ≠ 0) :
    let info := c.state.state.providers provider
    let distance (n : Uint64) := n.toNat - info.originalCommitmentSequenceNumber.toNat
    (info.originalCommitmentSequenceNumber ≤ info.currentCommitmentSequenceNumber ∧
      info.currentCommitmentSequenceNumber < info.sequenceNumber ∧
      info.sequenceNumber ≤ info.endSequenceNumber) ∧
    (c.state.NoCollision keccak256 →
      (hashWord keccak256)^[distance info.currentCommitmentSequenceNumber]
        info.currentCommitment = info.originalCommitment) ∧
    ∀ x : Nat → Bytes32, x 0 = info.originalCommitment →
      (∀ i, i + 1 < distance info.endSequenceNumber → x i = hashWord keccak256 (x (i + 1))) →
      Function.Injective (hashWord keccak256) →
      (c.state.NoCollision keccak256 →
        info.currentCommitment = x (distance info.currentCommitmentSequenceNumber)) ∧
      ∀ n userRevelation providerRevelation w',
        info.originalCommitmentSequenceNumber < n →
        Reveals keccak256 c.state provider n userRevelation providerRevelation w' →
        w'.NoCollision keccak256 →
        providerRevelation = x (distance n) := by
  intro info distance
  have hflat := hc.flat
  have hpos : 0 < (c.state.state.chains provider).sequenceNumber.toNat :=
    Nat.pos_of_ne_zero fun h0 => hregistered (BitVec.eq_of_toNat_eq h0)
  have hord := (flatReachable_counters hflat).ordered_of_lt (.inl hpos)
  have hlinked : c.state.NoCollision keccak256 →
      (c.state.state.chains provider).Linked keccak256 :=
    fun hno => (flatReachable_positions hflat hno).linked provider
  refine ⟨⟨hord.original_le, hord.current_lt, hord.le_end⟩, hlinked, ?_⟩
  intro x hhead hchain hinj
  have horiginal := hord.original_le
  have hcurrent := hord.current_lt
  have hend := hord.le_end
  constructor
  · intro hno
    refine HashChain.chain_value hinj hchain ?_ ((hlinked hno).trans hhead.symm)
    change _ - _ < _ - _
    exact Nat.sub_lt_sub_right horiginal (Nat.lt_of_lt_of_le hcurrent hend)
  · intro n userRevelation providerRevelation w' hn hreveals hno
    obtain ⟨rv, heffect, hrv, rfl, rfl, rfl, rfl⟩ := hreveals.change
    have hhist := flatReachable_history hflat
    have hmem := hhist.inFlight.lookup (inFlight_iff.mp hrv.inFlight)
    have hassigned := (hhist.assigned _ hmem).2
    have hpositions := flatReachable_positions hflat (hno.mono heffect.hashed)
    have hopened := ((hpositions.commits _ hmem hn).mono heffect.hashed).opened hrv.opens
      hrv.hashed hno
    refine HashChain.chain_value hinj hchain ?_ (hopened.1.trans hhead.symm)
    change _ - _ < _ - _
    exact Nat.sub_lt_sub_right (Nat.le_of_lt hn) (Nat.lt_of_lt_of_le hassigned hend)

end

/-! ## A run -/

theorem exKeccak_hashWord_injective : Function.Injective (hashWord exKeccak) := by
  intro x y h
  have hword : ∀ z : Bytes32, hashWord exKeccak z = z + BitVec.ofNat 256 (32 * 2 ^ 240) := by
    intro z
    have hread : natBE (wordBytes z) = z.toNat :=
      (natBE_bytesBE 32 z.toNat).trans (Nat.mod_eq_of_lt z.isLt)
    simp [hashWord, exKeccak, hread, BitVec.ofNat_add, Nat.div_eq_of_lt z.isLt]
  rw [hword, hword] at h
  exact (BitVec.add_left_inj _).mp h

theorem exChain_step : ∀ i, i + 1 < 10 → exChain i = hashWord exKeccak (exChain (i + 1)) := by
  intro i hi
  have hstep : 9 - i = (9 - (i + 1)) + 1 := by omega
  rw [exChain, exChain, hstep, Function.iterate_succ_apply']

/-- The world in which user 9 has revealed the first of the two requests. -/
def exRevealed : World :=
  [exMessage 9 (.reveal 7 1 33 (exChain 1))].foldl (component exKeccak).perform exInFlight

theorem exRevealed_reachable : (component exKeccak).Reachable ⟨exRevealed, []⟩ :=
  exInFlight_reachable.steps (Component.steps_perform _ _ _ _)

theorem exRevealed_noCollision : exRevealed.NoCollision exKeccak := by
  have h : ∀ s ∈ exRevealed.hashed, ∀ t ∈ exRevealed.hashed, exKeccak s = exKeccak t → s = t := by
    decide +kernel
  exact fun s hs t ht => h s hs t ht

/-- The chain has moved from its head to its value for the first request. -/
theorem hash_chain_position_run :
    (exRevealed.state.providers 7).currentCommitment = exChain 1 := by
  have hlength : (exRevealed.state.providers 7).endSequenceNumber.toNat -
      (exRevealed.state.providers 7).originalCommitmentSequenceNumber.toNat = 10 := by
    decide +kernel
  have hdistance : (exRevealed.state.providers 7).currentCommitmentSequenceNumber.toNat -
      (exRevealed.state.providers 7).originalCommitmentSequenceNumber.toNat = 1 := by
    decide +kernel
  have hposition := @hash_chain_position exKeccak _ exRevealed_reachable 7 (by decide +kernel)
  dsimp only at hposition
  rw [hlength, hdistance] at hposition
  exact (hposition.2.2 exChain (by decide +kernel) exChain_step exKeccak_hashWord_injective).1
    exRevealed_noCollision

end PythCrosschain.Entropy
