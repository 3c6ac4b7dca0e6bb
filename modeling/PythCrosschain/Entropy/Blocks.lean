import PythCrosschain.Entropy.ChainPosition
import PythCrosschain.Lib.SettledChain

/-!
# Entropy: the blocks of a chain

A block runs any calls of the contract, one after the other or nested in callbacks, all of
them with its own number (`Block`); `EntropyChain` is the contract's history over the blocks
of a chain. Every provider's sequence numbers are assigned in increasing order, so each
number is assigned in one block (`AssignedIn`). The results are:

- `next_mono`: the next sequence number of a provider only grows from block to block;
- `request_block`: a request is in the history since the block whose number it carries;
- `exists_assignedIn`: a number below the next one was assigned in a block before;
- `AssignedIn.takes`: what assigned it is a request, a registration or an advance.
-/

namespace PythCrosschain.Entropy

/-! ## The calls of a block -/

section

variable (keccak256 : Bytes → Bytes32)

/-- The contract from the world `w` on, where only calls in block `number` are made. -/
def blockComponent (number : Nat) (w : World) : Component World Message Pending :=
  { (component keccak256).restrict fun m _ => m.env.block.number.toNat = number with
    init := (· = w) }

/-- The transactions of block `number` lead from `w` to `w'`. -/
def Block (number : Nat) (w w' : World) : Prop :=
  (blockComponent keccak256 number w).Reachable ⟨w', []⟩

/-- A chain starts before the first call, and its blocks run calls. Irreducible, so that no
type that mentions a chain unfolds the contract. -/
@[irreducible] def blockRules : BlockRules World where
  genesis := Initial
  block := Block keccak256

/-- The contract's history over the blocks of a chain. -/
abbrev EntropyChain := BlockChain (blockRules keccak256)

end

/-- An announced request carries the number of the block. -/
def Event.MadeIn (number : Nat) : Event → Prop
  | .requested request => request.blockNumber.toNat = number
  | .requestedWithCallback _ _ sequenceNumber _ request =>
    request.blockNumber.toNat = number ∧ sequenceNumber = request.sequenceNumber
  | _ => True

/-- Why a move takes the number `m` of the provider: for a request, for the commitment of a
registration, or because an advance reveals the chain up to it. -/
inductive Takes (w w' : World) (provider : Address) (m : Nat) : Prop
  | request (req : Request) :
      w'.requests = req :: w.requests → req.provider = provider →
      req.sequenceNumber.toNat = m → Takes w w' provider m
  | registration :
      (w'.state.chains provider).originalCommitmentSequenceNumber.toNat = m →
      w'.registrations.length = w.registrations.length + 1 → Takes w w' provider m
  | advance :
      (w.state.chains provider).currentCommitmentSequenceNumber.toNat < m →
      m ≤ (w'.state.chains provider).currentCommitmentSequenceNumber.toNat →
      Takes w w' provider m

section

variable {keccak256 : Bytes → Bytes32}

/-! ## What a move of a block does -/

/-- The events of a move: the new ones, and the old ones below them. -/
structure Announces (number : Nat) (w w' : World) : Prop where
  kept : w.logs <:+ w'.logs
  made : ∀ e ∈ w'.logs, e ∈ w.logs ∨ e.MadeIn number

theorem Announces.of_logs_eq {number : Nat} {w w' : World} (hlogs : w'.logs = w.logs) :
    Announces number w w' :=
  ⟨hlogs ▸ List.suffix_refl _, fun _ he => .inl (hlogs ▸ he)⟩

theorem Announces.cons {number : Nat} {w w' : World} {e : Event}
    (hlogs : w'.logs = e :: w.logs) (he : e.MadeIn number) : Announces number w w' := by
  refine ⟨⟨[e], hlogs.symm⟩, fun e' he' => ?_⟩
  rw [hlogs] at he'
  rcases List.mem_cons.mp he' with rfl | old
  · exact .inr he
  · exact .inl old

theorem Announces.trans {number : Nat} {w w₁ w' : World} (h : Announces number w w₁)
    (h' : Announces number w₁ w') : Announces number w w' := by
  refine ⟨h.kept.trans h'.kept, fun e he => ?_⟩
  rcases h'.made e he with old | new
  · exact h.made e old
  · exact .inr new

theorem requestHelper_made {w : World} {env : Env} {provider : Address}
    {userCommitment : Bytes32} {useBlockhash isRequestWithCallback : Bool} {ref : RequestRef}
    {s : State}
    (h : requestHelper keccak256 env provider userCommitment useBlockhash isRequestWithCallback
      w.state = .ok (ref, s)) :
    (s.load ref).blockNumber.toNat = env.block.number.toNat := by
  obtain ⟨req, next, rfl, -, hmade, -⟩ := requestHelper_spec h
  exact hmade.blockNumber

theorem execute_announces {m : Message} {w : World} {o : Outcome World Pending}
    (h : execute keccak256 m w = .ok o) : Announces m.env.block.number.toNat w o.state := by
  obtain ⟨env, owner, call⟩ := m
  simp only [execute, bind_eq_ok, require_eq_ok, exists_const] at h
  obtain ⟨-, h⟩ := h
  cases call with
  | register =>
    simp only [register, bind_eq_ok, pure_eq_ok] at h
    obtain ⟨_, ⟨_, -, _, -, _, -, rfl⟩, rfl⟩ := h
    exact .cons rfl trivial
  | withdraw =>
    simp only [withdraw, startWithdrawal, bind_eq_ok, pure_eq_ok] at h
    obtain ⟨_, -, _, -, _, -, rfl⟩ := h
    exact .of_logs_eq rfl
  | withdrawAsFeeManager =>
    simp only [withdrawAsFeeManager, startWithdrawal, bind_eq_ok, pure_eq_ok] at h
    obtain ⟨_, -, _, -, _, -, _, -, rfl⟩ := h
    exact .of_logs_eq rfl
  | request =>
    simp only [request, bind_eq_ok, pure_eq_ok, Prod.exists, Prod.mk.injEq] at h
    obtain ⟨_, _, ⟨_, _, hreq, -, rfl⟩, rfl⟩ := h
    exact .cons rfl (requestHelper_made hreq)
  | requestWithCallback =>
    simp only [requestWithCallback, bind_eq_ok, pure_eq_ok, Prod.exists, Prod.mk.injEq] at h
    obtain ⟨_, _, ⟨_, _, hreq, -, rfl⟩, rfl⟩ := h
    exact .cons rfl ⟨requestHelper_made hreq, rfl⟩
  | advanceProviderCommitment =>
    simp only [advanceProviderCommitment, bind_eq_ok, pure_eq_ok] at h
    obtain ⟨_, ⟨_, -, _, -, _, -, _, -, _, -, _, -, rfl⟩, rfl⟩ := h
    exact .of_logs_eq rfl
  | reveal =>
    simp only [reveal, bind_eq_ok, pure_eq_ok, Prod.exists, Prod.mk.injEq] at h
    obtain ⟨_, _, ⟨_, -, _, -, _, -, _, _, -, -, rfl⟩, rfl⟩ := h
    exact .cons rfl trivial
  | revealWithCallback =>
    simp only [revealWithCallback, bind_eq_ok, Prod.exists] at h
    obtain ⟨_, -, _, -, _, _, -, h⟩ := h
    split at h
    · cases pure_eq_ok.mp h
      exact .cons rfl trivial
    · cases pure_eq_ok.mp h
      exact .cons rfl trivial
  | setProviderFee | setProviderUri | setFeeManager | setMaxNumHashes =>
    simp only [setProviderFee, setProviderUri, setFeeManager, setMaxNumHashes, updateOwnProvider,
      bind_eq_ok, pure_eq_ok] at h
    obtain ⟨_, ⟨_, -, rfl⟩, rfl⟩ := h
    exact .cons rfl trivial
  | setProviderFeeAsFeeManager | setPythFee =>
    simp only [setProviderFeeAsFeeManager, setPythFee, bind_eq_ok, pure_eq_ok] at h
    obtain ⟨_, ⟨_, -, rfl⟩, rfl⟩ := h
    exact .cons rfl trivial
  | proposeAdmin | setDefaultProvider =>
    simp only [proposeAdmin, setDefaultProvider, bind_eq_ok, pure_eq_ok] at h
    obtain ⟨_, ⟨_, -, _, -, rfl⟩, rfl⟩ := h
    exact .cons rfl trivial
  | acceptAdmin =>
    simp only [acceptAdmin, bind_eq_ok, pure_eq_ok] at h
    obtain ⟨_, ⟨_, -, rfl⟩, rfl⟩ := h
    exact .cons rfl trivial

theorem resume_announces {k : Pending} {ok : Bool} {w : World} {o : Outcome World Pending}
    (h : resume k ok w = some o) (number : Nat) : Announces number w o.state := by
  cases ok with
  | false => cases k <;> cases h
  | true =>
    cases k with
    | withdrawal => cases h; exact .cons rfl trivial
    | entropyCallback => cases h; exact .of_logs_eq rfl

/-! ## What a block does -/

theorem start_in_block {number : Nat} {w₀ w : World} {m : Message} {o : Outcome World Pending}
    (h : (blockComponent keccak256 number w₀).start m w = some o) :
    m.env.block.number.toNat = number ∧ (component keccak256).start m w = some o :=
  Component.restrict_start (C := component keccak256)
    (P := fun m _ => m.env.block.number.toNat = number) h

/-- A move of a block is one of the contract, and announces the block's number. -/
theorem move_in_block {number : Nat} {w₀ w w' : World}
    (h : (blockComponent keccak256 number w₀).Move w w') :
    (component keccak256).Move w w' ∧ Announces number w w' := by
  cases h with
  | start h =>
    obtain ⟨hnumber, h⟩ := start_in_block h
    rw [← hnumber]
    exact ⟨.start h, execute_announces (toOption_eq_some.mp h)⟩
  | resume h => exact ⟨.resume h, resume_announces h number⟩

/-- The induction rule for a block: what its moves preserve, the block preserves. -/
theorem Block.invariant {P : World → Prop} {number : Nat} {w w' : World}
    (h : Block keccak256 number w w') (hw : P w)
    (hmove : ∀ x y, P x → (component keccak256).Move x y → Announces number x y → P y) : P w' := by
  refine Component.Reachable.invariant h (P := P) (fun _ heq => heq ▸ hw) fun x y _ hx hxy => ?_
  obtain ⟨hxy, hnew⟩ := move_in_block hxy
  exact hmove x y hx hxy hnew

theorem Block.flatReachable {number : Nat} {w w' : World} (h : Block keccak256 number w w')
    (hw : (component keccak256).FlatReachable w) : (component keccak256).FlatReachable w' :=
  h.invariant hw fun _ _ hx hmove _ => hx.move hmove

theorem Block.announces {number : Nat} {w w' : World} (h : Block keccak256 number w w') :
    Announces number w w' :=
  h.invariant (.of_logs_eq rfl) fun _ _ hx _ hnew => hx.trans hnew

/-- The next sequence number of a provider, as a number. -/
def nextOf (provider : Address) (w : World) : Nat :=
  (w.state.providers provider).sequenceNumber.toNat

theorem Block.next_mono {number : Nat} {w w' : World} (h : Block keccak256 number w w')
    (provider : Address) : nextOf provider w ≤ nextOf provider w' := by
  refine h.invariant (P := fun x => nextOf provider w ≤ nextOf provider x) (Nat.le_refl _) ?_
  intro x y hx hmove _
  exact Nat.le_trans hx ((move_effect hmove).change.sequenceNumber_le provider)

/-- A provider that has not registered has no commitment either. -/
theorem current_eq_zero {w : World} (h : (component keccak256).FlatReachable w)
    (p : Address) (hzero : (w.state.chains p).sequenceNumber.toNat = 0) :
    (w.state.chains p).currentCommitmentSequenceNumber = 0 := by
  refine h.invariant (P := fun w => ∀ p, (w.state.chains p).sequenceNumber.toNat = 0 →
    (w.state.chains p).currentCommitmentSequenceNumber = 0) ?_ ?_ p hzero
  · intro w hw p _
    rw [initial_chains hw p]
    rfl
  intro x y hx ih hmove p hzero
  have hchange := (move_effect hmove).change
  have hbefore : (x.state.chains p).sequenceNumber.toNat = 0 :=
    Nat.eq_zero_of_le_zero (hzero ▸ hchange.sequenceNumber_le p)
  -- Only a move that writes this chain can have changed its commitment.
  have hown : ∀ (q : Address) (position : ChainPosition),
      y.state.chains = Function.update x.state.chains q position →
      (q = p → position.currentCommitmentSequenceNumber = 0) →
      (y.state.chains p).currentCommitmentSequenceNumber = 0 := by
    intro q position hchains hposition
    rw [hchains]
    by_cases heq : p = q
    · subst heq
      rw [Function.update_self]
      exact hposition rfl
    · rw [Function.update_of_ne heq]
      exact ih p hbefore
  cases hchange with
  | quiet hchains => exact hchains ▸ ih p hbefore
  | register q position _ _ _ _ _ hnext _ hchains =>
    refine hown q position hchains ?_
    rintro rfl
    rw [hchains, Function.update_self, hnext] at hzero
    exact absurd hzero (Nat.succ_ne_zero _)
  | request req env userCommitment next _ _ _ hchains =>
    refine hown req.provider _ hchains ?_
    rintro rfl
    exact ih req.provider hbefore
  | reveal rv hrv =>
    refine hown rv.request.provider _ hrv.chains ?_
    rintro rfl
    have hmade := (flatReachable_history hx).inFlight.lookup (inFlight_iff.mp hrv.inFlight)
    have hassigned := ((flatReachable_history hx).assigned rv.request hmade).2
    rw [hbefore] at hassigned
    exact absurd hassigned (Nat.not_lt_zero _)
  | advance q target next _ _ hend _ _ _ _ hchains =>
    refine hown q _ hchains ?_
    rintro rfl
    have hordered := (flatReachable_counters hx).ordered_of_lt
      (.inr (Nat.lt_of_le_of_lt (Nat.zero_le _) hend))
    have hlt := hordered.current_lt
    rw [hbefore] at hlt
    exact absurd hlt (Nat.not_lt_zero _)

/-! ## Over the blocks of a chain -/

theorem genesis_iff {w : World} : (blockRules keccak256).genesis w ↔ Initial w := by
  unfold blockRules
  rfl

theorem block_iff {number : Nat} {w w' : World} :
    (blockRules keccak256).block number w w' ↔ Block keccak256 number w w' := by
  unfold blockRules
  rfl

variable {c : EntropyChain keccak256} {provider : Address} {n : Nat}

theorem flatReachable_stateAt (hn : n ≤ c.latest) :
    (component keccak256).FlatReachable (c.stateAt n) :=
  BlockChain.invariant (P := fun _ w => (component keccak256).FlatReachable w)
    (fun w hw => ⟨w, genesis_iff.mp hw, .refl⟩)
    (fun _ _ _ hw hblock => (block_iff.mp hblock).flatReachable hw) hn

theorem next_mono {m : Nat} (hm : m ≤ n) (hn : n ≤ c.latest) :
    nextOf provider (c.stateAt m) ≤ nextOf provider (c.stateAt n) :=
  BlockChain.le_of_le (fun _ _ _ hblock => (block_iff.mp hblock).next_mono provider) hm hn

/-- A request was announced in the block whose number it carries. -/
theorem request_block (hn : n ≤ c.latest) {req : Request} (hreq : req ∈ (c.stateAt n).requests) :
    req.blockNumber.toNat ≤ n ∧ req ∈ (c.stateAt req.blockNumber.toNat).requests := by
  induction n with
  | zero =>
    rw [(@initial_empty keccak256 _ (genesis_iff.mp c.starts)).2.1] at hreq
    exact absurd hreq List.not_mem_nil
  | succ n ih =>
    obtain ⟨e, he, hannounced⟩ := List.mem_filterMap.mp hreq
    rcases (block_iff.mp (c.follows n hn)).announces.made e he with old | new
    · obtain ⟨hle, hmem⟩ := ih (Nat.le_of_succ_le hn) (List.mem_filterMap.mpr ⟨e, old, hannounced⟩)
      exact ⟨Nat.le_succ_of_le hle, hmem⟩
    · have hnumber : req.blockNumber.toNat = n + 1 := by
        cases e with
        | requested request =>
          cases hannounced
          exact new
        | requestedWithCallback _ _ _ _ request =>
          cases hannounced
          exact new.1
        | _ => cases hannounced
      rw [hnumber]
      exact ⟨Nat.le_refl _, hreq⟩

/-- The number of a request is below the next one of its provider. -/
theorem request_lt_next (hn : n ≤ c.latest) {req : Request}
    (hreq : req ∈ (c.stateAt n).requests) :
    req.sequenceNumber.toNat < nextOf req.provider (c.stateAt n) :=
  ((flatReachable_history (flatReachable_stateAt hn)).assigned req hreq).2

/-- An event with callback announces its request's own number. -/
theorem requestedWithCallback_number (hn : n ≤ c.latest) {p r : Address} {m : Uint64}
    {u : Bytes32} {req : Request}
    (he : Event.requestedWithCallback p r m u req ∈ (c.stateAt n).logs) :
    m = req.sequenceNumber := by
  induction n with
  | zero =>
    rw [(initial_table (genesis_iff.mp c.starts)).2.2] at he
    exact absurd he List.not_mem_nil
  | succ n ih =>
    rcases (block_iff.mp (c.follows n hn)).announces.made _ he with old | new
    · exact ih (Nat.le_of_succ_le hn) old
    · exact new.2

/-! ## In which block a number is assigned -/

/-- The sequence number `m` of the provider is assigned in this block: it was not assigned
before, and the next number is above it after the block. -/
structure AssignedIn (c : EntropyChain keccak256) (provider : Address) (m block : Nat) : Prop where
  positive : 0 < block
  before : nextOf provider (c.stateAt (block - 1)) ≤ m
  after : m < nextOf provider (c.stateAt block)

theorem exists_assignedIn {m : Nat} (hm : m < nextOf provider (c.stateAt n)) :
    ∃ block ≤ n, AssignedIn c provider m block := by
  have hinit : ∀ w, (blockRules keccak256).genesis w → nextOf provider w ≤ m := by
    intro w hw
    have hzero : nextOf provider w = 0 :=
      congrArg (fun position => position.sequenceNumber.toNat)
        (initial_chains (genesis_iff.mp hw) provider)
    rw [hzero]
    exact Nat.zero_le _
  obtain ⟨i, hi, hbefore, hafter⟩ := BlockChain.exists_crossing hinit hm
  exact ⟨i + 1, hi, Nat.succ_pos i, hbefore, hafter⟩

/-- A move that brings the next number above `m` takes `m`. -/
theorem takes_of_crossing {w w' : World} {m : Nat} (h : Change keccak256 w w')
    (hcount : Counters w) (hbefore : nextOf provider w ≤ m) (hafter : m < nextOf provider w') :
    Takes w w' provider m := by
  have hbefore : (w.state.chains provider).sequenceNumber.toNat ≤ m := hbefore
  have hafter : m < (w'.state.chains provider).sequenceNumber.toNat := hafter
  -- A move that writes another provider's chain does not cross.
  have hown : ∀ (q : Address) (position : ChainPosition),
      w'.state.chains = Function.update w.state.chains q position →
      q = provider ∧ w'.state.chains provider = position := by
    intro q position hchains
    by_cases heq : q = provider
    · subst heq
      exact ⟨rfl, by rw [hchains, Function.update_self]⟩
    · rw [hchains, Function.update_of_ne (Ne.symm heq)] at hafter
      exact absurd hafter (Nat.not_lt_of_le hbefore)
  cases h with
  | quiet hchains =>
    rw [hchains] at hafter
    exact absurd hafter (Nat.not_lt_of_le hbefore)
  | register q position _ _ _ hoffset _ hnext _ hchains _ _ _ hnew =>
    obtain ⟨rfl, hposition⟩ := hown q position hchains
    obtain ⟨info, -, hnew⟩ := hnew
    refine .registration ?_ (by rw [hnew, List.length_cons])
    rw [hposition] at hafter ⊢
    rw [hnext] at hafter
    rw [hoffset]
    exact Nat.le_antisymm hbefore (Nat.le_of_lt_succ hafter)
  | request req env userCommitment next hmade hnext _ hchains _ hrequests =>
    obtain ⟨rfl, hposition⟩ := hown req.provider _ hchains
    refine .request req hrequests rfl ?_
    rw [hposition] at hafter
    have hafter : m < next.toNat := hafter
    rw [hnext] at hafter
    rw [← hmade.sequenceNumber] at hbefore
    exact Nat.le_antisymm hbefore (Nat.le_of_lt_succ hafter)
  | reveal rv hrv =>
    obtain ⟨rfl, hposition⟩ := hown rv.request.provider _ hrv.chains
    rw [hposition, ChainPosition.afterReveal] at hafter
    split at hafter <;> exact absurd hafter (Nat.not_lt_of_le hbefore)
  | advance q target next _ hcurrent hend _ _ _ hmax hchains =>
    obtain ⟨rfl, hposition⟩ := hown q _ hchains
    have hordered := hcount.ordered_of_lt (.inr (Nat.lt_of_le_of_lt (Nat.zero_le _) hend))
    refine .advance (Nat.lt_of_lt_of_le hordered.current_lt hbefore) ?_
    rw [hposition] at hafter ⊢
    rcases le_max_iff.mp (Nat.le_trans (Nat.succ_le_of_lt hafter) hmax) with hle | hle
    · exact absurd hle (Nat.not_le_of_gt (Nat.lt_succ_of_le hbefore))
    · exact Nat.le_of_succ_le_succ hle

/-- The block that assigns a number makes a move that takes it. -/
theorem AssignedIn.takes {m block : Nat} (h : AssignedIn c provider m block)
    (hblock : block ≤ c.latest) :
    ∃ w w', (c.stateAt (block - 1)).logs <:+ w.logs ∧ (component keccak256).Move w w' ∧
      w'.logs <:+ (c.stateAt block).logs ∧ Takes w w' provider m := by
  obtain ⟨hpos, hbefore, hafter⟩ := h
  obtain ⟨n, rfl⟩ := Nat.exists_eq_succ_of_ne_zero (Nat.ne_of_gt hpos)
  rw [Nat.succ_eq_add_one, Nat.add_sub_cancel] at hbefore ⊢
  let Crossed (x : World) : Prop := ∃ w w', (c.stateAt n).logs <:+ w.logs ∧
    (component keccak256).Move w w' ∧ w'.logs <:+ x.logs ∧ Takes w w' provider m
  have hrun : (component keccak256).FlatReachable (c.stateAt (n + 1)) ∧
      (c.stateAt n).logs <:+ (c.stateAt (n + 1)).logs ∧
      (nextOf provider (c.stateAt (n + 1)) ≤ m ∨ Crossed (c.stateAt (n + 1))) := by
    refine (block_iff.mp (c.follows n hblock)).invariant (P := fun x =>
      (component keccak256).FlatReachable x ∧ (c.stateAt n).logs <:+ x.logs ∧ (nextOf provider x ≤ m ∨ Crossed x)) ?_ ?_
    · exact ⟨flatReachable_stateAt (Nat.le_of_succ_le hblock), List.suffix_refl _, .inl hbefore⟩
    · rintro x y ⟨hx, hlogs, hor⟩ hmove hnew
      refine ⟨hx.move hmove, hlogs.trans hnew.kept, ?_⟩
      rcases hor with hle | ⟨w, w', hw, hww', hw', htakes⟩
      · by_cases hy : nextOf provider y ≤ m
        · exact .inl hy
        · exact .inr ⟨x, y, hlogs, hmove, List.suffix_refl _,
            takes_of_crossing (move_effect hmove).change (flatReachable_counters hx) hle
              (Nat.lt_of_not_le hy)⟩
      · exact .inr ⟨w, w', hw, hww', hw'.trans hnew.kept, htakes⟩
  exact hrun.2.2.resolve_left (Nat.not_le_of_gt hafter)

end

end PythCrosschain.Entropy
