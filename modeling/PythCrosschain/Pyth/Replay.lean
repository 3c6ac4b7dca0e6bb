import PythCrosschain.Lib.ReplayCounter
import PythCrosschain.Pyth.Governance

/-!
# Replay protection of governance VAAs

`lastExecutedGovernanceSequence` is compared with the sequence of every VAA, and a transfer
of the governance sets it to the sequence of the claim. The abstraction of a world is the
`Counter` of its replay guard; a call that succeeds is a move of this counter.

The results are:

- `execute_change`: what a successful call does to the replay guard;
- `executed_nodup`: no VAA is executed twice in a run in which no claim is older than an
  executed VAA of the claim's emitter;
- `verifyGovernanceVM_of_stale_claim` and `executed_twice`: a claim that is older lets an
  executed VAA through again.
-/

namespace PythCrosschain.Pyth

/-! ## Runs -/

/-- A call of `executeGovernanceInstruction`, with the other contracts at its block. -/
structure GovernanceCall where
  contracts : Contracts
  encodedVM : Bytes

/-- A call that reverts changes nothing. -/
def submit (keccak256 : Bytes → Bytes32) (w : World) (call : GovernanceCall) : World :=
  match executeGovernanceInstruction keccak256 call.contracts call.encodedVM w with
  | .ok w' => w'
  | .error _ => w

/-- The world after a list of calls. -/
def run (keccak256 : Bytes → Bytes32) (w : World) (calls : List GovernanceCall) : World :=
  calls.foldl (submit keccak256) w

/-! ## What an execution does -/

def VaaId.source (id : VaaId) : DataSource where
  chainId := id.emitterChainId
  emitterAddress := id.emitterAddress

def VM.source (vm : VM) : DataSource := vm.id.source

/-- The VAA of a call that asks for a transfer of the governance, and the claim that it
carries, where both pass the checks that a transfer begins with. -/
def transferClaim (c : Contracts) (s : State) (encodedVM : Bytes) : Option (VM × VM) := do
  let (vm, valid) ← (parseAndVerifyVM c s encodedVM).toOption
  guard (valid = true ∧ vm.source = s.governanceDataSource ∧
    vm.sequence > s.lastExecutedGovernanceSequence)
  let gi ← (parseGovernanceInstruction vm.payload).toOption
  guard (gi.action = .authorizeGovernanceDataSourceTransfer)
  let (claim, claimValid) ← (parseAndVerifyVM c s gi.payload).toOption
  guard (claimValid = true)
  return (vm, claim)

section

variable {keccak256 : Bytes → Bytes32} {c : Contracts}

theorem transferClaim_eq_some {s : State} {encodedVM : Bytes} {vm claim : VM} :
    transferClaim c s encodedVM = some (vm, claim) ↔
      parseAndVerifyVM c s encodedVM = .ok (vm, true) ∧
      vm.source = s.governanceDataSource ∧ vm.sequence > s.lastExecutedGovernanceSequence ∧
      ∃ gi, parseGovernanceInstruction vm.payload = .ok gi ∧
        gi.action = .authorizeGovernanceDataSourceTransfer ∧
        parseAndVerifyVM c s gi.payload = .ok (claim, true) := by
  simp only [transferClaim, Option.bind_eq_bind, Option.bind_eq_some_iff, toOption_eq_some,
    Option.guard_eq_some', Option.pure_def, Option.some.injEq]
  constructor
  · rintro ⟨⟨vm', valid⟩, hparse, -, ⟨hvalid, hsource, hsequence⟩, gi, hgi, -, haction,
      ⟨claim', claimValid⟩, hclaim, -, hclaimValid, heq⟩
    obtain rfl : valid = true := hvalid
    obtain rfl : claimValid = true := hclaimValid
    obtain ⟨rfl, rfl⟩ := Prod.mk.inj heq
    exact ⟨hparse, hsource, hsequence, gi, hgi, haction, hclaim⟩
  · rintro ⟨hparse, hsource, hsequence, gi, hgi, haction, hclaim⟩
    exact ⟨(vm, true), hparse, (), ⟨rfl, hsource, hsequence⟩, gi, hgi, (), haction, (claim, true),
      hclaim, (), rfl, rfl⟩

/-- What the action of an instruction does to the replay guard. -/
inductive GuardChange (c : Contracts) (gi : GovernanceInstruction) (s s' : State) : Prop
  | kept : gi.action ≠ .authorizeGovernanceDataSourceTransfer →
      s'.governanceDataSource = s.governanceDataSource →
      s'.lastExecutedGovernanceSequence = s.lastExecutedGovernanceSequence → GuardChange c gi s s'
  | transferred (claim : VM) : gi.action = .authorizeGovernanceDataSourceTransfer →
      parseAndVerifyVM c s gi.payload = .ok (claim, true) →
      s'.governanceDataSource = claim.source →
      s'.lastExecutedGovernanceSequence = claim.sequence → GuardChange c gi s s'

theorem executeAction_change {encodedVM : Bytes} {gi : GovernanceInstruction} {w w' : World}
    (h : executeAction keccak256 c encodedVM gi w = .ok w') :
    w'.executed = w.executed ∧ GuardChange c gi w.state w'.state := by
  unfold executeAction at h
  split at h
  · next haction =>
    simp only [upgradeContract, bind_eq_ok, pure_eq_ok] at h
    obtain ⟨-, -, -, -, -, -, -, -, -, -, rfl⟩ := h
    exact ⟨rfl, .kept (by simp [haction]) rfl rfl⟩
  · next haction =>
    simp only [parseAuthorizeGovernanceDataSourceTransferPayload, pure_bind,
      AuthorizeGovernanceDataSourceTransfer, bind_eq_ok, require_eq_ok, pure_eq_ok] at h
    obtain ⟨⟨claim, valid⟩, hclaim, -, hvalid, -, -, -, -, -, -, -, -, -, -, rfl⟩ := h
    obtain rfl : valid = true := hvalid
    exact ⟨rfl, .transferred claim haction hclaim rfl rfl⟩
  · next haction =>
    obtain ⟨dataSources, -, h⟩ := bind_eq_ok.mp h
    cases pure_eq_ok.mp h
    exact ⟨rfl, .kept (by simp [haction]) rfl rfl⟩
  · next haction =>
    obtain ⟨newFee, -, h⟩ := bind_eq_ok.mp h
    cases pure_eq_ok.mp h
    exact ⟨rfl, .kept (by simp [haction]) rfl rfl⟩
  · next haction =>
    obtain ⟨newValidPeriod, -, h⟩ := bind_eq_ok.mp h
    cases pure_eq_ok.mp h
    exact ⟨rfl, .kept (by simp [haction]) rfl rfl⟩
  · cases h
  · next haction =>
    simp only [setWormholeAddress, bind_eq_ok, pure_eq_ok] at h
    obtain ⟨-, -, -, -, -, -, -, -, -, -, -, -, -, -, -, -, -, -, -, -, rfl⟩ := h
    exact ⟨rfl, .kept (by simp [haction]) rfl rfl⟩

theorem isValidGovernanceDataSource_iff {s : State} {vm : VM} :
    isValidGovernanceDataSource s vm.emitterChainId vm.emitterAddress = true ↔
      vm.source = s.governanceDataSource := by
  have hsource : s.governanceDataSource
      = { chainId := s.governanceDataSource.chainId,
          emitterAddress := s.governanceDataSource.emitterAddress } := rfl
  rw [isValidGovernanceDataSource, decide_eq_true_eq, hsource, VM.source, VM.id, VaaId.source,
    DataSource.mk.injEq]
  exact and_congr eq_comm eq_comm

/-- The replay guard accepts the VAAs of the source that governs, ahead of the counter. -/
theorem verifyGovernanceVM_eq_ok {encodedVM : Bytes} {w w' : World} {vm : VM} :
    verifyGovernanceVM c encodedVM w = .ok (vm, w') ↔
      parseAndVerifyVM c w.state encodedVM = .ok (vm, true) ∧
      vm.source = w.state.governanceDataSource ∧
      vm.sequence > w.state.lastExecutedGovernanceSequence ∧
      w' = { w with
        state := { w.state with lastExecutedGovernanceSequence := vm.sequence } } := by
  simp only [verifyGovernanceVM, bind_eq_ok, require_eq_ok, pure_eq_ok]
  constructor
  · rintro ⟨⟨vm', valid⟩, hparse, -, hvalid, -, hsource, -, hsequence, heq⟩
    obtain rfl : valid = true := hvalid
    obtain ⟨rfl, rfl⟩ := Prod.mk.inj heq
    exact ⟨hparse, isValidGovernanceDataSource_iff.mp hsource, hsequence, rfl⟩
  · rintro ⟨hparse, hsource, hsequence, rfl⟩
    exact ⟨(vm, true), hparse, (), rfl, (), isValidGovernanceDataSource_iff.mpr hsource, (),
      hsequence, rfl⟩

/-- A call that succeeds executes a VAA that the replay guard accepts. -/
theorem execute_change {encodedVM : Bytes} {w w' : World}
    (h : executeGovernanceInstruction keccak256 c encodedVM w = .ok w') :
    ∃ vm gi, parseAndVerifyVM c w.state encodedVM = .ok (vm, true) ∧
      vm.source = w.state.governanceDataSource ∧
      vm.sequence > w.state.lastExecutedGovernanceSequence ∧
      parseGovernanceInstruction vm.payload = .ok gi ∧
      w'.executed = w.executed ++ [vm.id] ∧
      GuardChange c gi { w.state with lastExecutedGovernanceSequence := vm.sequence } w'.state := by
  simp only [executeGovernanceInstruction, bind_eq_ok] at h
  obtain ⟨⟨vm, w₁⟩, hverify, gi, hgi, -, -, haction⟩ := h
  obtain ⟨hparse, hsource, hsequence, rfl⟩ := verifyGovernanceVM_eq_ok.mp hverify
  obtain ⟨hexecuted, hchange⟩ := executeAction_change haction
  exact ⟨vm, gi, hparse, hsource, hsequence, hgi, hexecuted, hchange⟩

/-! ## The condition -/

/-- If the call asks for a transfer, then its claim is not older than any executed VAA of
the claim's emitter, the VAA that carries it included. -/
def ClaimIsFresh (w : World) (call : GovernanceCall) : Prop :=
  ∀ transfer ∈ transferClaim call.contracts w.state call.encodedVM,
    ∀ id ∈ w.executed ++ [transfer.1.id],
      id.source = transfer.2.source → id.sequence ≤ transfer.2.sequence

instance (w : World) (call : GovernanceCall) : Decidable (ClaimIsFresh w call) :=
  inferInstanceAs (Decidable (∀ transfer ∈ transferClaim _ _ _,
    ∀ id ∈ w.executed ++ [transfer.1.id],
      id.source = transfer.2.source → id.sequence ≤ transfer.2.sequence))

/-- Every call of a run meets the condition. -/
def ClaimsStayFresh (keccak256 : Bytes → Bytes32) : World → List GovernanceCall → Prop
  | _, [] => True
  | w, call :: calls =>
    ClaimIsFresh w call ∧ ClaimsStayFresh keccak256 (submit keccak256 w call) calls

instance decidableClaimsStayFresh (keccak256 : Bytes → Bytes32) (w : World) :
    (calls : List GovernanceCall) → Decidable (ClaimsStayFresh keccak256 w calls)
  | [] => .isTrue trivial
  | call :: calls =>
    have := decidableClaimsStayFresh keccak256 (submit keccak256 w call) calls
    inferInstanceAs (Decidable (ClaimIsFresh w call ∧
      ClaimsStayFresh keccak256 (submit keccak256 w call) calls))

/-- The replay guard of a world. -/
def guardOf (w : World) : Counter DataSource where
  source := w.state.governanceDataSource
  last := w.state.lastExecutedGovernanceSequence.toNat
  executed := w.executed.map fun id => (id.source, id.sequence.toNat)

/-- A call that succeeds is a move of the replay guard. -/
theorem execute_move {call : GovernanceCall} {w w' : World} (hfresh : ClaimIsFresh w call)
    (h : executeGovernanceInstruction keccak256 call.contracts call.encodedVM w = .ok w') :
    (guardOf w).FreshMove (guardOf w') := by
  obtain ⟨vm, gi, hparse, hsource, hsequence, hgi, hexecuted, hchange⟩ := execute_change h
  have hahead : (guardOf w).last < vm.sequence.toNat := BitVec.lt_def.mp hsequence
  have hlist : (guardOf w').executed
      = (guardOf w).executed ++ [((guardOf w).source, vm.sequence.toNat)] := by
    have hid : vm.id.source = w.state.governanceDataSource := hsource
    simp only [guardOf, hexecuted, List.map_append, List.map_cons, List.map_nil, hid]
    rfl
  cases hchange with
  | kept _ hgoverns hlast =>
    have hguard : guardOf w' = { guardOf w with
        last := vm.sequence.toNat
        executed := (guardOf w).executed ++ [((guardOf w).source, vm.sequence.toNat)] } := by
      rw [← hlist]
      simp only [guardOf, hgoverns, hlast]
    rw [hguard]
    exact .execute hahead
  | transferred claim haction hclaim hgoverns hlast =>
    have hguard : guardOf w' = {
        source := claim.source
        last := claim.sequence.toNat
        executed := (guardOf w).executed ++ [((guardOf w).source, vm.sequence.toNat)] } := by
      rw [← hlist]
      simp only [guardOf, hgoverns, hlast]
    rw [hguard]
    refine .handOver hahead fun k hk => ?_
    rw [← hlist] at hk
    obtain ⟨id, hid, hpair⟩ := List.mem_map.mp hk
    obtain ⟨hidsource, rfl⟩ := Prod.mk.inj hpair
    have htransfer : transferClaim call.contracts w.state call.encodedVM = some (vm, claim) :=
      transferClaim_eq_some.mpr ⟨hparse, hsource, hsequence, gi, hgi, haction, hclaim⟩
    exact BitVec.le_def.mp (hfresh (vm, claim) htransfer id (hexecuted ▸ hid) hidsource)

/-- Outside the condition, a transfer lets an executed VAA through the replay guard again. -/
theorem verifyGovernanceVM_of_stale_claim {call : GovernanceCall} {w w' : World} {vm claim vm' : VM}
    {c' : Contracts} {encodedVM : Bytes}
    (h : executeGovernanceInstruction keccak256 call.contracts call.encodedVM w = .ok w')
    (htransfer : transferClaim call.contracts w.state call.encodedVM = some (vm, claim))
    (hsource : vm'.source = claim.source) (hstale : claim.sequence < vm'.sequence)
    (hparse : parseAndVerifyVM c' w'.state encodedVM = .ok (vm', true)) :
    ∃ w'', verifyGovernanceVM c' encodedVM w' = .ok (vm', w'') := by
  obtain ⟨vm₁, gi, hparse₁, -, -, hgi, -, hchange⟩ := execute_change h
  obtain ⟨hparse₂, -, -, gi', hgi', haction, hclaim⟩ := transferClaim_eq_some.mp htransfer
  obtain rfl : vm₁ = vm := by simpa using hparse₁.symm.trans hparse₂
  obtain rfl : gi = gi' := by simpa using hgi.symm.trans hgi'
  cases hchange with
  | kept hother => exact absurd haction hother
  | transferred claim' _ hclaim' hgoverns hlast =>
    obtain rfl : claim' = claim := by simpa using hclaim'.symm.trans hclaim
    exact ⟨_, verifyGovernanceVM_eq_ok.mpr ⟨hparse, hsource.trans hgoverns.symm,
      hlast ▸ hstale, rfl⟩⟩

theorem submit_move {call : GovernanceCall} {w : World} (hfresh : ClaimIsFresh w call) :
    Relation.ReflTransGen Counter.FreshMove (guardOf w) (guardOf (submit keccak256 w call)) := by
  unfold submit
  split
  · next w' h => exact .single (execute_move hfresh h)
  · exact .refl

theorem run_moves {calls : List GovernanceCall} {w : World}
    (h : ClaimsStayFresh keccak256 w calls) :
    Relation.ReflTransGen Counter.FreshMove (guardOf w) (guardOf (run keccak256 w calls)) := by
  induction calls generalizing w with
  | nil => exact .refl
  | cons call calls ih => exact (submit_move h.1).trans (ih h.2)

end

/-- **No VAA is executed twice while the claims stay fresh**, in runs of any length, with
any transfers. -/
theorem executed_nodup (keccak256 : Bytes → Bytes32) (w : World) (hstart : w.executed = [])
    (calls : List GovernanceCall) (h : ClaimsStayFresh keccak256 w calls) :
    (run keccak256 w calls).executed.Nodup := by
  have hguard : (guardOf w).executed = [] := by rw [guardOf, hstart, List.map_nil]
  exact (Counter.nodup_of_run (run_moves h) hguard).of_map _

/-! ### Two sources that hand the governance over and back -/

def exGovernanceA : DataSource := { chainId := 1, emitterAddress := 0xa }
def exGovernanceB : DataSource := { chainId := 1, emitterAddress := 0xb }

def exVM (source : DataSource) (sequence : Uint64) (payload : Bytes) : VM where
  emitterChainId := source.chainId
  emitterAddress := source.emitterAddress
  sequence := sequence
  payload := payload

/-- An instruction for all chains. -/
def exInstruction (action : UInt8) (payload : Bytes) : Bytes :=
  bytesBE 4 0x5054474d ++ [1, action, 0, 0] ++ payload

/-- The VAAs that the guardians signed, each encoded as one byte. -/
def exVaas : Bytes → Result (VM × Bool)
  -- two claims of A
  | [0xa1] => .ok (exVM exGovernanceA 1 (exInstruction 5 (bytesBE 4 2)), true)
  | [0xa4] => .ok (exVM exGovernanceA 4 (exInstruction 5 (bytesBE 4 2)), true)
  -- the valid period is set, and the governance goes to B
  | [0xa2] => .ok (exVM exGovernanceA 2 (exInstruction 4 (bytesBE 8 60)), true)
  | [0xa3] => .ok (exVM exGovernanceA 3 (exInstruction 1 [0xb1]), true)
  -- a claim of B, and the governance goes back to A with its old or its new claim
  | [0xb1] => .ok (exVM exGovernanceB 1 (exInstruction 5 (bytesBE 4 1)), true)
  | [0xb2] => .ok (exVM exGovernanceB 2 (exInstruction 1 [0xa1]), true)
  | [0xb3] => .ok (exVM exGovernanceB 3 (exInstruction 1 [0xa4]), true)
  | _ => .error .externalCall

def exContracts : Contracts where
  wormholeAt := fun _ => { chainId := .ok 2, parseAndVerifyVM := exVaas }
  upgradeTo := fun _ => .error .externalCall
  pythUpgradableMagic := fun _ => .error .externalCall

def exGovernanceCall (encodedVM : Bytes) : GovernanceCall where
  contracts := exContracts
  encodedVM := encodedVM

def exGoverned : World where
  state := { governanceDataSource := exGovernanceA }

theorem executed_nodup_run :
    (run exKeccak exGoverned ([[0xa2], [0xa3], [0xb3], [0xa2]].map exGovernanceCall)).executed
      = [⟨1, 0xa, 2⟩, ⟨1, 0xa, 3⟩, ⟨1, 0xb, 3⟩] ∧
    (run exKeccak exGoverned
      ([[0xa2], [0xa3], [0xb3], [0xa2]].map exGovernanceCall)).executed.Nodup := by
  exact ⟨by decide +kernel, executed_nodup exKeccak exGoverned rfl _ (by decide +kernel)⟩

/-- The VAA that set the valid period is executed again after the governance went to B and,
with a claim that is older than it, back to A. -/
theorem executed_twice :
    ¬∀ (keccak256 : Bytes → Bytes32) (w : World) (calls : List GovernanceCall),
      w.executed = [] → (run keccak256 w calls).executed.Nodup := by
  intro h
  have hnodup := h exKeccak exGoverned ([[0xa2], [0xa3], [0xb2], [0xa2]].map exGovernanceCall) rfl
  have hexecuted :
      (run exKeccak exGoverned ([[0xa2], [0xa3], [0xb2], [0xa2]].map exGovernanceCall)).executed
        = [⟨1, 0xa, 2⟩, ⟨1, 0xa, 3⟩, ⟨1, 0xb, 2⟩, ⟨1, 0xa, 2⟩] := by decide +kernel
  rw [hexecuted] at hnodup
  exact absurd hnodup (by decide)

end PythCrosschain.Pyth
