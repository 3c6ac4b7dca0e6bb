import PythCrosschain.Entropy.Contract

/-!
# Entropy: calls and the request table

`component` packs the functions of the contract into calls that may re-enter
each other through the external calls. The request functions work on the two
storage levels as the operations of `Lib.SlotTable` do (`findRequest_eq`,
`clearRequest_table`, `allocRequest_store`), so a request is in flight when the
map of that table holds it (`inFlight_iff`).
-/

namespace PythCrosschain.Entropy

/-! ## Calls -/

/-- A call of a public function with its arguments. -/
inductive Call where
  | register (feeInWei : Uint128) (commitment : Bytes32) (commitmentMetadata : Bytes)
      (chainLength : Uint64) (uri : Bytes)
  | withdraw (amount : Uint128)
  | withdrawAsFeeManager (provider : Address) (amount : Uint128)
  | request (provider : Address) (userCommitment : Bytes32) (useBlockHash : Bool)
  | requestWithCallback (provider : Address) (userRandomNumber : Bytes32)
  | advanceProviderCommitment (provider : Address) (advancedSequenceNumber : Uint64)
      (providerRevelation : Bytes32)
  | reveal (provider : Address) (sequenceNumber : Uint64)
      (userRevelation providerRevelation : Bytes32)
  | revealWithCallback (provider : Address) (sequenceNumber : Uint64)
      (userRandomNumber providerRevelation : Bytes32)
  | setProviderFee (newFeeInWei : Uint128)
  | setProviderFeeAsFeeManager (provider : Address) (newFeeInWei : Uint128)
  | setProviderUri (newUri : Bytes)
  | setFeeManager (manager : Address)
  | setMaxNumHashes (maxNumHashes : Uint32)
  | proposeAdmin (newAdmin : Address)
  | acceptAdmin
  | setPythFee (newPythFee : Uint128)
  | setDefaultProvider (newDefaultProvider : Address)

/-- The functions that accept value. -/
def Call.payable : Call → Bool
  | .request .. => true
  | .requestWithCallback .. => true
  | _ => false

/-- A call with its caller and chain, and the contract's owner. -/
structure Message where
  env : Env
  owner : Address
  call : Call

section

variable (keccak256 : Bytes → Bytes32)

/-- Run a call to its end, or to its external call. -/
def execute (m : Message) (w : World) : Result (Outcome World Pending) := do
  require (m.call.payable ∨ m.env.value = 0) .noData
  match m.call with
  | .register feeInWei commitment commitmentMetadata chainLength uri =>
    return .done (← register m.env feeInWei commitment commitmentMetadata chainLength uri w)
  | .withdraw amount => withdraw m.env amount w
  | .withdrawAsFeeManager provider amount => withdrawAsFeeManager m.env provider amount w
  | .request provider userCommitment useBlockHash =>
    return .done (← request keccak256 m.env provider userCommitment useBlockHash w).2
  | .requestWithCallback provider userRandomNumber =>
    return .done (← requestWithCallback keccak256 m.env provider userRandomNumber w).2
  | .advanceProviderCommitment provider advancedSequenceNumber providerRevelation =>
    return .done (← advanceProviderCommitment keccak256 provider advancedSequenceNumber
      providerRevelation w)
  | .reveal provider sequenceNumber userRevelation providerRevelation =>
    return .done (← reveal keccak256 m.env provider sequenceNumber userRevelation
      providerRevelation w).2
  | .revealWithCallback provider sequenceNumber userRandomNumber providerRevelation =>
    revealWithCallback keccak256 m.env provider sequenceNumber userRandomNumber
      providerRevelation w
  | .setProviderFee newFeeInWei => return .done (← setProviderFee m.env newFeeInWei w)
  | .setProviderFeeAsFeeManager provider newFeeInWei =>
    return .done (← setProviderFeeAsFeeManager m.env provider newFeeInWei w)
  | .setProviderUri newUri => return .done (← setProviderUri m.env newUri w)
  | .setFeeManager manager => return .done (← setFeeManager m.env manager w)
  | .setMaxNumHashes maxNumHashes => return .done (← setMaxNumHashes m.env maxNumHashes w)
  | .proposeAdmin newAdmin => return .done (← proposeAdmin m.env m.owner newAdmin w)
  | .acceptAdmin => return .done (← acceptAdmin m.env w)
  | .setPythFee newPythFee => return .done (← setPythFee m.env m.owner newPythFee w)
  | .setDefaultProvider newDefaultProvider =>
    return .done (← setDefaultProvider m.env m.owner newDefaultProvider w)

/-- The code after an external call: a withdrawal requires that the transfer
went through, and a failed `_entropyCallback` reverts the reveal. -/
def resume : Pending → Bool → World → Option (Outcome World Pending)
  | .withdrawal provider recipient amount, true, w =>
    some (.done (w.emit (.withdrawal provider recipient amount)))
  | .entropyCallback .., true, w => some (.done w)
  | _, false, _ => none

/-- The contract after its initialization. -/
def Initial (w : World) : Prop :=
  ∃ owner admin pythFeeInWei defaultProvider prefillRequestStorage s balance,
    initializeEntropy owner admin pythFeeInWei defaultProvider prefillRequestStorage {} = .ok s ∧
    w = { state := s, balance }

/-- The Entropy contract as a re-entrant component. -/
def component : Component World Message Pending where
  init := Initial
  start m w := (execute keccak256 m w).toOption
  resume := resume

/-! ## The request table -/

/-- How requests are keyed in the two storage levels. -/
def requestScheme : SlotScheme Request (Address × Uint64) Bytes32 ShortKey where
  key req := (req.provider, req.sequenceNumber)
  live k := k.2 != 0
  long k := (requestKey keccak256 k.1 k.2).1
  short k := (requestKey keccak256 k.1 k.2).2
  deactivate req := { req with sequenceNumber := 0 }
  empty := {}
  live_deactivate _ := rfl
  live_empty := rfl

/-- The request of a provider and sequence number that is in flight: what
`findActiveRequest` refers to. -/
def InFlight (s : State) (provider : Address) (sequenceNumber : Uint64) (req : Request) : Prop :=
  ∃ ref, findActiveRequest keccak256 provider sequenceNumber s = .ok ref ∧ s.load ref = req

end

section RequestTable

variable {keccak256 : Bytes → Bytes32} {s : State} {provider : Address} {sequenceNumber : Uint64}

theorem findRequest_eq :
    findRequest keccak256 provider sequenceNumber s =
      s.table.find (requestScheme keccak256) (provider, sequenceNumber) := by
  simp [findRequest, Table.find, requestScheme, State.table, Prod.ext_iff]

theorem findActiveRequest_eq_ok {ref : RequestRef} :
    findActiveRequest keccak256 provider sequenceNumber s = .ok ref ↔
      s.table.lookup (requestScheme keccak256) (provider, sequenceNumber) = some (s.load ref) ∧
      s.table.find (requestScheme keccak256) (provider, sequenceNumber) = ref := by
  rw [Table.lookup_eq_some]
  simp only [findActiveRequest, findRequest_eq, bind_eq_ok, require_eq_ok, pure_eq_ok,
    exists_const, isActive]
  constructor
  · rintro ⟨⟨hactive, hp, hn⟩, rfl⟩
    refine ⟨⟨?_, Prod.ext hp hn, rfl⟩, rfl⟩
    rw [← hn]
    exact hactive
  · rintro ⟨⟨hlive, hkey, -⟩, rfl⟩
    obtain ⟨hp, hn⟩ := Prod.ext_iff.mp hkey
    refine ⟨⟨?_, hp, hn⟩, rfl⟩
    rw [show (s.load _).sequenceNumber = sequenceNumber from hn]
    exact hlive

theorem inFlight_iff {req : Request} :
    InFlight keccak256 s provider sequenceNumber req ↔
      s.table.lookup (requestScheme keccak256) (provider, sequenceNumber) = some req := by
  constructor
  · rintro ⟨ref, href, rfl⟩
    exact (findActiveRequest_eq_ok.mp href).1
  · intro h
    have hload := (Table.lookup_eq_some.mp h).2.2
    exact ⟨_, findActiveRequest_eq_ok.mpr ⟨h.trans (congrArg some hload.symm), rfl⟩, hload⟩

theorem clearRequest_table :
    (clearRequest keccak256 provider sequenceNumber s).table =
      s.table.clear (requestScheme keccak256) (provider, sequenceNumber) := by
  simp only [clearRequest, Table.clear, requestScheme, State.table, Prod.ext_iff]
  split <;> rfl

@[simp] theorem clearRequest_providers :
    (clearRequest keccak256 provider sequenceNumber s).providers = s.providers := by
  simp only [clearRequest]
  split <;> simp

/-- Allocating a slot and writing a request to it inserts the request. -/
theorem allocRequest_store {req : Request} (hp : req.provider = provider)
    (hn : req.sequenceNumber = sequenceNumber) :
    let alloc := allocRequest keccak256 provider sequenceNumber s
    (alloc.2.store alloc.1 req).table = s.table.insert (requestScheme keccak256) req := by
  subst hp hn
  cases hactive : isActive
      (s.requests (requestKey keccak256 req.provider req.sequenceNumber).2) with
  | true =>
    simp only [isActive] at hactive
    simp only [allocRequest, Table.insert, requestScheme, State.table, isActive, hactive, if_true]
    rfl
  | false =>
    simp only [isActive] at hactive
    simp only [allocRequest, Table.insert, requestScheme, State.table, isActive, hactive,
      Bool.false_eq_true, if_false]
    rfl

@[simp] theorem allocRequest_providers :
    (allocRequest keccak256 provider sequenceNumber s).2.providers = s.providers := by
  simp only [allocRequest]
  split <;> simp

end RequestTable

end PythCrosschain.Entropy
