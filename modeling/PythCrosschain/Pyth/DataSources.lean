import PythCrosschain.Lib.KeyedFlags
import PythCrosschain.Lib.Transactions
import PythCrosschain.Pyth.Replay

/-!
# The data sources of Pyth

The valid data sources are kept in the array `validDataSources` and in the mapping
`isValidDataSource`, whose keys are hashes. `initialize` fills both, and it is called once;
`setDataSources` clears the mapping entry by entry before it fills it again.

`data_sources_agree` says that the two are the same set after every call, which is that of the
last list that a call has set. The sources that are compared are assumed to have distinct
hashes.
-/

namespace PythCrosschain.Pyth

open KeyedFlags (assign)

/-! ## Initialisation -/

/-- The arguments of `_initialize`. -/
structure InitializeArgs where
  wormhole : Address
  dataSourceEmitterChainIds : List Uint16
  dataSourceEmitterAddresses : List Bytes32
  governanceEmitterChainId : Uint16
  governanceEmitterAddress : Bytes32
  governanceInitialSequence : Uint64
  validTimePeriodSeconds : Uint256
  singleUpdateFeeInWei : Uint256

/-- The data sources that the arguments list. -/
def InitializeArgs.dataSources (args : InitializeArgs) : List DataSource :=
  args.dataSourceEmitterChainIds.zipWith DataSource.mk args.dataSourceEmitterAddresses

section

variable (keccak256 : Bytes → Bytes32)

/-- `PythGetters.isValidDataSource`. -/
def isValidDataSource (s : State) (dataSourceChainId : Uint16)
    (dataSourceEmitterAddress : Bytes32) : Bool :=
  s.isValidDataSource (keccak256 (packed 2 dataSourceChainId ++ packed 32 dataSourceEmitterAddress))

/-- The loop of `_initialize`. -/
def pushDataSources : List DataSource → State → Result State
  | [], s => return s
  | ds :: dataSources, s => do
    require (isValidDataSource keccak256 s ds.chainId ds.emitterAddress = false)
      (.error .invalidArgument)
    pushDataSources dataSources { s with
      isValidDataSource :=
        Function.update s.isValidDataSource (hashDataSource keccak256 ds) true
      validDataSources := s.validDataSources ++ [ds] }

/-- `Pyth._initialize`. -/
def initializePyth (args : InitializeArgs) (w : World) : Result World := do
  let s := { w.state with wormhole := args.wormhole }
  require (args.dataSourceEmitterChainIds.length = args.dataSourceEmitterAddresses.length)
    (.error .invalidArgument)
  let s ← pushDataSources keccak256 args.dataSources s
  let governanceDataSource : DataSource :=
    { chainId := args.governanceEmitterChainId, emitterAddress := args.governanceEmitterAddress }
  return { w with
    state := { s with
      governanceDataSource := governanceDataSource
      lastExecutedGovernanceSequence := args.governanceInitialSequence
      validTimePeriodSeconds := args.validTimePeriodSeconds
      singleUpdateFeeInWei := args.singleUpdateFeeInWei } }

/-! ## Runs -/

/-- `executeGovernanceInstruction` at the block of a call. -/
def govern (call : GovernanceCall) (w : World) : Result World :=
  executeGovernanceInstruction keccak256 call.contracts call.encodedVM w

/-- The data sources that the VAA of a call lists, where its action is to set them. -/
def requestedSources (w : World) (call : GovernanceCall) : Option (List DataSource) := do
  let (vm, _) ← (parseAndVerifyVM call.contracts w.state call.encodedVM).toOption
  let gi ← (parseGovernanceInstruction vm.payload).toOption
  guard (gi.action = .setDataSources)
  (parseSetDataSourcesPayload gi.payload).toOption

/-- The last list of data sources that a call of a run has set. -/
def lastAcceptedSources : World → List GovernanceCall → Option (List DataSource)
  | _, [] => none
  | w, call :: calls =>
    match govern keccak256 call w with
    | .ok w' => (lastAcceptedSources w' calls).or (requestedSources w call)
    | .error _ => lastAcceptedSources w calls

/-- The data sources that are listed at some time of a run. -/
def listedSources : World → List GovernanceCall → List DataSource
  | w, [] => w.state.validDataSources
  | w, call :: calls =>
    w.state.validDataSources ++
      listedSources (PythCrosschain.submit (govern keccak256) w call) calls

/-- Different sources of a list have different hashes. -/
def NoCollision (sources : List DataSource) : Prop :=
  ∀ a ∈ sources, ∀ b ∈ sources, hashDataSource keccak256 a = hashDataSource keccak256 b → a = b

instance (sources : List DataSource) : Decidable (NoCollision keccak256 sources) :=
  inferInstanceAs (Decidable (∀ a ∈ sources, ∀ b ∈ sources, _ → _))

end

section

variable {keccak256 : Bytes → Bytes32} {S : Set DataSource}

/-- The array and the mapping agree on the sources of `S`. -/
def SourcesAgree (keccak256 : Bytes → Bytes32) (S : Set DataSource) (s : State) : Prop :=
  KeyedFlags.Agree (hashDataSource keccak256) S s.validDataSources s.isValidDataSource

/-! ### Initialisation -/

theorem pushDataSources_list {dataSources : List DataSource} {s s' : State}
    (h : pushDataSources keccak256 dataSources s = .ok s') :
    s'.validDataSources = s.validDataSources ++ dataSources := by
  induction dataSources generalizing s with
  | nil =>
    cases h
    exact (List.append_nil _).symm
  | cons ds dataSources ih =>
    obtain ⟨_, _, h⟩ := bind_eq_ok.mp h
    rw [ih h, List.append_assoc]
    rfl

theorem pushDataSources_agree (hkeys : Set.InjOn (hashDataSource keccak256) S)
    {dataSources : List DataSource} (hsources : ∀ ds ∈ dataSources, ds ∈ S) {s s' : State}
    (hs : SourcesAgree keccak256 S s) (h : pushDataSources keccak256 dataSources s = .ok s') :
    SourcesAgree keccak256 S s' := by
  induction dataSources generalizing s with
  | nil =>
    cases h
    exact hs
  | cons ds dataSources ih =>
    obtain ⟨_, _, h⟩ := bind_eq_ok.mp h
    have hds := hsources ds List.mem_cons_self
    have hpushed : SourcesAgree keccak256 S { s with
        isValidDataSource := Function.update s.isValidDataSource (hashDataSource keccak256 ds) true
        validDataSources := s.validDataSources ++ [ds] } := KeyedFlags.Agree.push hkeys hs hds
    exact ih (fun ds' hds' => hsources ds' (List.mem_cons_of_mem _ hds')) hpushed h

/-- `initialize` sets the listed sources, in the array and in the mapping. -/
theorem initializePyth_sources {args : InitializeArgs} {w : World}
    (h : initializePyth keccak256 args {} = .ok w) :
    w.state.validDataSources = args.dataSources ∧
      ∀ S : Set DataSource, Set.InjOn (hashDataSource keccak256) S →
        (∀ ds ∈ args.dataSources, ds ∈ S) → SourcesAgree keccak256 S w.state := by
  simp only [initializePyth, bind_eq_ok, require_eq_ok, pure_eq_ok] at h
  obtain ⟨_, _, s, hpush, rfl⟩ := h
  refine ⟨pushDataSources_list hpush, fun S hkeys hsources => ?_⟩
  have hempty : SourcesAgree keccak256 S { wormhole := args.wormhole } := KeyedFlags.agree_empty
  have hs : SourcesAgree keccak256 S s := pushDataSources_agree hkeys hsources hempty hpush
  exact hs

/-! ### Governance -/

/-- What a call does to the data sources. -/
inductive SourcesChange (keccak256 : Bytes → Bytes32) (gi : GovernanceInstruction)
    (s s' : State) : Prop
  | kept : gi.action ≠ .setDataSources → s'.validDataSources = s.validDataSources →
      s'.isValidDataSource = s.isValidDataSource → SourcesChange keccak256 gi s s'
  | replaced (dataSources : List DataSource) : gi.action = .setDataSources →
      parseSetDataSourcesPayload gi.payload = .ok dataSources →
      s'.validDataSources = dataSources →
      s'.isValidDataSource = assign (hashDataSource keccak256) true
        (assign (hashDataSource keccak256) false s.isValidDataSource s.validDataSources)
        dataSources →
      SourcesChange keccak256 gi s s'

theorem executeAction_sources {c : Contracts} {encodedVM : Bytes} {gi : GovernanceInstruction}
    {w w' : World} (h : executeAction keccak256 c encodedVM gi w = .ok w') :
    SourcesChange keccak256 gi w.state w'.state := by
  unfold executeAction at h
  split at h
  · next haction =>
    simp only [upgradeContract, bind_eq_ok, pure_eq_ok] at h
    obtain ⟨-, -, -, -, -, -, -, -, -, -, rfl⟩ := h
    exact .kept (by simp [haction]) rfl rfl
  · next haction =>
    simp only [parseAuthorizeGovernanceDataSourceTransferPayload, pure_bind,
      AuthorizeGovernanceDataSourceTransfer, bind_eq_ok, require_eq_ok, pure_eq_ok] at h
    obtain ⟨-, -, -, -, -, -, -, -, -, -, -, -, -, -, rfl⟩ := h
    exact .kept (by simp [haction]) rfl rfl
  · next haction =>
    obtain ⟨dataSources, hparse, h⟩ := bind_eq_ok.mp h
    cases pure_eq_ok.mp h
    exact .replaced dataSources haction hparse rfl rfl
  · next haction =>
    obtain ⟨newFee, -, h⟩ := bind_eq_ok.mp h
    cases pure_eq_ok.mp h
    exact .kept (by simp [haction]) rfl rfl
  · next haction =>
    obtain ⟨newValidPeriod, -, h⟩ := bind_eq_ok.mp h
    cases pure_eq_ok.mp h
    exact .kept (by simp [haction]) rfl rfl
  · cases h
  · next haction =>
    simp only [setWormholeAddress, bind_eq_ok, pure_eq_ok] at h
    obtain ⟨-, -, -, -, -, -, -, -, -, -, -, -, -, -, -, -, -, -, -, -, rfl⟩ := h
    exact .kept (by simp [haction]) rfl rfl

theorem requestedSources_of_ok {call : GovernanceCall} {w : World} {vm : VM} {valid : Bool}
    {gi : GovernanceInstruction}
    (hparse : parseAndVerifyVM call.contracts w.state call.encodedVM = .ok (vm, valid))
    (hgi : parseGovernanceInstruction vm.payload = .ok gi) :
    requestedSources w call =
      if gi.action = .setDataSources then (parseSetDataSourcesPayload gi.payload).toOption
      else none := by
  simp only [requestedSources, toOption_eq_some.mpr hparse, toOption_eq_some.mpr hgi,
    Option.bind_eq_bind, Option.bind_some]
  split
  · next haction =>
    rw [guard, if_pos haction]
    rfl
  · next haction =>
    rw [guard, if_neg haction]
    rfl

/-- A call that succeeds sets the sources that it lists, or keeps both the array and the
mapping. -/
theorem govern_sources {call : GovernanceCall} {w w' : World}
    (h : govern keccak256 call w = .ok w') :
    (requestedSources w call = none ∧ w'.state.validDataSources = w.state.validDataSources ∧
      w'.state.isValidDataSource = w.state.isValidDataSource) ∨
    ∃ dataSources, requestedSources w call = some dataSources ∧
      w'.state.validDataSources = dataSources ∧
      w'.state.isValidDataSource = assign (hashDataSource keccak256) true
        (assign (hashDataSource keccak256) false w.state.isValidDataSource
          w.state.validDataSources) dataSources := by
  simp only [govern, executeGovernanceInstruction, bind_eq_ok] at h
  obtain ⟨⟨vm, w₁⟩, hverify, gi, hgi, -, -, haction⟩ := h
  obtain ⟨hparse, -, -, rfl⟩ := verifyGovernanceVM_eq_ok.mp hverify
  have hrequested := requestedSources_of_ok hparse hgi
  cases executeAction_sources haction with
  | kept hother hlist hmapping =>
    rw [if_neg hother] at hrequested
    exact .inl ⟨hrequested, hlist, hmapping⟩
  | replaced dataSources hset hpayload hlist hmapping =>
    rw [if_pos hset, hpayload] at hrequested
    exact .inr ⟨dataSources, hrequested, hlist, hmapping⟩

theorem govern_agree (hkeys : Set.InjOn (hashDataSource keccak256) S) {call : GovernanceCall}
    {w w' : World} (hold : ∀ ds ∈ w.state.validDataSources, ds ∈ S)
    (hnew : ∀ ds ∈ w'.state.validDataSources, ds ∈ S) (hw : SourcesAgree keccak256 S w.state)
    (h : govern keccak256 call w = .ok w') : SourcesAgree keccak256 S w'.state := by
  rcases govern_sources h with ⟨-, hlist, hmapping⟩ | ⟨dataSources, -, hlist, hmapping⟩
  · rw [SourcesAgree, hlist, hmapping]
    exact hw
  · rw [SourcesAgree, hmapping, hlist]
    exact KeyedFlags.Agree.replace hkeys hw hold (hlist ▸ hnew)

/-! ### Runs -/

theorem mem_listedSources {w : World} {calls : List GovernanceCall} {ds : DataSource}
    (h : ds ∈ w.state.validDataSources) : ds ∈ listedSources keccak256 w calls := by
  cases calls with
  | nil => exact h
  | cons call calls => exact List.mem_append_left _ h

theorem runAll_agree (hkeys : Set.InjOn (hashDataSource keccak256) S)
    {calls : List GovernanceCall} {w : World}
    (hlisted : ∀ ds ∈ listedSources keccak256 w calls, ds ∈ S)
    (hw : SourcesAgree keccak256 S w.state) :
    SourcesAgree keccak256 S (runAll (govern keccak256) w calls).state := by
  induction calls generalizing w with
  | nil => exact hw
  | cons call calls ih =>
    have hrest : ∀ ds ∈ listedSources keccak256
        (PythCrosschain.submit (govern keccak256) w call) calls, ds ∈ S :=
      fun ds hds => hlisted ds (List.mem_append_right _ hds)
    refine ih hrest ?_
    cases h : govern keccak256 call w with
    | ok w' =>
      rw [submit_of_ok h] at hrest ⊢
      exact govern_agree hkeys (fun ds hds => hlisted ds (mem_listedSources hds))
        (fun ds hds => hrest ds (mem_listedSources hds)) hw h
    | error e =>
      rw [submit_of_error h]
      exact hw

/-- The array is the last list that a call has set. -/
theorem runAll_validDataSources (w : World) (calls : List GovernanceCall) :
    (runAll (govern keccak256) w calls).state.validDataSources =
      (lastAcceptedSources keccak256 w calls).getD w.state.validDataSources := by
  induction calls generalizing w with
  | nil => rfl
  | cons call calls ih =>
    have hrun : runAll (govern keccak256) w (call :: calls)
        = runAll (govern keccak256) (PythCrosschain.submit (govern keccak256) w call) calls := rfl
    rw [hrun, lastAcceptedSources]
    cases h : govern keccak256 call w with
    | error e => rw [submit_of_error h, ih]
    | ok w' =>
      rw [submit_of_ok h, ih]
      dsimp only
      cases lastAcceptedSources keccak256 w' calls with
      | some dataSources => rfl
      | none =>
        rcases govern_sources h with ⟨hnone, hlist, -⟩ | ⟨dataSources, hsome, hlist, -⟩
        · rw [hnone, hlist]
          rfl
        · rw [hsome, hlist]
          rfl

end

/-- **The array and the mapping are one set of data sources.** After `initialize` and any
governance, a source is valid exactly when it is listed, and the list is the last one that was
set, by governance or else by `initialize`. -/
theorem data_sources_agree (keccak256 : Bytes → Bytes32) (args : InitializeArgs) (w : World)
    (hinit : initializePyth keccak256 args {} = .ok w) (calls : List GovernanceCall)
    (chainId : Uint16) (emitter : Bytes32)
    (hkeys : NoCollision keccak256 (⟨chainId, emitter⟩ :: listedSources keccak256 w calls)) :
    (isValidDataSource keccak256 (runAll (govern keccak256) w calls).state chainId emitter = true ↔
      ⟨chainId, emitter⟩ ∈ (runAll (govern keccak256) w calls).state.validDataSources) ∧
    (runAll (govern keccak256) w calls).state.validDataSources =
      (lastAcceptedSources keccak256 w calls).getD args.dataSources := by
  obtain ⟨hlist, hagree⟩ := initializePyth_sources hinit
  let S : Set DataSource := { ds | ds ∈ ⟨chainId, emitter⟩ :: listedSources keccak256 w calls }
  have hinj : Set.InjOn (hashDataSource keccak256) S := fun a ha b hb => hkeys a ha b hb
  have hlisted : ∀ ds ∈ listedSources keccak256 w calls, ds ∈ S :=
    fun ds hds => List.mem_cons_of_mem _ hds
  have hstart : SourcesAgree keccak256 S w.state :=
    hagree S hinj fun ds hds => hlisted ds (mem_listedSources (hlist ▸ hds))
  refine ⟨runAll_agree hinj hlisted hstart _ List.mem_cons_self, ?_⟩
  rw [runAll_validDataSources, hlist]

/-! ### A list with a source that stays and one that is listed twice -/

def exSolanaSource : DataSource :=
  ⟨1, 0x6bb14509a612f01fbbc4cffeebd4bbfb492a86df717ebe92eb6df432a3f00a25⟩

def exPythnetSource : DataSource :=
  ⟨26, 0xe101faedac5851e32b9b23b5f9411a8c2bac4aae3ed4dd7b811dd1a72ea4aa71⟩

def exOtherSource : DataSource :=
  ⟨26, 0xf8cd23c2ab91237730770bbea08d61005cdda0984348f3f6eecb559638c0bba0⟩

def DataSource.packed (ds : DataSource) : Bytes :=
  PythCrosschain.packed 2 ds.chainId ++ PythCrosschain.packed 32 ds.emitterAddress

/-- The hashes of the three sources. -/
def exSourceHash (s : Bytes) : Bytes32 :=
  if s = exSolanaSource.packed then
    0xfc294e4c43996438e5a5640512ca4b05c3e225b3a479037365d85a62d8572386
  else if s = exPythnetSource.packed then
    0x98444f9afeb7e2b1fc5cda570525d1955e7ceb1f0b64af744337b4e1f1b2f67f
  else if s = exOtherSource.packed then
    0x295b5e8a7d2da1b581bfca1e41bf580361e10b3d78dd4042c0dad08bd98de8a3
  else 0

def exInitializeArgs : InitializeArgs where
  wormhole := 7
  dataSourceEmitterChainIds := [exSolanaSource.chainId, exPythnetSource.chainId]
  dataSourceEmitterAddresses := [exSolanaSource.emitterAddress, exPythnetSource.emitterAddress]
  governanceEmitterChainId := exGovernanceA.chainId
  governanceEmitterAddress := exGovernanceA.emitterAddress
  governanceInitialSequence := 0
  validTimePeriodSeconds := 60
  singleUpdateFeeInWei := 1

/-- A call that sets the data sources. -/
def exSetDataSources (sequence : Uint64) (dataSources : List DataSource) : GovernanceCall where
  contracts := { exContracts with
    wormholeAt := fun _ => {
      chainId := .ok 2
      parseAndVerifyVM := fun _ => .ok (exVM exGovernanceA sequence
        (exInstruction 2 (UInt8.ofNat dataSources.length ::
          dataSources.flatMap DataSource.packed)), true) } }
  encodedVM := []

theorem data_sources_agree_overlap :
    ∃ w, initializePyth exSourceHash exInitializeArgs {} = .ok w ∧
      (isValidDataSource exSourceHash (runAll (govern exSourceHash) w
          [exSetDataSources 1 [exPythnetSource, exOtherSource, exOtherSource]]).state
          exSolanaSource.chainId exSolanaSource.emitterAddress = true ↔
        exSolanaSource ∈ [exPythnetSource, exOtherSource, exOtherSource]) := by
  let calls := [exSetDataSources 1 [exPythnetSource, exOtherSource, exOtherSource]]
  obtain ⟨w, hinit⟩ : ∃ w, initializePyth exSourceHash exInitializeArgs {} = .ok w := ⟨_, rfl⟩
  have hkeys : ∀ w, initializePyth exSourceHash exInitializeArgs {} = .ok w →
      NoCollision exSourceHash (exSolanaSource :: listedSources exSourceHash w calls) := by
    rintro _ ⟨⟩
    decide +kernel
  have hlast : ∀ w, initializePyth exSourceHash exInitializeArgs {} = .ok w →
      lastAcceptedSources exSourceHash w calls
        = some [exPythnetSource, exOtherSource, exOtherSource] := by
    rintro _ ⟨⟩
    decide +kernel
  obtain ⟨hvalid, hlist⟩ := data_sources_agree exSourceHash exInitializeArgs w hinit calls
    exSolanaSource.chainId exSolanaSource.emitterAddress (hkeys w hinit)
  rw [hlast w hinit] at hlist
  exact ⟨w, hinit, hvalid.trans (iff_of_eq (congrArg _ hlist))⟩

end PythCrosschain.Pyth
