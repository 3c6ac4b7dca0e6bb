import PythCrosschain.Fuel.Acceptance
import PythCrosschain.Lib.Transactions
import PythCrosschain.WormholeReceiver.Rotation

/-!
# Guardian sets of the Fuel contract

A run is a list of `submit_new_guardian_set` calls, and the same list for an EVM receiver with the
same state (`SameState`). The results are:

- `Inv.submitted`: what a rotation preserves;
- `rotates_iff_evm`: when the two accept the same rotation;
- `guardian_sets`: what holds in every run;
- `guardian_sets_fail`: a rotation for another chain is accepted, and a set that was replaced is
  not accepted any more.
-/

namespace PythCrosschain.Fuel

open BytesLib (field)
open WormholeReceiver (WormholeState signaturesAt signersLenOf vmOf guardianLengthOf keysAt
  length_keysAt ExVaa exFirstVaa exFirstUpgrade exSecondUpgrade exInitialGuardians)

/-! ## Sets and their keys -/

/-- The keys of the set at an index. -/
def Storage.keysOf (s : Storage) (index : BitVec 32) : List Bytes32 :=
  match s.wormholeGuardianSets index with
  | none => []
  | some set => s.guardianSetKeys set.keys

/-- The current set has no expiry, nothing is stored at larger indices, and each set has a vector
of its own, or that of the constructor. -/
structure Inv (s : Storage) : Prop where
  current : ∃ keys, s.wormholeGuardianSets s.wormholeGuardianSetIndex = some ⟨0, keys⟩
  unset : ∀ i, i > s.wormholeGuardianSetIndex → s.wormholeGuardianSets i = none
  unused : ∀ i, i > s.wormholeGuardianSetIndex → s.guardianSetKeys (.guardianSetKeys i) = []
  own : ∀ i set, s.wormholeGuardianSets i = some set →
    set.keys = .zero ∨ set.keys = .guardianSetKeys i
  small : ∀ keys, (s.guardianSetKeys keys).length < 256

/-- The storage that the constructor leaves, for at least one guardian. -/
def Storage.Initial (s : Storage) : Prop :=
  ∃ chainId source addresses index isValidDataSource, addresses ≠ [] ∧
    construct chainId source addresses index isValidDataSource = .ok s

section

variable {P : WormholeHost} {s s' : Storage} {timestamp : BitVec 64} {set : StorageGuardianSet}
  {bytes : Bytes}

theorem keysOf_of_stored {index : BitVec 32} (h : s.wormholeGuardianSets index = some set) :
    s.keysOf index = s.guardianSetKeys set.keys := by
  rw [Storage.keysOf, h]

theorem foldl_pushKey (keys : KeysField) (addresses : List Bytes32) (s : Storage) :
    addresses.foldl (·.pushKey keys) s = s.withKeys keys (s.guardianSetKeys keys ++ addresses) := by
  induction addresses generalizing s with
  | nil =>
    rw [List.append_nil]
    exact (withKeys_self s keys).symm
  | cons key addresses ih =>
    rw [List.foldl_cons, ih, withKeys_pushKey]

/-- What the constructor stores. -/
def constructed (chainId : BitVec 16) (source : DataSource) (addresses : List Bytes32)
    (index : BitVec 32) (isValidDataSource : DataSource → Option Bool) : Storage where
  isValidDataSource
  chainId
  wormholeGuardianSets := Function.update (fun _ => none) index (some ⟨0, .zero⟩)
  guardianSetKeys := Function.update (fun _ => []) .zero addresses
  wormholeGuardianSetIndex := index
  wormholeGovernanceDataSource := source

section

variable {chainId : BitVec 16} {source : DataSource} {addresses : List Bytes32}
  {index : BitVec 32} {isValidDataSource : DataSource → Option Bool}

theorem construct_eq_ok :
    construct chainId source addresses index isValidDataSource = .ok s ↔
      addresses.length < 256 ∧
      s = constructed chainId source addresses index isValidDataSource := by
  simp only [construct, except_bind_eq_ok, unwrap_eq_ok, tryAsU8, foldl_pushKey]
  constructor
  · rintro ⟨_, hlength, h⟩
    split at hlength
    · next hlt => exact ⟨hlt, (Except.ok.inj h).symm⟩
    · cases hlength
  · rintro ⟨hlt, rfl⟩
    exact ⟨_, if_pos hlt, rfl⟩

theorem constructed_current :
    (constructed chainId source addresses index isValidDataSource).wormholeGuardianSets index
      = some ⟨0, .zero⟩ := by
  simp only [constructed, Function.update_self]

theorem constructed_other {i : BitVec 32} (hi : i ≠ index) :
    (constructed chainId source addresses index isValidDataSource).wormholeGuardianSets i
      = none := by
  simp only [constructed, Function.update_of_ne hi]

theorem constructed_zero :
    (constructed chainId source addresses index isValidDataSource).guardianSetKeys .zero
      = addresses := by
  simp only [constructed, Function.update_self]

theorem constructed_keys {i : BitVec 32} :
    (constructed chainId source addresses index isValidDataSource).guardianSetKeys
      (.guardianSetKeys i) = [] := by
  simp only [constructed]
  rw [Function.update_of_ne]
  exact nofun

theorem keysOf_constructed :
    (constructed chainId source addresses index isValidDataSource).keysOf
      (constructed chainId source addresses index isValidDataSource).wormholeGuardianSetIndex
      = addresses :=
  (keysOf_of_stored constructed_current).trans constructed_zero

theorem inv_constructed (hlength : addresses.length < 256) :
    Inv (constructed chainId source addresses index isValidDataSource) := by
  constructor
  case current => exact ⟨.zero, constructed_current⟩
  case unset =>
    intro i hi
    refine constructed_other ?_
    rintro rfl
    exact BitVec.lt_irrefl _ hi
  case unused => exact fun i _ => constructed_keys
  case own =>
    intro i set hset
    by_cases hi : i = index
    · rw [hi, constructed_current] at hset
      obtain rfl := Option.some.inj hset
      exact .inl rfl
    · rw [constructed_other hi] at hset
      cases hset
  case small =>
    intro keys
    cases keys with
    | zero => exact constructed_zero.symm ▸ hlength
    | guardianSetKeys i =>
      rw [constructed_keys]
      exact Nat.zero_lt_succ _

end

theorem Storage.Initial.inv (h : s.Initial) : Inv s := by
  obtain ⟨_, _, _, _, _, -, h⟩ := h
  obtain ⟨hlength, rfl⟩ := construct_eq_ok.mp h
  exact inv_constructed hlength

theorem Storage.Initial.keysOf_ne_nil (h : s.Initial) :
    s.keysOf s.wormholeGuardianSetIndex ≠ [] := by
  obtain ⟨_, _, addresses, _, _, hne, h⟩ := h
  obtain ⟨-, rfl⟩ := construct_eq_ok.mp h
  rw [keysOf_constructed]
  exact hne

/-! ## One rotation -/

section

variable {hash : Bytes32} {payload : Bytes}

theorem submitted_new : (s.submitted timestamp set hash payload).wormholeGuardianSets
    (field payload 35 32 4) = some ⟨0, .guardianSetKeys (field payload 35 32 4)⟩ :=
  Function.update_self _ _ _

theorem submitted_current (hne : s.wormholeGuardianSetIndex ≠ field payload 35 32 4) :
    (s.submitted timestamp set hash payload).wormholeGuardianSets s.wormholeGuardianSetIndex
      = some { set with expirationTime := timestamp + GUARDIAN_SET_EXPIRATION_TIME_SECONDS } := by
  show Function.update _ _ _ _ = _
  rw [Function.update_of_ne hne, Function.update_self]

theorem submitted_other {i : BitVec 32} (hnew : i ≠ field payload 35 32 4)
    (hcurrent : i ≠ s.wormholeGuardianSetIndex) :
    (s.submitted timestamp set hash payload).wormholeGuardianSets i
      = s.wormholeGuardianSets i := by
  show Function.update _ _ _ _ = _
  rw [Function.update_of_ne hnew, Function.update_of_ne hcurrent]

theorem guardianSetKeys_submitted_new :
    (s.submitted timestamp set hash payload).guardianSetKeys
      (.guardianSetKeys (field payload 35 32 4))
      = keyWordsAt payload 40 (guardianLengthOf payload) := by
  simp only [Storage.submitted, Storage.withKeys, Function.update_self]

theorem keysOf_submitted_new : (s.submitted timestamp set hash payload).keysOf
    (field payload 35 32 4) = keyWordsAt payload 40 (guardianLengthOf payload) :=
  (keysOf_of_stored submitted_new).trans guardianSetKeys_submitted_new

/-- The new vector is that of no other set. -/
theorem guardianSetKeys_submitted {keys : KeysField}
    (hkeys : keys ≠ .guardianSetKeys (field payload 35 32 4)) :
    (s.submitted timestamp set hash payload).guardianSetKeys keys = s.guardianSetKeys keys :=
  Function.update_of_ne hkeys _ _

theorem keysOf_submitted_other (hs : Inv s)
    (hset : s.wormholeGuardianSets s.wormholeGuardianSetIndex = some set) {i : BitVec 32}
    (hnew : i ≠ field payload 35 32 4) :
    (s.submitted timestamp set hash payload).keysOf i = s.keysOf i := by
  have hown {stored : StorageGuardianSet} (h : s.wormholeGuardianSets i = some stored) :
      stored.keys ≠ .guardianSetKeys (field payload 35 32 4) := by
    rcases hs.own i stored h with h | h <;> rw [h]
    · exact nofun
    · rw [ne_eq, KeysField.guardianSetKeys.injEq]
      exact hnew
  by_cases hcurrent : i = s.wormholeGuardianSetIndex
  · subst hcurrent
    rw [keysOf_of_stored (submitted_current hnew), keysOf_of_stored hset]
    show (s.submitted timestamp set hash payload).guardianSetKeys set.keys = _
    rw [guardianSetKeys_submitted (hown hset)]
  · have hother : (s.submitted timestamp set hash payload).wormholeGuardianSets i
        = s.wormholeGuardianSets i := submitted_other hnew hcurrent
    cases hi : s.wormholeGuardianSets i with
    | none => rw [Storage.keysOf, Storage.keysOf, hother, hi]
    | some stored =>
      rw [keysOf_of_stored (hother.trans hi), keysOf_of_stored hi]
      exact guardianSetKeys_submitted (hown hi)

end

/-- What is stored under the current index, when a rotation is accepted. -/
theorem Submits.current (h : Submits P s timestamp set bytes) :
    s.wormholeGuardianSets s.wormholeGuardianSetIndex = some set :=
  h.usable.current ▸ h.usable.stored

theorem Inv.submitted (hs : Inv s) (h : Submits P s timestamp set bytes) :
    Inv (s.submitted timestamp set (vmOf P.keccak256 bytes).hash
      (vmOf P.keccak256 bytes).payload) := by
  generalize hpayload : (vmOf P.keccak256 bytes).payload = payload
  have hlater : (field payload 35 32 4 : BitVec 32) > s.wormholeGuardianSetIndex :=
    hpayload ▸ h.upgrade.later
  have habove {i : BitVec 32} (hi : i > field payload 35 32 4) :
      i ≠ field payload 35 32 4 ∧ i ≠ s.wormholeGuardianSetIndex ∧
        i > s.wormholeGuardianSetIndex := by
    have hi' : i > s.wormholeGuardianSetIndex := BitVec.lt_trans hlater hi
    refine ⟨?_, ?_, hi'⟩
    · rintro rfl
      exact BitVec.lt_irrefl _ hi
    · rintro rfl
      exact BitVec.lt_irrefl _ hi'
  constructor
  case current => exact ⟨_, submitted_new⟩
  case unset =>
    intro i hi
    obtain ⟨hnew, hcurrent, hi'⟩ := habove hi
    rw [submitted_other hnew hcurrent]
    exact hs.unset i hi'
  case unused =>
    intro i hi
    obtain ⟨hnew, -, hi'⟩ := habove hi
    have hne : KeysField.guardianSetKeys i ≠ .guardianSetKeys (field payload 35 32 4) := by
      rw [ne_eq, KeysField.guardianSetKeys.injEq]
      exact hnew
    rw [guardianSetKeys_submitted hne]
    exact hs.unused i hi'
  case own =>
    intro i stored hstored
    by_cases hnew : i = field payload 35 32 4
    · subst hnew
      rw [submitted_new] at hstored
      obtain rfl := Option.some.inj hstored
      exact .inr rfl
    · by_cases hcurrent : i = s.wormholeGuardianSetIndex
      · subst hcurrent
        rw [submitted_current hnew] at hstored
        obtain rfl := Option.some.inj hstored
        exact hs.own _ set h.current
      · rw [submitted_other hnew hcurrent] at hstored
        exact hs.own i stored hstored
  case small =>
    intro keys
    by_cases hkeys : keys = .guardianSetKeys (field payload 35 32 4)
    · subst hkeys
      rw [guardianSetKeys_submitted_new, length_keyWordsAt]
      exact BitVec.isLt _
    · rw [guardianSetKeys_submitted hkeys]
      exact hs.small keys

end

/-! ## The EVM receiver -/

/-- An EVM receiver with the same guardian sets, governance source, chain id and actions. -/
structure SameState (s : Storage) (e : WormholeState) : Prop where
  index : e.guardianSetIndex = s.wormholeGuardianSetIndex
  chainId : e.provider.chainId = s.chainId
  governanceChainId : e.provider.governanceChainId = s.wormholeGovernanceDataSource.chainId
  governanceContract : e.provider.governanceContract
    = s.wormholeGovernanceDataSource.emitterAddress
  consumed : ∀ hash, e.consumedGovernanceActions hash = s.governanceActionIsConsumed hash
  keys : ∀ i, s.keysOf i = (e.guardianSets i).keys.map (BitVec.setWidth 256)

/-- A call, with the times of the blocks on both chains. -/
structure Call where
  now : BitVec 64
  evmNow : Uint256
  vaa : Bytes

/-- The payload names an index up to the next one, and a set with keys. -/
structure NamesNext (s : Storage) (payload : Bytes) : Prop where
  next : (field payload 35 32 4 : BitVec 32).toNat ≤ s.wormholeGuardianSetIndex.toNat + 1
  nonempty : 0 < guardianLengthOf payload

/-- The signatures have the canonical form, the current guardians are not the zero address, the
payload names the next index and a set with keys, and the times of expiry fit their types. -/
structure Comparable (keccak256 : Bytes → Bytes32) (s : Storage) (c : Call) : Prop where
  canonical : ∀ sig ∈ signaturesAt c.vaa 6 (signersLenOf c.vaa), Canonical sig
  keys : 0 ∉ s.keysOf s.wormholeGuardianSetIndex
  namesNext : NamesNext s (vmOf keccak256 c.vaa).payload
  early : c.now.toNat + 86400 < 2 ^ 64
  evmEarly : c.evmNow.toNat % 2 ^ 32 + 86400 < 2 ^ 32

section

variable (P : WormholeHost) (ecrecover : Bytes32 → BitVec 8 → Bytes32 → Bytes32 → Address)

/-- The call on Fuel. -/
def rotate (c : Call) (s : Storage) : WormholeResult Storage :=
  submitNewGuardianSet P c.now c.vaa s

/-- The call on the EVM receiver. -/
def evmRotate (c : Call) (e : WormholeState) : WormholeReceiver.Result WormholeState :=
  WormholeReceiver.submitNewGuardianSet P.keccak256 ecrecover c.vaa c.evmNow e

end

section

variable {P : WormholeHost} {ecrecover : Bytes32 → BitVec 8 → Bytes32 → Bytes32 → Address}
  {s s' : Storage} {e : WormholeState} {c : Call} {set : StorageGuardianSet}

/-- Both check the module, the action and the length, and that the index is above the current
one. -/
theorem isUpgrade_iff_evm {payload : Bytes} (h : NamesNext s payload) :
    IsUpgrade payload s.wormholeGuardianSetIndex ↔
      WormholeReceiver.IsUpgrade payload s.wormholeGuardianSetIndex := by
  constructor
  · rintro ⟨hmodule, haction, hlater, hlength⟩
    exact ⟨hmodule, haction, le_antisymm h.next (BitVec.lt_def.mp hlater), h.nonempty, hlength⟩
  · rintro ⟨hmodule, haction, hnext, -, hlength⟩
    refine ⟨hmodule, haction, BitVec.lt_def.mpr ?_, hlength⟩
    rw [hnext]
    exact Nat.lt_succ_self _

theorem SameState.length_keys (h : SameState s e) (i : BitVec 32) :
    (e.guardianSets i).keys.length = (s.keysOf i).length := by
  rw [h.keys, List.length_map]

theorem keysOf_length (hs : Inv s) (i : BitVec 32) : (s.keysOf i).length < 256 := by
  cases hi : s.wormholeGuardianSets i with
  | none =>
    rw [Storage.keysOf, hi]
    exact Nat.zero_lt_succ _
  | some set =>
    rw [keysOf_of_stored hi]
    exact hs.small set.keys

/-- The signatures that a quorum check accepts are the same. -/
theorem quorumSigned_iff_evm (hrecover : RecoversAs P ecrecover) (h : SameState s e)
    (hc : Comparable P.keccak256 s c) :
    QuorumSigned P (s.keysOf s.wormholeGuardianSetIndex) c.vaa ↔
      WormholeReceiver.quorumOf (e.guardianSets s.wormholeGuardianSetIndex).keys.length
        ≤ signersLenOf c.vaa ∧
      ∃ reason, WormholeReceiver.verifySignaturesFrom ecrecover (vmOf P.keccak256 c.vaa).hash
        (e.guardianSets s.wormholeGuardianSetIndex) 0 0 (vmOf P.keccak256 c.vaa).signatures
          = .ok (true, reason) := by
  have hkeys : 0 ∉ (e.guardianSets s.wormholeGuardianSetIndex).keys := by
    intro hzero
    refine hc.keys ?_
    rw [h.keys]
    exact List.mem_map.mpr ⟨0, hzero, rfl⟩
  rw [quorumSigned_iff, h.length_keys, h.keys]
  refine and_congr_right fun _ => ?_
  show SignedFrom P _ _ 0 (0 : BitVec 8).toNat _ ↔ _
  exact signedFrom_iff_evm hrecover hkeys hc.canonical

theorem submits_iff_evm (hrecover : RecoversAs P ecrecover) (hs : Inv s) (h : SameState s e)
    (hc : Comparable P.keccak256 s c) :
    (∃ set, Submits P s c.now set c.vaa) ↔
      WormholeReceiver.Submits P.keccak256 ecrecover e c.evmNow c.vaa := by
  have hindex := h.index
  constructor
  · rintro ⟨set, hsubmits⟩
    have hcurrent := hsubmits.usable.current
    have hkeys := keysOf_of_stored hsubmits.current
    have hsigned := hsubmits.signed
    rw [← hkeys] at hsigned
    obtain ⟨hquorum, hsignatures⟩ := (quorumSigned_iff_evm hrecover h hc).mp hsigned
    have hpositive := hsubmits.usable.nonempty
    rw [← hkeys] at hpositive
    constructor
    case version => exact hsubmits.vaa.version
    case length => exact hsubmits.vaa.length
    case recoveryIds => exact hsubmits.vaa.recoveryIds
    case usable =>
      rw [hcurrent]
      have hsmall := keysOf_length hs s.wormholeGuardianSetIndex
      refine ⟨?_, ?_, fun hexpired => hexpired.1 hindex.symm⟩
      · rw [h.length_keys]
        omega
      · rw [h.length_keys]
        exact hpositive.ne'
    case quorum =>
      rw [hcurrent]
      exact hquorum
    case signatures =>
      rw [hcurrent]
      exact hsignatures
    case current => exact hcurrent.trans hindex.symm
    case chain => exact hsubmits.chain.trans h.governanceChainId.symm
    case emitter => exact hsubmits.emitter.trans h.governanceContract.symm
    case fresh => exact (h.consumed _).trans hsubmits.fresh
    case upgrade =>
      rw [hindex]
      exact (isUpgrade_iff_evm hc.namesNext).mp hsubmits.upgrade
    case early => exact hc.evmEarly
  · intro hsubmits
    have hcurrent := hsubmits.current.trans hindex
    obtain ⟨keys, hstored⟩ := hs.current
    have hkeys := keysOf_of_stored hstored
    have hquorum := hsubmits.quorum
    have hsignatures := hsubmits.signatures
    have hnonempty := hsubmits.usable.2.1
    have hupgrade := hsubmits.upgrade
    rw [hcurrent] at hquorum hsignatures hnonempty
    rw [hindex] at hupgrade
    refine ⟨⟨0, keys⟩, ?_⟩
    constructor
    case vaa => exact ⟨hsubmits.version, hsubmits.length, hsubmits.recoveryIds⟩
    case usable =>
      rw [hcurrent]
      refine ⟨hstored, ?_, rfl, .inl rfl⟩
      rw [← hkeys, ← h.length_keys]
      exact Nat.pos_of_ne_zero hnonempty
    case signed =>
      rw [← hkeys]
      exact (quorumSigned_iff_evm hrecover h hc).mpr ⟨hquorum, hsignatures⟩
    case chain => exact hsubmits.chain.trans h.governanceChainId
    case emitter => exact hsubmits.emitter.trans h.governanceContract
    case fresh => exact (h.consumed _).symm.trans hsubmits.fresh
    case upgrade => exact (isUpgrade_iff_evm hc.namesNext).mpr hupgrade
    case unused => exact hs.unused _ ((isUpgrade_iff_evm hc.namesNext).mpr hupgrade).later
    case early => exact hc.early

/-- A rotation that both accept leaves the same state. -/
theorem SameState.submitted (h : SameState s e) (hs : Inv s) (hsubmits : Submits P s c.now set c.vaa) :
    SameState
      (s.submitted c.now set (vmOf P.keccak256 c.vaa).hash (vmOf P.keccak256 c.vaa).payload)
      (e.submitted c.evmNow (vmOf P.keccak256 c.vaa)) := by
  constructor
  case index => rfl
  case chainId => exact h.chainId
  case governanceChainId => exact h.governanceChainId
  case governanceContract => exact h.governanceContract
  case consumed =>
    intro hash
    simp only [WormholeState.submitted, WormholeState.rotated,
      Storage.governanceActionIsConsumed, Storage.submitted]
    by_cases hhash : hash = (vmOf P.keccak256 c.vaa).hash
    · rw [hhash, Function.update_self, Function.update_self, Option.getD_some]
    · rw [Function.update_of_ne hhash, Function.update_of_ne hhash]
      exact h.consumed hash
  case keys =>
    intro i
    by_cases hnew : i = field (vmOf P.keccak256 c.vaa).payload 35 32 4
    · subst hnew
      rw [keysOf_submitted_new, WormholeState.submitted, WormholeReceiver.rotated_new]
      rfl
    · rw [keysOf_submitted_other hs hsubmits.current hnew, WormholeState.submitted,
        WormholeReceiver.keys_rotated hnew]
      exact h.keys i

/-- Both accept the rotation and are in the same state, or both refuse it. -/
theorem rotates_iff_evm (hrecover : RecoversAs P ecrecover) (hs : Inv s) (h : SameState s e)
    (hc : Comparable P.keccak256 s c) :
    (∃ s' e', rotate P c s = .ok s' ∧ evmRotate P ecrecover c e = .ok e' ∧ Inv s' ∧
      SameState s' e') ∨
      ∃ error error', rotate P c s = .error error ∧ evmRotate P ecrecover c e = .error error' := by
  by_cases hsubmits : ∃ set, Submits P s c.now set c.vaa
  · have hevm := (submits_iff_evm hrecover hs h hc).mp hsubmits
    obtain ⟨set, hsubmits⟩ := hsubmits
    exact .inl ⟨_, _, submitNewGuardianSet_eq_ok.mpr ⟨set, hsubmits, rfl⟩,
      WormholeReceiver.submitNewGuardianSet_eq_ok.mpr ⟨hevm, rfl⟩, hs.submitted hsubmits,
      h.submitted hs hsubmits⟩
  · refine .inr ?_
    have hrefused (s' : Storage) : rotate P c s ≠ .ok s' := fun hok => by
      obtain ⟨set, hset, -⟩ := submitNewGuardianSet_eq_ok.mp hok
      exact hsubmits ⟨set, hset⟩
    have hevm (e' : WormholeState) : evmRotate P ecrecover c e ≠ .ok e' := fun hok =>
      hsubmits ((submits_iff_evm hrecover hs h hc).mpr
        (WormholeReceiver.submitNewGuardianSet_eq_ok.mp hok).1)
    cases hfuel : rotate P c s with
    | ok s' => exact absurd hfuel (hrefused s')
    | error error =>
      cases hresult : evmRotate P ecrecover c e with
      | ok e' => exact absurd hresult (hevm e')
      | error error' => exact ⟨error, error', rfl, rfl⟩

/-! ## Runs -/

theorem Inv.rotate (hs : Inv s) (h : rotate P c s = .ok s') : Inv s' := by
  obtain ⟨set, hsubmits, rfl⟩ := submitNewGuardianSet_eq_ok.mp h
  exact hs.submitted hsubmits

theorem inv_run (hs : Inv s) (calls : List Call) : Inv (runAll (rotate P) s calls) :=
  runAll_invariant hs (fun _ _ _ hs h => hs.rotate h) calls

theorem sameState_run (hrecover : RecoversAs P ecrecover) (hs : Inv s) (h : SameState s e)
    {calls : List Call} (hcalls : Along (rotate P) (Comparable P.keccak256) s calls) :
    (Inv (runAll (rotate P) s calls) ∧
      SameState (runAll (rotate P) s calls) (runAll (evmRotate P ecrecover) e calls)) ∧
    applied (rotate P) s calls = applied (evmRotate P ecrecover) e calls := by
  refine lockstep (fun s e => Inv s ∧ SameState s e) ?_ ⟨hs, h⟩ hcalls
  rintro c s e ⟨hs, h⟩ hc
  exact rotates_iff_evm hrecover hs h hc

/-- A rotation is to a larger index. -/
theorem index_lt_of_rotate (h : rotate P c s = .ok s') :
    s.wormholeGuardianSetIndex < s'.wormholeGuardianSetIndex := by
  obtain ⟨set, hsubmits, rfl⟩ := submitNewGuardianSet_eq_ok.mp h
  exact hsubmits.upgrade.later

/-- A rotation to the next index, with keys. -/
theorem next_of_rotate (h : rotate P c s = .ok s')
    (hnext : NamesNext s (vmOf P.keccak256 c.vaa).payload) :
    s'.keysOf s'.wormholeGuardianSetIndex ≠ [] ∧
      s'.wormholeGuardianSetIndex.toNat = s.wormholeGuardianSetIndex.toNat + 1 := by
  have hlt := BitVec.lt_def.mp (index_lt_of_rotate h)
  obtain ⟨set, hsubmits, rfl⟩ := submitNewGuardianSet_eq_ok.mp h
  refine ⟨?_, le_antisymm hnext.next hlt⟩
  show Storage.keysOf _ (field (vmOf P.keccak256 c.vaa).payload 35 32 4) ≠ []
  rw [keysOf_submitted_new, ← List.length_pos_iff, length_keyWordsAt]
  exact hnext.nonempty

/-- The hash of the body of the VAA of a call. -/
def Call.hash (P : WormholeHost) (c : Call) : Bytes32 := (vmOf P.keccak256 c.vaa).hash

/-- No VAA is accepted twice. -/
theorem rotations_nodup (s : Storage) (calls : List Call) :
    ((applied (rotate P) s calls).map (Call.hash P)).Nodup := by
  refine (nodup_applied (Call.hash P) (fun s hash => s.governanceActionIsConsumed hash = true)
    (fun c s s' h => ?_) (fun c s s' hash h hused => ?_) s calls).1
  · obtain ⟨set, hsubmits, -⟩ := submitNewGuardianSet_eq_ok.mp h
    exact Bool.eq_false_iff.mp hsubmits.fresh
  · obtain ⟨set, -, rfl⟩ := submitNewGuardianSet_eq_ok.mp h
    simp only [Storage.governanceActionIsConsumed, Storage.submitted]
    by_cases hhash : hash = (vmOf P.keccak256 c.vaa).hash
    · rw [hhash, Function.update_self, Option.getD_some]
    · rw [Function.update_of_ne hhash]
      exact hused.resolve_right hhash

/-! ## VAAs of prices -/

/-- An accepted VAA is signed by a quorum of the current set. -/
theorem accepted_of_parse {now : BitVec 64} {bytes : Bytes} {vm : WormholeVM}
    (h : parseAndVerifyPythVm P s now s.wormholeGuardianSetIndex bytes = .ok vm) :
    QuorumSigned P (s.keysOf (vmOf P.keccak256 bytes).guardianSetIndex) bytes ∧
      s.keysOf (vmOf P.keccak256 bytes).guardianSetIndex ≠ [] ∧
      (vmOf P.keccak256 bytes).guardianSetIndex = s.wormholeGuardianSetIndex := by
  simp only [parseAndVerifyPythVm, except_bind_eq_ok, parseAndVerifyWormholeVm_eq_ok] at h
  obtain ⟨_, ⟨-, ⟨set, husable, hsigned⟩, rfl⟩, -⟩ := h
  rw [keysOf_of_stored husable.stored]
  exact ⟨hsigned, List.length_pos_iff.mp husable.nonempty, husable.current⟩

/-- A VAA that a quorum of the current set signed is accepted, at any time. -/
theorem parse_of_quorumSigned {now : BitVec 64} {bytes : Bytes} (hs : Inv s) (hvaa : IsVaa bytes)
    (hcurrent : (vmOf P.keccak256 bytes).guardianSetIndex = s.wormholeGuardianSetIndex)
    (hnonempty : s.keysOf s.wormholeGuardianSetIndex ≠ [])
    (hsigned : QuorumSigned P (s.keysOf s.wormholeGuardianSetIndex) bytes)
    (hsource : s.dataSourceIsValid ⟨(vmOf P.keccak256 bytes).emitterChainId,
      (vmOf P.keccak256 bytes).emitterAddress⟩ = true) :
    parseAndVerifyPythVm P s now s.wormholeGuardianSetIndex bytes
      = .ok (wormholeVmOf P.keccak256 bytes) := by
  obtain ⟨keys, hstored⟩ := hs.current
  rw [keysOf_of_stored hstored] at hnonempty hsigned
  simp only [parseAndVerifyPythVm, except_bind_eq_ok, parseAndVerifyWormholeVm_eq_ok,
    require_eq_ok]
  exact ⟨_, ⟨hvaa, ⟨⟨0, keys⟩, ⟨hcurrent.symm ▸ hstored, List.length_pos_iff.mpr hnonempty,
    hcurrent, .inl rfl⟩, hsigned⟩, rfl⟩, (), hsource, rfl⟩

/-- **Guardian sets.** In every run from a constructor with guardians, whatever chain a rotation is
for: while the calls are comparable, an EVM receiver with the same state accepts the same
rotations. While every rotation that is accepted names the next index and has keys, the current
set has keys and the index counts the rotations. No VAA is accepted twice, and an accepted
rotation increases the index. A VAA of prices is accepted only with a quorum of a set that is
current, or was replaced not longer than a day ago, and with a quorum of the current set it is
accepted at any time. -/
theorem guardian_sets (P : WormholeHost)
    (ecrecover : Bytes32 → BitVec 8 → Bytes32 → Bytes32 → Address)
    (hrecover : RecoversAs P ecrecover) (init : Storage) (hinit : init.Initial)
    (calls : List Call) :
    let s := runAll (rotate P) init calls
    let rotations := applied (rotate P) init calls
    (Along (rotate P) (Comparable P.keccak256) init calls → ∀ e, SameState init e →
      SameState s (runAll (evmRotate P ecrecover) e calls) ∧
      rotations = applied (evmRotate P ecrecover) e calls) ∧
    (Along (rotate P) (fun s c => ∀ s', rotate P c s = .ok s' →
        NamesNext s (vmOf P.keccak256 c.vaa).payload) init calls →
      s.keysOf s.wormholeGuardianSetIndex ≠ [] ∧
      s.wormholeGuardianSetIndex.toNat
        = init.wormholeGuardianSetIndex.toNat + rotations.length) ∧
    (rotations.map (Call.hash P)).Nodup ∧
    (∀ c s', rotate P c s = .ok s' → s.wormholeGuardianSetIndex < s'.wormholeGuardianSetIndex) ∧
    (∀ now bytes vm, parseAndVerifyPythVm P s now s.wormholeGuardianSetIndex bytes = .ok vm →
      let index := (vmOf P.keccak256 bytes).guardianSetIndex
      QuorumSigned P (s.keysOf index) bytes ∧ s.keysOf index ≠ [] ∧
      (index = s.wormholeGuardianSetIndex ∨
        ∃ c ∈ rotations, (vmOf P.keccak256 c.vaa).guardianSetIndex = index ∧
          now.toNat ≤ c.now.toNat + 86400)) ∧
    (∀ now bytes, IsVaa bytes →
      (vmOf P.keccak256 bytes).guardianSetIndex = s.wormholeGuardianSetIndex →
      s.keysOf s.wormholeGuardianSetIndex ≠ [] →
      QuorumSigned P (s.keysOf s.wormholeGuardianSetIndex) bytes →
      s.dataSourceIsValid ⟨(vmOf P.keccak256 bytes).emitterChainId,
        (vmOf P.keccak256 bytes).emitterAddress⟩ = true →
      parseAndVerifyPythVm P s now s.wormholeGuardianSetIndex bytes
        = .ok (wormholeVmOf P.keccak256 bytes)) := by
  intro s rotations
  have hs : Inv s := inv_run hinit.inv calls
  refine ⟨fun hcomparable e he => ?_, fun hnext => ?_, rotations_nodup init calls,
    fun c s' => index_lt_of_rotate, fun now bytes vm h => ?_, ?_⟩
  · obtain ⟨⟨-, hsame⟩, happlied⟩ := sameState_run hrecover hinit.inv he hcomparable
    exact ⟨hsame, happlied⟩
  · exact counter_runAll (fun s => s.wormholeGuardianSetIndex.toNat)
      (p := fun s => s.keysOf s.wormholeGuardianSetIndex ≠ []) hinit.keysOf_ne_nil
      (fun c s s' _ hc h => next_of_rotate h (hc s' h)) hnext
  · obtain ⟨hsigned, hnonempty, hcurrent⟩ := accepted_of_parse h
    exact ⟨hsigned, hnonempty, .inl hcurrent⟩
  · intro now bytes hvaa hcurrent hnonempty hsigned hsource
    exact parse_of_quorumSigned hs hvaa hcurrent hnonempty hsigned hsource

end

/-! ## Two rotations -/

def exPriceEmitter : Bytes32 := 0xe101faedac5851e32b9b23b5f9411a8c2bac4aae3ed4dd7b811dd1a72ea4aa71

/-- `ec_recover_evm_address` takes the parity out of the second half. -/
def hostOf (keccak256 : Bytes → Bytes32)
    (ecrecover : Bytes32 → BitVec 8 → Bytes32 → Bytes32 → Address) : WormholeHost where
  keccak256
  ecRecoverEvmAddress compact hash :=
    let signer := ecrecover hash (if compact.2.toNat < 2 ^ 255 then 27 else 28) compact.1
      (BitVec.ofNat 256 (compact.2.toNat % 2 ^ 255))
    if signer = 0 then none else some (signer.setWidth 256)

theorem hostOf_recoversAs (keccak256 : Bytes → Bytes32)
    (ecrecover : Bytes32 → BitVec 8 → Bytes32 → Bytes32 → Address) :
    RecoversAs (hostOf keccak256 ecrecover) ecrecover := by
  have hs {s : Bytes32} (h : s.toNat < 2 ^ 255) : BitVec.ofNat 256 (s.toNat % 2 ^ 255) = s := by
    rw [Nat.mod_eq_of_lt h, BitVec.ofNat_toNat, BitVec.setWidth_eq]
  rintro hash v r s (rfl | rfl) hlow
  · have hcompact : compactOf r s 27 = (r, s) := by
      have hzero : ((27 : BitVec 8) - 27).setWidth 256 <<< 255 = 0 := by decide
      rw [compactOf, hzero]
      exact congrArg _ (BitVec.zero_or)
    simp only [hcompact, hostOf, if_pos hlow, hs hlow]
  · have hcompact : (compactOf r s 28).2.toNat = 2 ^ 255 + s.toNat := by
      have hone : (((28 : BitVec 8) - 27).setWidth 256 <<< 255).toNat = 2 ^ 255 := by decide
      have hor := Nat.two_pow_add_eq_or_of_lt hlow 1
      rw [Nat.mul_one] at hor
      rw [compactOf, BitVec.toNat_or, hone, hor]
    have hhigh : ¬(compactOf r s 28).2.toNat < 2 ^ 255 := by
      rw [hcompact]
      exact not_lt.mpr (Nat.le_add_right _ _)
    have hlast : BitVec.ofNat 256 ((compactOf r s 28).2.toNat % 2 ^ 255) = s := by
      rw [hcompact, Nat.add_mod_left]
      exact hs hlow
    simp only [hostOf, if_neg hhigh, hlast]
    rfl

/-- The contract after its constructor, on chain 50. -/
def exStorageOf (guardians : List Address) : Storage :=
  constructed 50 ⟨1, 4⟩ (guardians.map (BitVec.setWidth 256)) 0 fun source =>
    if source = ⟨26, exPriceEmitter⟩ then some true else none

/-- The contract with a single guardian. -/
def exGuardian : Address := 0x1be31a94361a391bbafb2a4ccd704f57dc04d4bb
def exStorage : Storage := exStorageOf [exGuardian]

/-- The contract with four guardians. -/
def exQuorumStorage : Storage := exStorageOf exInitialGuardians

def exEvmState : WormholeState where
  guardianSets i := if i = 0 then { keys := exInitialGuardians } else {}
  provider := { chainId := 50, governanceChainId := 1, governanceContract := 4 }

def exVaas : List ExVaa := [exFirstUpgrade, exSecondUpgrade, exFirstVaa]

def exHost : WormholeHost := hostOf (ExVaa.hashOf exVaas) (ExVaa.recover exVaas)

/-- A block on Fuel has a time of TAI64. -/
def exCall (vaa : ExVaa) : Call where
  now := 4611686018427387904 + 1700000100
  evmNow := 1700000100
  vaa := vaa.bytes

/-- After the first rotation. -/
def exReplaced : Storage := submit (rotate exHost) exQuorumStorage (exCall exFirstUpgrade)

theorem exStorage_initial : exQuorumStorage.Initial :=
  ⟨_, _, _, _, _, List.cons_ne_nil _ _, construct_eq_ok.mpr ⟨by decide, rfl⟩⟩

theorem exStorage_sameState : SameState exQuorumStorage exEvmState := by
  constructor
  case index => rfl
  case chainId => rfl
  case governanceChainId => rfl
  case governanceContract => rfl
  case consumed => exact fun _ => rfl
  case keys =>
    intro i
    by_cases hi : i = 0
    · subst hi
      exact keysOf_constructed
    · have hnone : exQuorumStorage.wormholeGuardianSets i = none := constructed_other hi
      have hevm : exEvmState.guardianSets i = {} := if_neg hi
      rw [Storage.keysOf, hnone, hevm]
      rfl

theorem exCall_comparable :
    Comparable exHost.keccak256 exQuorumStorage (exCall exFirstUpgrade) ∧
      Comparable exHost.keccak256 exReplaced (exCall exSecondUpgrade) := by
  constructor
  · exact ⟨by decide +kernel, by decide +kernel, ⟨by decide +kernel, by decide +kernel⟩,
      by decide, by decide⟩
  · exact ⟨by decide +kernel, by decide +kernel, ⟨by decide +kernel, by decide +kernel⟩,
      by decide, by decide⟩

/-- The run of two rotations ends on both chains with set 2. -/
theorem guardian_sets_example :
    (runAll (rotate exHost) exQuorumStorage
      [exCall exFirstUpgrade, exCall exSecondUpgrade]).wormholeGuardianSetIndex.toNat = 0 + 2 ∧
    (applied (evmRotate exHost (ExVaa.recover exVaas)) exEvmState
      [exCall exFirstUpgrade, exCall exSecondUpgrade]).length = 2 := by
  obtain ⟨hsame, hcount, -⟩ := guardian_sets exHost (ExVaa.recover exVaas)
    (hostOf_recoversAs _ _) exQuorumStorage exStorage_initial
    [exCall exFirstUpgrade, exCall exSecondUpgrade]
  obtain ⟨hfirst, hsecond⟩ := exCall_comparable
  obtain ⟨-, happlied⟩ := hsame ⟨hfirst, hsecond, trivial⟩ exEvmState exStorage_sameState
  have hlength : (applied (rotate exHost) exQuorumStorage
      [exCall exFirstUpgrade, exCall exSecondUpgrade]).length = 2 := by
    decide +kernel
  refine ⟨?_, happlied ▸ hlength⟩
  rw [(hcount ⟨fun _ _ => hfirst.namesNext, fun _ _ => hsecond.namesNext, trivial⟩).2, hlength]
  rfl

/-- The second rotation is for chain 6, and the contract is on chain 50. Both accept it. The VAA
about prices, which guardians of set 0 signed, is accepted before the first rotation, and not in
the second after. -/
theorem guardian_sets_fail :
    (field (vmOf exHost.keccak256 exSecondUpgrade.bytes).payload 33 16 2 : BitVec 16) = 6 ∧
    exReplaced.chainId = 50 ∧
    (rotate exHost (exCall exSecondUpgrade) exReplaced).toBool = true ∧
    (evmRotate exHost (ExVaa.recover exVaas) (exCall exSecondUpgrade)
      (submit (evmRotate exHost (ExVaa.recover exVaas)) exEvmState
        (exCall exFirstUpgrade))).toBool = true ∧
    (parseAndVerifyPythVm exHost exQuorumStorage (exCall exFirstUpgrade).now 0
      exFirstVaa.bytes).toBool = true ∧
    parseAndVerifyPythVm exHost exReplaced ((exCall exFirstUpgrade).now + 1)
        exReplaced.wormholeGuardianSetIndex exFirstVaa.bytes
      = .error (.error .invalidGuardianSet) := by
  decide +kernel

end PythCrosschain.Fuel
