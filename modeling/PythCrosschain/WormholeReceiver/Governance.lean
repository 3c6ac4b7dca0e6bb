import PythCrosschain.WormholeReceiver.Agreement

/-!
# `ReceiverGovernance`

The setup of the Wormhole receiver and the replacement of its guardian set by a
governance VAA, with the setters that both use. `submitNewGuardianSet_ok` says
when a replacement succeeds and what it does.
-/

namespace PythCrosschain.WormholeReceiver

/-- `ReceiverStructs.Provider`. -/
structure Provider where
  chainId : Uint16 := 0
  governanceChainId : Uint16 := 0
  governanceContract : Bytes32 := 0
deriving DecidableEq, Repr

/-- `ReceiverStorage.WormholeState`, with the fields that governance uses. -/
structure WormholeState extends State where
  provider : Provider := {}
  consumedGovernanceActions : Bytes32 → Bool := fun _ => false

namespace WormholeState

/-! ## `ReceiverGetters` -/

def governanceActionIsConsumed (st : WormholeState) (hash : Bytes32) : Bool :=
  st.consumedGovernanceActions hash

def governanceChainId (st : WormholeState) : Uint16 := st.provider.governanceChainId

def governanceContract (st : WormholeState) : Bytes32 := st.provider.governanceContract

/-! ## `ReceiverSetters` -/

def updateGuardianSetIndex (newIndex : Uint32) (st : WormholeState) : WormholeState :=
  { st with guardianSetIndex := newIndex }

/-- `uint32(block.timestamp) + 86400`. -/
def expirationTime (timestamp : Uint256) : Result Uint32 :=
  checkedAdd (timestamp.setWidth 32) 86400

def expireGuardianSet (timestamp : Uint256) (index : Uint32) (st : WormholeState) :
    Result WormholeState := do
  let expirationTime ← expirationTime timestamp
  return { st with
    guardianSets := Function.update st.guardianSets index
      { st.guardianSets index with expirationTime } }

def storeGuardianSet (set : GuardianSet) (index : Uint32) (st : WormholeState) : WormholeState :=
  { st with guardianSets := Function.update st.guardianSets index set }

def setGovernanceActionConsumed (hash : Bytes32) (st : WormholeState) : WormholeState :=
  { st with consumedGovernanceActions := Function.update st.consumedGovernanceActions hash true }

end WormholeState

/-! ## `ReceiverSetup` -/

def setup (initialGuardians : List Address) (chainId governanceChainId : Uint16)
    (governanceContract : Bytes32) (st : WormholeState) : Result WormholeState := do
  require (initialGuardians.length > 0) (.reason "no guardians specified")
  let initialGuardianSet : GuardianSet := { keys := initialGuardians, expirationTime := 0 }
  let st := st.storeGuardianSet initialGuardianSet 0
  return { st with provider := { chainId, governanceChainId, governanceContract } }

/-! ## `ReceiverGovernanceStructs` -/

/-- `GuardianSetUpgrade`. -/
structure GuardianSetUpgrade where
  governanceModule : Bytes32
  action : Uint8
  chain : Uint16
  newGuardianSet : GuardianSet
  newGuardianSetIndex : Uint32
deriving DecidableEq, Repr

section

open BytesLib

/-- The loop over the keys, for `guardianLength` more keys. -/
def parseKeys (encodedUpgrade : Bytes) (index : Nat) : Nat → Result (List Address × Nat)
  | 0 => return ([], index)
  | guardianLength + 1 => do
    let key ← toAddress encodedUpgrade index
    let parsed ← parseKeys encodedUpgrade (index + 20) guardianLength
    return (key :: parsed.1, parsed.2)

def parseGuardianSetUpgrade (encodedUpgrade : Bytes) : Result GuardianSetUpgrade := do
  let mut index := 0
  let governanceModule ← toBytes32 encodedUpgrade index
  index := index + 32
  let action ← toUint8 encodedUpgrade index
  index := index + 1
  require (action = 2) (.reason "invalid GuardianSetUpgrade")
  let chain ← toUint16 encodedUpgrade index
  index := index + 2
  let newGuardianSetIndex ← toUint32 encodedUpgrade index
  index := index + 4
  let guardianLength ← toUint8 encodedUpgrade index
  index := index + 1
  let parsed ← parseKeys encodedUpgrade index guardianLength.toNat
  let newGuardianSet : GuardianSet := { keys := parsed.1, expirationTime := 0 }
  index := parsed.2
  require (encodedUpgrade.length = index) (.reason "invalid GuardianSetUpgrade")
  return { governanceModule, action, chain, newGuardianSet, newGuardianSetIndex }

end

/-! ## `ReceiverGovernance` -/

/-- "Core" (left padded). -/
def coreModule : Bytes32 := 0x436f7265

section

variable (keccak256 : Bytes → Bytes32) (ecrecover : Bytes32 → Uint8 → Bytes32 → Bytes32 → Address)

def verifyGovernanceVM (st : WormholeState) (timestamp : Uint256) (vm : VM) :
    Result (Bool × String) := do
  let checked ← verifyVM ecrecover st.toState timestamp vm
  if ¬checked.1 then return (false, checked.2)
  if vm.guardianSetIndex ≠ st.getCurrentGuardianSetIndex then
    return (false, "not signed by current guardian set")
  if vm.emitterChainId ≠ st.governanceChainId then return (false, "wrong governance chain")
  if vm.emitterAddress ≠ st.governanceContract then return (false, "wrong governance contract")
  if st.governanceActionIsConsumed vm.hash then
    return (false, "governance action already consumed")
  return (true, "")

def submitNewGuardianSet (_vm : Bytes) (timestamp : Uint256) (st : WormholeState) :
    Result WormholeState := do
  let vm ← parseVM keccak256 _vm
  let checked ← verifyGovernanceVM ecrecover st timestamp vm
  require (checked.1 = true) (.reason checked.2)
  let upgrade ← parseGuardianSetUpgrade vm.payload
  require (upgrade.governanceModule = coreModule) (.reason "invalid Module")
  require (upgrade.newGuardianSet.keys.length > 0) (.reason "new guardian set is empty")
  let nextIndex ← checkedAdd st.getCurrentGuardianSetIndex 1
  require (upgrade.newGuardianSetIndex = nextIndex) (.reason "index must increase in steps of 1")
  let st := st.setGovernanceActionConsumed vm.hash
  let st ← st.expireGuardianSet timestamp st.getCurrentGuardianSetIndex
  let st := st.storeGuardianSet upgrade.newGuardianSet upgrade.newGuardianSetIndex
  return st.updateGuardianSetIndex upgrade.newGuardianSetIndex

end

/-! ## When a replacement succeeds -/

variable {keccak256 : Bytes → Bytes32} {ecrecover : Bytes32 → Uint8 → Bytes32 → Bytes32 → Address}
  {st st' : WormholeState} {timestamp : Uint256}

theorem setup_eq_ok {initialGuardians : List Address} {chainId governanceChainId : Uint16}
    {governanceContract : Bytes32} :
    setup initialGuardians chainId governanceChainId governanceContract st = .ok st' ↔
      initialGuardians ≠ [] ∧
      st' = { st with
        guardianSets := Function.update st.guardianSets 0 { keys := initialGuardians }
        provider := { chainId, governanceChainId, governanceContract } } := by
  simp only [setup, bind_eq_ok, require_eq_ok, pure_eq_ok, gt_iff_lt, List.length_pos_iff,
    exists_const]
  exact and_congr_right fun _ => eq_comm

theorem expireGuardianSet_eq_ok {index : Uint32} :
    st.expireGuardianSet timestamp index = .ok st' ↔
      ∃ expirationTime : Uint32,
        expirationTime.toNat = timestamp.toNat % 2 ^ 32 + 86400 ∧
        st' = { st with
          guardianSets := Function.update st.guardianSets index
            { st.guardianSets index with expirationTime } } := by
  simp only [WormholeState.expireGuardianSet, WormholeState.expirationTime, bind_eq_ok,
    checkedAdd_eq_ok, BitVec.toNat_setWidth, pure_eq_ok]
  exact exists_congr fun _ => and_congr_right fun _ => eq_comm

/-- A parsed set has not expired. -/
theorem parseGuardianSetUpgrade_expirationTime {encodedUpgrade : Bytes}
    {upgrade : GuardianSetUpgrade} (parsed : parseGuardianSetUpgrade encodedUpgrade = .ok upgrade) :
    upgrade.newGuardianSet.expirationTime = 0 := by
  simp only [parseGuardianSetUpgrade, bind_eq_ok, pure_eq_ok] at parsed
  obtain ⟨_, _, _, _, _, _, _, _, _, _, _, _, _, _, _, _, rfl⟩ := parsed
  rfl

/-- A governance VAA is one that the current set signed, from the governance emitter and
not consumed yet. -/
theorem verifyGovernanceVM_ok {vm : VM} {reason : String}
    (verified : verifyGovernanceVM ecrecover st timestamp vm = .ok (true, reason)) :
    (∃ reason, verifyVM ecrecover st.toState timestamp vm = .ok (true, reason)) ∧
      vm.guardianSetIndex = st.guardianSetIndex ∧
      vm.emitterChainId = st.provider.governanceChainId ∧
      vm.emitterAddress = st.provider.governanceContract ∧
      st.consumedGovernanceActions vm.hash = false := by
  unfold verifyGovernanceVM at verified
  obtain ⟨⟨valid, reason'⟩, checked, rest⟩ := bind_eq_ok.mp verified
  cases valid with
  | false => simp at rest
  | true =>
    simp only [not_true_eq_false, if_false] at rest
    split at rest
    · simp at rest
    · next current =>
      split at rest
      · simp at rest
      · next chain =>
        split at rest
        · simp at rest
        · next emitter =>
          split at rest
          · simp at rest
          · next fresh =>
            exact ⟨⟨reason', checked⟩, not_not.mp current, not_not.mp chain, not_not.mp emitter,
              Bool.eq_false_of_not_eq_true fresh⟩

/-- What a replacement does to the state: the current set gets an expiration time, and
the new set is stored at the next index and becomes the current one. -/
def WormholeState.rotated (st : WormholeState) (hash : Bytes32) (expirationTime : Uint32)
    (keys : List Address) (newIndex : Uint32) : WormholeState :=
  { st with
    guardianSets := Function.update
      (Function.update st.guardianSets st.guardianSetIndex
        { st.guardianSets st.guardianSetIndex with expirationTime })
      newIndex { keys, expirationTime := 0 }
    guardianSetIndex := newIndex
    consumedGovernanceActions := Function.update st.consumedGovernanceActions hash true }

/-- A successful replacement was signed by the current set, consumed a fresh governance
action, and stored a set with keys at the next index. -/
theorem submitNewGuardianSet_ok {_vm : Bytes}
    (submitted : submitNewGuardianSet keccak256 ecrecover _vm timestamp st = .ok st') :
    ∃ expirationTime keys newIndex,
      st.consumedGovernanceActions (vmOf keccak256 _vm).hash = false ∧
      expirationTime.toNat = timestamp.toNat % 2 ^ 32 + 86400 ∧ keys ≠ [] ∧
      newIndex.toNat = st.guardianSetIndex.toNat + 1 ∧
      st' = st.rotated (vmOf keccak256 _vm).hash expirationTime keys newIndex := by
  simp only [submitNewGuardianSet, bind_eq_ok, require_eq_ok, checkedAdd_eq_ok,
    expireGuardianSet_eq_ok, pure_eq_ok] at submitted
  obtain ⟨vm, parsed, ⟨valid, reason⟩, checked, -, verified, upgrade, decoded, -, -, -, nonempty,
    nextIndex, next, -, stepped, _, ⟨expirationTime, expires, rfl⟩, rfl⟩ := submitted
  obtain ⟨-, -, -, rfl⟩ := parseVM_eq_ok.mp parsed
  cases verified
  obtain ⟨-, -, -, -, fresh⟩ := verifyGovernanceVM_ok checked
  have unexpired := parseGuardianSetUpgrade_expirationTime decoded
  refine ⟨expirationTime, upgrade.newGuardianSet.keys, upgrade.newGuardianSetIndex, fresh, expires,
    List.length_pos_iff.mp nonempty, stepped ▸ next, ?_⟩
  have set : upgrade.newGuardianSet =
      { keys := upgrade.newGuardianSet.keys, expirationTime := 0 } := by
    rw [← unexpired]
  rw [set]
  rfl

end PythCrosschain.WormholeReceiver
