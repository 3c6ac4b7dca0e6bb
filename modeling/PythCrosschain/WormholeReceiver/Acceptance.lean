import PythCrosschain.WormholeReceiver.Governance

/-!
# When the receiver replaces its guardian set

`submitNewGuardianSet_eq_ok` says exactly for which bytes `submitNewGuardianSet` succeeds, in the
fields at fixed offsets, and what the state is then.
-/

namespace PythCrosschain.WormholeReceiver

open BytesLib

/-- The addresses from an offset on. -/
def keysAt (bs : Bytes) (start : Nat) : Nat → List Address
  | 0 => []
  | n + 1 => field bs start 160 20 :: keysAt bs (start + 20) n

@[simp] theorem length_keysAt (bs : Bytes) (start n : Nat) : (keysAt bs start n).length = n := by
  induction n generalizing start with
  | zero => rfl
  | succ n ih => rw [keysAt, List.length_cons, ih]

def guardianLengthOf (payload : Bytes) : Nat := (field payload 39 8 1 : Uint8).toNat

/-- The payload is an upgrade to a set with keys, at the index after the current one. -/
structure IsUpgrade (payload : Bytes) (current : Uint32) : Prop where
  core : (field payload 0 256 32 : Bytes32) = coreModule
  action : (field payload 32 8 1 : Uint8) = 2
  next : (field payload 35 32 4 : Uint32).toNat = current.toNat + 1
  nonempty : 0 < guardianLengthOf payload
  length : payload.length = 40 + 20 * guardianLengthOf payload

theorem parseKeys_eq_ok {bs : Bytes} {start n : Nat} {parsed : List Address × Nat}
    (hstart : start ≤ bs.length) :
    parseKeys bs start n = .ok parsed ↔
      start + 20 * n ≤ bs.length ∧ parsed = (keysAt bs start n, start + 20 * n) := by
  induction n generalizing start parsed with
  | zero =>
    simp only [parseKeys, keysAt, pure_eq_ok]
    exact ⟨fun h => ⟨hstart, h.symm⟩, fun h => h.2.symm⟩
  | succ n ih =>
    simp only [parseKeys, BytesLib.toAddress, bind_eq_ok, toField_eq_ok, pure_eq_ok]
    constructor
    · rintro ⟨_, ⟨hend, rfl⟩, rest, hrest, rfl⟩
      obtain ⟨hlen, rfl⟩ := (ih hend).mp hrest
      refine ⟨by omega, ?_⟩
      rw [keysAt, Nat.mul_succ, Nat.add_comm (20 * n) 20, ← Nat.add_assoc]
    · rintro ⟨hlen, rfl⟩
      refine ⟨_, ⟨by omega, rfl⟩, _, (ih (by omega)).mpr ⟨by omega, rfl⟩, ?_⟩
      rw [keysAt, Nat.mul_succ, Nat.add_comm (20 * n) 20, ← Nat.add_assoc]

theorem parseGuardianSetUpgrade_eq_ok {payload : Bytes} {upgrade : GuardianSetUpgrade} :
    parseGuardianSetUpgrade payload = .ok upgrade ↔
      (field payload 32 8 1 : Uint8) = 2 ∧
      payload.length = 40 + 20 * guardianLengthOf payload ∧
      upgrade = {
        governanceModule := field payload 0 256 32
        action := field payload 32 8 1
        chain := field payload 33 16 2
        newGuardianSet := { keys := keysAt payload 40 (guardianLengthOf payload) }
        newGuardianSetIndex := field payload 35 32 4 } := by
  simp only [parseGuardianSetUpgrade, BytesLib.toUint8, BytesLib.toUint16, BytesLib.toUint32,
    BytesLib.toBytes32, bind_eq_ok, toField_eq_ok, require_eq_ok, pure_eq_ok, Nat.zero_add,
    Nat.reduceAdd]
  constructor
  · rintro ⟨_, ⟨-, rfl⟩, _, ⟨-, rfl⟩, _, haction, _, ⟨-, rfl⟩, _, ⟨-, rfl⟩, _, ⟨hlen, rfl⟩, parsed,
      hparsed, _, hend, rfl⟩
    obtain ⟨-, rfl⟩ := (parseKeys_eq_ok (by omega)).mp hparsed
    exact ⟨haction, hend, rfl⟩
  · rintro ⟨haction, hlen, rfl⟩
    exact ⟨_, ⟨by omega, rfl⟩, _, ⟨by omega, rfl⟩, (), haction, _, ⟨by omega, rfl⟩, _,
      ⟨by omega, rfl⟩, _, ⟨by omega, rfl⟩, _,
      (parseKeys_eq_ok (by omega)).mpr ⟨le_of_eq hlen.symm, rfl⟩, (), hlen, rfl⟩

section

variable {keccak256 : Bytes → Bytes32} {ecrecover : Bytes32 → Uint8 → Bytes32 → Bytes32 → Address}
  {st st' : WormholeState} {timestamp : Uint256}

theorem verifyGovernanceVM_eq_ok {vm : VM} {reason : String} :
    verifyGovernanceVM ecrecover st timestamp vm = .ok (true, reason) ↔
      (∃ reason, verifyVM ecrecover st.toState timestamp vm = .ok (true, reason)) ∧
      vm.guardianSetIndex = st.guardianSetIndex ∧
      vm.emitterChainId = st.provider.governanceChainId ∧
      vm.emitterAddress = st.provider.governanceContract ∧
      st.consumedGovernanceActions vm.hash = false ∧ reason = "" := by
  constructor
  · intro verified
    obtain ⟨checked, current, chain, emitter, fresh⟩ := verifyGovernanceVM_ok verified
    refine ⟨checked, current, chain, emitter, fresh, ?_⟩
    obtain ⟨reason', checked⟩ := checked
    simp only [verifyGovernanceVM, checked] at verified
    rw [bind_eq_ok] at verified
    obtain ⟨_, hchecked, verified⟩ := verified
    cases hchecked
    have hindex : ¬vm.guardianSetIndex ≠ st.getCurrentGuardianSetIndex := not_not.mpr current
    have hchain : ¬vm.emitterChainId ≠ st.governanceChainId := not_not.mpr chain
    have hemitter : ¬vm.emitterAddress ≠ st.governanceContract := not_not.mpr emitter
    have hfresh : ¬st.governanceActionIsConsumed vm.hash = true := by
      rw [WormholeState.governanceActionIsConsumed, fresh]
      decide
    simp only [not_true_eq_false, if_false, if_neg hindex, if_neg hchain, if_neg hemitter,
      if_neg hfresh] at verified
    cases verified
    rfl
  · rintro ⟨⟨reason', checked⟩, current, chain, emitter, fresh, rfl⟩
    unfold verifyGovernanceVM
    rw [bind_eq_ok]
    refine ⟨_, checked, ?_⟩
    have hindex : ¬vm.guardianSetIndex ≠ st.getCurrentGuardianSetIndex := not_not.mpr current
    have hchain : ¬vm.emitterChainId ≠ st.governanceChainId := not_not.mpr chain
    have hemitter : ¬vm.emitterAddress ≠ st.governanceContract := not_not.mpr emitter
    have hfresh : ¬st.governanceActionIsConsumed vm.hash = true := by
      rw [WormholeState.governanceActionIsConsumed, fresh]
      decide
    simp only [not_true_eq_false, if_false, if_neg hindex, if_neg hchain, if_neg hemitter,
      if_neg hfresh]
    rfl

/-- What `submitNewGuardianSet` checks of the bytes of a VAA. -/
structure Submits (keccak256 : Bytes → Bytes32)
    (ecrecover : Bytes32 → Uint8 → Bytes32 → Bytes32 → Address) (st : WormholeState)
    (timestamp : Uint256) (bs : Bytes) : Prop where
  version : (field bs 0 8 1 : Uint8) = 1
  length : bodyStart bs + 51 ≤ bs.length
  recoveryIds : RecoveryIdsFit bs 6 (signersLenOf bs)
  usable : Usable st.toState timestamp (vmOf keccak256 bs).guardianSetIndex
  quorum : quorumOf (st.guardianSets (vmOf keccak256 bs).guardianSetIndex).keys.length
    ≤ signersLenOf bs
  signatures : ∃ reason, verifySignaturesFrom ecrecover (vmOf keccak256 bs).hash
    (st.guardianSets (vmOf keccak256 bs).guardianSetIndex) 0 0 (vmOf keccak256 bs).signatures
      = .ok (true, reason)
  current : (vmOf keccak256 bs).guardianSetIndex = st.guardianSetIndex
  chain : (vmOf keccak256 bs).emitterChainId = st.provider.governanceChainId
  emitter : (vmOf keccak256 bs).emitterAddress = st.provider.governanceContract
  fresh : st.consumedGovernanceActions (vmOf keccak256 bs).hash = false
  upgrade : IsUpgrade (vmOf keccak256 bs).payload st.guardianSetIndex
  early : timestamp.toNat % 2 ^ 32 + 86400 < 2 ^ 32

/-- The state after the guardian set of the payload has replaced the current one. -/
def WormholeState.submitted (st : WormholeState) (timestamp : Uint256) (vm : VM) : WormholeState :=
  st.rotated vm.hash (BitVec.ofNat 32 (timestamp.toNat % 2 ^ 32 + 86400))
    (keysAt vm.payload 40 (guardianLengthOf vm.payload)) (field vm.payload 35 32 4)

theorem submitNewGuardianSet_eq_ok {bs : Bytes} :
    submitNewGuardianSet keccak256 ecrecover bs timestamp st = .ok st' ↔
      Submits keccak256 ecrecover st timestamp bs ∧
      st' = st.submitted timestamp (vmOf keccak256 bs) := by
  simp only [submitNewGuardianSet, bind_eq_ok, parseVM_eq_ok, require_eq_ok,
    parseGuardianSetUpgrade_eq_ok, checkedAdd_eq_ok, expireGuardianSet_eq_ok, pure_eq_ok]
  constructor
  · rintro ⟨_, ⟨hversion, hlength, hids, rfl⟩, ⟨valid, _⟩, hverified, _, hvalid, _,
      ⟨haction, hpayload, rfl⟩, _, hcore, _, hkeys, next, hnext, _, hindex, _,
      ⟨expirationTime, hexpires, rfl⟩, rfl⟩
    cases hvalid
    obtain ⟨⟨_, hverified⟩, hcurrent, hchain, hemitter, hfresh, -⟩ :=
      verifyGovernanceVM_eq_ok.mp hverified
    obtain ⟨husable, hquorum, hsignatures, -⟩ := verifyVM_eq_ok.mp hverified
    have hkeys' : 0 < guardianLengthOf (vmOf keccak256 bs).payload := by
      simpa only [length_keysAt, gt_iff_lt] using hkeys
    have hearly := expirationTime.isLt
    rw [hexpires] at hearly
    have hsigners : (vmOf keccak256 bs).signatures.length = signersLenOf bs :=
      length_signaturesAt _ _ _
    refine ⟨⟨hversion, hlength, hids, husable, hsigners ▸ hquorum, hsignatures, hcurrent, hchain,
      hemitter, hfresh, ⟨hcore, haction, ?_, hkeys', hpayload⟩, hearly⟩, ?_⟩
    · exact (congrArg BitVec.toNat hindex).trans hnext
    · have hexpiration : expirationTime = BitVec.ofNat 32 (timestamp.toNat % 2 ^ 32 + 86400) := by
        apply BitVec.eq_of_toNat_eq
        rw [hexpires, BitVec.toNat_ofNat, Nat.mod_eq_of_lt hearly]
      rw [WormholeState.submitted, ← hexpiration]
      rfl
  · rintro ⟨h, rfl⟩
    have hsigners : (vmOf keccak256 bs).signatures.length = signersLenOf bs :=
      length_signaturesAt _ _ _
    refine ⟨_, ⟨h.version, h.length, h.recoveryIds, rfl⟩, (true, ""), ?_, (), rfl, _,
      ⟨h.upgrade.action, h.upgrade.length, rfl⟩, (), h.upgrade.core, (), ?_,
      field (vmOf keccak256 bs).payload 35 32 4, ?_, (), rfl, _,
      ⟨BitVec.ofNat 32 (timestamp.toNat % 2 ^ 32 + 86400), ?_, rfl⟩, rfl⟩
    · refine verifyGovernanceVM_eq_ok.mpr ⟨⟨"", verifyVM_eq_ok.mpr ⟨h.usable, ?_, h.signatures,
        rfl⟩⟩, h.current, h.chain, h.emitter, h.fresh, rfl⟩
      exact hsigners.symm ▸ h.quorum
    · simpa only [length_keysAt, gt_iff_lt] using h.upgrade.nonempty
    · exact h.upgrade.next
    · rw [BitVec.toNat_ofNat, Nat.mod_eq_of_lt h.early]

end

end PythCrosschain.WormholeReceiver
