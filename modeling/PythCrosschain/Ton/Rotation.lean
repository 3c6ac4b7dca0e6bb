import PythCrosschain.Lib.Transactions
import PythCrosschain.Ton.VerifiedVaa
import PythCrosschain.WormholeReceiver.Rotation

/-!
# TON: rotation of the guardian set

A run is any list of `update_guardian_set` messages, in any layout of cells. The results are:

- `updateGuardianSet_ok`: what an accepted rotation is, and what it writes;
- `submits_of_verified`: the EVM receiver accepts the same bytes, if they name the current set and
  have the recovery ids 0 and 1;
- `guardian_sets_rotate`: what holds of every accepted rotation in every run;
- `guardian_sets_rotate_fail`: a rotation may be for another chain, as on EVM chains, and a set
  that was replaced before is enough for a rotation.
-/

namespace PythCrosschain.Ton

open Tvm
open WormholeReceiver (WormholeState bodyStart signersLenOf vmOf keysAt guardianLengthOf IsUpgrade
  Submits RecoveryIdsFit submitNewGuardianSet submitNewGuardianSet_eq_ok ExVaa ExGuardian
  exGuardian0 exGuardian1 exGuardian2 exGuardian5 exUpgradeBody exFirstUpgrade exSecondUpgrade
  exInitialGuardians)
open BytesLib (field)

/-! ## One rotation -/

section

variable {keccak256 : Bytes → Bytes32}
  {checkSig : Bytes32 → BitVec 8 → Bytes32 → Bytes32 → Option (Bytes32 × Bytes32)}
  {s s' : WormholeStorage} {now : BitVec 32} {data : Slice}

/-- An accepted rotation, and the state that it leaves. -/
structure Rotates (keccak256 : Bytes → Bytes32)
    (checkSig : Bytes32 → BitVec 8 → Bytes32 → Bytes32 → Option (Bytes32 × Bytes32))
    (s : WormholeStorage) (now : BitVec 32) (vaa : Bytes) (set : GuardianSet)
    (s' : WormholeStorage) : Prop where
  verified : Verified keccak256 checkSig s now vaa set
  chain : (vmOf keccak256 vaa).emitterChainId = s.governanceChainId
  emitter : (vmOf keccak256 vaa).emitterAddress = s.governanceContract
  fresh : s.consumedGovernanceActions (vmOf keccak256 vaa).hash = false
  upgrade : IsUpgrade (vmOf keccak256 vaa).payload s.currentGuardianSetIndex
  state : ∃ h, s' = s.rotate now (vmOf keccak256 vaa).hash
    (keysAt (vmOf keccak256 vaa).payload 40 (guardianLengthOf (vmOf keccak256 vaa).payload)) h
    (field (vmOf keccak256 vaa).payload 35 32 4)

theorem updateGuardianSet_ok (h : updateGuardianSet keccak256 checkSig s now data = .ok s') :
    ∃ vaa set, data.all = bitsOf vaa ∧ Rotates keccak256 checkSig s now vaa set s' := by
  simp only [updateGuardianSet, except_bind_eq_ok, throwUnless_eq_ok, throwIf_eq_ok] at h
  obtain ⟨vm, hvm, _, hchain, _, hemitter, _, hfresh, upgrade, hupgrade, h⟩ := h
  obtain ⟨vaa, set, hdata, hverified, hvaa⟩ := parseAndVerifyWormholeVm_ok hvm
  obtain ⟨hisUpgrade, hkeys, hindex⟩ := parseEncodedUpgrade_ok hvaa.payload hupgrade
  split at h
  · next hlength =>
    cases h
    refine ⟨vaa, set, hdata, hverified, hvaa.emitterChainId ▸ hchain,
      hvaa.emitterAddress ▸ hemitter, ?_, hisUpgrade, hkeys ▸ hlength, ?_⟩
    · rw [← hvaa.hash]
      exact Bool.eq_false_of_not_eq_true hfresh
    · simp only [hkeys, hindex, hvaa.hash]
  · cases h

/-- The new index is not that of a set up to the current one. -/
theorem Rotates.ne_newIndex {vaa : Bytes} {set : GuardianSet}
    (h : Rotates keccak256 checkSig s now vaa set s') {i : BitVec 32}
    (hi : i.toNat ≤ s.currentGuardianSetIndex.toNat) :
    i ≠ field (vmOf keccak256 vaa).payload 35 32 4 := by
  rintro rfl
  have hnext := h.upgrade.next
  omega

section

variable {hash : Bytes32} {keys : List Address} {hkeys : keys.length ≤ 256} {newIndex : BitVec 32}

theorem guardianSets_rotate_new :
    (s.rotate now hash keys hkeys newIndex).guardianSets newIndex = some ⟨0, keys, hkeys⟩ :=
  Function.update_self _ _ _

theorem keys_expire (set : GuardianSet) : (set.expire now).keys = set.keys := by
  simp only [GuardianSet.expire]

theorem toNat_expirationTime_expire (set : GuardianSet) :
    (set.expire now).expirationTime.toNat = now.toNat + 86400 := by
  have hnow := now.isLt
  rw [GuardianSet.expire, BitVec.toNat_ofNat, GUARDIAN_SET_EXPIRY]
  omega

theorem guardianSets_rotate_current {set : GuardianSet}
    (hset : s.guardianSets s.currentGuardianSetIndex = some set)
    (hne : s.currentGuardianSetIndex ≠ newIndex) :
    (s.rotate now hash keys hkeys newIndex).guardianSets s.currentGuardianSetIndex
      = some (set.expire now) := by
  show Function.update _ _ _ _ = _
  rw [Function.update_of_ne hne, hset]
  exact Function.update_self _ _ _

theorem guardianSets_rotate_other {i : BitVec 32} (hne : i ≠ newIndex)
    (hcurrent : i ≠ s.currentGuardianSetIndex) :
    (s.rotate now hash keys hkeys newIndex).guardianSets i = s.guardianSets i := by
  show Function.update _ _ _ _ = _
  rw [Function.update_of_ne hne]
  cases s.guardianSets s.currentGuardianSetIndex with
  | none => rfl
  | some set => exact Function.update_of_ne hcurrent _ _

end

end

/-! ## The EVM receiver -/

/-- The state of an EVM receiver with the same guardian sets, chain ids and actions. -/
def WormholeStorage.toEvm (s : WormholeStorage) : WormholeState where
  guardianSets i := match s.guardianSets i with
    | some set => { keys := set.keys, expirationTime := set.expirationTime.setWidth 32 }
    | none => {}
  guardianSetIndex := s.currentGuardianSetIndex
  provider := {
    chainId := s.chainId
    governanceChainId := s.governanceChainId
    governanceContract := s.governanceContract }
  consumedGovernanceActions := s.consumedGovernanceActions

section

variable {keccak256 : Bytes → Bytes32}
  {checkSig : Bytes32 → BitVec 8 → Bytes32 → Bytes32 → Option (Bytes32 × Bytes32)}
  {ecrecover : Bytes32 → BitVec 8 → Bytes32 → Bytes32 → Address}
  {s s' : WormholeStorage} {now : BitVec 32} {vaa : Bytes} {set : GuardianSet}

/-- `ECRECOVER` gives the key of the address that `ecrecover` gives, for the recovery ids 0 and
1 here and 27 and 28 there. -/
def RecoversAs (keccak256 : Bytes → Bytes32)
    (checkSig : Bytes32 → BitVec 8 → Bytes32 → Bytes32 → Option (Bytes32 × Bytes32))
    (ecrecover : Bytes32 → BitVec 8 → Bytes32 → Bytes32 → Address) : Prop :=
  ∀ hash v r s key, v = 0 ∨ v = 1 → checkSig hash v r s = some key →
    ecrecover hash (v + 27) r s = pubkeyToEthAddress keccak256 key.1 key.2

/-- Ascending signatures are verified on EVM chains. -/
theorem verifySignaturesFrom_of_ascend (hrecover : RecoversAs keccak256 checkSig ecrecover)
    {hash : Bytes32} {expirationTime : BitVec 32} {keys : List Address} {bytes : Bytes}
    {start n i : ℕ} {last : ℤ} {lastIndex : BitVec 8} (hlast : i ≠ 0 → lastIndex.toNat ≤ last)
    (hids : ∀ sig ∈ signaturesAt bytes start n, sig.v = 0 ∨ sig.v = 1)
    (h : AscendFrom keccak256 checkSig hash keys last (signaturesAt bytes start n)) :
    ∃ reason, WormholeReceiver.verifySignaturesFrom ecrecover hash { keys, expirationTime } i
      lastIndex (WormholeReceiver.signaturesAt bytes start n) = .ok (true, reason) := by
  induction n generalizing start i last lastIndex with
  | zero => exact ⟨"", rfl⟩
  | succ n ih =>
    obtain ⟨habove, ⟨address, hsigner, hkey⟩, hrest⟩ := h
    have hv := hids _ List.mem_cons_self
    have hids' : ∀ sig ∈ signaturesAt bytes (start + 66) n, sig.v = 0 ∨ sig.v = 1 :=
      fun sig hsig => hids sig (List.mem_cons_of_mem _ hsig)
    obtain ⟨reason, hreason⟩ := @ih (start + 66) (i + 1) _
      (signatureAt bytes start).guardianIndex (fun _ => le_rfl) hids' hrest
    refine ⟨reason, WormholeReceiver.verifySignaturesFrom_cons.mpr ⟨address, ?_, ?_, ?_, hreason⟩⟩
    · exact WormholeReceiver.keyAt_eq_ok.mpr hkey
    · rintro ⟨hi, hle⟩
      have hle' : (signatureAt bytes start).guardianIndex.toNat ≤ lastIndex.toNat :=
        BitVec.le_def.mp hle
      have hlast' := hlast hi
      omega
    · obtain ⟨key, hcheck, haddress⟩ := Option.map_eq_some_iff.mp hsigner
      have hsmall : ¬(signatureAt bytes start).v.toNat ≥ 27 := by
        rcases hv with hv | hv <;> rw [hv] <;> decide
      rw [if_neg hsmall] at hcheck
      rw [← haddress]
      exact hrecover _ _ _ _ _ hv hcheck

theorem recoveryIdsFit_of_small {bytes : Bytes} {start n : ℕ}
    (hids : ∀ sig ∈ signaturesAt bytes start n, sig.v = 0 ∨ sig.v = 1) :
    RecoveryIdsFit bytes start n := by
  induction n generalizing start with
  | zero => trivial
  | succ n ih =>
    refine ⟨?_, ih fun sig hsig => hids sig (List.mem_cons_of_mem _ hsig)⟩
    have hv : (field bytes (start + 65) 8 1 : BitVec 8) = 0 ∨
        (field bytes (start + 65) 8 1 : BitVec 8) = 1 := hids _ List.mem_cons_self
    rcases hv with hv | hv <;> rw [hv] <;> decide

/-- What TON accepts under the current set, the EVM receiver accepts too. -/
theorem submits_of_rotates (hrecover : RecoversAs keccak256 checkSig ecrecover)
    (h : Rotates keccak256 checkSig s now vaa set s')
    (hcurrent : (vmOf keccak256 vaa).guardianSetIndex = s.currentGuardianSetIndex)
    (hids : ∀ sig ∈ signaturesAt vaa 6 (signersLenOf vaa), sig.v = 0 ∨ sig.v = 1)
    (hearly : now.toNat < 2 ^ 32 - 86400) :
    Submits keccak256 ecrecover s.toEvm (now.setWidth 256) vaa := by
  have hset : s.toEvm.guardianSets (vmOf keccak256 vaa).guardianSetIndex
      = { keys := set.keys, expirationTime := set.expirationTime.setWidth 32 } := by
    show (match s.guardianSets _ with | some set => _ | none => _) = _
    rw [h.verified.stored]
  have hnow : (now.setWidth 256).toNat % 2 ^ 32 = now.toNat := by
    rw [BitVec.toNat_setWidth]
    omega
  constructor
  case version => exact h.verified.version
  case length => exact h.verified.length
  case recoveryIds => exact recoveryIdsFit_of_small hids
  case usable =>
    have hlength := set.length_keys
    have hnonempty := List.length_pos_iff.mpr h.verified.nonempty
    refine ⟨?_, ?_, fun hexpired => hexpired.1 hcurrent⟩
    · rw [hset]
      show set.keys.length < 2 ^ 64
      omega
    · rw [hset]
      show set.keys.length ≠ 0
      omega
  case quorum =>
    rw [hset]
    exact h.verified.quorum
  case signatures =>
    rw [hset]
    exact verifySignaturesFrom_of_ascend hrecover (fun hi => absurd rfl hi) hids
      h.verified.signatures
  case current => exact hcurrent
  case chain => exact h.chain
  case emitter => exact h.emitter
  case fresh => exact h.fresh
  case upgrade => exact h.upgrade
  case early =>
    rw [hnow]
    omega

theorem toEvm_rotates (h : Rotates keccak256 checkSig s now vaa set s')
    (hcurrent : (vmOf keccak256 vaa).guardianSetIndex = s.currentGuardianSetIndex)
    (hearly : now.toNat < 2 ^ 32 - 86400) :
    s'.toEvm = s.toEvm.submitted (now.setWidth 256) (vmOf keccak256 vaa) := by
  obtain ⟨hlength, rfl⟩ := h.state
  have hstored := h.verified.stored
  rw [hcurrent] at hstored
  have hne := h.ne_newIndex le_rfl
  have hnow : (now.setWidth 256).toNat % 2 ^ 32 = now.toNat := by
    rw [BitVec.toNat_setWidth]
    omega
  have hexpiry : (BitVec.ofNat 64 (now.toNat + GUARDIAN_SET_EXPIRY)).setWidth 32
      = BitVec.ofNat 32 (now.toNat + 86400) := by
    apply BitVec.eq_of_toNat_eq
    rw [BitVec.toNat_setWidth, BitVec.toNat_ofNat, BitVec.toNat_ofNat, GUARDIAN_SET_EXPIRY]
    omega
  have hsets : (WormholeStorage.toEvm (s.rotate now (vmOf keccak256 vaa).hash _ hlength
      (field (vmOf keccak256 vaa).payload 35 32 4))).guardianSets
      = (s.toEvm.submitted (now.setWidth 256) (vmOf keccak256 vaa)).guardianSets := by
    funext i
    by_cases hnew : i = field (vmOf keccak256 vaa).payload 35 32 4
    · subst hnew
      show (match WormholeStorage.guardianSets _ _ with | some set => _ | none => _) = _
      rw [guardianSets_rotate_new]
      exact (WormholeReceiver.rotated_new).symm
    · by_cases hcur : i = s.currentGuardianSetIndex
      · subst hcur
        show (match WormholeStorage.guardianSets _ _ with | some set => _ | none => _) = _
        rw [guardianSets_rotate_current hstored hne]
        refine Eq.trans ?_ (WormholeReceiver.rotated_current hne).symm
        have hset : s.toEvm.guardianSets s.toEvm.guardianSetIndex
            = { keys := set.keys, expirationTime := set.expirationTime.setWidth 32 } := by
          show (match s.guardianSets s.currentGuardianSetIndex with
            | some set => _ | none => _) = _
          rw [hstored]
        rw [hset, hnow, ← hexpiry]
        rfl
      · show (match WormholeStorage.guardianSets _ _ with | some set => _ | none => _) = _
        rw [guardianSets_rotate_other hnew hcur]
        have hcur' : i ≠ s.toEvm.guardianSetIndex := hcur
        exact (WormholeReceiver.rotated_other hnew hcur').symm
  exact congrArg (fun guardianSets => ({
    guardianSets := guardianSets
    guardianSetIndex := field (vmOf keccak256 vaa).payload 35 32 4
    provider := s.toEvm.provider
    consumedGovernanceActions := Function.update s.consumedGovernanceActions
      (vmOf keccak256 vaa).hash true } : WormholeState)) hsets

end

/-! ## Runs -/

/-- An accepted rotation: the hash of its VAA, the index of the set that it replaced, and when. -/
structure Rotation where
  hash : Bytes32
  replaced : BitVec 32
  time : BitVec 32
deriving DecidableEq

/-- The storage, and the rotations that led to it. -/
structure Ledger where
  storage : WormholeStorage
  rotations : List Rotation := []

/-- The body of an `OP_UPDATE_GUARDIAN_SET` message, and the time of its block. -/
structure Message where
  now : BitVec 32
  data : Slice

/-- There is a current set, with keys, and no set at a larger index. -/
structure WormholeStorage.Initial (s : WormholeStorage) : Prop where
  current : ∃ set, s.guardianSets s.currentGuardianSetIndex = some set ∧ set.keys ≠ []
  unset : ∀ i : BitVec 32, s.currentGuardianSetIndex.toNat < i.toNat → s.guardianSets i = none

section

variable (keccak256 : Bytes → Bytes32)
  (checkSig : Bytes32 → BitVec 8 → Bytes32 → Bytes32 → Option (Bytes32 × Bytes32))
  (ecrecover : Bytes32 → BitVec 8 → Bytes32 → Bytes32 → Address)

/-- The message that updates the guardian set. -/
def receive (m : Message) (l : Ledger) : Result Ledger := do
  let storage ← updateGuardianSet keccak256 checkSig l.storage m.now m.data
  let rotation : Rotation := {
    hash := (vmOf keccak256 (bytesOf m.data.all)).hash
    replaced := l.storage.currentGuardianSetIndex
    time := m.now }
  return { storage, rotations := l.rotations ++ [rotation] }

/-- What holds in every state of a run. -/
structure Inv (l : Ledger) : Prop where
  initial : l.storage.Initial
  consumed : ∀ r ∈ l.rotations, l.storage.consumedGovernanceActions r.hash = true
  once : (l.rotations.map Rotation.hash).Nodup

/-- The sets of the first state are stored in the second one with the same keys. -/
def KeepsKeys (s s' : WormholeStorage) : Prop :=
  ∀ i set, s.guardianSets i = some set →
    ∃ set', s'.guardianSets i = some set' ∧ set'.keys = set.keys

/-- What holds of an accepted rotation: a quorum of the set that the VAA names signed it, it comes
from the governance emitter, the index increases by one, the replaced set expires after a day,
the keys of the stored sets stay, and the VAA was not accepted before. The EVM receiver accepts
it and is in the same state, if it names the current set. -/
structure IsRotation (l : Ledger) (m : Message) (s' : WormholeStorage) (vaa : Bytes)
    (set : GuardianSet) : Prop where
  bits : m.data.all = bitsOf vaa
  stored : l.storage.guardianSets (vmOf keccak256 vaa).guardianSetIndex = some set
  nonempty : set.keys ≠ []
  unexpired : set.expirationTime = 0 ∨ m.now.toNat < set.expirationTime.toNat
  quorum : 2 * set.keys.length / 3 + 1 ≤
    (signers keccak256 checkSig (vmOf keccak256 vaa).hash set.keys
      (signaturesAt vaa 6 (signersLenOf vaa))).card
  chain : (vmOf keccak256 vaa).emitterChainId = l.storage.governanceChainId
  emitter : (vmOf keccak256 vaa).emitterAddress = l.storage.governanceContract
  next : s'.currentGuardianSetIndex.toNat = l.storage.currentGuardianSetIndex.toNat + 1
  expiry : ∀ current, l.storage.guardianSets l.storage.currentGuardianSetIndex = some current →
    ∃ expired, s'.guardianSets l.storage.currentGuardianSetIndex = some expired ∧
      expired.keys = current.keys ∧ expired.expirationTime.toNat = m.now.toNat + 86400
  keys : KeepsKeys l.storage s'
  fresh : (vmOf keccak256 vaa).hash ∉ l.rotations.map Rotation.hash
  evm : (vmOf keccak256 vaa).guardianSetIndex = l.storage.currentGuardianSetIndex →
    (∀ sig ∈ signaturesAt vaa 6 (signersLenOf vaa), sig.v = 0 ∨ sig.v = 1) →
    m.now.toNat < 2 ^ 32 - 86400 →
    submitNewGuardianSet keccak256 ecrecover vaa (m.now.setWidth 256) l.storage.toEvm
      = .ok s'.toEvm

end

section

variable {keccak256 : Bytes → Bytes32}
  {checkSig : Bytes32 → BitVec 8 → Bytes32 → Bytes32 → Option (Bytes32 × Bytes32)}
  {ecrecover : Bytes32 → BitVec 8 → Bytes32 → Bytes32 → Address}
  {s s' : WormholeStorage} {now : BitVec 32} {vaa : Bytes} {set : GuardianSet} {l l' : Ledger}
  {m : Message}

theorem KeepsKeys.trans {s'' : WormholeStorage} (h : KeepsKeys s s') (h' : KeepsKeys s' s'') :
    KeepsKeys s s'' := by
  intro i set hset
  obtain ⟨set', hset', hkeys⟩ := h i set hset
  obtain ⟨set'', hset'', hkeys'⟩ := h' i set' hset'
  exact ⟨set'', hset'', hkeys'.trans hkeys⟩

theorem Rotates.keepsKeys (h : Rotates keccak256 checkSig s now vaa set s') (hs : s.Initial) :
    KeepsKeys s s' := by
  intro i set hset
  have hi : i.toNat ≤ s.currentGuardianSetIndex.toNat := by
    by_contra habove
    rw [hs.unset i (not_le.mp habove)] at hset
    cases hset
  have hne := h.ne_newIndex hi
  obtain ⟨hlength, rfl⟩ := h.state
  by_cases hcurrent : i = s.currentGuardianSetIndex
  · subst hcurrent
    exact ⟨_, guardianSets_rotate_current hset hne, keys_expire set⟩
  · exact ⟨set, (guardianSets_rotate_other hne hcurrent).trans hset, rfl⟩

theorem Rotates.next (h : Rotates keccak256 checkSig s now vaa set s') :
    s'.currentGuardianSetIndex.toNat = s.currentGuardianSetIndex.toNat + 1 := by
  obtain ⟨hlength, rfl⟩ := h.state
  exact h.upgrade.next

theorem Rotates.initial (h : Rotates keccak256 checkSig s now vaa set s') (hs : s.Initial) :
    s'.Initial := by
  have hnext := h.next
  obtain ⟨hlength, rfl⟩ := h.state
  have hnew := @guardianSets_rotate_new s now (vmOf keccak256 vaa).hash _ hlength
    (field (vmOf keccak256 vaa).payload 35 32 4)
  refine ⟨⟨_, hnew, ?_⟩, fun i hi => ?_⟩
  · have hpos := h.upgrade.nonempty
    refine List.length_pos_iff.mp ?_
    rw [WormholeReceiver.length_keysAt]
    exact hpos
  · have hne : i ≠ field (vmOf keccak256 vaa).payload 35 32 4 := by
      rintro rfl
      exact lt_irrefl _ hi
    have hcurrent : i ≠ s.currentGuardianSetIndex := by
      rintro rfl
      omega
    rw [guardianSets_rotate_other hne hcurrent]
    exact hs.unset i (by omega)

/-- What holds of a rotation that is accepted in a state of a run. -/
theorem isRotation_of_ok (hrecover : RecoversAs keccak256 checkSig ecrecover)
    (hl : Inv l)
    (h : updateGuardianSet keccak256 checkSig l.storage m.now m.data = .ok s') :
    ∃ vaa set, IsRotation keccak256 checkSig ecrecover l m s' vaa set := by
  obtain ⟨vaa, set, hbits, hrotates⟩ := updateGuardianSet_ok h
  refine ⟨vaa, set, ?_⟩
  constructor
  case bits => exact hbits
  case stored => exact hrotates.verified.stored
  case nonempty => exact hrotates.verified.nonempty
  case unexpired => exact hrotates.verified.unexpired
  case quorum =>
    have hcount := hrotates.verified.signatures.length_le_signers
    rw [length_signaturesAt] at hcount
    have hquorum := hrotates.verified.quorum
    rw [quorumOf] at hquorum
    omega
  case chain => exact hrotates.chain
  case emitter => exact hrotates.emitter
  case next => exact hrotates.next
  case expiry =>
    intro current hcurrent
    have hne := hrotates.ne_newIndex le_rfl
    obtain ⟨hlength, rfl⟩ := hrotates.state
    have hexpired := @guardianSets_rotate_current _ m.now (vmOf keccak256 vaa).hash _ hlength _ _
      hcurrent hne
    exact ⟨_, hexpired, keys_expire current, toNat_expirationTime_expire current⟩
  case keys => exact hrotates.keepsKeys hl.initial
  case fresh =>
    intro hmem
    obtain ⟨r, hr, hhash⟩ := List.mem_map.mp hmem
    have hconsumed := hl.consumed r hr
    rw [hhash, hrotates.fresh] at hconsumed
    cases hconsumed
  case evm =>
    intro hcurrent hids hearly
    refine submitNewGuardianSet_eq_ok.mpr
      ⟨submits_of_rotates hrecover hrotates hcurrent hids hearly, ?_⟩
    exact toEvm_rotates hrotates hcurrent hearly

/-- What one message preserves. -/
theorem receive_inv (hl : Inv l) (h : receive keccak256 checkSig m l = .ok l') :
    Inv l' ∧ KeepsKeys l.storage l'.storage := by
  obtain ⟨storage, hstorage, h⟩ := except_bind_eq_ok.mp h
  cases h
  obtain ⟨vaa, set, hbits, hrotates⟩ := updateGuardianSet_ok hstorage
  refine ⟨⟨hrotates.initial hl.initial, ?_, ?_⟩, hrotates.keepsKeys hl.initial⟩
  · obtain ⟨hlength, hstate⟩ := hrotates.state
    intro r hr
    show storage.consumedGovernanceActions r.hash = true
    rw [hstate]
    show Function.update _ _ _ _ = _
    by_cases hsame : r.hash = (vmOf keccak256 vaa).hash
    · rw [hsame, Function.update_self]
    · rw [Function.update_of_ne hsame]
      rcases List.mem_append.mp hr with hold | hnew
      · exact hl.consumed r hold
      · rw [List.mem_singleton.mp hnew, hbits, bytesOf_bitsOf] at hsame
        exact absurd rfl hsame
  · rw [List.map_append, List.map_singleton, ← List.concat_eq_append, List.nodup_concat]
    refine ⟨fun hmem => ?_, hl.once⟩
    obtain ⟨r, hr, hhash⟩ := List.mem_map.mp hmem
    have hconsumed := hl.consumed r hr
    rw [hhash, hbits, bytesOf_bitsOf, hrotates.fresh] at hconsumed
    cases hconsumed

theorem runAll_inv (hl : Inv l) (messages : List Message) :
    Inv (runAll (receive keccak256 checkSig) l messages) :=
  runAll_invariant hl (fun _ _ _ hl h => (receive_inv hl h).1) messages

theorem runAll_keepsKeys (hl : Inv l) (messages : List Message) :
    KeepsKeys l.storage (runAll (receive keccak256 checkSig) l messages).storage := by
  have hstep : ∀ m l' l'', Inv l' ∧ KeepsKeys l.storage l'.storage →
      receive keccak256 checkSig m l' = .ok l'' → Inv l'' ∧ KeepsKeys l.storage l''.storage := by
    rintro m l' l'' ⟨hl', hkeys'⟩ h
    obtain ⟨hinv, hkeys⟩ := receive_inv hl' h
    exact ⟨hinv, hkeys'.trans hkeys⟩
  have hrun := runAll_invariant
    (p := fun l' : Ledger => Inv l' ∧ KeepsKeys l.storage l'.storage)
    ⟨hl, fun i set hset => ⟨set, hset, rfl⟩⟩ hstep messages
  exact hrun.2

end

/-- **Rotation.** In every run from a state with a current set: a rotation that is accepted in any
state of it is as `IsRotation` says, the accepted rotations have different hashes, there is a
current set with keys, and stored sets keep their keys for the rest of the run. -/
theorem guardian_sets_rotate (keccak256 : Bytes → Bytes32)
    (checkSig : Bytes32 → BitVec 8 → Bytes32 → Bytes32 → Option (Bytes32 × Bytes32))
    (ecrecover : Bytes32 → BitVec 8 → Bytes32 → Bytes32 → Address)
    (hrecover : RecoversAs keccak256 checkSig ecrecover) (storage : WormholeStorage)
    (hinitial : storage.Initial) (messages : List Message) :
    let l := runAll (receive keccak256 checkSig) { storage } messages
    (∀ (m : Message) (s' : WormholeStorage),
      updateGuardianSet keccak256 checkSig l.storage m.now m.data = .ok s' →
      ∃ vaa set, IsRotation keccak256 checkSig ecrecover l m s' vaa set) ∧
    (l.rotations.map Rotation.hash).Nodup ∧
    (∃ set, l.storage.guardianSets l.storage.currentGuardianSetIndex = some set ∧
      set.keys ≠ []) ∧
    ∀ later : List Message,
      KeepsKeys l.storage (runAll (receive keccak256 checkSig) l later).storage := by
  intro l
  have hstart : Inv { storage } :=
    ⟨hinitial, fun r hr => absurd hr List.not_mem_nil, List.nodup_nil⟩
  have hl : Inv l := runAll_inv hstart messages
  exact ⟨fun m s' h => isRotation_of_ok hrecover hl h, hl.once, hl.initial.current,
    fun later => runAll_keepsKeys hl later⟩

/-- The EVM receiver accepts no VAA that names another set. -/
theorem submit_ne_ok {keccak256 : Bytes → Bytes32}
    {ecrecover : Bytes32 → BitVec 8 → Bytes32 → Bytes32 → Address} {s : WormholeStorage}
    {timestamp : BitVec 256} {vaa : Bytes}
    (h : (vmOf keccak256 vaa).guardianSetIndex ≠ s.currentGuardianSetIndex) (st : WormholeState) :
    submitNewGuardianSet keccak256 ecrecover vaa timestamp s.toEvm ≠ .ok st := by
  intro hok
  exact h (submitNewGuardianSet_eq_ok.mp hok).1.current

/-! ### Two rotations, and one by a set that was replaced -/

/-- To set 2, by the guardians of set 0. -/
def exStaleUpgrade : ExVaa where
  guardianSetIndex := 0
  body := exUpgradeBody 5 0 2 [exGuardian5]
  digest := 0x45f25e4fc93dbc73899d2bd8fd85df58f4f09d0add4d21772bd49afb74dfd020
  hash := 0x71420fa4701851dbfc3126c7a52996e0965ce2152ed3f131099fe1d2aadf77ed
  signatures := [
    ⟨0, exGuardian0, 0x793d4274aebf1e4c5435f1b6a903e03a210ba6d8707a2edfb1bd1cfbe41b9f37,
      0x44b90a59a49c8350ab6a669398011609aabc4b865fbb3f6f27e2ed55c6a50cb4, 1⟩,
    ⟨1, exGuardian1, 0xfb40509208f1f60426760f528d512a66a9d18d414687a1e137f94dc6b1282158,
      0x554c94b08ac35ee3276883c2a527075ee9176a3e5c8ee5eca89a29720308498d, 0⟩,
    ⟨2, exGuardian2, 0xd31980818860dacc1510941002c5cbb6229ada561629c90c1aeaa6551cb64cfd,
      0x467aa3304fee028440557e5d74b3f6fa649d85ebac73856b27e894632118b48b, 0⟩]

def exVaas : List ExVaa := [exFirstUpgrade, exSecondUpgrade, exStaleUpgrade]

/-- The public key whose signature it is. -/
def exCheckSig (hash : Bytes32) (v : BitVec 8) (r s : Bytes32) : Option (Bytes32 × Bytes32) :=
  (ExVaa.signer exVaas hash v.toNat r s).map fun guardian => (guardian.x, guardian.y)

theorem signer_mem {vaas : List ExVaa} {hash r s : Bytes32} {parity : ℕ} {guardian : ExGuardian}
    (h : ExVaa.signer vaas hash parity r s = some guardian) :
    guardian ∈ vaas.flatMap fun vaa => vaa.signatures.map fun signature => signature.guardian := by
  obtain ⟨vaa, hvaa, hfound⟩ := List.exists_of_findSome?_eq_some h
  split at hfound
  · obtain ⟨signature, hsignature, rfl⟩ := Option.map_eq_some_iff.mp hfound
    exact List.mem_flatMap.mpr
      ⟨vaa, hvaa, List.mem_map_of_mem (List.mem_of_find?_eq_some hsignature)⟩
  · cases hfound

theorem exCheckSig_recoversAs :
    RecoversAs (ExVaa.hashOf exVaas) exCheckSig (ExVaa.recover exVaas) := by
  rintro hash v r s _ hv hkey
  obtain ⟨guardian, hsigner, rfl⟩ := Option.map_eq_some_iff.mp hkey
  have haddress : ∀ guardian ∈ exVaas.flatMap fun vaa => vaa.signatures.map fun signature =>
      signature.guardian, guardian.address =
        pubkeyToEthAddress (ExVaa.hashOf exVaas) guardian.x guardian.y := by
    decide +kernel
  rw [← haddress guardian (signer_mem hsigner)]
  rcases hv with rfl | rfl
  · exact congrArg (Option.elim · 0 ExGuardian.address) hsigner
  · exact congrArg (Option.elim · 0 ExGuardian.address) hsigner

def exStorage : WormholeStorage where
  currentGuardianSetIndex := 0
  guardianSets i := if i = 0 then some ⟨0, exInitialGuardians, by decide⟩ else none
  chainId := 21
  governanceChainId := 1
  governanceContract := 4
  consumedGovernanceActions _ := false

theorem exStorage_initial : exStorage.Initial := by
  refine ⟨⟨_, rfl, List.cons_ne_nil _ _⟩, fun i hi => ?_⟩
  have hne : i ≠ 0 := by
    rintro rfl
    exact lt_irrefl _ hi
  exact if_neg hne

/-- The bytes in three cells. -/
def exSlice (bytes : Bytes) : Slice :=
  ⟨bitsOf (bytes.take 127), [bitsOf ((bytes.drop 127).take 127), bitsOf (bytes.drop 254)]⟩

def exFirstMessage : Message := ⟨1000, exSlice exFirstUpgrade.bytes⟩
def exSecondMessage : Message := ⟨2000, exSlice exSecondUpgrade.bytes⟩

/-- After the first rotation. -/
def exReplaced : Ledger :=
  runAll (receive (ExVaa.hashOf exVaas) exCheckSig) { storage := exStorage } [exFirstMessage]

/-- What happens to the messages that follow. -/
theorem exReplaced_runs :
    exReplaced.storage.currentGuardianSetIndex.toNat = 1 ∧
    (updateGuardianSet (ExVaa.hashOf exVaas) exCheckSig exReplaced.storage exSecondMessage.now
      exSecondMessage.data).toOption.isSome ∧
    (submitNewGuardianSet (ExVaa.hashOf exVaas) (ExVaa.recover exVaas) exSecondUpgrade.bytes
      (exSecondMessage.now.setWidth 256) exReplaced.storage.toEvm).toOption.isSome ∧
    (vmOf (ExVaa.hashOf exVaas) exSecondUpgrade.bytes).guardianSetIndex =
      exReplaced.storage.currentGuardianSetIndex ∧
    ¬((field (vmOf (ExVaa.hashOf exVaas) exSecondUpgrade.bytes).payload 33 16 2 : BitVec 16) = 0 ∨
      (field (vmOf (ExVaa.hashOf exVaas) exSecondUpgrade.bytes).payload 33 16 2 : BitVec 16) =
        exReplaced.storage.chainId) ∧
    (updateGuardianSet (ExVaa.hashOf exVaas) exCheckSig exReplaced.storage exSecondMessage.now
      (exSlice exStaleUpgrade.bytes)).toOption.isSome ∧
    (vmOf (ExVaa.hashOf exVaas) exStaleUpgrade.bytes).guardianSetIndex ≠
      exReplaced.storage.currentGuardianSetIndex := by
  decide +kernel

/-- After two rotations the index is 2, and the sets that were stored keep their keys. -/
theorem guardian_sets_rotate_example :
    ∃ s', updateGuardianSet (ExVaa.hashOf exVaas) exCheckSig exReplaced.storage
        exSecondMessage.now exSecondMessage.data = .ok s' ∧
      s'.currentGuardianSetIndex.toNat = 2 ∧ KeepsKeys exReplaced.storage s' := by
  obtain ⟨hindex, haccepted, -⟩ := exReplaced_runs
  obtain ⟨s', hs'⟩ := Option.isSome_iff_exists.mp haccepted
  have hrotated := except_toOption_eq_some.mp hs'
  obtain ⟨hall, -⟩ := guardian_sets_rotate (ExVaa.hashOf exVaas) exCheckSig
    (ExVaa.recover exVaas) exCheckSig_recoversAs exStorage exStorage_initial [exFirstMessage]
  obtain ⟨vaa, set, hrotation⟩ := hall exSecondMessage s' hrotated
  refine ⟨s', hrotated, ?_, hrotation.keys⟩
  rw [exReplaced] at hindex
  rw [hrotation.next, hindex]

/-- After one rotation, the guardians of the current set sign another one, for another chain. It is
accepted, and the EVM receiver accepts it too. One that the guardians of the replaced set sign is
also accepted, and the EVM receiver does not accept it. -/
theorem guardian_sets_rotate_fail :
    ∃ (keccak256 : Bytes → Bytes32)
      (checkSig : Bytes32 → BitVec 8 → Bytes32 → Bytes32 → Option (Bytes32 × Bytes32))
      (ecrecover : Bytes32 → BitVec 8 → Bytes32 → Bytes32 → Address)
      (storage s : WormholeStorage) (first : Message) (now : BitVec 32),
      RecoversAs keccak256 checkSig ecrecover ∧ storage.Initial ∧ first.now.toNat ≤ now.toNat ∧
      (runAll (receive keccak256 checkSig) { storage } [first]).storage = s ∧
      (∃ vaa, (∃ s', updateGuardianSet keccak256 checkSig s now (exSlice vaa) = .ok s') ∧
        (vmOf keccak256 vaa).guardianSetIndex = s.currentGuardianSetIndex ∧
        ¬((field (vmOf keccak256 vaa).payload 33 16 2 : BitVec 16) = 0 ∨
          (field (vmOf keccak256 vaa).payload 33 16 2 : BitVec 16) = s.chainId) ∧
        ∃ st, submitNewGuardianSet keccak256 ecrecover vaa (now.setWidth 256) s.toEvm = .ok st) ∧
      ∃ vaa, (∃ s', updateGuardianSet keccak256 checkSig s now (exSlice vaa) = .ok s') ∧
        (vmOf keccak256 vaa).guardianSetIndex ≠ s.currentGuardianSetIndex ∧
        ∀ st, submitNewGuardianSet keccak256 ecrecover vaa (now.setWidth 256) s.toEvm
          ≠ .ok st := by
  obtain ⟨-, hsecond, hevm, hcurrent, hchain, hstale, hreplaced⟩ := exReplaced_runs
  have hlater : exFirstMessage.now.toNat ≤ exSecondMessage.now.toNat := by decide
  refine ⟨ExVaa.hashOf exVaas, exCheckSig, ExVaa.recover exVaas, exStorage, exReplaced.storage,
    exFirstMessage, exSecondMessage.now, exCheckSig_recoversAs, exStorage_initial, hlater, rfl,
    ⟨exSecondUpgrade.bytes, ?_, hcurrent, hchain, ?_⟩,
    exStaleUpgrade.bytes, ?_, hreplaced, submit_ne_ok hreplaced⟩
  · obtain ⟨s', hs'⟩ := Option.isSome_iff_exists.mp hsecond
    exact ⟨s', except_toOption_eq_some.mp hs'⟩
  · obtain ⟨st, hst⟩ := Option.isSome_iff_exists.mp hevm
    exact ⟨st, except_toOption_eq_some.mp hst⟩
  · obtain ⟨s', hs'⟩ := Option.isSome_iff_exists.mp hstale
    exact ⟨s', except_toOption_eq_some.mp hs'⟩

end PythCrosschain.Ton
