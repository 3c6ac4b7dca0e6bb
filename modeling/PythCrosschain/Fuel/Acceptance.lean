import PythCrosschain.Fuel.WormholeLight
import PythCrosschain.WormholeReceiver.Acceptance
import PythCrosschain.WormholeReceiver.Quorum

/-!
# When the Fuel contract accepts a VAA, and when a rotation

Both in the fields at fixed offsets that the EVM receiver reads. The results are:

- `parseAndVerifyWormholeVm_eq_ok`: for which bytes a VAA is accepted, and as what;
- `parseEncodedUpgrade_eq_ok`: which payloads are upgrades;
- `submitNewGuardianSet_eq_ok`: when a rotation is accepted, and what the storage is then;
- `signedFrom_iff_evm`: on signatures in canonical form the loop is that of the EVM receiver.
-/

namespace PythCrosschain.Fuel

open BytesLib (field)
open WormholeReceiver (Signature signatureAt signaturesAt signersLenOf bodyStart vmOf quorumOf
  RecoveryIdsFit keysAt length_keysAt guardianLengthOf)

/-! ## Slices -/

theorem slice_bind_eq_ok {ε α : Type} {bytes : Bytes} {index n : ℕ} {f : Bytes → Rust.Result ε α}
    {a : α} :
    (splitAt bytes index >>= fun parts => splitAt parts.2 n >>= fun parts => f parts.1) = .ok a ↔
      index + n ≤ bytes.length ∧ f ((bytes.drop index).take n) = .ok a := by
  simp only [except_bind_eq_ok, splitAt_eq_ok]
  constructor
  · rintro ⟨_, ⟨hindex, rfl⟩, _, ⟨hn, rfl⟩, h⟩
    rw [List.length_drop] at hn
    exact ⟨by omega, h⟩
  · rintro ⟨h, hf⟩
    exact ⟨_, ⟨by omega, rfl⟩, _, ⟨by rw [List.length_drop]; omega, rfl⟩, hf⟩

theorem field_drop {w n : ℕ} {bytes : Bytes} {start : ℕ} :
    field (bytes.drop start) 0 w n = field bytes start w n := rfl

theorem sliceUint_eq_ok {w n : ℕ} {bytes : Bytes} {index : ℕ} {v : BitVec w} :
    sliceUint w n bytes index = .ok v ↔
      index + n ≤ bytes.length ∧ v = field bytes index w n := by
  refine (slice_bind_eq_ok (f := fun slice => getArray slice 0 n >>= fun read =>
    pure (fromBeBytes w read))).trans (and_congr_right fun h => ?_)
  have hlength : ((bytes.drop index).take n).length = n := by
    rw [List.length_take, List.length_drop]
    omega
  simp only [except_bind_eq_ok, getArray_eq_ok (Nat.zero_le _), hlength]
  constructor
  · rintro ⟨_, ⟨-, rfl⟩, hv⟩
    rw [List.drop_zero, List.take_take, Nat.min_self] at hv
    exact (Except.ok.inj hv).symm
  · rintro rfl
    refine ⟨_, ⟨by omega, rfl⟩, ?_⟩
    rw [List.drop_zero, List.take_take, Nat.min_self]
    rfl

/-! ## Signatures -/

/-- The compact form of a signature whose recovery id has 27 added. -/
def compactOf (r s : Bytes32) (v : BitVec 8) : B512 := (r, (v - 27).setWidth 256 <<< 255 ||| s)

/-- Every signature is valid, and their indices ascend. -/
def SignedFrom (P : WormholeHost) (keys : List Bytes32) (hash : Bytes32) :
    (i lastIndex : ℕ) → List Signature → Prop
  | _, _, [] => True
  | i, lastIndex, sig :: signatures =>
    (i > 0 → sig.guardianIndex.toNat > lastIndex) ∧
      (∃ key, keys[sig.guardianIndex.toNat]? = some key ∧
        P.ecRecoverEvmAddress (compactOf sig.r sig.s sig.v) hash = some key) ∧
      SignedFrom P keys hash (i + 1) sig.guardianIndex.toNat signatures

section

variable {P : WormholeHost} {keys : List Bytes32} {hash : Bytes32} {bytes : Bytes}

/-- The indices of signatures that the loop accepts ascend, and every signature is valid. -/
theorem signedFrom_iff {i lastIndex : ℕ} {signatures : List Signature} :
    SignedFrom P keys hash i lastIndex signatures ↔
      (signatures.Pairwise fun a b => a.guardianIndex.toNat < b.guardianIndex.toNat) ∧
      (i > 0 → ∀ sig ∈ signatures, lastIndex < sig.guardianIndex.toNat) ∧
      ∀ sig ∈ signatures, ∃ key, keys[sig.guardianIndex.toNat]? = some key ∧
        P.ecRecoverEvmAddress (compactOf sig.r sig.s sig.v) hash = some key := by
  induction signatures generalizing i lastIndex with
  | nil => simp [SignedFrom]
  | cons sig signatures ih =>
    simp only [SignedFrom, ih, List.pairwise_cons, List.forall_mem_cons]
    constructor
    · rintro ⟨hfirst, hvalid, hpairwise, habove, hrest⟩
      have habove := habove (Nat.succ_pos i)
      exact ⟨⟨habove, hpairwise⟩,
        fun hi => ⟨hfirst hi, fun other hother => (hfirst hi).trans (habove other hother)⟩,
        hvalid, hrest⟩
    · rintro ⟨⟨habove, hpairwise⟩, hlast, hvalid, hrest⟩
      exact ⟨fun hi => (hlast hi).1, hvalid, hpairwise, fun _ => habove, hrest⟩

theorem verify_eq_ok {sig : GuardianSignature} {key : Bytes32} {i lastIndex : ℕ} {u : Unit} :
    sig.verify P key hash i lastIndex = .ok u ↔
      (i > 0 → sig.guardianIndex.toNat > lastIndex) ∧ 27 ≤ sig.v.toNat ∧
      P.ecRecoverEvmAddress (compactOf sig.r sig.s sig.v) hash = some key := by
  simp only [GuardianSignature.verify, GuardianSignature.compact, except_bind_eq_ok,
    require_eq_ok, checkedSub_eq_ok]
  constructor
  · rintro ⟨_, hascends, _, ⟨_, ⟨hv, rfl⟩, hcompact⟩, hrecover⟩
    obtain rfl := Except.ok.inj hcompact
    exact ⟨hascends, hv, hrecover⟩
  · rintro ⟨hascends, hv, hrecover⟩
    exact ⟨(), hascends, _, ⟨_, ⟨hv, rfl⟩, rfl⟩, hrecover⟩

theorem verifySignatures_eq_ok {n i start lastIndex stop : ℕ} (hstart : start ≤ bytes.length) :
    verifySignatures P bytes keys hash n i start lastIndex = .ok stop ↔
      start + 66 * n ≤ bytes.length ∧ RecoveryIdsFit bytes start n ∧
      SignedFrom P keys hash i lastIndex (signaturesAt bytes start n) ∧
      stop = start + 66 * n := by
  induction n generalizing i start lastIndex with
  | zero =>
    constructor
    · intro h
      exact ⟨hstart, trivial, trivial, (Except.ok.inj h).symm⟩
    · rintro ⟨-, -, -, rfl⟩
      rfl
  | succ n ih =>
    simp only [verifySignatures, except_bind_eq_ok, okOr_eq_ok, get_eq_some, splitAt_eq_ok,
      checkedAdd_eq_ok, verify_eq_ok, signaturesAt, SignedFrom, RecoveryIdsFit]
    constructor
    · rintro ⟨_, ⟨-, rfl⟩, _, ⟨-, rfl⟩, _, ⟨hr, rfl⟩, _, ⟨hs, rfl⟩, _, ⟨hv, rfl⟩, _, ⟨hfit, rfl⟩,
        key, hkey, _, ⟨hascends, -, hrecover⟩, hrest⟩
      simp only [List.length_drop, List.drop_drop, Nat.add_assoc, Nat.reduceAdd, field_drop]
        at hr hs hv hfit hascends hrecover hkey hrest
      rw [intoB256_eq_field (by omega), intoB256_eq_field (by omega)] at hrecover
      obtain ⟨hlength, hfits, hsigned, rfl⟩ := (ih (by omega)).mp hrest
      exact ⟨by omega, ⟨hfit, hfits⟩, ⟨hascends, ⟨key, hkey, hrecover⟩, hsigned⟩, by omega⟩
    · rintro ⟨hlength, ⟨hfit, hfits⟩, ⟨hascends, ⟨key, hkey, hrecover⟩, hsigned⟩, rfl⟩
      have hv : (27 : BitVec 8).toNat ≤ (signatureAt bytes start).v.toNat := by
        show 27 ≤ (field bytes (start + 65) 8 1 + 27).toNat
        have hwraps : (field bytes (start + 65) 8 1).toNat + (27 : BitVec 8).toNat < 2 ^ 8 := hfit
        rw [BitVec.toNat_add, Nat.mod_eq_of_lt hwraps]
        exact Nat.le_add_left _ _
      refine ⟨_, ⟨by omega, rfl⟩, _, ⟨by omega, rfl⟩, _, ⟨?_, rfl⟩, _, ⟨?_, rfl⟩, _, ⟨?_, rfl⟩, _,
        ⟨?_, rfl⟩, key, hkey, (), ⟨hascends, ?_, ?_⟩, ?_⟩
      all_goals simp only [List.length_drop, List.drop_drop, Nat.add_assoc, Nat.reduceAdd,
        field_drop]
      · omega
      · omega
      · omega
      · exact hfit
      · exact hv
      · rw [intoB256_eq_field (by omega), intoB256_eq_field (by omega)]
        exact hrecover
      · exact (ih (by omega)).mpr ⟨by omega, hfits, hsigned, by omega⟩

end

/-! ## VAAs -/

/-- The VAA that the bytes are, in the fields that the contract keeps. -/
def wormholeVmOf (keccak256 : Bytes → Bytes32) (bytes : Bytes) : WormholeVM :=
  let vm := vmOf keccak256 bytes
  { version := vm.version
    guardianSetIndex := vm.guardianSetIndex
    governanceActionHash := vm.hash
    timestamp := vm.timestamp
    nonce := vm.nonce
    emitterChainId := vm.emitterChainId
    emitterAddress := vm.emitterAddress
    sequence := vm.sequence
    consistencyLevel := vm.consistencyLevel
    payload := vm.payload }

/-- A quorum of the guardians with these keys signed the body: the signatures are enough, each
is of the guardian that it names, and no guardian is named twice. -/
structure QuorumSigned (P : WormholeHost) (keys : List Bytes32) (bytes : Bytes) : Prop where
  quorum : quorumOf keys.length ≤ signersLenOf bytes
  ascend : (signaturesAt bytes 6 (signersLenOf bytes)).Pairwise fun a b =>
    a.guardianIndex.toNat < b.guardianIndex.toNat
  valid : ∀ sig ∈ signaturesAt bytes 6 (signersLenOf bytes),
    ∃ key, keys[sig.guardianIndex.toNat]? = some key ∧
      P.ecRecoverEvmAddress (compactOf sig.r sig.s sig.v) (vmOf P.keccak256 bytes).hash = some key

theorem quorumSigned_iff {P : WormholeHost} {keys : List Bytes32} {bytes : Bytes} :
    QuorumSigned P keys bytes ↔
      quorumOf keys.length ≤ signersLenOf bytes ∧
      SignedFrom P keys (vmOf P.keccak256 bytes).hash 0 0
        (signaturesAt bytes 6 (signersLenOf bytes)) := by
  rw [signedFrom_iff]
  constructor
  · rintro ⟨hquorum, hascend, hvalid⟩
    exact ⟨hquorum, hascend, fun hi => absurd hi (lt_irrefl 0), hvalid⟩
  · rintro ⟨hquorum, hascend, -, hvalid⟩
    exact ⟨hquorum, hascend, hvalid⟩

/-- The bytes are a VAA: version, length, and recovery ids to which 27 can be added. -/
structure IsVaa (bytes : Bytes) : Prop where
  version : (field bytes 0 8 1 : BitVec 8) = 1
  length : bodyStart bytes + 51 ≤ bytes.length
  recoveryIds : RecoveryIdsFit bytes 6 (signersLenOf bytes)

/-- The set is stored, not empty, current, and has not expired. -/
structure Usable (s : Storage) (timestamp : BitVec 64) (current : BitVec 32)
    (set : StorageGuardianSet) (index : BitVec 32) : Prop where
  stored : s.wormholeGuardianSets index = some set
  nonempty : (s.guardianSetKeys set.keys).length > 0
  current : index = current
  unexpired : set.expirationTime = 0 ∨ set.expirationTime > timestamp

section

variable {P : WormholeHost} {s : Storage} {timestamp : BitVec 64} {current : BitVec 32}
  {bytes : Bytes} {vm : WormholeVM}

theorem parseAndVerifyWormholeVm_eq_ok :
    parseAndVerifyWormholeVm P s timestamp current bytes = .ok vm ↔
      IsVaa bytes ∧ (∃ set, Usable s timestamp current set (vmOf P.keccak256 bytes).guardianSetIndex ∧
        QuorumSigned P (s.guardianSetKeys set.keys) bytes) ∧
      vm = wormholeVmOf P.keccak256 bytes := by
  have hbody : 6 + 66 * (field bytes 5 8 1 : BitVec 8).toNat = bodyStart bytes := rfl
  have hcomm := Nat.mul_comm (field bytes 5 8 1 : BitVec 8).toNat 66
  have hemitter (h : bodyStart bytes + 10 + 32 ≤ bytes.length) :
      intoB256 (List.take 32 (List.drop (bodyStart bytes + 10) bytes))
        = field bytes (bodyStart bytes + 10) 256 32 := intoB256_eq_field h
  have hhash : P.keccak256 (wordBytes (P.keccak256
      (bytes.drop (6 + (field bytes 5 8 1 : BitVec 8).toNat * 66)))) = (vmOf P.keccak256 bytes).hash := by
    rw [hcomm]
    rfl
  simp only [parseAndVerifyWormholeVm, except_bind_eq_ok, okOr_eq_ok, require_eq_ok, get_eq_some,
    sliceUint_eq_ok, splitAt_eq_ok, Nat.zero_add, Nat.reduceAdd]
  constructor
  · rintro ⟨_, ⟨-, rfl⟩, _, hversion, _, ⟨-, rfl⟩, set, hstored, _, hnonempty, _,
      ⟨hcurrent, hunexpired⟩, _, ⟨-, rfl⟩, _, hsigners, _, ⟨-, rfl⟩, _, hverified, _, hquorum, _,
      ⟨-, rfl⟩, _, ⟨-, rfl⟩, _, ⟨-, rfl⟩, _, ⟨-, rfl⟩, _, ⟨-, rfl⟩, _, ⟨-, rfl⟩, _, ⟨-, rfl⟩, _,
      hend, _, ⟨-, rfl⟩, hvm⟩
    obtain ⟨-, hfits, hsigned, rfl⟩ := (verifySignatures_eq_ok (by omega)).mp hverified
    simp only [hbody, hhash, Nat.add_assoc, Nat.reduceAdd] at hend hvm hsigned
    rw [hemitter (by omega)] at hvm
    exact ⟨⟨hversion, hend, hfits⟩,
      ⟨set, ⟨hstored, hnonempty, hcurrent, hunexpired⟩, quorumSigned_iff.mpr ⟨hquorum, hsigned⟩⟩,
      (Except.ok.inj hvm).symm⟩
  · rintro ⟨⟨hversion, hlength, hfits⟩, ⟨set, ⟨hstored, hnonempty, hcurrent, hunexpired⟩,
      hquorumSigned⟩, rfl⟩
    obtain ⟨hquorum, hsigned⟩ := quorumSigned_iff.mp hquorumSigned
    refine ⟨_, ⟨by omega, rfl⟩, (), hversion, _, ⟨by omega, rfl⟩, set, hstored, (), hnonempty, (),
      ⟨hcurrent, hunexpired⟩, _, ⟨by omega, rfl⟩, (), by omega, _, ⟨by omega, rfl⟩,
      bodyStart bytes, (verifySignatures_eq_ok (by omega)).mpr ⟨by omega, hfits, hhash ▸ hsigned, rfl⟩, (),
      hquorum, ?_⟩
    simp only [hhash, Nat.add_assoc, Nat.reduceAdd]
    refine ⟨_, ⟨by omega, rfl⟩, _, ⟨by omega, rfl⟩, _, ⟨by omega, rfl⟩, _, ⟨by omega, rfl⟩, _,
      ⟨by rw [List.length_drop]; omega, rfl⟩, _, ⟨by omega, rfl⟩, _, ⟨by omega, rfl⟩, (), hlength,
      _, ⟨by omega, rfl⟩, ?_⟩
    rw [hemitter (by omega)]
    rfl

end

/-! ## Upgrades -/

/-- The addresses from an offset on, as words. -/
def keyWordsAt (bytes : Bytes) (start n : ℕ) : List Bytes32 :=
  (keysAt bytes start n).map (BitVec.setWidth 256)

@[simp] theorem length_keyWordsAt (bytes : Bytes) (start n : ℕ) :
    (keyWordsAt bytes start n).length = n := by
  rw [keyWordsAt, List.length_map, length_keysAt]

/-- The payload is an upgrade to a set with a larger index. -/
structure IsUpgrade (payload : Bytes) (current : BitVec 32) : Prop where
  module : (field payload 0 256 32 : Bytes32) = UPGRADE_MODULE
  action : (field payload 32 8 1 : BitVec 8) = 2
  later : (field payload 35 32 4 : BitVec 32) > current
  length : payload.length = 40 + 20 * guardianLengthOf payload

/-- Keys in place of the ones that a vector has. -/
def Storage.withKeys (s : Storage) (field : KeysField) (keys : List Bytes32) : Storage :=
  { s with guardianSetKeys := Function.update s.guardianSetKeys field keys }

section

variable {s s' : Storage} {payload : Bytes}

theorem withKeys_self (s : Storage) (field : KeysField) :
    s.withKeys field (s.guardianSetKeys field) = s := by
  rw [Storage.withKeys, Function.update_eq_self]

theorem withKeys_pushKey {field : KeysField} {key : Bytes32} {keys : List Bytes32} :
    (s.pushKey field key).withKeys field ((s.pushKey field key).guardianSetKeys field ++ keys)
      = s.withKeys field (s.guardianSetKeys field ++ key :: keys) := by
  simp only [Storage.withKeys, Storage.pushKey, Function.update_self, Function.update_idem,
    List.append_assoc, List.singleton_append]

theorem pushKeys_eq_ok {keys : KeysField} {n start : ℕ} {stop : ℕ × Storage}
    (hstart : start ≤ payload.length) :
    pushKeys payload keys n start s = .ok stop ↔
      start + 20 * n ≤ payload.length ∧
      stop = (start + 20 * n,
        s.withKeys keys (s.guardianSetKeys keys ++ keyWordsAt payload start n)) := by
  induction n generalizing s start with
  | zero =>
    have hnone : s.withKeys keys (s.guardianSetKeys keys ++ keyWordsAt payload start 0) = s := by
      show s.withKeys keys (s.guardianSetKeys keys ++ []) = s
      rw [List.append_nil, withKeys_self]
    rw [hnone]
    exact ⟨fun h => ⟨hstart, (Except.ok.inj h).symm⟩, fun h => congrArg _ h.2.symm⟩
  | succ n ih =>
    refine (slice_bind_eq_ok (f := fun key =>
      pushKeys payload keys n (start + 20) (s.pushKey keys (intoB256 key >>> 96)))).trans ?_
    constructor
    · rintro ⟨hend, h⟩
      obtain ⟨hlength, rfl⟩ := (ih hend).mp h
      rw [intoB256_shift hend, withKeys_pushKey]
      exact ⟨by omega, by rw [Nat.mul_succ, Nat.add_comm (20 * n), Nat.add_assoc]; rfl⟩
    · rintro ⟨hlength, rfl⟩
      have hend : start + 20 ≤ payload.length := by omega
      refine ⟨hend, (ih hend).mpr ⟨by omega, ?_⟩⟩
      rw [intoB256_shift hend, withKeys_pushKey, Nat.mul_succ, Nat.add_comm (20 * n), Nat.add_assoc]
      rfl

theorem parseEncodedUpgrade_eq_ok {current : BitVec 32} {parsed : GuardianSetUpgrade × Storage} :
    parseEncodedUpgrade s current payload = .ok parsed ↔
      IsUpgrade payload current ∧
      s.guardianSetKeys (.guardianSetKeys (field payload 35 32 4)) = [] ∧
      parsed =
        ({ action := 2
           chain := field payload 33 16 2
           module := UPGRADE_MODULE
           newGuardianSet := ⟨0, .guardianSetKeys (field payload 35 32 4)⟩
           newGuardianSetIndex := field payload 35 32 4 },
          s.withKeys (.guardianSetKeys (field payload 35 32 4))
            (keyWordsAt payload 40 (guardianLengthOf payload))) := by
  have hmodule (h : 32 ≤ payload.length) :
      intoB256 (List.take 32 payload) = field payload 0 256 32 := by
    have := @intoB256_eq_field payload 0 (by omega)
    rwa [List.drop_zero] at this
  have hlengthOf : (field payload 39 8 1 : BitVec 8).toNat = guardianLengthOf payload := rfl
  simp only [parseEncodedUpgrade, except_bind_eq_ok, unwrap_eq_ok, require_eq_ok, get_eq_some,
    splitAt_eq_ok, Nat.zero_add, Nat.reduceAdd]
  constructor
  · rintro ⟨_, ⟨-, rfl⟩, _, ⟨hlength, rfl⟩, _, hcore, _, ⟨haction, rfl⟩, _, htwo, _, hchain, _,
      hindex, h⟩
    simp only [List.drop_zero] at hlength hcore h
    rw [hmodule hlength] at hcore h
    obtain ⟨-, rfl⟩ := (getArray_eq_ok (by omega)).mp hchain
    obtain ⟨-, rfl⟩ := (getArray_eq_ok (by omega)).mp hindex
    simp only [fromBeBytes_eq_field] at h
    obtain ⟨_, hlater, _, ⟨hkeys, rfl⟩, _, hpush, _, hcount, _, hend, h⟩ := h
    obtain ⟨-, rfl⟩ := (pushKeys_eq_ok (by omega)).mp hpush
    have hempty : s.guardianSetKeys (.guardianSetKeys (field payload 35 32 4)) = [] := by
      simp only [Storage.withKeys, Function.update_self, List.length_append,
        length_keyWordsAt] at hcount
      exact List.length_eq_zero_iff.mp (by omega)
    rw [hempty, List.nil_append, hcore, htwo] at h
    exact ⟨⟨hcore, htwo, hlater, hend⟩, hempty, (Except.ok.inj h).symm⟩
  · rintro ⟨⟨hcore, haction, hlater, hlength⟩, hempty, rfl⟩
    refine ⟨_, ⟨by omega, rfl⟩, _, ⟨?_, rfl⟩, (), ?_, _, ⟨by omega, rfl⟩, (), haction, _,
      (getArray_eq_ok (by omega)).mpr ⟨by omega, rfl⟩, _,
      (getArray_eq_ok (by omega)).mpr ⟨by omega, rfl⟩, (), hlater, _, ⟨by omega, rfl⟩, _,
      (pushKeys_eq_ok (by omega)).mpr ⟨by rw [hlengthOf]; omega, rfl⟩, (), ?_, (), hlength, ?_⟩
    · show 32 ≤ (List.drop 0 payload).length
      rw [List.drop_zero]
      omega
    · show intoB256 (List.take 32 (List.drop 0 payload)) = UPGRADE_MODULE
      rw [List.drop_zero, hmodule (by omega)]
      exact hcore
    · show (Storage.guardianSetKeys (s.withKeys _ _) _).length = _
      simp only [Storage.withKeys, fromBeBytes_eq_field, Function.update_self, List.length_append,
        length_keyWordsAt, hempty, List.length_nil, Nat.zero_add]
    · simp only [fromBeBytes_eq_field, hempty, List.nil_append, List.drop_zero,
        hmodule (show 32 ≤ payload.length by omega), hcore, haction]
      rfl

end

/-! ## Rotations -/

/-- What `submit_new_guardian_set` checks of the bytes of a VAA. -/
structure Submits (P : WormholeHost) (s : Storage) (timestamp : BitVec 64)
    (set : StorageGuardianSet) (bytes : Bytes) : Prop where
  vaa : IsVaa bytes
  usable : Usable s timestamp s.wormholeGuardianSetIndex set
    (vmOf P.keccak256 bytes).guardianSetIndex
  signed : QuorumSigned P (s.guardianSetKeys set.keys) bytes
  chain : (vmOf P.keccak256 bytes).emitterChainId = s.wormholeGovernanceDataSource.chainId
  emitter : (vmOf P.keccak256 bytes).emitterAddress
    = s.wormholeGovernanceDataSource.emitterAddress
  fresh : s.governanceActionIsConsumed (vmOf P.keccak256 bytes).hash = false
  upgrade : IsUpgrade (vmOf P.keccak256 bytes).payload s.wormholeGuardianSetIndex
  unused : s.guardianSetKeys
    (.guardianSetKeys (field (vmOf P.keccak256 bytes).payload 35 32 4)) = []
  early : timestamp.toNat + 86400 < 2 ^ 64

/-- The storage after the set of a payload has replaced the current one, which is `set`. -/
def Storage.submitted (s : Storage) (timestamp : BitVec 64) (set : StorageGuardianSet)
    (hash : Bytes32) (payload : Bytes) : Storage :=
  let newIndex : BitVec 32 := field payload 35 32 4
  { s.withKeys (.guardianSetKeys newIndex) (keyWordsAt payload 40 (guardianLengthOf payload)) with
    wormholeConsumedGovernanceActions :=
      Function.update s.wormholeConsumedGovernanceActions hash (some true)
    wormholeGuardianSets := Function.update
      (Function.update s.wormholeGuardianSets s.wormholeGuardianSetIndex
        (some { set with expirationTime := timestamp + GUARDIAN_SET_EXPIRATION_TIME_SECONDS }))
      newIndex (some ⟨0, .guardianSetKeys newIndex⟩)
    wormholeGuardianSetIndex := newIndex }

section

variable {P : WormholeHost} {s s' : Storage} {timestamp : BitVec 64} {bytes : Bytes}

theorem expireCurrent_eq_ok {set : StorageGuardianSet}
    (hset : s.wormholeGuardianSets s.wormholeGuardianSetIndex = some set) :
    s.expireCurrent timestamp = .ok s' ↔
      timestamp.toNat + 86400 < 2 ^ 64 ∧
      s' = { s with
        wormholeGuardianSets := Function.update s.wormholeGuardianSets s.wormholeGuardianSetIndex
          (some { set with
            expirationTime := timestamp + GUARDIAN_SET_EXPIRATION_TIME_SECONDS }) } := by
  unfold Storage.expireCurrent
  rw [hset]
  simp only [except_bind_eq_ok, checkedAdd_eq_ok]
  constructor
  · rintro ⟨_, ⟨hearly, rfl⟩, h⟩
    exact ⟨hearly, (Except.ok.inj h).symm⟩
  · rintro ⟨hearly, rfl⟩
    exact ⟨_, ⟨hearly, rfl⟩, rfl⟩

theorem submitNewGuardianSet_eq_ok :
    submitNewGuardianSet P timestamp bytes s = .ok s' ↔
      ∃ set, Submits P s timestamp set bytes ∧
        s' = s.submitted timestamp set (vmOf P.keccak256 bytes).hash
          (vmOf P.keccak256 bytes).payload := by
  simp only [submitNewGuardianSet, except_bind_eq_ok, parseAndVerifyWormholeVm_eq_ok,
    require_eq_ok, parseEncodedUpgrade_eq_ok]
  constructor
  · rintro ⟨_, ⟨hvaa, ⟨set, husable, hsigned⟩, rfl⟩, _, hcurrent, _, hchain, _, hemitter, _, hfresh,
      _, ⟨hupgrade, hunused, rfl⟩, _, hexpire, h⟩
    have hstored := husable.stored
    rw [husable.current] at hstored
    obtain ⟨hearly, rfl⟩ := (expireCurrent_eq_ok (by exact hstored)).mp hexpire
    exact ⟨set, ⟨hvaa, husable, hsigned, hchain, hemitter, hfresh, hupgrade, hunused, hearly⟩,
      (Except.ok.inj h).symm⟩
  · rintro ⟨set, h, rfl⟩
    have hstored := h.usable.stored
    rw [h.usable.current] at hstored
    exact ⟨_, ⟨h.vaa, ⟨set, h.usable, h.signed⟩, rfl⟩, (), h.usable.current, (), h.chain, (),
      h.emitter, (), h.fresh, _, ⟨h.upgrade, h.unused, rfl⟩, _,
      (expireCurrent_eq_ok (by exact hstored)).mpr ⟨h.early, rfl⟩, rfl⟩

end

/-! ## The signatures of the EVM receiver -/

/-- Both functions recover the signer of a signature in canonical form. -/
def RecoversAs (P : WormholeHost)
    (ecrecover : Bytes32 → BitVec 8 → Bytes32 → Bytes32 → Address) : Prop :=
  ∀ hash v r s, v = 27 ∨ v = 28 → s.toNat < 2 ^ 255 →
    P.ecRecoverEvmAddress (compactOf r s v) hash =
      if ecrecover hash v r s = 0 then none else some ((ecrecover hash v r s).setWidth 256)

/-- The recovery id is 0 or 1, and the highest bit of `s` is free for it. -/
def Canonical (sig : Signature) : Prop := (sig.v = 27 ∨ sig.v = 28) ∧ sig.s.toNat < 2 ^ 255

instance : DecidablePred Canonical := fun _ => inferInstanceAs (Decidable (_ ∧ _))

section

variable {P : WormholeHost} {ecrecover : Bytes32 → BitVec 8 → Bytes32 → Bytes32 → Address}
  {hash : Bytes32} {set : WormholeReceiver.GuardianSet}

theorem setWidth_inj {a b : Address} : a.setWidth 256 = b.setWidth 256 ↔ a = b := by
  refine ⟨fun h => ?_, fun h => h ▸ rfl⟩
  have ha := a.isLt
  have hb := b.isLt
  have hnat := congrArg BitVec.toNat h
  rw [BitVec.toNat_setWidth, BitVec.toNat_setWidth, Nat.mod_eq_of_lt (by omega),
    Nat.mod_eq_of_lt (by omega)] at hnat
  exact BitVec.eq_of_toNat_eq hnat

/-- On canonical signatures the loop is that of the EVM receiver, if no key is zero. -/
theorem signedFrom_iff_evm (hrecover : RecoversAs P ecrecover) (hkeys : 0 ∉ set.keys)
    {signatures : List Signature} (hcanonical : ∀ sig ∈ signatures, Canonical sig)
    {i : ℕ} {lastIndex : BitVec 8} :
    SignedFrom P (set.keys.map (BitVec.setWidth 256)) hash i lastIndex.toNat signatures ↔
      ∃ reason, WormholeReceiver.verifySignaturesFrom ecrecover hash set i lastIndex signatures
        = .ok (true, reason) := by
  induction signatures generalizing i lastIndex with
  | nil => exact ⟨fun _ => ⟨"", rfl⟩, fun _ => trivial⟩
  | cons sig signatures ih =>
    obtain ⟨⟨hv, hs⟩, hrest⟩ := List.forall_mem_cons.mp hcanonical
    simp only [SignedFrom, WormholeReceiver.verifySignaturesFrom_cons, ih hrest,
      WormholeReceiver.keyAt_eq_ok, hrecover hash sig.v sig.r sig.s hv hs, List.getElem?_map,
      Option.map_eq_some_iff]
    constructor
    · rintro ⟨hascends, ⟨_, ⟨key, hkey, rfl⟩, hsigner⟩, reason, hverified⟩
      split at hsigner
      · cases hsigner
      · next hnonzero =>
        refine ⟨reason, key, hkey, ?_, setWidth_inj.mp (Option.some.inj hsigner), hverified⟩
        rintro ⟨hi, hle⟩
        exact not_lt.mpr (BitVec.le_def.mp hle) (hascends (Nat.pos_of_ne_zero hi))
    · rintro ⟨reason, key, hkey, hascends, rfl, hverified⟩
      refine ⟨fun hi => ?_, ⟨_, ⟨_, hkey, rfl⟩, ?_⟩, reason, hverified⟩
      · by_contra hle
        exact hascends ⟨hi.ne', BitVec.le_def.mpr (not_lt.mp hle)⟩
      · rw [if_neg]
        intro hzero
        exact hkeys (hzero ▸ List.mem_of_getElem? hkey)

end

end PythCrosschain.Fuel
