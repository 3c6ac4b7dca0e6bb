import PythCrosschain.WormholeReceiver.Messages

/-!
# Verification of VAAs: the optimised path against the plain one

Both paths are characterised by the fields of the bytes at fixed offsets (`vmOf`). The
optimised path checks the length of the signatures before it reads them and the length of
the body after it has read it, so all that it accepts was read within the array.

The results are:

- `parseVM_eq_ok`, `verifyVM_eq_ok` and `parseAndVerifyVM_eq_ok`: when each function
  accepts, and what it returns;
- `recoveryIdsFit_of_valid`: a recovery id for which `v + 27` overflows is not accepted by
  the optimised path either;
- `parseAndVerifyVM_iff_verifyVM`: the two paths accept the same bytes and return the same
  fields.
-/

namespace PythCrosschain.WormholeReceiver

open BytesLib UnsafeCalldataBytesLib

/-! ## The fields of a VAA -/

/-- The signature at an offset. The addition wraps. -/
def signatureAt (bs : Bytes) (start : Nat) : Signature where
  guardianIndex := field bs start 8 1
  r := field bs (start + 1) 256 32
  s := field bs (start + 33) 256 32
  v := field bs (start + 65) 8 1 + 27

def signaturesAt (bs : Bytes) (start : Nat) : Nat → List Signature
  | 0 => []
  | n + 1 => signatureAt bs start :: signaturesAt bs (start + 66) n

def signersLenOf (bs : Bytes) : Nat := (field bs 5 8 1 : Uint8).toNat

/-- The offset of the body. -/
def bodyStart (bs : Bytes) : Nat := 6 + 66 * signersLenOf bs

def vmOf (keccak256 : Bytes → Bytes32) (bs : Bytes) : VM where
  version := field bs 0 8 1
  guardianSetIndex := field bs 1 32 4
  signatures := signaturesAt bs 6 (signersLenOf bs)
  hash := bodyHash keccak256 (bs.drop (bodyStart bs))
  timestamp := field bs (bodyStart bs) 32 4
  nonce := field bs (bodyStart bs + 4) 32 4
  emitterChainId := field bs (bodyStart bs + 8) 16 2
  emitterAddress := field bs (bodyStart bs + 10) 256 32
  sequence := field bs (bodyStart bs + 42) 64 8
  consistencyLevel := field bs (bodyStart bs + 50) 8 1
  payload := bs.drop (bodyStart bs + 51)

@[simp] theorem length_signaturesAt (bs : Bytes) (start n : Nat) :
    (signaturesAt bs start n).length = n := by
  induction n generalizing start with
  | zero => rfl
  | succ n ih => rw [signaturesAt, List.length_cons, ih]

/-- The recovery ids of the signatures do not overflow. -/
def RecoveryIdsFit (bs : Bytes) (start : Nat) : Nat → Prop
  | 0 => True
  | n + 1 => (field bs (start + 65) 8 1 : Uint8).toNat + 27 < 256 ∧ RecoveryIdsFit bs (start + 66) n

/-! ## `parseVM` -/

theorem recoveryId_eq_ok {a v : Uint8} :
    (checkedAdd a 27 : Result Uint8) = .ok v ↔ a.toNat + 27 < 256 ∧ v = a + 27 := by
  rw [checkedAdd_eq_ok, BitVec.toNat_eq, BitVec.toNat_add]
  have hv := v.isLt
  have h27 : (27 : Uint8).toNat = 27 := rfl
  rw [h27]
  omega

theorem parseSignatures_eq_ok {bs : Bytes} {start n : Nat} {parsed : List Signature × Nat}
    (hstart : start ≤ bs.length) :
    parseSignatures bs start n = .ok parsed ↔
      start + 66 * n ≤ bs.length ∧ RecoveryIdsFit bs start n ∧
      parsed = (signaturesAt bs start n, start + 66 * n) := by
  induction n generalizing start parsed with
  | zero =>
    simp only [parseSignatures, signaturesAt, RecoveryIdsFit, pure_eq_ok, true_and]
    exact ⟨fun h => ⟨hstart, h.symm⟩, fun h => h.2.symm⟩
  | succ n ih =>
    simp only [parseSignatures, BytesLib.toUint8, BytesLib.toBytes32, bind_eq_ok, toField_eq_ok,
      recoveryId_eq_ok, pure_eq_ok]
    constructor
    · rintro ⟨_, ⟨-, rfl⟩, _, ⟨-, rfl⟩, _, ⟨-, rfl⟩, _, ⟨hend, rfl⟩, _, ⟨hfit, rfl⟩, rest, hrest,
        rfl⟩
      obtain ⟨hlen, hfits, rfl⟩ := (ih hend).mp hrest
      refine ⟨by omega, ⟨hfit, hfits⟩, ?_⟩
      rw [signaturesAt, signatureAt, Nat.mul_succ, Nat.add_comm (66 * n) 66, ← Nat.add_assoc]
    · rintro ⟨hlen, ⟨hfit, hfits⟩, rfl⟩
      refine ⟨_, ⟨by omega, rfl⟩, _, ⟨by omega, rfl⟩, _, ⟨by omega, rfl⟩, _, ⟨by omega, rfl⟩, _,
        ⟨hfit, rfl⟩, _, (ih (by omega)).mpr ⟨by omega, hfits, rfl⟩, ?_⟩
      rw [signaturesAt, signatureAt, Nat.mul_succ, Nat.add_comm (66 * n) 66, ← Nat.add_assoc]

theorem parseVM_eq_ok {keccak256 : Bytes → Bytes32} {bs : Bytes} {vm : VM} :
    parseVM keccak256 bs = .ok vm ↔
      (field bs 0 8 1 : Uint8) = 1 ∧ bodyStart bs + 51 ≤ bs.length ∧
      RecoveryIdsFit bs 6 (signersLenOf bs) ∧ vm = vmOf keccak256 bs := by
  simp only [parseVM, BytesLib.toUint8, BytesLib.toUint16, BytesLib.toUint32, BytesLib.toUint64,
    BytesLib.toBytes32, bind_eq_ok, toField_eq_ok, require_eq_ok, sliceToEnd_eq_ok, pure_eq_ok,
    Nat.zero_add, Nat.reduceAdd]
  have hbody : bodyStart bs = 6 + 66 * (field bs 5 8 1 : Uint8).toNat := rfl
  constructor
  · rintro ⟨_, ⟨-, rfl⟩, -, hversion, _, ⟨-, rfl⟩, _, ⟨hlen, rfl⟩, parsed, hparsed, _, ⟨-, rfl⟩,
      _, ⟨-, rfl⟩, _, ⟨-, rfl⟩, _, ⟨-, rfl⟩, _, ⟨-, rfl⟩, _, ⟨-, rfl⟩, _, ⟨hend, rfl⟩, _, ⟨-, rfl⟩,
      rfl⟩
    obtain ⟨-, hfits, rfl⟩ := (parseSignatures_eq_ok (by omega)).mp hparsed
    exact ⟨hversion, hend, hfits, rfl⟩
  · rintro ⟨hversion, hlen, hfits, rfl⟩
    exact ⟨_, ⟨by omega, rfl⟩, (), hversion, _, ⟨by omega, rfl⟩, _, ⟨by omega, rfl⟩, _,
      (parseSignatures_eq_ok (by omega)).mpr ⟨by omega, hfits, rfl⟩, _, ⟨by omega, rfl⟩, _,
      ⟨by omega, rfl⟩, _, ⟨by omega, rfl⟩, _, ⟨by omega, rfl⟩, _, ⟨by omega, rfl⟩, _,
      ⟨by omega, rfl⟩, _, ⟨by omega, rfl⟩, _, ⟨by omega, rfl⟩, rfl⟩

/-! ## Signatures -/

section Signatures

variable {ecrecover : Bytes32 → Uint8 → Bytes32 → Bytes32 → Address}

theorem ofNat_add (a k : Nat) :
    BitVec.ofNat 256 a + BitVec.ofNat 256 k = BitVec.ofNat 256 (a + k) :=
  (BitVec.ofNat_add a k).symm

theorem verifySignature_bind_eq_ok {α : Type} {i : Nat} {lastIndex guardianIndex v : Uint8}
    {hash r s : Bytes32} {key : Address} {f : Bool × String → Result α} {a : α}
    (hinvalid : ∀ reason, f (false, reason) ≠ .ok a) :
    (verifySignature ecrecover i lastIndex hash guardianIndex r s v key >>= f) = .ok a ↔
      ¬(i ≠ 0 ∧ guardianIndex ≤ lastIndex) ∧ ecrecover hash v r s = key ∧ f (true, "") = .ok a := by
  simp only [verifySignature, bind_assoc, bind_eq_ok, require_eq_ok, exists_const]
  refine and_congr_right fun _ => ?_
  by_cases hsigner : ecrecover hash v r s = key
  · simp [hsigner]
  · simp [hsigner, hinvalid]

theorem verifySignaturesFrom_cons {hash : Bytes32} {guardianSet : GuardianSet} {i : Nat}
    {lastIndex : Uint8} {sig : Signature} {signatures : List Signature} {reason : String} :
    verifySignaturesFrom ecrecover hash guardianSet i lastIndex (sig :: signatures)
        = .ok (true, reason) ↔
      ∃ key, guardianSet.keyAt sig.guardianIndex = .ok key ∧
        ¬(i ≠ 0 ∧ sig.guardianIndex ≤ lastIndex) ∧ ecrecover hash sig.v sig.r sig.s = key ∧
        verifySignaturesFrom ecrecover hash guardianSet (i + 1) sig.guardianIndex signatures
          = .ok (true, reason) := by
  rw [verifySignaturesFrom, bind_eq_ok]
  refine exists_congr fun key => and_congr_right fun _ => ?_
  rw [verifySignature_bind_eq_ok (by simp)]
  simp

/-- Within the array both loops see the same signatures. -/
theorem parseAndVerifySignatures_valid {m : Machine} {b : CalldataBytes} {hash : Bytes32}
    {guardianSet : GuardianSet} {i : Nat} {lastIndex : Uint8} {start n : Nat} {reason : String}
    {index : Uint256} (h : start + 66 * n ≤ b.length.toNat) :
    parseAndVerifySignatures ecrecover m b hash guardianSet i lastIndex (BitVec.ofNat 256 start) n
        = .ok (true, reason, index) ↔
      verifySignaturesFrom ecrecover hash guardianSet i lastIndex
          (signaturesAt (b.bytes m) start n) = .ok (true, reason) ∧
        index = BitVec.ofNat 256 (start + 66 * n) := by
  induction n generalizing i lastIndex start with
  | zero =>
    simp only [parseAndVerifySignatures, signaturesAt, verifySignaturesFrom, pure_eq_ok,
      Prod.mk.injEq, true_and, Nat.mul_zero, Nat.add_zero]
    exact and_congr_right fun _ => eq_comm
  | succ n ih =>
    have h1 : BitVec.ofNat 256 start + 1 = BitVec.ofNat 256 (start + 1) := ofNat_add start 1
    have h33 : BitVec.ofNat 256 (start + 1) + 32 = BitVec.ofNat 256 (start + 33) :=
      ofNat_add (start + 1) 32
    have h65 : BitVec.ofNat 256 (start + 33) + 32 = BitVec.ofNat 256 (start + 65) :=
      ofNat_add (start + 33) 32
    have h66 : BitVec.ofNat 256 (start + 65) + 1 = BitVec.ofNat 256 (start + 66) :=
      ofNat_add (start + 65) 1
    have hend : start + 66 * (n + 1) = start + 66 + 66 * n := by omega
    rw [parseAndVerifySignatures, signaturesAt, verifySignaturesFrom_cons, signatureAt]
    simp only [h1, h33, h65, h66, hend, bind_eq_ok (f := fun _ => _ >>= _)]
    rw [toUint8_eq_field (by omega), toBytes32_eq_field (by omega), toBytes32_eq_field (by omega),
      toUint8_eq_field (by omega)]
    simp only [← exists_and_right, and_assoc]
    refine exists_congr fun key => and_congr_right fun _ => ?_
    rw [verifySignature_bind_eq_ok (by simp), ← ih (by omega)]
    simp

/-- A recovery id that recovers a key is not the result of an overflow. -/
theorem recoveryIdsFit_of_valid {bs : Bytes} {hash : Bytes32} {guardianSet : GuardianSet} {i : Nat}
    {lastIndex : Uint8} {start n : Nat} {reason : String}
    (hrecover : ∀ hash v r s, v ≠ 27 → v ≠ 28 → ecrecover hash v r s = 0)
    (hkeys : 0 ∉ guardianSet.keys)
    (h : verifySignaturesFrom ecrecover hash guardianSet i lastIndex (signaturesAt bs start n)
      = .ok (true, reason)) : RecoveryIdsFit bs start n := by
  induction n generalizing i lastIndex start with
  | zero => trivial
  | succ n ih =>
    obtain ⟨key, hkey, -, hsigner, hrest⟩ := verifySignaturesFrom_cons.mp h
    refine ⟨?_, ih hrest⟩
    have hmem : key ∈ guardianSet.keys := by
      unfold GuardianSet.keyAt at hkey
      split at hkey
      · cases hkey
      · next hget =>
        cases hkey
        exact List.mem_of_getElem? hget
    have hv : (signatureAt bs start).v = 27 ∨ (signatureAt bs start).v = 28 := by
      by_contra hv
      obtain ⟨h27, h28⟩ := not_or.mp hv
      rw [hrecover _ _ _ _ h27 h28] at hsigner
      exact hkeys (hsigner ▸ hmem)
    simp only [signatureAt] at hv
    rcases hv with hv | hv <;> bv_omega

end Signatures

/-! ## Guardian sets and quorum -/

def quorumOf (n : Nat) : Nat := n * 10 / 3 * 2 / 10 + 1

theorem toNat_ofNat {n : Nat} (h : n < 2 ^ 256) : (BitVec.ofNat 256 n).toNat = n := by
  rw [BitVec.toNat_ofNat, Nat.mod_eq_of_lt h]

theorem checkedQuorum_eq_ok {n : Nat} (hn : n < 2 ^ 64) {quorum : Uint256} :
    checkedQuorum (BitVec.ofNat 256 n) = .ok quorum ↔ quorum.toNat = quorumOf n := by
  have h10 : (10 : Uint256).toNat = 10 := rfl
  have h3 : (3 : Uint256).toNat = 3 := rfl
  have h2 : (2 : Uint256).toNat = 2 := rfl
  have h1 : (1 : Uint256).toNat = 1 := rfl
  simp only [checkedQuorum, bind_eq_ok, checkedMul_eq_ok, checkedAdd_eq_ok, BitVec.toNat_udiv,
    toNat_ofNat (show n < 2 ^ 256 by omega), h10, h3, h2, h1]
  constructor
  · rintro ⟨tenths, htenths, twoThirds, htwo, hquorum⟩
    rw [hquorum, htwo, htenths]
    rfl
  · intro hquorum
    have htenths := toNat_ofNat (n := n * 10) (by omega)
    have htwo := toNat_ofNat (n := n * 10 / 3 * 2) (by omega)
    refine ⟨BitVec.ofNat 256 (n * 10), htenths, BitVec.ofNat 256 (n * 10 / 3 * 2), ?_, ?_⟩
    · rw [htwo, htenths]
    · rw [htwo, hquorum]
      rfl

theorem toNat_uncheckedQuorum {n : Nat} (hn : n < 2 ^ 64) :
    (uncheckedQuorum (BitVec.ofNat 256 n)).toNat = quorumOf n := by
  have h10 : (10 : Uint256).toNat = 10 := rfl
  have h3 : (3 : Uint256).toNat = 3 := rfl
  have h2 : (2 : Uint256).toNat = 2 := rfl
  have h1 : (1 : Uint256).toNat = 1 := rfl
  simp only [uncheckedQuorum, quorumOf, BitVec.toNat_add, BitVec.toNat_udiv, BitVec.toNat_mul,
    toNat_ofNat (show n < 2 ^ 256 by omega), h10, h3, h2, h1]
  rw [Nat.mod_eq_of_lt (a := n * 10) (by omega), Nat.mod_eq_of_lt (a := n * 10 / 3 * 2) (by omega),
    Nat.mod_eq_of_lt (by omega)]

/-- The guardian set of a VAA exists and is current or not expired. -/
def Usable (st : State) (timestamp : Uint256) (index : Uint32) : Prop :=
  (st.guardianSets index).keys.length < 2 ^ 64 ∧ (st.guardianSets index).keys.length ≠ 0 ∧
  ¬(index ≠ st.getCurrentGuardianSetIndex ∧
    (st.guardianSets index).expirationTime.toNat < timestamp.toNat)

section Verification

variable {keccak256 : Bytes → Bytes32} {ecrecover : Bytes32 → Uint8 → Bytes32 → Bytes32 → Address}
  {st : State} {timestamp : Uint256}

/-- The checks of a guardian set that both paths begin with. -/
theorem guardianSet_bind_eq_ok {α : Type} {index : Uint32} (invalid : String → α)
    {f : GuardianSet → Result α} {a : α} (hinvalid : ∀ reason, invalid reason ≠ a) :
    (st.getGuardianSet index >>= fun guardianSet =>
      if guardianSet.keys.length = 0 then pure (invalid "invalid guardian set")
      else if index ≠ st.getCurrentGuardianSetIndex ∧
          guardianSet.expirationTime.toNat < timestamp.toNat then
        pure (invalid "guardian set has expired")
      else f guardianSet) = .ok a ↔
    Usable st timestamp index ∧ f (st.guardianSets index) = .ok a := by
  simp only [State.getGuardianSet, bind_assoc, pure_bind, bind_eq_ok, require_eq_ok, exists_const,
    Usable, and_assoc]
  refine and_congr_right fun _ => ?_
  split
  · next hempty => simp [hempty, hinvalid]
  · next hkeys =>
    split
    · next hexpired => simp [hexpired, hinvalid]
    · next hexpired => simp [hkeys, hexpired]

theorem verifyVM_eq_ok {vm : VM} {reason : String} :
    verifyVM ecrecover st timestamp vm = .ok (true, reason) ↔
      Usable st timestamp vm.guardianSetIndex ∧
      quorumOf (st.guardianSets vm.guardianSetIndex).keys.length ≤ vm.signatures.length ∧
      (∃ reason, verifySignaturesFrom ecrecover vm.hash (st.guardianSets vm.guardianSetIndex) 0 0
        vm.signatures = .ok (true, reason)) ∧ reason = "" := by
  unfold verifyVM
  rw [guardianSet_bind_eq_ok (fun reason => (false, reason)) (by simp)]
  refine and_congr_right fun husable => ?_
  rw [bind_eq_ok]
  simp only [checkedQuorum_eq_ok husable.1]
  constructor
  · rintro ⟨quorum, hquorum, h⟩
    split at h
    · next hmany => simp at h
    · next hmany =>
      obtain ⟨⟨valid, reason'⟩, hchecked, h⟩ := bind_eq_ok.mp h
      cases valid with
      | false => simp at h
      | true =>
        obtain rfl : "" = reason := by simpa using h
        exact ⟨by omega, ⟨reason', hchecked⟩, rfl⟩
  · rintro ⟨hquorum, ⟨reason', hchecked⟩, rfl⟩
    have hsmall : quorumOf (st.guardianSets vm.guardianSetIndex).keys.length < 2 ^ 256 := by
      have hlen := husable.1
      unfold quorumOf
      omega
    refine ⟨BitVec.ofNat 256 _, toNat_ofNat hsmall, ?_⟩
    rw [if_neg (by rw [toNat_ofNat hsmall]; omega)]
    exact bind_eq_ok.mpr ⟨(true, reason'), hchecked, rfl⟩

theorem parseBody_eq_ok {m : Machine} {b : CalldataBytes} {vm vm' : VM} {start : Nat}
    {reason : String} (hstart : start + 51 < 2 ^ 256) :
    parseBody m b vm (BitVec.ofNat 256 start) = .ok (vm', true, reason) ↔
      start + 51 ≤ b.length.toNat ∧ reason = "" ∧
      vm' = { vm with
        signatures := []
        timestamp := field (b.bytes m) start 32 4
        nonce := field (b.bytes m) (start + 4) 32 4
        emitterChainId := field (b.bytes m) (start + 8) 16 2
        emitterAddress := field (b.bytes m) (start + 10) 256 32
        sequence := field (b.bytes m) (start + 42) 64 8
        consistencyLevel := field (b.bytes m) (start + 50) 8 1
        payload := (b.bytes m).drop (start + 51) } := by
  have h4 : BitVec.ofNat 256 start + 4 = BitVec.ofNat 256 (start + 4) := ofNat_add start 4
  have h8 : BitVec.ofNat 256 (start + 4) + 4 = BitVec.ofNat 256 (start + 8) :=
    ofNat_add (start + 4) 4
  have h10 : BitVec.ofNat 256 (start + 8) + 2 = BitVec.ofNat 256 (start + 10) :=
    ofNat_add (start + 8) 2
  have h42 : BitVec.ofNat 256 (start + 10) + 32 = BitVec.ofNat 256 (start + 42) :=
    ofNat_add (start + 10) 32
  have h50 : BitVec.ofNat 256 (start + 42) + 8 = BitVec.ofNat 256 (start + 50) :=
    ofNat_add (start + 42) 8
  have h51 : BitVec.ofNat 256 (start + 50) + 1 = BitVec.ofNat 256 (start + 51) :=
    ofNat_add (start + 50) 1
  unfold parseBody
  simp only [h4, h8, h10, h42, h50, h51]
  split
  · next hlong =>
    have hnot : ¬start + 51 ≤ b.length.toNat := by
      rw [gt_iff_lt, BitVec.lt_def, toNat_ofNat hstart] at hlong
      omega
    simp [hnot]
  · next hlong =>
    have hle : start + 51 ≤ b.length.toNat := by
      rw [gt_iff_lt, BitVec.lt_def, toNat_ofNat hstart] at hlong
      omega
    rw [toUint32_eq_field (by omega), toUint32_eq_field (by omega), toUint16_eq_field (by omega),
      toBytes32_eq_field (by omega), toUint64_eq_field (by omega), toUint8_eq_field (by omega)]
    rw [bind_eq_ok]
    simp only [sliceFrom_eq_drop hle, exists_eq_left, bytes_sliceFrom hle, pure_eq_ok,
      Prod.mk.injEq, true_and, hle]
    exact ⟨fun h => ⟨h.2.symm, h.1.symm⟩, fun h => ⟨h.2.symm, h.1.symm⟩⟩

/-- The offset of the body as the optimised path computes it. -/
theorem hashIndex_eq (signersLen : Uint8) :
    BitVec.ofNat 256 6 + signersLen.setWidth 256 * 66
      = BitVec.ofNat 256 (6 + 66 * signersLen.toNat) := by
  have hlt := signersLen.isLt
  apply BitVec.eq_of_toNat_eq
  rw [BitVec.toNat_add, BitVec.toNat_mul, BitVec.toNat_setWidth, toNat_ofNat (by omega),
    toNat_ofNat (by omega), show (66 : Uint256).toNat = 66 from rfl]
  omega

theorem parseAndVerifyVM_eq_ok {m : Machine} {b : CalldataBytes} {vm : VM} {reason : String} :
    parseAndVerifyVM keccak256 ecrecover m st timestamp b = .ok (vm, true, reason) ↔
      (field (b.bytes m) 0 8 1 : Uint8) = 1 ∧ bodyStart (b.bytes m) + 51 ≤ (b.bytes m).length ∧
      Usable st timestamp (vmOf keccak256 (b.bytes m)).guardianSetIndex ∧
      quorumOf (st.guardianSets (vmOf keccak256 (b.bytes m)).guardianSetIndex).keys.length
        ≤ signersLenOf (b.bytes m) ∧
      (∃ reason, verifySignaturesFrom ecrecover (vmOf keccak256 (b.bytes m)).hash
        (st.guardianSets (vmOf keccak256 (b.bytes m)).guardianSetIndex) 0 0
        (vmOf keccak256 (b.bytes m)).signatures = .ok (true, reason)) ∧
      reason = "" ∧ vm = { vmOf keccak256 (b.bytes m) with signatures := [] } := by
  have h1 : (0 : Uint256) + 1 = BitVec.ofNat 256 1 := rfl
  have h5 : BitVec.ofNat 256 1 + 4 = BitVec.ofNat 256 5 := rfl
  have h6 : BitVec.ofNat 256 5 + 1 = BitVec.ofNat 256 6 := rfl
  unfold parseAndVerifyVM
  simp only [h1, h5, h6, hashIndex_eq]
  rw [bind_eq_ok]
  simp only [require_eq_ok, exists_const]
  rw [guardianSet_bind_eq_ok (fun reason => (_, false, reason)) (by simp)]
  have hsmall := (toUint8 m b (BitVec.ofNat 256 5)).isLt
  have hhash : (BitVec.ofNat 256 (6 + 66 * (toUint8 m b (BitVec.ofNat 256 5)).toNat)).toNat
      = 6 + 66 * (toUint8 m b (BitVec.ofNat 256 5)).toNat := toNat_ofNat (by omega)
  split
  · next hshort =>
    -- the body is empty, and the plain path cannot read it either
    rw [ge_iff_le, BitVec.le_def, hhash] at hshort
    refine iff_of_false (fun h => by simp at h) ?_
    rintro ⟨-, hlen, -⟩
    rw [CalldataBytes.length_bytes, bodyStart, signersLenOf] at hlen
    rw [toUint8_eq_field (by omega)] at hshort
    omega
  · next hlong =>
    rw [ge_iff_le, BitVec.le_def, hhash, not_le] at hlong
    have hversion : toUint8 m b 0 = field (b.bytes m) 0 8 1 :=
      @toUint8_eq_field m b 0 (by omega)
    rw [@toUint8_eq_field m b 5 (by omega)] at hlong hhash ⊢
    rw [hversion, @toUint32_eq_field m b 1 (by omega)]
    refine and_congr_right fun _ => ?_
    change _ ∧ (sliceFrom m b (BitVec.ofNat 256 (bodyStart (b.bytes m))) >>= _) = _ ↔ _
    have hle : bodyStart (b.bytes m) ≤ b.length.toNat := hlong.le
    rw [bind_eq_ok]
    simp only [sliceFrom_eq_drop hle, exists_eq_left, bytes_sliceFrom hle]
    have hcount :
        ((field (b.bytes m) 5 8 1 : Uint8).setWidth 256).toNat = signersLenOf (b.bytes m) :=
      TracksAt.toNat_setWidth_256 (by decide) _
    have hfits : bodyStart (b.bytes m) + 51 < 2 ^ 256 := by
      rw [bodyStart, signersLenOf]
      omega
    rw [hcount]
    constructor
    · rintro ⟨husable, h⟩
      obtain ⟨⟨valid, reason', index⟩, hchecked, h⟩ := bind_eq_ok.mp h
      cases valid with
      | false => simp at h
      | true =>
        obtain ⟨hverified, rfl⟩ := (parseAndVerifySignatures_valid hle).mp hchecked
        simp only [not_true_eq_false, if_false] at h
        split at h
        · simp at h
        · next hquorum =>
          obtain ⟨hend, rfl, rfl⟩ := (parseBody_eq_ok hfits).mp h
          rw [gt_iff_lt, BitVec.lt_def, hcount, toNat_uncheckedQuorum husable.1, not_lt] at hquorum
          rw [CalldataBytes.length_bytes]
          exact ⟨hend, husable, hquorum, ⟨reason', hverified⟩, rfl, rfl⟩
    · rintro ⟨hend, husable, hquorum, ⟨reason', hverified⟩, rfl, rfl⟩
      rw [CalldataBytes.length_bytes] at hend
      refine ⟨husable, bind_eq_ok.mpr ⟨(true, reason', _),
        (parseAndVerifySignatures_valid hle).mpr ⟨hverified, rfl⟩, ?_⟩⟩
      simp only [not_true_eq_false, if_false]
      rw [if_neg]
      · exact (parseBody_eq_ok hfits).mpr ⟨hend, rfl, rfl⟩
      · rw [gt_iff_lt, BitVec.lt_def, hcount]
        exact not_lt.mpr ((toNat_uncheckedQuorum husable.1).trans_le hquorum)

/-- **The optimised path agrees with the plain one.** For every state, block timestamp and
calldata, `parseAndVerifyVM` accepts the encoded VAA exactly when `parseVM` accepts its
bytes and `verifyVM` accepts the result, and both give the same VAA, without the
signatures. -/
theorem parseAndVerifyVM_iff_verifyVM (keccak256 : Bytes → Bytes32)
    (ecrecover : Bytes32 → Uint8 → Bytes32 → Bytes32 → Address)
    (hrecover : ∀ hash v r s, v ≠ 27 → v ≠ 28 → ecrecover hash v r s = 0)
    (st : State) (hkeys : ∀ index, 0 ∉ (st.guardianSets index).keys) (timestamp : Uint256)
    (m : Machine) (encodedVM : CalldataBytes) (vm : VM) :
    (∃ reason, parseAndVerifyVM keccak256 ecrecover m st timestamp encodedVM
        = .ok (vm, true, reason)) ↔
      ∃ parsed reason, parseVM keccak256 (encodedVM.bytes m) = .ok parsed ∧
        verifyVM ecrecover st timestamp parsed = .ok (true, reason) ∧
        vm = { parsed with signatures := [] } := by
  simp only [parseAndVerifyVM_eq_ok, parseVM_eq_ok, verifyVM_eq_ok]
  constructor
  · rintro ⟨_, hversion, hend, husable, hquorum, ⟨reason, hverified⟩, rfl, rfl⟩
    refine ⟨_, _, ⟨hversion, hend, recoveryIdsFit_of_valid hrecover (hkeys _) hverified, rfl⟩,
      ⟨husable, ?_, ⟨reason, hverified⟩, rfl⟩, rfl⟩
    simpa [vmOf] using hquorum
  · rintro ⟨_, _, ⟨hversion, hend, -, rfl⟩, ⟨husable, hquorum, hverified, rfl⟩, rfl⟩
    refine ⟨_, hversion, hend, husable, ?_, hverified, rfl, rfl⟩
    simpa [vmOf] using hquorum

end Verification

/-! ### A VAA with one guardian -/

/-- Recovers the address that the second half of the signature spells out. -/
def exRecover (_ : Bytes32) (v : Uint8) (_ s : Bytes32) : Address :=
  if v = 27 ∨ v = 28 then s.setWidth 160 else 0

/-- Guardian set 0 has the key 5. -/
def exState : State where
  guardianSets := fun index => if index = 0 then { keys := [5] } else {}
  guardianSetIndex := 0

def exVaaBytes : Bytes :=
  [1] ++ bytesBE 4 0 ++ [1] ++ [0] ++ bytesBE 32 9 ++ bytesBE 32 5 ++ [1] ++ bytesBE 4 100
    ++ bytesBE 4 2 ++ bytesBE 2 26 ++ bytesBE 32 7 ++ bytesBE 8 3 ++ [1] ++ [0xaa, 0xbb]

def exVaaMachine : Machine where
  calldata := fun a => exVaaBytes.getD (a - 68).toNat 0xff
  aroundCopy := fun _ _ => 0xff
  aroundReturned := fun _ => 0xff
  checksSlices := true

def exVaa : CalldataBytes where
  offset := 68
  length := BitVec.ofNat 256 exVaaBytes.length

theorem parseAndVerifyVM_iff_verifyVM_example :
    ∃ reason, parseAndVerifyVM exKeccak exRecover exVaaMachine exState 1000 exVaa
      = .ok ({ vmOf exKeccak exVaaBytes with signatures := [] }, true, reason) := by
  refine (parseAndVerifyVM_iff_verifyVM exKeccak exRecover (fun _ v _ _ h27 h28 => ?_) exState
    (fun index => ?_) 1000 exVaaMachine exVaa _).mpr ⟨vmOf exKeccak exVaaBytes, "", ?_, ?_, rfl⟩
  · exact if_neg (not_or.mpr ⟨h27, h28⟩)
  · simp only [exState]
    split <;> decide
  · exact toOption_eq_some.mp (by decide +kernel)
  · exact toOption_eq_some.mp (by decide +kernel)

end PythCrosschain.WormholeReceiver
