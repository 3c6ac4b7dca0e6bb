import PythCrosschain.Hermes.Deduplication
import PythCrosschain.WormholeReceiver.Quorum

/-!
# Hermes: which stored VAAs the receiver accepts

`verify_vaa` skips signatures that do not match, stops at a quorum, and never looks at the
version, but the bytes that `process_message` stores are those that came in. The receiver checks
the version and all signatures. Results:

1. `parseAndVerifyVM_serialize`: when the receiver accepts the bytes of a VAA, and as what.
2. `trimmed_verifies`: it accepts the VAA that `verify_vaa` returns, with the version of the
   receiver.
3. `stored_verifies_iff`: it accepts the stored bytes exactly when the VAA has that version, and
   its signatures ascend and all match.
-/

namespace PythCrosschain.Hermes

open WormholeReceiver (vmOf bodyStart signersLenOf bodyHash parseAndVerifyVM Usable quorumOf
  ExGuardian ExSignature ExVaa exFirstVaa exQuorumState)
open BytesLib (field)
open PythnetSdk (HashArray)

/-! ## Fields -/

theorem field_skip {before : Bytes} {n : ℕ} (h : before.length = n) (rest : Bytes)
    (offset w k : ℕ) :
    (field (before ++ rest) (n + offset) w k : BitVec w) = field rest offset w k := by
  rw [field, field, ← h, List.drop_append, List.drop_of_length_le (Nat.le_add_right _ _),
    List.nil_append, Nat.add_sub_cancel_left]

theorem field_packed {w k : ℕ} (hw : w = 8 * k) (x : BitVec w) (rest : Bytes) :
    (field (packed k x ++ rest) 0 w k : BitVec w) = x := by
  have hlt : x.toNat < 256 ^ k := by
    rw [show 256 = 2 ^ 8 from rfl, ← Nat.pow_mul, ← hw]
    exact x.isLt
  rw [field, List.drop_zero, List.take_left' (length_packed k x), packed, natBE_bytesBE,
    Nat.mod_eq_of_lt hlt, BitVec.ofNat_toNat, BitVec.setWidth_eq]

/-! ## A serialised VAA -/

/-- The signature as the receiver reads it. -/
def VaaSignature.toReceiver (s : VaaSignature) : WormholeReceiver.Signature where
  r := BitVec.ofNat 256 (natBE (s.signature.val.take 32))
  s := BitVec.ofNat 256 (natBE ((s.signature.val.drop 32).take 32))
  v := s.recoveryId + 27
  guardianIndex := s.index

theorem length_serialize_signature (s : VaaSignature) : s.serialize.length = 66 := by
  rw [VaaSignature.serialize, List.length_append, length_packed, s.signature.property]

theorem signatureAt_serialize (s : VaaSignature) (rest : Bytes) :
    WormholeReceiver.signatureAt (s.serialize ++ rest) 0 = s.toReceiver := by
  have hlength := s.signature.property
  have hfield (start k w : ℕ) (h : start + k ≤ 65) :
      (field (s.serialize ++ rest) (1 + start) w k : BitVec w)
        = BitVec.ofNat w (natBE ((s.signature.val.drop start).take k)) := by
    rw [VaaSignature.serialize, List.append_assoc, field_skip (length_packed 1 s.index), field,
      List.drop_append_of_le_length (by omega),
      List.take_append_of_le_length (by rw [List.length_drop]; omega)]
  have hlast : (s.signature.val.drop 64).take 1 = s.signature.val.drop 64 :=
    List.take_of_length_le (by rw [List.length_drop]; omega)
  have hindex : (field (s.serialize ++ rest) 0 8 1 : BitVec 8) = s.index := by
    rw [VaaSignature.serialize, List.append_assoc]
    exact @field_packed 8 1 rfl s.index _
  unfold WormholeReceiver.signatureAt VaaSignature.toReceiver VaaSignature.recoveryId
  rw [hindex, ← hlast, ← hfield 64 1 8 (by omega), ← hfield 32 32 256 (by omega),
    ← List.drop_zero (l := s.signature.val), ← hfield 0 32 256 (by omega)]

theorem signaturesAt_skip {before : Bytes} {n : ℕ} (h : before.length = n) (rest : Bytes)
    (start count : ℕ) :
    WormholeReceiver.signaturesAt (before ++ rest) (n + start) count
      = WormholeReceiver.signaturesAt rest start count := by
  induction count generalizing start with
  | zero => rfl
  | succ count ih =>
    rw [WormholeReceiver.signaturesAt, WormholeReceiver.signaturesAt, Nat.add_assoc, ih]
    congr 1
    unfold WormholeReceiver.signatureAt
    simp only [Nat.add_assoc, field_skip h]

theorem signaturesAt_serialize (signatures : List VaaSignature) (rest : Bytes) :
    WormholeReceiver.signaturesAt (signatures.flatMap VaaSignature.serialize ++ rest) 0
        signatures.length
      = signatures.map VaaSignature.toReceiver := by
  induction signatures with
  | nil => rfl
  | cons s signatures ih =>
    rw [List.length_cons, WormholeReceiver.signaturesAt, List.flatMap_cons, List.append_assoc,
      signatureAt_serialize, Nat.add_comm, signaturesAt_skip (length_serialize_signature s), ih]
    rfl

theorem length_signatures_serialize (signatures : List VaaSignature) :
    (signatures.flatMap VaaSignature.serialize).length = 66 * signatures.length := by
  induction signatures with
  | nil => rfl
  | cons s signatures ih =>
    rw [List.flatMap_cons, List.length_append, ih, length_serialize_signature, List.length_cons]
    ring

section

variable {vaa : Vaa}

theorem signersLenOf_serialize (h : vaa.signatures.length < 256) :
    signersLenOf vaa.serialize = vaa.signatures.length := by
  have hcount : bytesBE 1 vaa.signatures.length
      = packed 1 (BitVec.ofNat 8 vaa.signatures.length) := by
    rw [packed, BitVec.toNat_ofNat, Nat.mod_eq_of_lt h]
  have hfield : (field vaa.serialize (1 + (4 + 0)) 8 1 : BitVec 8)
      = BitVec.ofNat 8 vaa.signatures.length := by
    simp only [Vaa.serialize, List.append_assoc, hcount]
    rw [field_skip (length_packed _ _), field_skip (length_packed _ _), field_packed rfl]
  have hsigners : signersLenOf vaa.serialize
      = (field vaa.serialize (1 + (4 + 0)) 8 1 : BitVec 8).toNat := rfl
  rw [hsigners, hfield, BitVec.toNat_ofNat, Nat.mod_eq_of_lt h]

/-- The bytes before the signatures. -/
def Vaa.header (vaa : Vaa) : Bytes :=
  packed 1 vaa.version ++ packed 4 vaa.guardianSetIndex ++ bytesBE 1 vaa.signatures.length

theorem length_header : vaa.header.length = 6 := by
  rw [Vaa.header, List.length_append, List.length_append, length_packed, length_packed,
    length_bytesBE]

theorem drop_bodyStart (h : vaa.signatures.length < 256) :
    vaa.serialize.drop (bodyStart vaa.serialize) = vaa.body := by
  have hlength : (vaa.header ++ vaa.signatures.flatMap VaaSignature.serialize).length
      = bodyStart vaa.serialize := by
    rw [List.length_append, length_header, length_signatures_serialize, bodyStart,
      signersLenOf_serialize h]
  exact List.drop_left' hlength

/-- A field of the body. -/
theorem field_body (h : vaa.signatures.length < 256) (offset w k : ℕ) :
    (field vaa.serialize (bodyStart vaa.serialize + offset) w k : BitVec w)
      = field vaa.body offset w k := by
  rw [field, ← List.drop_drop, drop_bodyStart h, field]

theorem vmOf_serialize (keccak256 : Bytes → Bytes32) (h : vaa.signatures.length < 256) :
    vmOf keccak256 vaa.serialize =
      { version := vaa.version
        guardianSetIndex := vaa.guardianSetIndex
        signatures := vaa.signatures.map VaaSignature.toReceiver
        hash := bodyHash keccak256 vaa.body
        timestamp := vaa.timestamp
        nonce := vaa.nonce
        emitterChainId := vaa.emitterChain
        emitterAddress := vaa.emitterAddress
        sequence := vaa.sequence
        consistencyLevel := vaa.consistencyLevel
        payload := vaa.payload } := by
  have hversion : (field vaa.serialize 0 8 1 : BitVec 8) = vaa.version := by
    simp only [Vaa.serialize, List.append_assoc]
    exact @field_packed 8 1 rfl vaa.version _
  have hindex : (field vaa.serialize (1 + 0) 32 4 : BitVec 32) = vaa.guardianSetIndex := by
    simp only [Vaa.serialize, List.append_assoc]
    rw [field_skip (length_packed 1 vaa.version)]
    exact @field_packed 32 4 rfl vaa.guardianSetIndex _
  have hsignatures : WormholeReceiver.signaturesAt vaa.serialize (6 + 0) vaa.signatures.length
      = vaa.signatures.map VaaSignature.toReceiver := by
    have hbytes : vaa.serialize
        = vaa.header ++ (vaa.signatures.flatMap VaaSignature.serialize ++ vaa.body) :=
      List.append_assoc _ _ _
    rw [hbytes, signaturesAt_skip length_header, signaturesAt_serialize]
  have htimestamp : (field vaa.body 0 32 4 : BitVec 32) = vaa.timestamp := by
    simp only [Vaa.body, List.append_assoc]
    exact @field_packed 32 4 rfl vaa.timestamp _
  have hnonce : (field vaa.body (4 + 0) 32 4 : BitVec 32) = vaa.nonce := by
    simp only [Vaa.body, List.append_assoc]
    rw [field_skip (length_packed _ _)]
    exact @field_packed 32 4 rfl vaa.nonce _
  have hchain : (field vaa.body (4 + (4 + 0)) 16 2 : BitVec 16) = vaa.emitterChain := by
    simp only [Vaa.body, List.append_assoc]
    rw [field_skip (length_packed _ _), field_skip (length_packed _ _)]
    exact @field_packed 16 2 rfl vaa.emitterChain _
  have haddress : (field vaa.body (4 + (4 + (2 + 0))) 256 32 : BitVec 256)
      = vaa.emitterAddress := by
    simp only [Vaa.body, List.append_assoc]
    rw [field_skip (length_packed _ _), field_skip (length_packed _ _),
      field_skip (length_packed _ _)]
    exact @field_packed 256 32 rfl vaa.emitterAddress _
  have hsequence : (field vaa.body (4 + (4 + (2 + (32 + 0)))) 64 8 : BitVec 64)
      = vaa.sequence := by
    simp only [Vaa.body, List.append_assoc]
    rw [field_skip (length_packed _ _), field_skip (length_packed _ _),
      field_skip (length_packed _ _), field_skip (length_packed _ _)]
    exact @field_packed 64 8 rfl vaa.sequence _
  have hlevel : (field vaa.body (4 + (4 + (2 + (32 + (8 + 0))))) 8 1 : BitVec 8)
      = vaa.consistencyLevel := by
    simp only [Vaa.body, List.append_assoc]
    rw [field_skip (length_packed _ _), field_skip (length_packed _ _),
      field_skip (length_packed _ _), field_skip (length_packed _ _),
      field_skip (length_packed _ _)]
    exact @field_packed 8 1 rfl vaa.consistencyLevel _
  have hpayload : vaa.body.drop 51 = vaa.payload := by
    refine List.drop_left' ?_
    simp only [List.length_append, length_packed]
  rw [← field_body h] at htimestamp hnonce hchain haddress hsequence hlevel
  rw [← drop_bodyStart h, List.drop_drop] at hpayload
  rw [Nat.add_zero] at htimestamp
  unfold vmOf
  rw [hversion, hindex, signersLenOf_serialize h, hsignatures, drop_bodyStart h, htimestamp, hnonce,
    hchain, haddress, hsequence, hlevel, hpayload]

end

/-! ## Signatures -/

/-- The indices ascend, and every signature is by the key at its index. -/
structure AllSigned (ecrecover : Bytes32 → BitVec 8 → Bytes32 → Bytes32 → BitVec 160)
    (digest : Bytes32) (keys : List (BitVec 160)) (signatures : List VaaSignature) : Prop where
  ascend : signatures.Pairwise fun a b => a.index < b.index
  signed : ∀ s ∈ signatures, keys[s.index.toNat]?
    = some (ecrecover digest s.toReceiver.v s.toReceiver.r s.toReceiver.s)

/-- `recover_ecdsa` gives the address that `ecrecover` gives. -/
def RecoversAlike (P : WormholeParams)
    (ecrecover : Bytes32 → BitVec 8 → Bytes32 → Bytes32 → BitVec 160) : Prop :=
  ∀ digest s address, P.signer digest s = .ok address →
    ecrecover digest s.toReceiver.v s.toReceiver.r s.toReceiver.s = address

section

variable {P : WormholeParams} {ecrecover : Bytes32 → BitVec 8 → Bytes32 → Bytes32 → BitVec 160}
  {digest : Bytes32} {guardianSet : GuardianSet} {quorum : ℕ}

theorem ensure_eq_ok {p : Prop} [Decidable p] {e : WormholeError} {u : Unit} :
    ensure p e = .ok u ↔ p := by
  unfold ensure
  split
  · next hp => exact iff_of_true rfl hp
  · next hp => exact iff_of_false nofun hp

/-- What the loop collects, behind the signatures that it has. -/
theorem collectSignatures_ok {lastSignerId : Option ℕ} {collected signatures result : List VaaSignature}
    (hok : P.collectSignatures guardianSet quorum digest lastSignerId collected signatures
      = .ok result) :
    ∃ kept, result = collected ++ kept ∧ kept.Sublist signatures ∧
      (kept.Pairwise fun a b => a.index < b.index) ∧
      (∀ s ∈ kept, ∀ v ∈ lastSignerId, v < s.index.toNat) ∧
      ∀ s ∈ kept, ∃ address, P.signer digest s = .ok address ∧
        guardianSet.keys[s.index.toNat]? = some address := by
  induction signatures generalizing lastSignerId collected with
  | nil =>
    cases hok
    exact ⟨[], (List.append_nil _).symm, .slnil, .nil, nofun, nofun⟩
  | cons s signatures ih =>
    rw [WormholeParams.collectSignatures] at hok
    split at hok
    · cases hok
      exact ⟨[], (List.append_nil _).symm, List.nil_sublist _, .nil, nofun, nofun⟩
    · obtain ⟨_, -, hok⟩ := except_bind_eq_ok.mp hok
      obtain ⟨_, hsorted, hok⟩ := except_bind_eq_ok.mp hok
      obtain ⟨address, hsigner, hok⟩ := except_bind_eq_ok.mp hok
      obtain ⟨kept, rfl, hsub, hascend, habove, hsigned⟩ := ih hok
      have hlast : ∀ v ∈ lastSignerId, v < s.index.toNat := fun v hv =>
        Nat.not_le.mp fun hle => ensure_eq_ok.mp hsorted ⟨v, hv, hle⟩
      have habove' : ∀ a ∈ kept, s.index.toNat < a.index.toNat := fun a ha => habove a ha _ rfl
      by_cases hkey : guardianSet.keys[s.index.toNat]? = some address
      · rw [if_pos hkey]
        refine ⟨s :: kept, by rw [List.append_assoc]; rfl, hsub.cons_cons s,
          .cons (fun a ha => BitVec.lt_def.mpr (habove' a ha)) hascend, ?_, ?_⟩
        · rintro a (_ | ⟨_, ha⟩) v hv
          · exact hlast v hv
          · exact (hlast v hv).trans (habove' a ha)
        · rintro a (_ | ⟨_, ha⟩)
          · exact ⟨address, hsigner, hkey⟩
          · exact hsigned a ha
      · rw [if_neg hkey]
        exact ⟨kept, rfl, hsub.cons s, hascend,
          fun a ha v hv => (hlast v hv).trans (habove' a ha), hsigned⟩

/-- The receiver's loop accepts exactly signatures that ascend and match. -/
theorem verifySignatures_iff {receiverSet : WormholeReceiver.GuardianSet}
    {signatures : List VaaSignature} :
    (∃ reason, WormholeReceiver.verifySignaturesFrom ecrecover digest receiverSet 0 0
      (signatures.map VaaSignature.toReceiver) = .ok (true, reason)) ↔
      AllSigned ecrecover digest receiverSet.keys signatures := by
  constructor
  · rintro ⟨reason, hvalid⟩
    obtain ⟨hascend, -, hsigned⟩ := WormholeReceiver.verifySignaturesFrom_valid hvalid
    rw [List.pairwise_map] at hascend
    exact ⟨hascend, fun s hs => hsigned _ (List.mem_map_of_mem hs)⟩
  · rintro ⟨hascend, hsigned⟩
    refine ⟨"", WormholeReceiver.verifySignaturesFrom_of_valid ?_ (fun h => absurd rfl h) ?_⟩
    · rw [List.pairwise_map]
      exact hascend
    · intro sig hsig
      obtain ⟨s, hs, rfl⟩ := List.mem_map.mp hsig
      exact hsigned s hs

end

/-! ## The receiver -/

section

variable {P : WormholeParams} {ecrecover : Bytes32 → BitVec 8 → Bytes32 → Bytes32 → BitVec 160}
  {st : WormholeReceiver.State} {timestamp : BitVec 256} {vaa : Vaa}

/-- The VAA that the receiver returns has the emitter, the sequence and the payload. -/
structure SameFields (vaa : Vaa) (vm : WormholeReceiver.VM) : Prop where
  emitterChainId : vm.emitterChainId = vaa.emitterChain
  emitterAddress : vm.emitterAddress = vaa.emitterAddress
  sequence : vm.sequence = vaa.sequence
  payload : vm.payload = vaa.payload

/-- **The bytes of a VAA** are accepted by the receiver when the version is 1, the guardian set is
usable, and enough signatures ascend and all match. -/
theorem parseAndVerifyVM_serialize (h : vaa.signatures.length < 256) {m : Machine}
    {encodedVM : CalldataBytes} (hbytes : encodedVM.bytes m = vaa.serialize) :
    (∃ vm reason, parseAndVerifyVM P.keccak256 ecrecover m st timestamp encodedVM
        = .ok (vm, true, reason) ∧ SameFields vaa vm) ↔
      vaa.version = 1 ∧ Usable st timestamp vaa.guardianSetIndex ∧
        quorumOf (st.guardianSets vaa.guardianSetIndex).keys.length ≤ vaa.signatures.length ∧
        AllSigned ecrecover (P.secp256kHash vaa) (st.guardianSets vaa.guardianSetIndex).keys
          vaa.signatures := by
  have hversion : (field vaa.serialize 0 8 1 : BitVec 8) = vaa.version :=
    congrArg WormholeReceiver.VM.version (vmOf_serialize P.keccak256 h)
  have hlength : bodyStart vaa.serialize + 51 ≤ vaa.serialize.length := by
    have hbody : 51 ≤ (vaa.serialize.drop (bodyStart vaa.serialize)).length := by
      rw [drop_bodyStart h, Vaa.body]
      simp only [List.length_append, length_packed]
      omega
    rw [List.length_drop] at hbody
    omega
  simp only [WormholeReceiver.parseAndVerifyVM_eq_ok, hbytes, vmOf_serialize P.keccak256 h,
    signersLenOf_serialize h, hversion, verifySignatures_iff]
  constructor
  · rintro ⟨_, _, ⟨hone, -, husable, hquorum, hsigned, -, rfl⟩, -⟩
    exact ⟨hone, husable, hquorum, hsigned⟩
  · rintro ⟨hone, husable, hquorum, hsigned⟩
    exact ⟨_, "", ⟨hone, hlength, husable, hquorum, hsigned, rfl, rfl⟩, ⟨rfl, rfl, rfl, rfl⟩⟩

/-- `serde_wormhole` reads a VAA from its bytes only. -/
def ReadsSerialized (P : WormholeParams) : Prop :=
  ∀ bytes vaa, P.fromSlice bytes = some vaa →
    bytes = vaa.serialize ∧ vaa.signatures.length < 256

/-- What `verify_vaa` returns. -/
theorem verifyVaa_ok {guardianSet : GuardianSet} {verified : Vaa}
    (hok : P.verifyVaa guardianSet vaa = .ok verified) :
    ∃ kept, verified = { vaa with signatures := kept } ∧ kept.Sublist vaa.signatures ∧
      quorumOf guardianSet.keys.length ≤ kept.length ∧
      (kept.Pairwise fun a b => a.index < b.index) ∧
      ∀ s ∈ kept, ∃ address, P.signer (P.secp256kHash vaa) s = .ok address ∧
        guardianSet.keys[s.index.toNat]? = some address := by
  obtain ⟨kept, hkept, hok⟩ := except_bind_eq_ok.mp hok
  obtain ⟨_, hquorum, hok⟩ := except_bind_eq_ok.mp hok
  cases hok
  obtain ⟨_, rfl, hsub, hascend, -, hsigned⟩ := collectSignatures_ok hkept
  refine ⟨_, rfl, hsub, ?_, hascend, hsigned⟩
  rw [WormholeReceiver.quorumOf_eq, Quorum.twoThirds, Nat.mul_comm]
  exact Nat.not_lt.mp (ensure_eq_ok.mp hquorum)

/-- The receiver has the guardian set, current or not expired. -/
structure HoldsSet (st : WormholeReceiver.State) (timestamp : BitVec 256) (index : BitVec 32)
    (guardianSet : GuardianSet) : Prop where
  keys : (st.guardianSets index).keys = guardianSet.keys
  unexpired : index = st.guardianSetIndex ∨
    timestamp.toNat ≤ (st.guardianSets index).expirationTime.toNat

theorem HoldsSet.usable {index : BitVec 32} {guardianSet : GuardianSet}
    (h : HoldsSet st timestamp index guardianSet) (hkeys : guardianSet.keys.length ≠ 0) :
    Usable st timestamp index := by
  refine ⟨h.keys ▸ guardianSet.length_lt, h.keys ▸ hkeys, ?_⟩
  rintro ⟨hother, hexpired⟩
  rcases h.unexpired with hcurrent | hlater
  · exact hother hcurrent
  · exact Nat.not_lt.mpr hlater hexpired

/-- A VAA with a quorum is one of a guardian set with keys. -/
theorem keys_ne_nil {guardianSet : GuardianSet} {kept : List VaaSignature}
    (hquorum : quorumOf guardianSet.keys.length ≤ kept.length)
    (hsigned : ∀ s ∈ kept, ∃ address, P.signer (P.secp256kHash vaa) s = .ok address ∧
      guardianSet.keys[s.index.toNat]? = some address) : guardianSet.keys.length ≠ 0 := by
  intro hzero
  cases kept with
  | nil =>
    rw [hzero] at hquorum
    exact absurd hquorum (by decide)
  | cons s kept =>
    obtain ⟨_, -, hkey⟩ := hsigned s List.mem_cons_self
    rw [List.length_eq_zero_iff.mp hzero] at hkey
    cases hkey

/-- The VAA that `verify_vaa` returns has only signatures that the receiver accepts. -/
theorem trimmed_verifies (hrecover : RecoversAlike P ecrecover) {guardianSet : GuardianSet}
    {verified : Vaa} (hok : P.verifyVaa guardianSet vaa = .ok verified) (hversion : vaa.version = 1)
    (hcount : vaa.signatures.length < 256)
    (hheld : HoldsSet st timestamp vaa.guardianSetIndex guardianSet) {m : Machine}
    {encodedVM : CalldataBytes} (hbytes : encodedVM.bytes m = verified.serialize) :
    ∃ vm reason, parseAndVerifyVM P.keccak256 ecrecover m st timestamp encodedVM
      = .ok (vm, true, reason) ∧ SameFields vaa vm := by
  obtain ⟨kept, rfl, hsub, hquorum, hascend, hsigned⟩ := verifyVaa_ok hok
  have hfew : kept.length < 256 := hsub.length_le.trans_lt hcount
  have hall : AllSigned ecrecover (P.secp256kHash vaa)
      (st.guardianSets vaa.guardianSetIndex).keys kept := by
    refine ⟨hascend, fun s hs => ?_⟩
    obtain ⟨address, hsigner, hkey⟩ := hsigned s hs
    rw [hheld.keys, hkey]
    exact congrArg some (hrecover _ _ _ hsigner).symm
  obtain ⟨vm, reason, haccepted, hfields⟩ := (parseAndVerifyVM_serialize hfew hbytes).mpr
    ⟨hversion, hheld.usable (keys_ne_nil hquorum hsigned), hheld.keys ▸ hquorum, hall⟩
  exact ⟨vm, reason, haccepted, ⟨hfields.1, hfields.2, hfields.3, hfields.4⟩⟩

/-- What `process_message` has checked of a VAA that it stores. -/
theorem processMessage_ok {state state' : WormholeState} {vaaBytes handed : Bytes}
    (hok : P.processMessage state vaaBytes = .ok (state', some handed)) :
    ∃ vaa guardianSet verified, P.fromSlice vaaBytes = some vaa ∧
      state.guardianSet vaa.guardianSetIndex = some guardianSet ∧
      P.verifyVaa guardianSet vaa = .ok verified ∧ handed = vaaBytes := by
  obtain ⟨vaa, hobserve, hok⟩ := except_bind_eq_ok.mp hok
  obtain ⟨verified, hverify, hok⟩ := except_bind_eq_ok.mp hok
  have hvaa : P.fromSlice vaaBytes = some vaa := by
    unfold WormholeParams.observe at hobserve
    split at hobserve
    · cases hobserve
    · next vaa' hread =>
      split at hobserve
      · cases hobserve
      · obtain ⟨_, -, hsame⟩ := except_bind_eq_ok.mp hobserve
        cases hsame
        exact hread
  obtain ⟨_, -, hverify⟩ := except_bind_eq_ok.mp hverify
  have hhanded : handed = vaaBytes := by
    unfold storeVaa at hok
    split at hok
    · cases hok
    · cases hok
      rfl
  cases hset : state.guardianSet vaa.guardianSetIndex with
  | none =>
    rw [hset] at hverify
    cases hverify
  | some guardianSet =>
    rw [hset] at hverify
    exact ⟨vaa, guardianSet, verified, hvaa, hset, hverify, hhanded⟩

/-- **Stored VAAs on chain.** A VAA that `process_message` stores is accepted by a receiver with
the same guardian set, with the same fields, exactly when its version is 1 and all of its
signatures ascend and match, also those that Hermes skips or does not reach. -/
theorem stored_verifies_iff (P : WormholeParams)
    (ecrecover : Bytes32 → BitVec 8 → Bytes32 → Bytes32 → BitVec 160) (hwire : ReadsSerialized P)
    (state state' : WormholeState) (vaaBytes handed : Bytes)
    (hok : P.processMessage state vaaBytes = .ok (state', some handed)) (vaa : Vaa)
    (hvaa : P.fromSlice vaaBytes = some vaa) (guardianSet : GuardianSet)
    (hset : state.guardianSet vaa.guardianSetIndex = some guardianSet)
    (st : WormholeReceiver.State) (timestamp : BitVec 256)
    (hheld : HoldsSet st timestamp vaa.guardianSetIndex guardianSet) (m : Machine)
    (encodedVM : CalldataBytes) (hbytes : encodedVM.bytes m = handed) :
    (∃ vm reason, parseAndVerifyVM P.keccak256 ecrecover m st timestamp encodedVM
        = .ok (vm, true, reason) ∧ SameFields vaa vm) ↔
      vaa.version = 1 ∧
        AllSigned ecrecover (P.secp256kHash vaa) guardianSet.keys vaa.signatures := by
  obtain ⟨_, _, verified, hvaa', hset', hverified, rfl⟩ := processMessage_ok hok
  cases hvaa.symm.trans hvaa'
  cases hset.symm.trans hset'
  obtain ⟨hserialized, hcount⟩ := hwire _ _ hvaa
  obtain ⟨kept, -, hsub, hquorum, -, hsigned⟩ := verifyVaa_ok hverified
  rw [parseAndVerifyVM_serialize hcount (hbytes.trans hserialized), hheld.keys]
  constructor
  · rintro ⟨hversion, -, -, hall⟩
    exact ⟨hversion, hall⟩
  · rintro ⟨hversion, hall⟩
    exact ⟨hversion, hheld.usable (keys_ne_nil hquorum hsigned), hquorum.trans hsub.length_le, hall⟩

end

/-! ### Three guardians of four, and a signature too many -/

def exVaaSignatureOf (signature : ExSignature) : VaaSignature where
  index := BitVec.ofNat 8 signature.index
  signature :=
    ⟨wordBytes signature.r ++ wordBytes signature.s ++ bytesBE 1 signature.parity, by
      simp [wordBytes]⟩

/-- `exFirstVaa` as `serde_wormhole` reads it. -/
def exStoredVaa : Vaa where
  version := 1
  guardianSetIndex := 0
  signatures := exFirstVaa.signatures.map exVaaSignatureOf
  timestamp := 1700000001
  nonce := 0
  emitterChain := 26
  emitterAddress := 0xe101faedac5851e32b9b23b5f9411a8c2bac4aae3ed4dd7b811dd1a72ea4aa71
  sequence := 5
  consistencyLevel := 1
  payload := exFirstVaa.body.drop 51

/-- The last signature comes twice. -/
def exSurplusVaa : Vaa :=
  { exStoredVaa with
    signatures := exStoredVaa.signatures ++ exStoredVaa.signatures.drop 2 }

/-- The 65 bytes of the public key. -/
def exPubkey (guardian : ExGuardian) : HashArray 65 :=
  ⟨4 :: (wordBytes guardian.x ++ wordBytes guardian.y), by simp [wordBytes]⟩

def exReceiverParams : WormholeParams where
  fromSlice bytes := [exStoredVaa, exSurplusVaa].find? fun vaa => vaa.serialize = bytes
  keccak256 := ExVaa.hashOf [exFirstVaa]
  recoverEcdsa digest compact recoveryId :=
    (ExVaa.signer [exFirstVaa] digest recoveryId.toNat (BitVec.ofNat 256 (natBE (compact.take 32)))
      (BitVec.ofNat 256 (natBE (compact.drop 32)))).map exPubkey

/-- The guardians of `exQuorumState`. -/
def exQuorumSet : GuardianSet := ⟨(exQuorumState.guardianSets 0).keys, by decide⟩

def exHermesState : WormholeState where
  guardianSet := fun index => if index = 0 then some exQuorumSet else none

/-- The calldata with a VAA. -/
def exVaaCalldata (bytes : Bytes) : Machine where
  calldata := fun a => bytes.getD (a - 68).toNat 0xff
  aroundCopy := fun _ _ => 0xff
  aroundReturned := fun _ => 0xff
  checksSlices := true

def exEncodedVM (bytes : Bytes) : CalldataBytes where
  offset := 68
  length := BitVec.ofNat 256 bytes.length

theorem exReceiverParams_readsSerialized : ReadsSerialized exReceiverParams := by
  intro bytes vaa hread
  have hmem := List.mem_of_find?_eq_some hread
  have hbytes := List.find?_some hread
  refine ⟨(of_decide_eq_true hbytes).symm, ?_⟩
  rcases List.mem_pair.mp hmem with rfl | rfl
  · decide
  · decide

theorem exHoldsSet : HoldsSet exQuorumState 1000 0 exQuorumSet := ⟨rfl, .inl rfl⟩

/-- Three of the four guardians signed it: it is stored, and the receiver accepts it. -/
theorem stored_verifies_example :
    ∃ vm reason, parseAndVerifyVM exReceiverParams.keccak256 (ExVaa.recover [exFirstVaa])
        (exVaaCalldata exFirstVaa.bytes) exQuorumState 1000 (exEncodedVM exFirstVaa.bytes)
          = .ok (vm, true, reason) ∧
      SameFields exStoredVaa vm := by
  have hstored : (exReceiverParams.processMessage exHermesState exFirstVaa.bytes).toOption.map
      Prod.snd = some (some exFirstVaa.bytes) := by
    decide +kernel
  obtain ⟨⟨state', _⟩, hok, rfl⟩ := Option.map_eq_some_iff.mp hstored
  refine (stored_verifies_iff exReceiverParams (ExVaa.recover [exFirstVaa])
    exReceiverParams_readsSerialized exHermesState state' _ _ (except_toOption_eq_some.mp hok)
    exStoredVaa (by decide +kernel) exQuorumSet rfl exQuorumState 1000 exHoldsSet
    (exVaaCalldata exFirstVaa.bytes) (exEncodedVM exFirstVaa.bytes) (by decide +kernel)).mpr
      ⟨rfl, ?_, ?_⟩
  · decide +kernel
  · decide +kernel

/-- Hermes stops at the third signature, and the receiver refuses the fourth one. -/
theorem stored_verifies_fail :
    ((exReceiverParams.processMessage exHermesState exSurplusVaa.serialize).toOption.map Prod.snd
      = some (some exSurplusVaa.serialize)) ∧
    HoldsSet exQuorumState 1000 exSurplusVaa.guardianSetIndex exQuorumSet ∧
    (exEncodedVM exSurplusVaa.serialize).bytes (exVaaCalldata exSurplusVaa.serialize)
      = exSurplusVaa.serialize ∧
    ∀ vm reason, parseAndVerifyVM exReceiverParams.keccak256 (ExVaa.recover [exFirstVaa])
      (exVaaCalldata exSurplusVaa.serialize) exQuorumState 1000
      (exEncodedVM exSurplusVaa.serialize) ≠ .ok (vm, true, reason) := by
  refine ⟨by decide +kernel, exHoldsSet, by decide +kernel, fun vm reason haccepted => ?_⟩
  have hrefused : (parseAndVerifyVM exReceiverParams.keccak256 (ExVaa.recover [exFirstVaa])
      (exVaaCalldata exSurplusVaa.serialize) exQuorumState 1000
      (exEncodedVM exSurplusVaa.serialize)).toOption = none := by
    decide +kernel
  rw [haccepted] at hrefused
  cases hrefused

end PythCrosschain.Hermes
