import PythCrosschain.Lib.Quorum
import PythCrosschain.Ton.Wormhole
import PythCrosschain.WormholeReceiver.Acceptance

/-!
# TON: what a verified VAA is

A message can lay out the bits of a VAA in cells in any way. If TON accepts it then its bits are
those of a byte string, and the values that TON reads are the fields of this string at fixed
offsets (`vmOf`), as on EVM chains. The results are:

- `verifySignatures_ok`: the signatures are of distinct guardians and enough;
- `parseAndVerifyWormholeVm_ok` and `parseEncodedUpgrade_ok`: what an accepted VAA, and an
  accepted upgrade, is.
-/

namespace PythCrosschain.Ton

open Tvm
open WormholeReceiver (bodyStart signersLenOf vmOf keysAt guardianLengthOf IsUpgrade)
open BytesLib (field)

/-! ## Fields of byte strings -/

section

variable {s s' : Slice} {bytes : Bytes}

theorem field_drop (bytes : Bytes) (start offset w k : ℕ) :
    (field (bytes.drop start) offset w k : BitVec w) = field bytes (start + offset) w k := by
  rw [field, field, List.drop_drop]

/-- A field of the first bytes. -/
theorem field_take_drop {start offset w k m : ℕ} (h : offset + k ≤ m) :
    (field ((bytes.drop start).take m) offset w k : BitVec w)
      = field bytes (start + offset) w k := by
  rw [field, field, List.drop_take, List.take_take, List.drop_drop, min_eq_left (by omega)]

theorem loadInt_all {w : ℕ} {v : BitVec w} (h : loadInt w s = .ok (v, s')) :
    w ≤ s.all.length ∧ v = BitVec.ofNat w (natBits (s.all.take w)) ∧ s'.all = s.all.drop w := by
  obtain ⟨hle, rfl, rfl⟩ := loadInt_eq_ok.mp h
  rw [Slice.all, List.take_append_of_le_length hle, List.drop_append_of_le_length hle]
  exact ⟨by rw [List.length_append]; omega, rfl, rfl⟩

/-- A load of whole bytes from whole bytes. -/
theorem loadInt_bytes {w k : ℕ} {v : BitVec w} (hw : w = 8 * k) (hs : s.all = bitsOf bytes)
    (h : loadInt w s = .ok (v, s')) :
    k ≤ bytes.length ∧ v = field bytes 0 w k ∧ s'.all = bitsOf (bytes.drop k) := by
  obtain ⟨hle, rfl, hrest⟩ := loadInt_all h
  rw [hs, hw, length_bitsOf] at hle
  refine ⟨by omega, ?_, ?_⟩
  · rw [hs, field, List.drop_zero, ← natBits_bitsOf, bitsOf_take, hw]
  · rw [hrest, hs, hw, bitsOf_drop]

/-- The same at an offset of a byte string. -/
theorem loadInt_bytesAt {w k start : ℕ} {v : BitVec w} (hw : w = 8 * k)
    (hs : s.all = bitsOf (bytes.drop start)) (h : loadInt w s = .ok (v, s')) :
    k ≤ bytes.length - start ∧ v = field bytes start w k ∧
      s'.all = bitsOf (bytes.drop (start + k)) := by
  obtain ⟨hle, rfl, hrest⟩ := loadInt_bytes hw hs h
  rw [List.length_drop] at hle
  rw [List.drop_drop] at hrest
  exact ⟨hle, field_drop _ _ _ _ _, hrest⟩

theorem gatherBits_bytesAt {missing : Exception} {k start : ℕ} {collected : Bits}
    (hs : s.all = bitsOf (bytes.drop start))
    (h : gatherBits missing (8 * k) s.bits s.refs = .ok (collected, s')) :
    k ≤ bytes.length - start ∧ collected = bitsOf ((bytes.drop start).take k) ∧
      s'.all = bitsOf (bytes.drop (start + k)) := by
  obtain ⟨hle, rfl, hrest⟩ := gatherBits_ok h
  change 8 * k ≤ s.all.length at hle
  change s'.all = s.all.drop (8 * k) at hrest
  rw [hs, length_bitsOf, List.length_drop] at hle
  refine ⟨by omega, ?_, ?_⟩
  · show s.all.take (8 * k) = _
    rw [hs, bitsOf_take]
  · rw [hrest, hs, ← bitsOf_drop, List.drop_drop]

end

/-! ## Signatures -/

/-- A signature, with the recovery id as it is in the VAA. -/
structure Signature where
  guardianIndex : BitVec 8
  r : Bytes32
  s : Bytes32
  v : BitVec 8
deriving DecidableEq

def signatureAt (bytes : Bytes) (start : ℕ) : Signature where
  guardianIndex := field bytes start 8 1
  r := field bytes (start + 1) 256 32
  s := field bytes (start + 33) 256 32
  v := field bytes (start + 65) 8 1

def signaturesAt (bytes : Bytes) (start : ℕ) : ℕ → List Signature
  | 0 => []
  | n + 1 => signatureAt bytes start :: signaturesAt bytes (start + 66) n

section

variable (keccak256 : Bytes → Bytes32)
  (checkSig : Bytes32 → BitVec 8 → Bytes32 → Bytes32 → Option (Bytes32 × Bytes32))

/-- The address of the signer, for recovery ids of either kind. -/
def signer (hash : Bytes32) (sig : Signature) : Option Address :=
  (checkSig hash (if sig.v.toNat ≥ 27 then sig.v - 27 else sig.v) sig.r sig.s).map fun key =>
    pubkeyToEthAddress keccak256 key.1 key.2

/-- The signature is by the guardian that it names. -/
def IsBy (hash : Bytes32) (keys : List Address) (sig : Signature) : Prop :=
  ∃ address ∈ signer keccak256 checkSig hash sig, keys[sig.guardianIndex.toNat]? = some address

instance (hash : Bytes32) (keys : List Address) (sig : Signature) :
    Decidable (IsBy keccak256 checkSig hash keys sig) :=
  inferInstanceAs (Decidable (∃ address ∈ signer keccak256 checkSig hash sig,
    keys[sig.guardianIndex.toNat]? = some address))

/-- The guardians that made one of the signatures. -/
def signers (hash : Bytes32) (keys : List Address) (signatures : List Signature) : Finset ℕ :=
  (Finset.range keys.length).filter fun i =>
    ∃ sig ∈ signatures, sig.guardianIndex.toNat = i ∧ IsBy keccak256 checkSig hash keys sig

end

section

variable {keccak256 : Bytes → Bytes32}
  {checkSig : Bytes32 → BitVec 8 → Bytes32 → Bytes32 → Option (Bytes32 × Bytes32)}
  {hash : Bytes32} {keys : List Address} {bytes : Bytes} {start : ℕ}

@[simp] theorem length_signaturesAt (n : ℕ) : (signaturesAt bytes start n).length = n := by
  induction n generalizing start with
  | zero => rfl
  | succ n ih => rw [signaturesAt, List.length_cons, ih]

/-- The signatures lie within the first bytes. -/
theorem signaturesAt_take {offset n m : ℕ} (h : offset + 66 * n ≤ m) :
    signaturesAt ((bytes.drop start).take m) offset n = signaturesAt bytes (start + offset) n := by
  induction n generalizing offset with
  | zero => rfl
  | succ n ih =>
    rw [signaturesAt, signaturesAt, ih (by omega), signatureAt, signatureAt,
      field_take_drop (by omega), field_take_drop (by omega), field_take_drop (by omega),
      field_take_drop (by omega)]
    rfl

theorem orTypeCheck_eq_ok {α : Type} {o : Option α} {a : α} :
    orTypeCheck o = .ok a ↔ o = some a := by
  cases o with
  | none => exact ⟨nofun, nofun⟩
  | some b => simp only [orTypeCheck, Except.ok.injEq, Option.some.injEq]

/-- One signature that the loop accepts. -/
theorem verifySignature_ok {last : ℤ} {cs cs' : Slice} {guardianIndex : BitVec 8}
    (hcs : cs.all = bitsOf (bytes.drop start))
    (h : verifySignature keccak256 checkSig hash keys last cs = .ok (guardianIndex, cs')) :
    66 ≤ bytes.length - start ∧ guardianIndex = (signatureAt bytes start).guardianIndex ∧
      last < guardianIndex.toNat ∧ IsBy keccak256 checkSig hash keys (signatureAt bytes start) ∧
      cs'.all = bitsOf (bytes.drop (start + 66)) := by
  simp only [verifySignature, except_bind_eq_ok, throwIf_eq_ok, throwUnless_eq_ok,
    orTypeCheck_eq_ok] at h
  obtain ⟨⟨sig, rest⟩, hgather, ⟨index, sig₁⟩, hload₁, _, hlast, ⟨r, sig₂⟩, hload₂, ⟨s, sig₃⟩,
    hload₃, ⟨v, sig₄⟩, hload₄, _, -, ⟨x1, x2⟩, hkey, address, haddress, _, hsame, h⟩ := h
  cases h
  obtain ⟨hlen, rfl, hrest⟩ := @gatherBits_bytesAt _ _ _ _ 66 _ _ hcs hgather
  have hsig : Slice.all ⟨bitsOf ((bytes.drop start).take 66), []⟩
      = bitsOf ((bytes.drop start).take 66) := List.append_nil _
  have hsig₀ : Slice.all ⟨bitsOf ((bytes.drop start).take 66), []⟩
      = bitsOf (((bytes.drop start).take 66).drop 0) := by rw [hsig, List.drop_zero]
  obtain ⟨-, hindex, hsig₁⟩ := @loadInt_bytesAt _ _ _ 8 1 _ _ rfl hsig₀ hload₁
  obtain ⟨-, hr, hsig₂⟩ := @loadInt_bytesAt _ _ _ 256 32 _ _ rfl hsig₁ hload₂
  obtain ⟨-, hs, hsig₃⟩ := @loadInt_bytesAt _ _ _ 256 32 _ _ rfl hsig₂ hload₃
  obtain ⟨-, hv, -⟩ := @loadInt_bytesAt _ _ _ 8 1 _ _ rfl hsig₃ hload₄
  rw [field_take_drop (by omega)] at hindex hr hs hv
  subst hindex
  subst hr
  subst hs
  subst hv
  refine ⟨hlen, rfl, not_le.mp hlast, ?_, hrest⟩
  refine ⟨pubkeyToEthAddress keccak256 x1 x2, ?_, ?_⟩
  · rw [Option.mem_def, signer, Option.map_eq_some_iff]
    exact ⟨(x1, x2), hkey, rfl⟩
  · rw [hsame]
    exact haddress

/-- The signatures ascend from above `last`, and each is by the guardian it names. -/
def AscendFrom (keccak256 : Bytes → Bytes32)
    (checkSig : Bytes32 → BitVec 8 → Bytes32 → Bytes32 → Option (Bytes32 × Bytes32))
    (hash : Bytes32) (keys : List Address) : ℤ → List Signature → Prop
  | _, [] => True
  | last, sig :: signatures => last < sig.guardianIndex.toNat ∧
      IsBy keccak256 checkSig hash keys sig ∧
      AscendFrom keccak256 checkSig hash keys sig.guardianIndex.toNat signatures

theorem verifySignaturesFrom_ok {n valid valid' : ℕ} {last : ℤ} {cs : Slice}
    (hcs : cs.all = bitsOf (bytes.drop start))
    (h : verifySignaturesFrom keccak256 checkSig hash keys n last valid cs = .ok valid') :
    valid' = valid + n ∧
      AscendFrom keccak256 checkSig hash keys last (signaturesAt bytes start n) := by
  induction n generalizing last valid cs start with
  | zero =>
    cases h
    exact ⟨rfl, trivial⟩
  | succ n ih =>
    rw [verifySignaturesFrom] at h
    obtain ⟨⟨guardianIndex, cs'⟩, hsig, h⟩ := except_bind_eq_ok.mp h
    obtain ⟨-, rfl, hlast, hby, hcs'⟩ := verifySignature_ok hcs hsig
    obtain ⟨rfl, hrest⟩ := ih hcs' h
    exact ⟨by ring, hlast, hby, hrest⟩

theorem AscendFrom.mem {last : ℤ} {signatures : List Signature}
    (h : AscendFrom keccak256 checkSig hash keys last signatures) {sig : Signature}
    (hsig : sig ∈ signatures) :
    last < sig.guardianIndex.toNat ∧ IsBy keccak256 checkSig hash keys sig := by
  induction signatures generalizing last with
  | nil => cases hsig
  | cons first signatures ih =>
    obtain ⟨hlast, hby, hrest⟩ := h
    rcases List.mem_cons.mp hsig with rfl | hsig
    · exact ⟨hlast, hby⟩
    · obtain ⟨habove, hby'⟩ := ih hrest hsig
      exact ⟨hlast.trans habove, hby'⟩

theorem AscendFrom.nodup {last : ℤ} {signatures : List Signature}
    (h : AscendFrom keccak256 checkSig hash keys last signatures) :
    (signatures.map fun sig => sig.guardianIndex.toNat).Nodup := by
  induction signatures generalizing last with
  | nil => exact List.nodup_nil
  | cons first signatures ih =>
    obtain ⟨-, -, hrest⟩ := h
    rw [List.map_cons, List.nodup_cons]
    refine ⟨fun hmem => ?_, ih hrest⟩
    obtain ⟨sig, hsig, heq⟩ := List.mem_map.mp hmem
    obtain ⟨habove, -⟩ := hrest.mem hsig
    rw [heq] at habove
    exact lt_irrefl _ habove

/-- Every accepted signature is one of another guardian. -/
theorem AscendFrom.length_le_signers {last : ℤ} {signatures : List Signature}
    (h : AscendFrom keccak256 checkSig hash keys last signatures) :
    signatures.length ≤ (signers keccak256 checkSig hash keys signatures).card := by
  have hcount := Quorum.quorum_of_nodup
    (S := signers keccak256 checkSig hash keys signatures) h.nodup fun i hi => by
      obtain ⟨sig, hsig, rfl⟩ := List.mem_map.mp hi
      obtain ⟨-, hby⟩ := h.mem hsig
      obtain ⟨address, -, hkey⟩ := hby
      obtain ⟨hbound, -⟩ := List.getElem?_eq_some_iff.mp hkey
      exact Finset.mem_filter.mpr ⟨Finset.mem_range.mpr hbound, sig, hsig, rfl, (h.mem hsig).2⟩
  rwa [List.length_map] at hcount

/-- The copy of the signatures is read like the original. -/
theorem verifySignatures_ok {signatures : Cell} {n size : ℕ} {u : Unit}
    (hpacked : Packed ((bitsOf (bytes.drop start)).take (8 * (66 * n))) signatures)
    (h : verifySignatures keccak256 checkSig hash signatures n keys size = .ok u) :
    quorumOf size ≤ n ∧
      AscendFrom keccak256 checkSig hash keys (-1) (signaturesAt bytes start n) := by
  simp only [verifySignatures, except_bind_eq_ok, throwUnless_eq_ok, beginParse_eq_ok] at h
  obtain ⟨cs, hcs, valid, hvalid, hquorum⟩ := h
  have hflatten := hpacked.flatten
  rw [hcs] at hflatten
  have hall : cs.all = bitsOf (((bytes.drop start).take (66 * n)).drop 0) := by
    rw [List.drop_zero, bitsOf_take, ← hflatten, Slice.all, List.flatten_cons]
  obtain ⟨rfl, hascend⟩ := verifySignaturesFrom_ok hall hvalid
  rw [Nat.zero_add] at hquorum
  rw [signaturesAt_take (by omega), Nat.add_zero] at hascend
  exact ⟨hquorum, hascend⟩

end

/-! ## VAAs -/

section

variable (keccak256 : Bytes → Bytes32)
  (checkSig : Bytes32 → BitVec 8 → Bytes32 → Bytes32 → Option (Bytes32 × Bytes32))

/-- What `parse_and_verify_wormhole_vm` checks of the bytes of a VAA. -/
structure Verified (s : WormholeStorage) (now : BitVec 32) (vaa : Bytes) (set : GuardianSet) :
    Prop where
  version : (field vaa 0 8 1 : BitVec 8) = 1
  length : bodyStart vaa + 51 ≤ vaa.length
  stored : s.guardianSets (vmOf keccak256 vaa).guardianSetIndex = some set
  nonempty : set.keys ≠ []
  known : (vmOf keccak256 vaa).guardianSetIndex.toNat ≤ s.currentGuardianSetIndex.toNat
  unexpired : set.expirationTime = 0 ∨ now.toNat < set.expirationTime.toNat
  quorum : quorumOf set.keys.length ≤ signersLenOf vaa
  signatures : AscendFrom keccak256 checkSig (vmOf keccak256 vaa).hash set.keys (-1)
    (signaturesAt vaa 6 (signersLenOf vaa))

/-- The values that are returned for a VAA. -/
structure VM.IsOf (vm : VM) (vaa : Bytes) : Prop where
  emitterChainId : vm.emitterChainId = (vmOf keccak256 vaa).emitterChainId
  emitterAddress : vm.emitterAddress = (vmOf keccak256 vaa).emitterAddress
  sequence : vm.sequence = (vmOf keccak256 vaa).sequence
  hash : vm.hash = (vmOf keccak256 vaa).hash
  payload : vm.payload.all = bitsOf (vmOf keccak256 vaa).payload

end

section

variable {keccak256 : Bytes → Bytes32}
  {checkSig : Bytes32 → BitVec 8 → Bytes32 → Bytes32 → Option (Bytes32 × Bytes32)}
  {s : WormholeStorage} {now : BitVec 32} {data : Slice} {vm : VM}

theorem bodyLength_eq (bits : Bits) (refs : Cell) :
    bodyLength bits refs = (Slice.all ⟨bits, refs⟩).length := by
  induction refs generalizing bits with
  | nil => rw [bodyLength, Slice.all, List.flatten_nil, List.append_nil]
  | cons bits' refs ih =>
    rw [bodyLength, ih]
    simp only [Slice.all, List.flatten_cons, List.length_append]

theorem bodyHash_eq (keccak256 : Bytes → Bytes32) (body : Bytes) :
    keccak256Int keccak256 (keccak256 body) = WormholeReceiver.bodyHash keccak256 body := by
  rw [keccak256Int, bitsBE_eq_bitsOf 32, bytesOf_bitsOf]
  rfl

theorem parseBody_ok {version : BitVec 8} {index : BitVec 32} {hash : Bytes32} {body : Slice}
    {vaa : Bytes} {start : ℕ} (hbody : body.all = bitsOf (vaa.drop start))
    (h : parseBody version index hash body = .ok vm) :
    51 ≤ vaa.length - start ∧ vm.emitterChainId = field vaa (start + 8) 16 2 ∧
      vm.emitterAddress = field vaa (start + 10) 256 32 ∧
      vm.sequence = field vaa (start + 42) 64 8 ∧ vm.hash = hash ∧
      vm.payload.all = bitsOf (vaa.drop (start + 51)) := by
  simp only [parseBody, except_bind_eq_ok] at h
  obtain ⟨⟨v₁, s₁⟩, hload₁, ⟨v₂, s₂⟩, hload₂, ⟨v₃, s₃⟩, hload₃, ⟨v₄, s₄⟩, hload₄, ⟨v₅, s₅⟩,
    hload₅, ⟨v₆, s₆⟩, hload₆, h⟩ := h
  cases h
  obtain ⟨-, -, hs₁⟩ := @loadInt_bytesAt _ _ _ 32 4 _ _ rfl hbody hload₁
  obtain ⟨-, -, hs₂⟩ := @loadInt_bytesAt _ _ _ 32 4 _ _ rfl hs₁ hload₂
  obtain ⟨-, hv₃, hs₃⟩ := @loadInt_bytesAt _ _ _ 16 2 _ _ rfl hs₂ hload₃
  obtain ⟨-, hv₄, hs₄⟩ := @loadInt_bytesAt _ _ _ 256 32 _ _ rfl hs₃ hload₄
  obtain ⟨-, hv₅, hs₅⟩ := @loadInt_bytesAt _ _ _ 64 8 _ _ rfl hs₄ hload₅
  obtain ⟨hlen, -, hs₆⟩ := @loadInt_bytesAt _ _ _ 8 1 _ _ rfl hs₅ hload₆
  exact ⟨by omega, hv₃, hv₄, hv₅, rfl, hs₆⟩

theorem parseAndVerifyWormholeVm_ok
    (h : parseAndVerifyWormholeVm keccak256 checkSig s now data = .ok vm) :
    ∃ vaa set, data.all = bitsOf vaa ∧ Verified keccak256 checkSig s now vaa set ∧
      vm.IsOf keccak256 vaa := by
  simp only [parseAndVerifyWormholeVm, except_bind_eq_ok, throwUnless_eq_ok, throwIf_eq_ok] at h
  obtain ⟨⟨version, s₁⟩, hload₁, _, hversion, ⟨index, s₂⟩, hload₂, set, hset, _, hkeys, _, husable,
    ⟨signersLength, s₃⟩, hload₃, bodySlice, hbody, bodyDigest, hdigest, _, hsignatures,
    hfields⟩ := h
  simp only at hbody hsignatures hversion hload₂ hload₃ hset husable hfields
  -- the body has whole bytes, and what comes before it too
  have hrest := all_readAndStoreLargeData s₃ (signersLength.toNat * 66 * 8)
  have hcopy := @readAndStoreLargeData_packed
    (readAndStoreLargeData s₃ (signersLength.toNat * 66 * 8)).2 _ le_rfl
  rw [beginParse_eq_ok, bodyLength_eq] at hbody
  change (readAndStoreLargeData _ (Slice.all _).length).1 = _ at hbody
  change Packed _ (readAndStoreLargeData _ (Slice.all _).length).1 at hcopy
  rw [hbody, List.take_length] at hcopy
  have hbodyAll : bodySlice.all = s₃.all.drop (signersLength.toNat * 66 * 8) := by
    rw [← hrest, ← hcopy.flatten, Slice.all, List.flatten_cons]
  obtain ⟨-, hwhole, hbodyHash⟩ := keccak256Slice_eq_ok.mp hdigest
  obtain ⟨hle₁, -, hall₁⟩ := loadInt_all hload₁
  obtain ⟨hle₂, -, hall₂⟩ := loadInt_all hload₂
  obtain ⟨hle₃, -, hall₃⟩ := loadInt_all hload₃
  have hpos : bodySlice.all ≠ [] := by
    intro hnil
    have hcell := hcopy.eq_nil_iff.mpr (by rw [← hcopy.flatten, List.flatten_cons]; exact hnil)
    cases hcell
  have hlong : signersLength.toNat * 66 * 8 < s₃.all.length := by
    by_contra hshort
    rw [hbodyAll, List.drop_of_length_le (not_lt.mp hshort)] at hpos
    exact hpos rfl
  have hdata : data.all.length % 8 = 0 := by
    have hlen₁ : s₁.all.length = data.all.length - 8 := by rw [hall₁, List.length_drop]
    have hlen₂ : s₂.all.length = s₁.all.length - 32 := by rw [hall₂, List.length_drop]
    have hlen₃ : s₃.all.length = s₂.all.length - 8 := by rw [hall₃, List.length_drop]
    rw [hbodyAll, List.length_drop] at hwhole
    omega
  have hvaa : data.all = bitsOf ((bytesOf data.all).drop 0) := by
    rw [List.drop_zero, bitsOf_bytesOf hdata]
  generalize bytesOf data.all = vaa at hvaa
  obtain ⟨-, rfl, hs₁⟩ := @loadInt_bytesAt _ _ _ 8 1 _ _ rfl hvaa hload₁
  obtain ⟨-, rfl, hs₂⟩ := @loadInt_bytesAt _ _ _ 32 4 _ _ rfl hs₁ hload₂
  obtain ⟨-, rfl, hs₃⟩ := @loadInt_bytesAt _ _ _ 8 1 _ _ rfl hs₂ hload₃
  have hsize : (field vaa (0 + 1 + 4) 8 1 : BitVec 8).toNat * 66 * 8
      = 8 * (66 * signersLenOf vaa) := by
    rw [signersLenOf]
    ring
  rw [hsize] at hbodyAll hlong hsignatures
  have hstart : bodySlice.all = bitsOf (vaa.drop (bodyStart vaa)) := by
    rw [hbodyAll, hs₃, ← bitsOf_drop, List.drop_drop]
    rfl
  obtain ⟨hend, hchain, haddress, hsequence, hvmHash, hpayload⟩ := parseBody_ok hstart hfields
  have hstored : s.guardianSets (vmOf keccak256 vaa).guardianSetIndex = some set := by
    unfold getGuardianSetInternal at hset
    split at hset
    · next set' hfound =>
      cases hset
      exact hfound
    · cases hset
  have hhash : keccak256Int keccak256 bodyDigest = (vmOf keccak256 vaa).hash := by
    rw [← hbodyHash, hstart, bytesOf_bitsOf, bodyHash_eq]
    rfl
  have hpackedSignatures := readAndStoreLargeData_packed hlong.le
  rw [hs₃] at hpackedSignatures
  obtain ⟨hquorum, hascend⟩ := verifySignatures_ok hpackedSignatures hsignatures
  refine ⟨vaa, set, by rw [hvaa, List.drop_zero],
    ⟨hversion, by omega, hstored, hkeys, husable.1, husable.2, hquorum, hhash ▸ hascend⟩,
    ⟨hchain, haddress, hsequence, hvmHash.trans hhash, hpayload⟩⟩

/-! ## Upgrades -/

theorem parseKeys_ok {payload payload' : Slice} {p : Bytes} {start n : ℕ}
    {keys keys' : List Address} (hp : payload.all = bitsOf (p.drop start))
    (h : parseKeys n payload keys = .ok (keys', payload')) :
    keys' = keys ++ keysAt p start n ∧ payload'.all = bitsOf (p.drop (start + 20 * n)) ∧
      20 * n ≤ p.length - start := by
  induction n generalizing payload keys start with
  | zero =>
    cases h
    exact ⟨(List.append_nil _).symm, hp, Nat.zero_le _⟩
  | succ n ih =>
    rw [parseKeys] at h
    obtain ⟨⟨key, rest⟩, hgather, h⟩ := except_bind_eq_ok.mp h
    obtain ⟨hlen, rfl, hrest⟩ := @gatherBits_bytesAt _ _ _ _ 20 _ _ hp hgather
    obtain ⟨rfl, hpayload, hlen'⟩ := ih hrest h
    refine ⟨?_, ?_, by omega⟩
    · rw [keysAt, natBits_bitsOf, List.append_assoc, List.singleton_append]
      rfl
    · rw [hpayload]
      congr 2
      ring

theorem parseEncodedUpgrade_ok {current : BitVec 32} {payload : Slice} {p : Bytes}
    {upgrade : Upgrade} (hp : payload.all = bitsOf p)
    (h : parseEncodedUpgrade current payload = .ok upgrade) :
    IsUpgrade p current ∧ upgrade.newGuardianSetKeys = keysAt p 40 (guardianLengthOf p) ∧
      upgrade.newGuardianSetIndex = field p 35 32 4 := by
  simp only [parseEncodedUpgrade, except_bind_eq_ok, throwUnless_eq_ok] at h
  obtain ⟨⟨core, s₁⟩, hload₁, _, hcore, ⟨action, s₂⟩, hload₂, _, haction, ⟨chain, s₃⟩, hload₃,
    ⟨index, s₄⟩, hload₄, _, hindex, ⟨length, s₅⟩, hload₅, _, hlength, ⟨keys, s₆⟩, hkeys, _, -, _,
    hempty, h⟩ := h
  cases h
  have hp₀ : payload.all = bitsOf (p.drop 0) := hp
  obtain ⟨-, rfl, hs₁⟩ := @loadInt_bytesAt _ _ _ 256 32 _ _ rfl hp₀ hload₁
  obtain ⟨-, rfl, hs₂⟩ := @loadInt_bytesAt _ _ _ 8 1 _ _ rfl hs₁ hload₂
  obtain ⟨-, rfl, hs₃⟩ := @loadInt_bytesAt _ _ _ 16 2 _ _ rfl hs₂ hload₃
  obtain ⟨-, rfl, hs₄⟩ := @loadInt_bytesAt _ _ _ 32 4 _ _ rfl hs₃ hload₄
  obtain ⟨hle, rfl, hs₅⟩ := @loadInt_bytesAt _ _ _ 8 1 _ _ rfl hs₄ hload₅
  obtain ⟨rfl, hs₆, hlen⟩ := parseKeys_ok hs₅ hkeys
  obtain ⟨hbits, hrefs⟩ := hempty
  have hend : (p.drop (0 + 32 + 1 + 2 + 4 + 1 + 20 * guardianLengthOf p)).length = 0 := by
    have hnil : s₆.all = [] := by
      rw [Slice.all, show s₆.bits = [] from hbits, show s₆.refs = [] from hrefs]
      rfl
    have hlength := congrArg List.length (hs₆.symm.trans hnil)
    rw [length_bitsOf, List.length_nil] at hlength
    exact (Nat.mul_eq_zero.mp hlength).resolve_left (by decide)
  rw [List.length_drop] at hend
  have hlen' : 20 * guardianLengthOf p ≤ p.length - 40 := hlen
  exact ⟨⟨hcore, haction, hindex, hlength, by omega⟩, rfl, rfl⟩

end

end PythCrosschain.Ton
