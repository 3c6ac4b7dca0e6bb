import PythCrosschain.Lib.Quorum
import PythCrosschain.WormholeReceiver.Agreement

/-!
# Quorum of an accepted VAA

Both paths accept a VAA only with enough signatures of the guardian set that it
names. The indices of the signatures ascend, so every signature is one of another
guardian. The results are:

- `verifySignaturesFrom_valid`: what the loop over the signatures establishes;
- `quorumOf_eq`: the fixed point formula is two thirds and one;
- `accepted_quorum`: more than two thirds of the guardians signed an accepted VAA,
  and any two VAAs of the same guardians share more than a third of them.
-/

namespace PythCrosschain.WormholeReceiver

open Quorum

section

variable (keccak256 : Bytes → Bytes32) (ecrecover : Bytes32 → Uint8 → Bytes32 → Bytes32 → Address)

/-- The VAA with this guardian set, hash and signatures is accepted, on either path. -/
inductive Accepted (st : State) (timestamp : Uint256) :
    Uint32 → Bytes32 → List Signature → Prop
  | parseAndVerifyVM (m : Machine) (encodedVM : CalldataBytes) (vm : VM) (reason : String) :
      parseAndVerifyVM keccak256 ecrecover m st timestamp encodedVM = .ok (vm, true, reason) →
      Accepted st timestamp vm.guardianSetIndex vm.hash
        (signaturesAt (encodedVM.bytes m) 6 (signersLenOf (encodedVM.bytes m)))
  | verifyVM (vm : VM) (reason : String) :
      verifyVM ecrecover st timestamp vm = .ok (true, reason) →
      Accepted st timestamp vm.guardianSetIndex vm.hash vm.signatures

/-- Guardian `i` made one of the signatures. -/
def Signs (hash : Bytes32) (keys : List Address) (signatures : List Signature) (i : Nat) : Prop :=
  ∃ sig ∈ signatures, sig.guardianIndex.toNat = i ∧
    keys[i]? = some (ecrecover hash sig.v sig.r sig.s)

instance (hash : Bytes32) (keys : List Address) (signatures : List Signature) :
    DecidablePred (Signs ecrecover hash keys signatures) :=
  fun i => inferInstanceAs (Decidable (∃ sig ∈ signatures, sig.guardianIndex.toNat = i ∧
    keys[i]? = some (ecrecover hash sig.v sig.r sig.s)))

/-- The guardians that made one of the signatures. -/
def signers (hash : Bytes32) (keys : List Address) (signatures : List Signature) : Finset Nat :=
  (Finset.range keys.length).filter (Signs ecrecover hash keys signatures)

end

variable {keccak256 : Bytes → Bytes32} {ecrecover : Bytes32 → Uint8 → Bytes32 → Bytes32 → Address}

/-- The fixed point formula with one decimal rounds as it should. -/
theorem quorumOf_eq (n : Nat) : quorumOf n = twoThirds n := by
  unfold quorumOf twoThirds
  omega

theorem keyAt_eq_ok {guardianSet : GuardianSet} {guardianIndex : Uint8} {key : Address} :
    guardianSet.keyAt guardianIndex = .ok key ↔
      guardianSet.keys[guardianIndex.toNat]? = some key := by
  unfold GuardianSet.keyAt
  split
  · next missing => simp [missing]
  · next key' found => simp [found]

/-- The signatures that the loop accepts ascend, and each is of the guardian it names. -/
theorem verifySignaturesFrom_valid {hash : Bytes32} {guardianSet : GuardianSet} {i : Nat}
    {lastIndex : Uint8} {signatures : List Signature} {reason : String}
    (valid : verifySignaturesFrom ecrecover hash guardianSet i lastIndex signatures
      = .ok (true, reason)) :
    (signatures.Pairwise fun a b => a.guardianIndex < b.guardianIndex) ∧
      (i ≠ 0 → ∀ sig ∈ signatures, lastIndex < sig.guardianIndex) ∧
      ∀ sig ∈ signatures, guardianSet.keys[sig.guardianIndex.toNat]?
        = some (ecrecover hash sig.v sig.r sig.s) := by
  induction signatures generalizing i lastIndex with
  | nil => exact ⟨List.Pairwise.nil, fun _ _ none => absurd none List.not_mem_nil,
      fun _ none => absurd none List.not_mem_nil⟩
  | cons sig signatures ih =>
    obtain ⟨key, found, ascends, signer, rest⟩ := verifySignaturesFrom_cons.mp valid
    -- the counter of the rest is not zero, so its indices are above that of `sig`
    obtain ⟨pairwise, above, valid⟩ := ih rest
    replace above := above (Nat.succ_ne_zero i)
    refine ⟨List.pairwise_cons.mpr ⟨above, pairwise⟩, fun later => ?_, ?_⟩
    · have first : lastIndex < sig.guardianIndex := by
        rw [not_and] at ascends
        exact BitVec.not_le.mp (ascends later)
      rintro other (_ | ⟨_, listed⟩)
      · exact first
      · exact BitVec.lt_trans first (above other listed)
    · rintro other (_ | ⟨_, listed⟩)
      · rw [signer]
        exact keyAt_eq_ok.mp found
      · exact valid other listed

/-- The loop accepts signatures that ascend and are of the guardians they name. -/
theorem verifySignaturesFrom_of_valid {hash : Bytes32} {guardianSet : GuardianSet} {i : Nat}
    {lastIndex : Uint8} {signatures : List Signature}
    (ascend : signatures.Pairwise fun a b => a.guardianIndex < b.guardianIndex)
    (above : i ≠ 0 → ∀ sig ∈ signatures, lastIndex < sig.guardianIndex)
    (valid : ∀ sig ∈ signatures, guardianSet.keys[sig.guardianIndex.toNat]?
      = some (ecrecover hash sig.v sig.r sig.s)) :
    verifySignaturesFrom ecrecover hash guardianSet i lastIndex signatures = .ok (true, "") := by
  induction signatures generalizing i lastIndex with
  | nil => rfl
  | cons sig signatures ih =>
    obtain ⟨first, rest⟩ := List.pairwise_cons.mp ascend
    refine verifySignaturesFrom_cons.mpr ⟨_, keyAt_eq_ok.mpr (valid sig List.mem_cons_self), ?_,
      rfl, ih rest (fun _ => first) fun other listed => valid other (List.mem_cons_of_mem _ listed)⟩
    rintro ⟨later, below⟩
    exact BitVec.not_le.mpr (above later sig List.mem_cons_self) below

/-- Every signature that the loop accepts is one of another guardian. -/
theorem length_le_signers {hash : Bytes32} {guardianSet : GuardianSet}
    {signatures : List Signature} {reason : String}
    (valid : verifySignaturesFrom ecrecover hash guardianSet 0 0 signatures = .ok (true, reason)) :
    signatures.length ≤ (signers ecrecover hash guardianSet.keys signatures).card := by
  obtain ⟨pairwise, _, keys⟩ := verifySignaturesFrom_valid valid
  have distinct : (signatures.map fun sig => sig.guardianIndex.toNat).Nodup := by
    rw [List.Nodup, List.pairwise_map]
    exact pairwise.imp fun below => Nat.ne_of_lt below
  have inside : ∀ i ∈ signatures.map (fun sig => sig.guardianIndex.toNat),
      i ∈ signers ecrecover hash guardianSet.keys signatures := by
    intro i listed
    obtain ⟨sig, member, rfl⟩ := List.mem_map.mp listed
    have key := keys sig member
    obtain ⟨bound, _⟩ := List.getElem?_eq_some_iff.mp key
    exact Finset.mem_filter.mpr ⟨Finset.mem_range.mpr bound, sig, member, rfl, key⟩
  have count := quorum_of_nodup distinct inside
  rwa [List.length_map] at count

variable {st : State} {timestamp : Uint256} {index : Uint32} {hash : Bytes32}
  {signatures : List Signature}

/-- What both paths check of an accepted VAA. -/
theorem Accepted.checks
    (accepted : Accepted keccak256 ecrecover st timestamp index hash signatures) :
    Usable st timestamp index ∧
      quorumOf (st.guardianSets index).keys.length ≤ signatures.length ∧
      ∃ reason, verifySignaturesFrom ecrecover hash (st.guardianSets index) 0 0 signatures
        = .ok (true, reason) := by
  cases accepted with
  | parseAndVerifyVM m encodedVM vm reason valid =>
    obtain ⟨_, _, usable, quorum, verified, _, rfl⟩ := parseAndVerifyVM_eq_ok.mp valid
    refine ⟨usable, ?_, verified⟩
    rw [length_signaturesAt]
    exact quorum
  | verifyVM vm reason valid =>
    obtain ⟨usable, quorum, verified, _⟩ := verifyVM_eq_ok.mp valid
    exact ⟨usable, quorum, verified⟩

/-- Two thirds of the guardians and one signed an accepted VAA. -/
theorem Accepted.twoThirds_le
    (accepted : Accepted keccak256 ecrecover st timestamp index hash signatures) :
    twoThirds (st.guardianSets index).keys.length ≤
      (signers ecrecover hash (st.guardianSets index).keys signatures).card := by
  obtain ⟨_, quorum, _, verified⟩ := accepted.checks
  rw [← quorumOf_eq]
  exact quorum.trans (length_le_signers verified)

/-- **Quorum.** For every state, a VAA that is accepted on either path has the
signatures of at least `2 * n / 3 + 1` of the `n` guardians in the set that it names,
and that set is not empty and is current or not expired. Two VAAs that are accepted
under the same guardians, in whatever states, share more than a third of them. -/
theorem accepted_quorum
    (accepted : Accepted keccak256 ecrecover st timestamp index hash signatures) :
    let keys := (st.guardianSets index).keys
    2 * keys.length / 3 + 1 ≤ (signers ecrecover hash keys signatures).card ∧
      keys ≠ [] ∧
      (index = st.guardianSetIndex ∨
        timestamp.toNat ≤ (st.guardianSets index).expirationTime.toNat) ∧
      ∀ (st' : State) (timestamp' : Uint256) (index' : Uint32) (hash' : Bytes32)
        (signatures' : List Signature),
        Accepted keccak256 ecrecover st' timestamp' index' hash' signatures' →
        (st'.guardianSets index').keys = keys →
        2 * (2 * keys.length / 3 + 1) - keys.length ≤
          (signers ecrecover hash keys signatures ∩
            signers ecrecover hash' keys signatures').card ∧
        keys.length < 3 * (2 * (2 * keys.length / 3 + 1) - keys.length) := by
  intro keys
  obtain ⟨⟨_, nonempty, current⟩, _, _⟩ := accepted.checks
  have enough := accepted.twoThirds_le
  refine ⟨enough, fun empty => nonempty (by rw [← List.length_eq_zero_iff] at empty; exact empty),
    ?_, ?_⟩
  · by_cases named : index = st.guardianSetIndex
    · exact Or.inl named
    · exact Or.inr (Nat.le_of_not_lt fun expired => current ⟨named, expired⟩)
  · intro st' timestamp' index' hash' signatures' accepted' same
    have enough' := accepted'.twoThirds_le
    rw [same] at enough'
    have overlap := card_inter_ge (Finset.filter_subset _ _) (Finset.filter_subset _ _)
      enough enough'
    rw [Finset.card_range] at overlap
    exact ⟨overlap, third_lt_overlap keys.length⟩

/-! ### Two VAAs of four guardians -/

/-- The public key of a guardian, and its hash. -/
structure ExGuardian where
  x : Bytes32
  y : Bytes32
  hash : Bytes32

def ExGuardian.address (g : ExGuardian) : Address := g.hash.setWidth 160

/-- A signature at an index of the guardian set. -/
structure ExSignature where
  index : ℕ
  guardian : ExGuardian
  r : Bytes32
  s : Bytes32
  parity : ℕ

/-- A signed body, with the hash of the body and the hash of that, which is signed. -/
structure ExVaa where
  guardianSetIndex : ℕ
  body : Bytes
  digest : Bytes32
  hash : Bytes32
  signatures : List ExSignature

namespace ExVaa

def bytes (vaa : ExVaa) : Bytes :=
  [1] ++ bytesBE 4 vaa.guardianSetIndex ++ bytesBE 1 vaa.signatures.length
    ++ vaa.signatures.flatMap (fun signature => bytesBE 1 signature.index
      ++ wordBytes signature.r ++ wordBytes signature.s ++ bytesBE 1 signature.parity)
    ++ vaa.body

/-- What is hashed to verify a VAA, with Keccak-256 of it. -/
def hashes (vaa : ExVaa) : List (Bytes × Bytes32) :=
  (vaa.body, vaa.digest) :: (wordBytes vaa.digest, vaa.hash) ::
    vaa.signatures.map fun signature =>
      (wordBytes signature.guardian.x ++ wordBytes signature.guardian.y, signature.guardian.hash)

variable (vaas : List ExVaa)

/-- Keccak-256. -/
def hashOf (bytes : Bytes) : Bytes32 :=
  ((vaas.flatMap hashes).find? fun entry => entry.1 = bytes).elim 0 Prod.snd

/-- The guardian whose signature it is. -/
def signer (hash : Bytes32) (parity : ℕ) (r s : Bytes32) : Option ExGuardian :=
  vaas.findSome? fun vaa =>
    if vaa.hash = hash then
      (vaa.signatures.find? fun signature =>
        (signature.parity, signature.r, signature.s) = (parity, r, s)).map ExSignature.guardian
    else none

/-- `ecrecover`. -/
def recover (hash : Bytes32) (v : Uint8) (r s : Bytes32) : Address :=
  if v = 27 ∨ v = 28 then (signer vaas hash (v.toNat - 27) r s).elim 0 ExGuardian.address else 0

end ExVaa

def exGuardian0 : ExGuardian where
  x := 0xe76aab90c7c667e775a1996d5704d7e02983c11a6ca03f472f1b83fd48c989cd
  y := 0x7dbf41775c77324925577cc0fccf6bbf43c2fa6e7db42dffb50de3d603f37d6a
  hash := 0xaf2682a872dc8d469ab1f8640b3aa6f7e5be55e7012a8677779b41487b424f70

def exGuardian1 : ExGuardian where
  x := 0xaf497e622b580acc7e8d961bc7fa69aad88774ea39c838ff5411ac87746eb0d0
  y := 0xb157c9e9b6f94d4b58313c7c59c975760b4c640e78d9e466e1a2255359d6e092
  hash := 0xaeaf4506f0fc82068f68a77609f1e981ac9c32d3e88819b0ce091dc27f9cf857

def exGuardian2 : ExGuardian where
  x := 0x169f04b8a0f6c552666fbccf9a73184bb0e2a1fbeb66ee56ca2c3271f9398803
  y := 0xcad67262f0987f9ea085771868683b53944d421a081a73cce357275b47f3629f
  hash := 0x4c8e49fb09ad736134675a4b62ba14f9bbae5af1fe4b4ca4339d9ee332750e3f

def exGuardian3 : ExGuardian where
  x := 0xbcb747c6ce73688d800755ac8715198ca92e7d2f0a828e083e254078c8c652e6
  y := 0x4f15534685ba90ec89362c8c276df81c7e6a2db9f2f2620d7596d9962171d2fc
  hash := 0x7ffda5c7babbcb7354c364cfcba5f0869e31c9ed49bc89495a396f0f6bb88b11

def exGuardian4 : ExGuardian where
  x := 0x10a8e13cb502346e709da19444ffa7584377fd6c68f8a8c3689edef46deac332
  y := 0x523d15524394b64c932added00b6a0f9452b2c5cf8fee12e176a10a1dabbd7ba
  hash := 0x1989cce3b2afc0bb4b8edc6b646ceeba90f6386bcf03717b6c9622ff36384b06

def exGuardian5 : ExGuardian where
  x := 0xe9eda224afb46e3365467666402c1476abe4f8feacc4a93a5fd86063ee4905f7
  y := 0x248841dd6c637bdc898d428df79d93799e32f80760aa14619839d25e98500c40
  hash := 0x3ad0b8ff88a4782523fe337536a55a4bc9d4f901e75e7bb9579cc6363537a12f

/-- The body of a VAA with a root of prices. -/
def exPriceBody (sequence slot : ℕ) : Bytes :=
  bytesBE 4 1700000001 ++ bytesBE 4 0 ++ bytesBE 2 26
    ++ bytesBE 32 0xe101faedac5851e32b9b23b5f9411a8c2bac4aae3ed4dd7b811dd1a72ea4aa71
    ++ bytesBE 8 sequence ++ [1]
    ++ ([0x41, 0x55, 0x57, 0x56, 0] ++ bytesBE 8 slot ++ bytesBE 4 10000
      ++ (List.range 20).map UInt8.ofNat)

/-- The first three guardians signed it. -/
def exFirstVaa : ExVaa where
  guardianSetIndex := 0
  body := exPriceBody 5 100
  digest := 0x9b329ef3f71b82fdf783adda92df5bd33dd426c7a9eb4b8d74baea6a9d8045c0
  hash := 0x5292e247d2a25b9ef5a5de934b4b5ae701ce991c7359a745ae6f9c0b214feadc
  signatures := [
    ⟨0, exGuardian0, 0x1dd99ca817d4209747bd8b00de32cfb1d957610843b95feae409f540b12daa64,
      0x5057bc4584dcdd84e2b5b9f5746ffe61d6fb5a88f18eb22638399b326fd9a897, 1⟩,
    ⟨1, exGuardian1, 0x3e72736c33a1ff585cc306baa02ff2fc45a0642d90d9526c3f31ff211a8fb55a,
      0x2f58aa8252afea0f2083bef0d9a040d7836fb708f9901b7773a62a625bd3c924, 1⟩,
    ⟨2, exGuardian2, 0x66231ef96e1014d329b3627f2f83788ad57caa8975328f3ff3023a19031f5a7c,
      0x74cd0f24f2bd636f4484e55f3f734c3800e44cc8b5bba21dba38a2b55b45954b, 1⟩]

/-- The last three guardians signed it. -/
def exSecondVaa : ExVaa where
  guardianSetIndex := 0
  body := exPriceBody 6 101
  digest := 0xb10a8b4f11830838a163e1683f930ef18a47cedcbbe9978e898f449b6d1a6733
  hash := 0x4018edea3c49e686e3fcfb644a6c7f65c2a078207b204ca1fdbad4a3efeab299
  signatures := [
    ⟨1, exGuardian1, 0xe80d7a9d29d33d41c1ffe53c9078330b36e2db84e44a5d2b445739af1203bb1c,
      0x439d4f3a2fabec04b49eade8ef5e3ba651924c9c089bd22b42f0d4d8aa2f41a1, 0⟩,
    ⟨2, exGuardian2, 0xb7aa1c7c6f5f9ce39a24830fceb7f55237581ab0bbaf0d34e5d6ba73f5e1a0a6,
      0x30a99271830a64f8f0b1dc4ff8d1e9c1f87695b70731d545c7cbb7d3ed306f6b, 1⟩,
    ⟨3, exGuardian3, 0x9814334b8340ced9926c3aba7c48b51ebebc167099956f900daf13e2363a19f6,
      0x627067737d97b4331a898cc57a5528f5794383e7b5ccafaaa962b6aeaecae8e5, 1⟩]

def exVaas : List ExVaa := [exFirstVaa, exSecondVaa]

/-- Guardian set 0 has four guardians. -/
def exQuorumState : State where
  guardianSets := fun index => if index = 0 then
    { keys := [exGuardian0, exGuardian1, exGuardian2, exGuardian3].map ExGuardian.address } else {}
  guardianSetIndex := 0

/-- A VAA of the example is accepted by `verifyVM`. -/
theorem exVaas_accepted (vaa : ExVaa) (hvaa : vaa = exFirstVaa ∨ vaa = exSecondVaa) :
    Accepted (ExVaa.hashOf exVaas) (ExVaa.recover exVaas) exQuorumState 1000
      (vmOf (ExVaa.hashOf exVaas) vaa.bytes).guardianSetIndex
      (vmOf (ExVaa.hashOf exVaas) vaa.bytes).hash
      (vmOf (ExVaa.hashOf exVaas) vaa.bytes).signatures := by
  refine .verifyVM _ "" (toOption_eq_some.mp ?_)
  rcases hvaa with rfl | rfl
  · decide +kernel
  · decide +kernel

/-- Three of the four guardians signed the first VAA, and two of them the second one too. -/
theorem accepted_quorum_exVaas :
    let keys := (exQuorumState.guardianSets 0).keys
    let first := vmOf (ExVaa.hashOf exVaas) exFirstVaa.bytes
    let second := vmOf (ExVaa.hashOf exVaas) exSecondVaa.bytes
    3 ≤ (signers (ExVaa.recover exVaas) first.hash keys first.signatures).card ∧
      2 ≤ (signers (ExVaa.recover exVaas) first.hash keys first.signatures ∩
        signers (ExVaa.recover exVaas) second.hash keys second.signatures).card := by
  have hindex (vaa : ExVaa) (hvaa : vaa = exFirstVaa ∨ vaa = exSecondVaa) :
      (vmOf (ExVaa.hashOf exVaas) vaa.bytes).guardianSetIndex = 0 := by
    rcases hvaa with rfl | rfl
    · decide +kernel
    · decide +kernel
  have hfirst := exVaas_accepted exFirstVaa (.inl rfl)
  have hsecond := exVaas_accepted exSecondVaa (.inr rfl)
  rw [hindex _ (.inl rfl)] at hfirst
  rw [hindex _ (.inr rfl)] at hsecond
  obtain ⟨hquorum, -, -, hshared⟩ := accepted_quorum hfirst
  exact ⟨hquorum, (hshared _ _ _ _ _ hsecond rfl).1⟩

end PythCrosschain.WormholeReceiver
