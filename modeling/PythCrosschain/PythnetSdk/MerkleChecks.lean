import PythCrosschain.Starknet.MerkleTree
import PythCrosschain.Sui.MerkleTree
import PythCrosschain.Ton.MerkleTree

/-!
# One proof, four checks

The SDK checks a path, the contracts on Sui, Starknet and TON read it from a length byte and the
siblings behind it. `EncodedProof` is a message and a proof in the form that each of them is
given. Sui and Starknet agree with the SDK on every proof (`suiAccepts_iff`,
`starknetAccepts_iff`). TON refuses an empty message, and a message that does not fit into a
cell behind the prefix (`tonAccepts_iff`), so that all agree exactly on messages of 1 to 126
bytes and on proofs that no one accepts.
-/

namespace PythCrosschain.PythnetSdk

open Pyth (siblingDigest climbPath_eq_iff_check)

/-- The length byte, the siblings and what comes behind the proof. -/
def proofBytes (path : MerklePath 20) (rest : Bytes) : Bytes :=
  UInt8.ofNat path.length :: (path.flatMap Subtype.val ++ rest)

/-- A message and a proof as the contracts are given them. On TON `data` are cells that hold the
message, and the first byte of the proof is in the current cell. -/
structure EncodedProof (message : Bytes) (path : MerklePath 20) (rest : Bytes) where
  buffer : Starknet.ByteBuffer
  reader : Starknet.Reader
  data : Tvm.Slice
  cs : Tvm.Slice
  length_le : path.length ≤ 255
  buffer_holds : buffer.Holds message
  reader_holds : reader.Holds (proofBytes path rest)
  data_all : data.all = bitsOf message
  cs_all : cs.all = bitsOf (proofBytes path rest)
  cs_byte : 8 ≤ cs.bits.length

section

variable (keccak256 : Bytes → BitVec 256) (root : HashArray 20) {message : Bytes}
  {path : MerklePath 20} {rest : Bytes} (left : Bytes)

/-- `MerkleRoot::check` takes the whole proof. -/
def RustAccepts (_ : EncodedProof message path rest) : Prop :=
  MerkleTree.check (Keccak160 keccak256) root path message = true ∧ left = rest

def SuiAccepts (_ : EncodedProof message path rest) : Prop :=
  Sui.MerkleTree.isProofValid keccak256 root message (proofBytes path rest) = .ok (true, left)

def StarknetAccepts (e : EncodedProof message path rest) : Prop :=
  ∃ reader', Starknet.MerkleTree.readAndVerifyProof keccak256 (natBE root.val) e.buffer e.reader
    = .ok reader' ∧ reader'.bytes = left

def TonAccepts (e : EncodedProof message path rest) : Prop :=
  ∃ slice cs', Tvm.beginParse (Ton.readAndStoreLargeData e.data (8 * message.length)).1
      = .ok slice ∧
    Ton.readAndVerifyProof keccak256 (siblingDigest root) slice e.cs = .ok cs' ∧
    cs'.all = bitsOf left

/-- The same verdict, and the same bytes are left when it is positive. -/
def ChecksAgree (e : EncodedProof message path rest) : Prop :=
  ∀ left, (SuiAccepts keccak256 root left e ↔ RustAccepts keccak256 root left e) ∧
    (StarknetAccepts keccak256 root left e ↔ RustAccepts keccak256 root left e) ∧
    (TonAccepts keccak256 root left e ↔ RustAccepts keccak256 root left e)

end

variable {keccak256 : Bytes → BitVec 256} {root : HashArray 20} {message : Bytes}
  {path : MerklePath 20} {rest left : Bytes}

theorem suiAccepts_iff (e : EncodedProof message path rest) :
    SuiAccepts keccak256 root left e ↔ RustAccepts keccak256 root left e := by
  rw [SuiAccepts, proofBytes, Sui.MerkleTree.isProofValid_eq e.length_le, RustAccepts]
  simp only [Except.ok.injEq, Prod.mk.injEq, eq_comm (a := rest)]

theorem starknetAccepts_iff (e : EncodedProof message path rest) :
    StarknetAccepts keccak256 root left e ↔ RustAccepts keccak256 root left e := by
  obtain ⟨reader', hholds, hcheck⟩ := Starknet.MerkleTree.readAndVerifyProof_eq e.length_le root
    e.buffer_holds e.reader_holds
  rw [StarknetAccepts, hcheck, RustAccepts, ← climbPath_eq_iff_check]
  constructor
  · rintro ⟨reader, haccept, rfl⟩
    split at haccept
    · next hroot =>
      cases haccept
      exact ⟨hroot, hholds.bytes_eq⟩
    · cases haccept
  · rintro ⟨hroot, rfl⟩
    exact ⟨reader', if_pos hroot, hholds.bytes_eq⟩

/-- **What TON accepts.** -/
theorem tonAccepts_iff (e : EncodedProof message path rest) :
    TonAccepts keccak256 root left e ↔
      (1 ≤ message.length ∧ message.length ≤ 126) ∧ RustAccepts keccak256 root left e := by
  have hpacked : Ton.Packed (bitsOf message)
      (Ton.readAndStoreLargeData e.data (8 * message.length)).1 := by
    have hlen : e.data.all.length = 8 * message.length := by rw [e.data_all, length_bitsOf]
    have htake : e.data.all.take (8 * message.length) = bitsOf message := by
      rw [List.take_of_length_le hlen.le, e.data_all]
    exact htake ▸ Ton.readAndStoreLargeData_packed hlen.ge
  unfold TonAccepts
  generalize (Ton.readAndStoreLargeData e.data (8 * message.length)).1 = cell at hpacked
  constructor
  · rintro ⟨slice, cs', hparse, haccept, hleft⟩
    cases cell with
    | nil => cases hparse
    | cons first cells =>
      cases hparse
      have hne : message ≠ [] := by
        rintro rfl
        exact absurd (hpacked.eq_nil_iff.mpr rfl) (List.cons_ne_nil _ _)
      have hpos := List.length_pos_iff.mpr hne
      have hle : message.length ≤ 126 := by
        by_contra hlong
        have hfull : first.length = Ton.MAX_BITS := by
          rw [hpacked.head, List.length_take, length_bitsOf, Ton.MAX_BITS]
          omega
        have hoverflow : Ton.leafHash keccak256 ⟨first, cells⟩ = .error .cellOverflow :=
          Ton.leafHash_overflow hfull
        rw [Ton.readAndVerifyProof, hoverflow] at haccept
        cases haccept
      have hsingle := hpacked.single
        (List.ne_nil_of_length_pos (by rw [length_bitsOf]; omega))
        (by rw [length_bitsOf, Ton.MAX_BITS]; omega)
      cases hsingle
      obtain ⟨cs'', hall, hcheck⟩ := Ton.readAndVerifyProof_eq keccak256 e.length_le
        root hle e.cs_all e.cs_byte
      rw [hcheck] at haccept
      split at haccept
      · next hroot =>
        cases haccept
        exact ⟨⟨hpos, hle⟩, (climbPath_eq_iff_check root path message).mp hroot,
          bitsOf_injective (hleft.symm.trans hall)⟩
      · cases haccept
  · rintro ⟨⟨hpos, hle⟩, hroot, rfl⟩
    have hsingle := hpacked.single
      (List.ne_nil_of_length_pos (by rw [length_bitsOf]; omega))
      (by rw [length_bitsOf, Ton.MAX_BITS]; omega)
    obtain ⟨cs', hall, hcheck⟩ := Ton.readAndVerifyProof_eq keccak256 e.length_le root hle
      e.cs_all e.cs_byte
    refine ⟨⟨bitsOf message, []⟩, cs', by rw [hsingle]; rfl, ?_, hall⟩
    rw [hcheck, if_pos ((climbPath_eq_iff_check root path message).mpr hroot)]

/-! ## Agreement -/

/-- **All checks agree** on the messages that fit into one cell of TON behind the prefix, and on
the proofs that are not accepted anywhere. -/
theorem merkle_checks_agree (keccak256 : Bytes → BitVec 256) (root : HashArray 20)
    (message : Bytes) (path : MerklePath 20) (rest : Bytes)
    (e : EncodedProof message path rest) :
    ChecksAgree keccak256 root e ↔
      1 ≤ message.length ∧ message.length ≤ 126 ∨
        MerkleTree.check (Keccak160 keccak256) root path message = false := by
  constructor
  · intro h
    by_cases hroot : MerkleTree.check (Keccak160 keccak256) root path message = true
    · exact .inl ((tonAccepts_iff e).mp ((h rest).2.2.mpr ⟨hroot, rfl⟩)).1
    · exact .inr (Bool.not_eq_true _ ▸ hroot)
  · intro h left
    refine ⟨suiAccepts_iff e, starknetAccepts_iff e, (tonAccepts_iff e).trans ?_⟩
    refine and_iff_right_of_imp fun haccept => ?_
    rcases h with hle | hfalse
    · exact hle
    · rw [RustAccepts, hfalse] at haccept
      exact absurd haccept.1 Bool.false_ne_true

/-- 127 zero bytes, and no proof behind their leaf hash. -/
def exZeros : EncodedProof (List.replicate 127 0) [] [] where
  buffer := ⟨3, [0, 0, 0, 0, 0]⟩
  reader := ⟨⟨1, [0]⟩, 0, 0, none⟩
  data := ⟨bitsOf (List.replicate 127 0), []⟩
  cs := ⟨bitsOf [0], []⟩
  length_le := by decide
  buffer_holds :=
    have hlast : Starknet.ByteBuffer.Holds ⟨3, [0]⟩ (List.replicate 3 0) :=
      @Starknet.ByteBuffer.Holds.last (List.replicate 3 0) (by decide) (by decide)
    have hcons {data : List ℕ} {bytes : Bytes} (h : Starknet.ByteBuffer.Holds ⟨3, 0 :: data⟩ bytes) :
        Starknet.ByteBuffer.Holds ⟨3, 0 :: 0 :: data⟩ (List.replicate 31 0 ++ bytes) :=
      @Starknet.ByteBuffer.Holds.cons 3 0 data (List.replicate 31 0) bytes rfl h
    hcons (hcons (hcons (hcons hlast)))
  reader_holds := Starknet.Reader.holds_new
    (@Starknet.ByteBuffer.Holds.last [0] (by decide) (by decide))
  data_all := List.append_nil _
  cs_all := by decide
  cs_byte := by decide

/-- Keccak-256 of 128 zero bytes. -/
def exZerosHash : BitVec 256 := 0x12893657d8eb2efad4de0a91bcd0e39ad9837745dec3ea923737ea803fc8e3d

def exZerosRoot : HashArray 20 := ⟨bytesBE 20 (exZerosHash.toNat / 2 ^ 96), length_bytesBE _ _⟩

theorem merkle_checks_agree_fail : ¬ChecksAgree (fun _ => exZerosHash) exZerosRoot exZeros := by
  intro h
  have hrust : RustAccepts (fun _ => exZerosHash) exZerosRoot [] exZeros :=
    ⟨by decide +kernel, rfl⟩
  exact absurd ((tonAccepts_iff exZeros).mp ((h []).2.2.mpr hrust)).1.2 (by
    rw [List.length_replicate]
    decide)

end PythCrosschain.PythnetSdk
