import PythCrosschain.Lazer.Aptos
import PythCrosschain.Lazer.EvmSigners
import PythCrosschain.Lazer.SolanaSigners

/-!
# Lazer: the trusted signers of all three chains

In every run of updates by the authority the store of each contract acts as one finite map
(`trusted_signers_map`). On EVM the zero address is not a key of this map: it marks the free
slots, and to remove it does not revert where there is one (`zero_address_removed`).
-/

namespace PythCrosschain.Lazer

open Solana

/-- The checks of the signatures on Solana and on Aptos are strict: the key zero, which is a
point of small order, signs nothing. -/
def Strict (verify : Bytes → Bytes → Bytes → Bool) : Prop :=
  ∀ signature message, verify signature (List.replicate 32 0) message = false

/-- **Trusted signers are one finite map.** -/
theorem trusted_signers_map (keccak256 : Bytes → Bytes32)
    (tryRecover : Bytes32 → Uint8 → Bytes32 → Bytes32 → Address)
    (transfer : Address → Uint256 → Option Unit) {verify : Bytes → Bytes → Bytes → Bool}
    (hstrict : Strict verify) (pythLazer admin : LazerAptos.AccountAddress)
    (deposit : LazerAptos.AccountAddress → Move.U64 → Option Unit) :
    (∀ start updates, (PythLazer.signerStore keccak256 tryRecover transfer).start start →
      ActsAsMap (PythLazer.signerStore keccak256 tryRecover transfer) PythLazer.IsSigner 0 start
          updates ∧
        ∀ e, let reached :=
            runAll (PythLazer.signerStore keccak256 tryRecover transfer).update start updates
          (∃ err, (PythLazer.signerStore keccak256 tryRecover transfer).update (0, e) reached =
              .error err) ↔
            (PythLazer.signerStore keccak256 tryRecover transfer).Full reached) ∧
    (∀ start updates, (signerStore verify).start start →
      ActsAsMap (signerStore verify) (fun _ => True) default start updates) ∧
    ∀ start updates, (LazerAptos.signerStore pythLazer deposit verify admin).start start →
      ActsAsMap (LazerAptos.signerStore pythLazer deposit verify admin) LazerAptos.IsKey
          (List.replicate 32 0) start updates ∧
        ∀ k e, ¬LazerAptos.IsKey k → ∃ abort,
          (LazerAptos.signerStore pythLazer deposit verify admin).update (k, e)
            (runAll (LazerAptos.signerStore pythLazer deposit verify admin).update start updates) =
              .error abort := by
  refine ⟨fun start updates hstart => ⟨PythLazer.refines.actsAsMap hstart updates, fun e => ?_⟩,
    fun start updates hstart => (solana_refines hstrict).actsAsMap hstart updates,
    fun start updates hstart => ?_⟩
  · exact PythLazer.updateTrustedSigner_reverts.trans
      (PythLazer.updateSlots_zero.trans PythLazer.full_iff.symm)
  · have hrefines := @LazerAptos.aptos_refines pythLazer admin deposit verify hstrict
    refine ⟨hrefines.actsAsMap hstart updates, fun k e hk => except_eq_error.mpr fun g hg => ?_⟩
    exact hk ((LazerAptos.updateTrustedSigner_eq_ok (hrefines.inv_runAll hstart updates)).mp hg).1

/-! ### A run on Aptos

A signer is added, gets a later expiry time, and another one is added and removed. -/

theorem exVerify_strict : Strict exVerify := by
  intro signature message
  refine decide_eq_false fun h => ?_
  exact absurd h.1 (by decide)

def exDeposit (_ : LazerAptos.AccountAddress) (_ : Move.U64) : Option Unit := some ()

/-- The contract at account 3, with the authority 4 and the treasury 9. -/
def exGlobal : LazerAptos.Global where
  storage := some { treasury := 9, singleUpdateFee := 1, trustedSigners := [] }
  adminCapability := Function.update (fun _ => false) 4 true

def exUpdates : List (Bytes × Move.U64) :=
  [(exSigner.val, 500), (List.replicate 32 7, 900), (exSigner.val, 2000),
    (List.replicate 32 7, 0)]

def exSigned : LazerAptos.VerifyMessage where
  now := 1000
  message := [1, 2, 3]
  signature := exSignature
  trustedSigner := exSigner.val
  fee := 1

theorem trusted_signers_map_ex :
    (LazerAptos.signerStore 3 exDeposit exVerify 4).accepts
      (runAll (LazerAptos.signerStore 3 exDeposit exVerify 4).update exGlobal exUpdates) exSigned
      exSigner.val := by
  have hstart : (LazerAptos.signerStore 3 exDeposit exVerify 4).start exGlobal :=
    ⟨9, { pendingAdminCapability := some 4, storage := exGlobal.storage }, rfl, rfl⟩
  have hmap := (trusted_signers_map exKeccak (fun _ _ _ _ => 0) (fun _ _ => none) exVerify_strict 3
    4 exDeposit).2.2 exGlobal exUpdates hstart
  have hkey : LazerAptos.IsKey exSigner.val := exSigner.property
  have hlive : (1000 : Move.U64) < 2000 := by decide
  refine (hmap.1.accepted (t := 1000) hkey (by decide)
    ⟨rfl, rfl, rfl, by decide +kernel, ?_⟩).mpr ⟨2000, by decide +kernel, by decide, hlive⟩
  exact ⟨{ treasury := 9, singleUpdateFee := 1, trustedSigners := [⟨exSigner.val, 2000⟩] },
    by decide +kernel, by decide, rfl⟩

/-! ### The zero address on EVM -/

/-- The contract of owner 5, without signers. -/
def exContract : PythLazer.Contract where
  trustedSigners := Vector.replicate 100 {}
  verificationFee := 1
  owner := 5

/-- The zero address is in no slot that is in use, and removing it succeeds. -/
theorem zero_address_removed :
    (PythLazer.signerStore exKeccak (fun _ _ _ _ => 0) fun _ _ => none).start exContract ∧
      ¬ActsAsMap (PythLazer.signerStore exKeccak (fun _ _ _ _ => 0) fun _ _ => none)
        (fun _ => True) 0 exContract [] := by
  refine ⟨⟨5, rfl⟩, fun hmap => ?_⟩
  have habsent : (0 : Address) ∉
      (PythLazer.signerStore exKeccak (fun _ _ _ _ => 0) fun _ _ => none).slots exContract :=
    fun hmem => of_decide_eq_true (List.mem_filter.mp hmem).2 rfl
  have hok : (PythLazer.updateTrustedSigner 5 0 0 exContract).toOption.isSome = true := by
    decide +kernel
  obtain ⟨err, herr⟩ := (hmap.fails (k := 0) (e := 0) trivial).mpr ⟨habsent, .inl rfl⟩
  have herr : PythLazer.updateTrustedSigner 5 0 0 exContract = .error err := herr
  rw [herr] at hok
  cases hok

end PythCrosschain.Lazer
