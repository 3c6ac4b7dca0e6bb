import PythCrosschain.Lib.Transactions
import PythCrosschain.Solana.Anchor

/-!
# Lazer on Solana: the storage account

`lib.rs` of the contract: the trusted signers, and the instructions that change them. The
list of signers is an array of five with the number of those in use; the instructions never
use more than two (`reached_bounded`).
-/

namespace PythCrosschain.Lazer

open Solana

export Solana (require require_eq_ok)

abbrev I64 := PythnetSdk.I64

def MAX_NUM_TRUSTED_SIGNERS : Nat := 2

def SPACE_FOR_TRUSTED_SIGNERS : Nat := 5

structure TrustedSignerInfo where
  pubkey : Pubkey := default
  expiresAt : I64 := 0
deriving DecidableEq

structure Storage where
  topAuthority : Pubkey
  treasury : Pubkey
  singleUpdateFeeInLamports : PythnetSdk.U64
  numTrustedSigners : UInt8 := 0
  trustedSigners : Vector TrustedSignerInfo SPACE_FOR_TRUSTED_SIGNERS :=
    Vector.replicate SPACE_FOR_TRUSTED_SIGNERS {}
deriving DecidableEq

/-- The errors of the runtime that the instructions return. -/
inductive StorageError where
  | invalidAccountData
  | invalidInstructionData
  | accountDataTooSmall
deriving DecidableEq, Repr

section

variable {ε : Type}

def Storage.initializedTrustedSigners (self : Storage) : Rust.Result ε (List TrustedSignerInfo) :=
  Rust.unwrap (Rust.slice self.trustedSigners.toList 0 self.numTrustedSigners.toNat)

end

/-- `initialize`. The account must not exist. -/
def initializeStorage (payer : AccountMeta) (topAuthority treasury : Pubkey)
    (storage : Option Storage) : Result StorageError Storage := do
  payer.signer
  check (storage = none) .accountAlreadyInUse
  return { topAuthority, treasury, singleUpdateFeeInLamports := 1 }

/-- The list of signers with one deleted, modified or added. -/
def changeSigners (trustedSigners : List TrustedSignerInfo) (trustedSigner : Pubkey)
    (expiresAt : I64) : Result StorageError (List TrustedSignerInfo) :=
  if expiresAt = 0 then do
    let pos ← Rust.okOr (.custom .invalidInstructionData)
      (trustedSigners.findIdx? (·.pubkey = trustedSigner))
    return trustedSigners.eraseIdx pos
  else
    match trustedSigners.findIdx? (·.pubkey = trustedSigner) with
    | some pos => return trustedSigners.modify pos ({ · with expiresAt })
    | none => return trustedSigners ++ [{ pubkey := trustedSigner, expiresAt }]

/-- The array with a list of signers at its start. -/
def storeSigners (trustedSigners : List TrustedSignerInfo) :
    Vector TrustedSignerInfo SPACE_FOR_TRUSTED_SIGNERS :=
  Vector.ofFn fun i => trustedSigners.getD i {}

def update (topAuthority : AccountMeta) (trustedSigner : Pubkey) (expiresAt : I64)
    (storage : Option Storage) : Result StorageError Storage := do
  topAuthority.signer
  let storage ← Rust.okOr (.anchor .accountNotInitialized) storage
  check (storage.topAuthority = topAuthority.pubkey) .constraintHasOne
  let numTrustedSigners := storage.numTrustedSigners.toNat
  require (¬numTrustedSigners > SPACE_FOR_TRUSTED_SIGNERS) .invalidAccountData
  require (¬numTrustedSigners > MAX_NUM_TRUSTED_SIGNERS) .invalidAccountData
  let trustedSigners ← Rust.unwrap (Rust.slice storage.trustedSigners.toList 0 numTrustedSigners)
  let trustedSigners ← changeSigners trustedSigners trustedSigner expiresAt
  require (¬trustedSigners.length > SPACE_FOR_TRUSTED_SIGNERS) .accountDataTooSmall
  require (¬trustedSigners.length > MAX_NUM_TRUSTED_SIGNERS) .invalidInstructionData
  return { storage with
    trustedSigners := storeSigners trustedSigners
    numTrustedSigners := UInt8.ofNat trustedSigners.length }

inductive StorageCall where
  | initializeStorage (payer : AccountMeta) (topAuthority treasury : Pubkey)
  | update (topAuthority : AccountMeta) (trustedSigner : Pubkey) (expiresAt : I64)

def StorageCall.exec : StorageCall → Option Storage → Result StorageError (Option Storage)
  | .initializeStorage payer topAuthority treasury, storage =>
    some <$> Lazer.initializeStorage payer topAuthority treasury storage
  | .update topAuthority trustedSigner expiresAt, storage =>
    some <$> Lazer.update topAuthority trustedSigner expiresAt storage

/-- A storage account that a list of instructions leads to. -/
def Storage.Reached (storage : Storage) : Prop :=
  ∃ calls, runAll StorageCall.exec none calls = some storage

/-! ## The number of signers -/

/-- The array has room for the signers that are in use. -/
def Bounded (storage : Option Storage) : Prop :=
  ∀ s, storage = some s → s.numTrustedSigners.toNat ≤ MAX_NUM_TRUSTED_SIGNERS

theorem exec_bounded {call : StorageCall} {storage storage' : Option Storage}
    (h : call.exec storage = .ok storage') : Bounded storage' := by
  cases call with
  | initializeStorage payer topAuthority treasury =>
    simp only [StorageCall.exec, initializeStorage, map_eq_pure_bind, except_bind_eq_ok,
      Rust.pure_eq_ok] at h
    obtain ⟨s, ⟨-, -, -, -, rfl⟩, rfl⟩ := h
    intro s' hs'
    cases hs'
    exact Nat.zero_le _
  | update topAuthority trustedSigner expiresAt =>
    simp only [StorageCall.exec, update, map_eq_pure_bind, except_bind_eq_ok, Rust.pure_eq_ok,
      require_eq_ok] at h
    obtain ⟨s, ⟨-, -, -, -, -, -, -, -, -, -, -, -, signers, -, -, -, -, hlen, rfl⟩, rfl⟩ := h
    intro s' hs'
    cases hs'
    have hle : signers.length ≤ 2 := Nat.le_of_not_lt hlen
    show (UInt8.ofNat signers.length).toNat ≤ 2
    rw [UInt8.toNat_ofNat', Nat.mod_eq_of_lt (by omega)]
    exact hle

theorem reached_bounded {storage : Storage} (h : storage.Reached) :
    storage.numTrustedSigners.toNat ≤ MAX_NUM_TRUSTED_SIGNERS := by
  obtain ⟨calls, hcalls⟩ := h
  have hinit : Bounded none := fun _ h => nomatch h
  have hbounded : Bounded (runAll StorageCall.exec none calls) :=
    runAll_invariant hinit (fun _ _ _ _ h => exec_bounded h) calls
  exact hbounded storage hcalls

/-- So the list of signers is there. -/
theorem Storage.Reached.signers {ε : Type} {storage : Storage} (h : storage.Reached) :
    ∃ signers, (storage.initializedTrustedSigners : Rust.Result ε _) = .ok signers := by
  have hle := reached_bounded h
  have hslice : 0 ≤ storage.numTrustedSigners.toNat ∧
      storage.numTrustedSigners.toNat ≤ storage.trustedSigners.toList.length := by
    rw [Vector.length_toList]
    exact ⟨Nat.zero_le _, hle.trans (by decide)⟩
  exact ⟨_, Rust.unwrap_eq_ok.mpr (if_pos hslice)⟩

end PythCrosschain.Lazer
