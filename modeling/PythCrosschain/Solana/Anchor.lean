import PythCrosschain.Lib.Rust
import PythCrosschain.PythnetSdk.Messages

/-!
# Anchor programs on Solana

What the programs share: public keys, the accounts that an instruction is called with, and
the errors of the checks that Anchor generates. An instruction that fails undoes the whole
transaction that it is part of.
-/

namespace PythCrosschain.Solana

abbrev Pubkey := PythnetSdk.Pubkey

/-- The errors of Anchor's own checks. -/
inductive AnchorError where
  | accountAlreadyInUse
  | accountNotInitialized
  | accountNotSigner
  | accountDidNotDeserialize
  | accountDiscriminatorMismatch
  | accountDiscriminatorNotFound
  | accountOwnedByWrongProgram
  | accountNotEnoughKeys
  | accountReallocExceedsLimit
  | constraintClose
  | constraintHasOne
  | constraintMut
  | constraintSeeds
  | constraintOwner
  | constraintRaw
  | invalidProgramId
  | instructionFallbackNotFound
  | requireKeysEqViolated
  | requireKeysNeqViolated
deriving DecidableEq, Repr

/-- The errors of a program with the error codes `ε`. `borshIo` is for data that are not in
the format that is read, `systemProgram` for an instruction of the system program that the
program invokes and that fails. -/
inductive ProgramError (ε : Type) where
  | anchor (e : AnchorError)
  | custom (e : ε)
  | borshIo
  | systemProgram
deriving DecidableEq, Repr

abbrev Result (ε α : Type) := Rust.Result (ProgramError ε) α

/-- An account that an instruction is called with. -/
structure AccountMeta where
  pubkey : Pubkey
  isSigner : Bool
  isWritable : Bool := false
deriving DecidableEq

section

variable {ε : Type}

/-- `require!(p, e)`. -/
def require (p : Prop) [Decidable p] (e : ε) : Result ε Unit := Rust.require p (.custom e)

/-- A check of Anchor. -/
def check (p : Prop) [Decidable p] (e : AnchorError) : Result ε Unit := Rust.require p (.anchor e)

/-- The type `Signer` of an account. -/
def AccountMeta.signer (account : AccountMeta) : Result ε Unit :=
  check (account.isSigner = true) .accountNotSigner

@[simp] theorem require_eq_ok {p : Prop} [Decidable p] {e : ε} {u : Unit} :
    require p e = .ok u ↔ p := Rust.require_eq_ok

@[simp] theorem check_eq_ok {p : Prop} [Decidable p] {e : AnchorError} {u : Unit} :
    (check p e : Result ε Unit) = .ok u ↔ p := Rust.require_eq_ok

@[simp] theorem signer_eq_ok {account : AccountMeta} {u : Unit} :
    (account.signer : Result ε Unit) = .ok u ↔ account.isSigner = true := check_eq_ok

end

end PythCrosschain.Solana
