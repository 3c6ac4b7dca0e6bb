import Mathlib.Logic.Function.Basic
import PythCrosschain.Solana.Anchor

/-!
# Accounts on Solana

The accounts of the chain, as a program sees them, and what the system program and Anchor do
to them: transfers, new accounts, `init_if_needed` and `close`. `δ` are the values that the program keeps in
its accounts, behind their discriminators.

What any of these leave alone is one lemma each: `same_transfer`, `initAccount_eq_ok`,
`createAccount_eq_ok` and `same_close`.
-/

namespace PythCrosschain.Solana

def SYSTEM_PROGRAM_ID : Pubkey := default

inductive AccountData (δ : Type) where
  | raw (bytes : Bytes)
  | value (x : δ)
deriving DecidableEq

/-- An account that does not exist is one of the system program without lamports and data. -/
structure Account (δ : Type) where
  owner : Pubkey := SYSTEM_PROGRAM_ID
  lamports : Nat := 0
  data : AccountData δ := .raw []
deriving DecidableEq

abbrev Ledger (δ : Type) := Pubkey → Account δ

/-- What an instruction reads of the sysvar `Clock`. -/
structure Clock where
  slot : PythnetSdk.U64
  unixTimestamp : PythnetSdk.I64
deriving DecidableEq

namespace Ledger

variable {δ ε : Type}

/-- `data_is_empty`. -/
def Empty (ledger : Ledger δ) (key : Pubkey) : Prop := (ledger key).data = .raw []

/-- The account can be created: the system program owns it, and it has no data. -/
def Free (ledger : Ledger δ) (key : Pubkey) : Prop :=
  (ledger key).owner = SYSTEM_PROGRAM_ID ∧ ledger.Empty key

instance [DecidableEq δ] (ledger : Ledger δ) (key : Pubkey) : Decidable (ledger.Empty key) :=
  inferInstanceAs (Decidable (_ = _))

instance [DecidableEq δ] (ledger : Ledger δ) (key : Pubkey) : Decidable (ledger.Free key) :=
  inferInstanceAs (Decidable (_ ∧ _))

def addLamports (ledger : Ledger δ) (key : Pubkey) (lamports : Nat) : Ledger δ :=
  Function.update ledger key { ledger key with lamports := (ledger key).lamports + lamports }

variable [DecidableEq δ]

/-- `system_instruction::transfer`. -/
def transfer (ledger : Ledger δ) (source : AccountMeta) (target : Pubkey) (lamports : Nat) :
    Result ε (Ledger δ) := do
  Rust.require (source.isSigner = true ∧ ledger.Free source.pubkey ∧
    lamports ≤ (ledger source.pubkey).lamports) .systemProgram
  let debited : Ledger δ := Function.update ledger source.pubkey
    { ledger source.pubkey with lamports := (ledger source.pubkey).lamports - lamports }
  return debited.addLamports target lamports

/-- What an account with `current` lamports misses of the rent. -/
def missingRent (rent current : Nat) : Nat := if current = 0 then rent else max rent 1 - current

/-- The payer funds what the account misses. -/
def fund (ledger : Ledger δ) (payer target : AccountMeta) (rent : Nat) : Result ε (Ledger δ) :=
  if missingRent rent (ledger target.pubkey).lamports = 0 then .ok ledger
  else ledger.transfer payer target.pubkey (missingRent rent (ledger target.pubkey).lamports)

/-- The creation of an account by Anchor, for the program `owner`. -/
def initAccount (ledger : Ledger δ) (payer target : AccountMeta) (owner : Pubkey)
    (rent space : Nat) : Result ε (Ledger δ) := do
  let funded ← ledger.fund payer target rent
  -- `allocate` and `assign`
  Rust.require (target.isSigner = true ∧ funded.Free target.pubkey) .systemProgram
  return Function.update funded target.pubkey
    { funded target.pubkey with owner, data := .raw (List.replicate space 0) }

/-- `system_instruction::create_account`. -/
def createAccount (ledger : Ledger δ) (payer target : AccountMeta) (lamports space : Nat)
    (owner : Pubkey) : Result ε (Ledger δ) := do
  Rust.require ((ledger target.pubkey).lamports = 0) .systemProgram
  -- `allocate` and `assign`
  Rust.require (target.isSigner = true ∧ ledger.Free target.pubkey) .systemProgram
  let created : Ledger δ := Function.update ledger target.pubkey
    { ledger target.pubkey with owner, data := .raw (List.replicate space 0) }
  created.transfer payer target.pubkey lamports

omit [DecidableEq δ] in
/-- `close`: the lamports go to another account, and the system program gets the account. -/
def close (ledger : Ledger δ) (key destination : Pubkey) : Ledger δ :=
  Function.update (ledger.addLamports destination (ledger key).lamports) key {}

/-! ## What is left alone -/

/-- The account has the same owner and data in both ledgers. -/
structure Same (ledger ledger' : Ledger δ) (key : Pubkey) : Prop where
  data : (ledger' key).data = (ledger key).data
  owner : (ledger' key).owner = (ledger key).owner

omit [DecidableEq δ] in
theorem Same.trans {first second third : Ledger δ} {key : Pubkey} (h : Same first second key)
    (h' : Same second third key) : Same first third key :=
  ⟨h'.data.trans h.data, h'.owner.trans h.owner⟩

omit [DecidableEq δ] in
theorem same_update (ledger : Ledger δ) {key k : Pubkey} (account : Account δ) (hk : k ≠ key) :
    Same ledger (Function.update ledger key account) k := by
  constructor
  · rw [Function.update_of_ne hk]
  · rw [Function.update_of_ne hk]

section

variable {ledger ledger' : Ledger δ} {source payer target : AccountMeta} {owner key : Pubkey}
  {lamports rent space : Nat}

omit [DecidableEq δ] in
theorem same_setLamports (ledger : Ledger δ) (key : Pubkey) (lamports : Nat) (k : Pubkey) :
    Same ledger (Function.update ledger key { ledger key with lamports }) k := by
  rcases eq_or_ne k key with rfl | hne
  · constructor
    · rw [Function.update_self]
    · rw [Function.update_self]
  · exact same_update ledger _ hne

/-- A transfer changes lamports only. -/
theorem same_transfer (h : (ledger.transfer source key lamports : Result ε _) = .ok ledger')
    (k : Pubkey) : Same ledger ledger' k := by
  obtain ⟨_, -, h⟩ := except_bind_eq_ok.mp h
  cases h
  exact (same_setLamports ledger _ _ k).trans (same_setLamports _ _ _ k)

/-- Only a free account that signs is created, and what else is there stays. -/
theorem initAccount_eq_ok
    (h : (ledger.initAccount payer target owner rent space : Result ε _) = .ok ledger') :
    target.isSigner = true ∧ ledger.Free target.pubkey ∧
      (ledger' target.pubkey).owner = owner ∧
      (ledger' target.pubkey).data = .raw (List.replicate space 0) ∧
      ∀ k, k ≠ target.pubkey → Same ledger ledger' k := by
  obtain ⟨funded, hfunded, h⟩ := except_bind_eq_ok.mp h
  obtain ⟨_, hallocate, h⟩ := except_bind_eq_ok.mp h
  obtain ⟨hsigner, howner, hempty⟩ := Rust.require_eq_ok.mp hallocate
  have hsame : ∀ k, Same ledger funded k := by
    unfold fund at hfunded
    split at hfunded
    · cases hfunded
      exact fun k => ⟨rfl, rfl⟩
    · exact same_transfer hfunded
  cases h
  refine ⟨hsigner, ⟨(hsame _).owner ▸ howner, (hsame _).data.symm.trans hempty⟩, ?_, ?_,
    fun k hk => ?_⟩
  · rw [Function.update_self]
  · rw [Function.update_self]
  · exact (hsame k).trans (same_update funded _ hk)

theorem createAccount_eq_ok (h : (ledger.createAccount source target lamports space owner :
      Result ε _) = .ok ledger') :
    target.isSigner = true ∧ ledger.Free target.pubkey ∧
      (ledger' target.pubkey).owner = owner ∧
      (ledger' target.pubkey).data = .raw (List.replicate space 0) ∧
      ∀ k, k ≠ target.pubkey → Same ledger ledger' k := by
  obtain ⟨_, -, h⟩ := except_bind_eq_ok.mp h
  obtain ⟨_, hallocate, h⟩ := except_bind_eq_ok.mp h
  obtain ⟨hsigner, hfree⟩ := Rust.require_eq_ok.mp hallocate
  refine ⟨hsigner, hfree, ?_, ?_, fun k hk => ?_⟩
  · rw [(same_transfer h _).owner, Function.update_self]
  · rw [(same_transfer h _).data, Function.update_self]
  · exact (same_update ledger _ hk).trans (same_transfer h k)

omit [DecidableEq δ] in
theorem close_self (ledger : Ledger δ) (key destination : Pubkey) :
    ledger.close key destination key = {} := Function.update_self _ _ _

omit [DecidableEq δ] in
theorem same_close (ledger : Ledger δ) {key k : Pubkey} (destination : Pubkey) (hk : k ≠ key) :
    Same ledger (ledger.close key destination) k :=
  (same_setLamports ledger _ _ k).trans (same_update _ _ hk)

end

end Ledger

end PythCrosschain.Solana
