import PythCrosschain.Lib.Transactions
import PythCrosschain.Solana.Anchor

/-!
# Message buffer: the whitelist

`whitelist.rs`, and the instructions of `lib.rs` that change the whitelist. The account of
the whitelist is the only one with its seeds, so it stands for itself.

`validate_programs` looks for the default key in the list that is stored, not in the new
one. So a list with the default key is stored, and from then on no list is:

- `submit_law_iff`: exactly the calls that `Lock` the whitelist break its law;
- `whitelist_law`: the law holds in all states of a run exactly when none of its calls
  locks the whitelist.
-/

namespace PythCrosschain.MessageBuffer

open Solana

export Solana (require require_eq_ok)

inductive MessageBufferError where
  | callerNotAllowed
  | invalidAllowedProgram
  | maximumAllowedProgramsExceeded
  | messageBufferNotProvided
  | messageBufferTooSmall
  | targetSizeDeltaExceeded
  | targetSizeExceedsMaxLen
deriving DecidableEq, Repr

abbrev Result (α : Type) := Solana.Result MessageBufferError α

structure Whitelist where
  bump : UInt8
  admin : Pubkey
  allowedPrograms : List Pubkey
deriving DecidableEq

namespace Whitelist

def validatePrograms (self : Whitelist) (allowedPrograms : List Pubkey) : Result Unit := do
  require (default ∉ self.allowedPrograms) .invalidAllowedProgram
  require (32 ≥ allowedPrograms.length) .maximumAllowedProgramsExceeded

def validateNewAdmin (_self : Whitelist) (newAdmin : Pubkey) : Result Unit :=
  check (newAdmin ≠ default) .requireKeysNeqViolated

def isAllowedProgramAuth (self : Whitelist) (auth : Pubkey) : Result Unit :=
  require (auth ∈ self.allowedPrograms) .callerNotAllowed

end Whitelist

/-! ## Instructions -/

/-- `initialize`. The account must not exist; `bump` is the bump of its seeds. -/
def initializeWhitelist (bump : UInt8) (admin payer : AccountMeta) (whitelist : Option Whitelist) :
    Result (Option Whitelist) := do
  admin.signer
  payer.signer
  check (whitelist = none) .accountAlreadyInUse
  check (admin.pubkey ≠ default) .requireKeysNeqViolated
  return some { bump, admin := admin.pubkey, allowedPrograms := [] }

/-- The accounts `UpdateWhitelist`. -/
def updateWhitelist (admin : AccountMeta) (whitelist : Option Whitelist) : Result Whitelist := do
  admin.signer
  let whitelist ← Rust.okOr (.anchor .accountNotInitialized) whitelist
  check (whitelist.admin = admin.pubkey) .constraintHasOne
  return whitelist

def setAllowedPrograms (admin : AccountMeta) (allowedPrograms : List Pubkey)
    (whitelist : Option Whitelist) : Result (Option Whitelist) := do
  let whitelist ← updateWhitelist admin whitelist
  whitelist.validatePrograms allowedPrograms
  return some { whitelist with allowedPrograms }

def updateWhitelistAdmin (admin : AccountMeta) (newAdmin : Pubkey)
    (whitelist : Option Whitelist) : Result (Option Whitelist) := do
  let whitelist ← updateWhitelist admin whitelist
  whitelist.validateNewAdmin newAdmin
  return some { whitelist with admin := newAdmin }

inductive WhitelistCall where
  | initializeWhitelist (admin payer : AccountMeta)
  | setAllowedPrograms (admin : AccountMeta) (allowedPrograms : List Pubkey)
  | updateWhitelistAdmin (admin : AccountMeta) (newAdmin : Pubkey)

def WhitelistCall.exec (bump : UInt8) :
    WhitelistCall → Option Whitelist → Result (Option Whitelist)
  | .initializeWhitelist admin payer => MessageBuffer.initializeWhitelist bump admin payer
  | .setAllowedPrograms admin allowedPrograms =>
    MessageBuffer.setAllowedPrograms admin allowedPrograms
  | .updateWhitelistAdmin admin newAdmin => MessageBuffer.updateWhitelistAdmin admin newAdmin

/-! ## What the instructions do -/

theorem initializeWhitelist_eq_ok {bump : UInt8} {admin payer : AccountMeta}
    {whitelist whitelist' : Option Whitelist} :
    initializeWhitelist bump admin payer whitelist = .ok whitelist' ↔
      admin.isSigner = true ∧ payer.isSigner = true ∧ whitelist = none ∧
      admin.pubkey ≠ default ∧
      some { bump, admin := admin.pubkey, allowedPrograms := [] } = whitelist' := by
  simp only [initializeWhitelist, except_bind_eq_ok, signer_eq_ok, check_eq_ok, Rust.pure_eq_ok,
    exists_const]

theorem updateWhitelist_eq_ok {admin : AccountMeta} {whitelist : Option Whitelist}
    {w : Whitelist} :
    updateWhitelist admin whitelist = .ok w ↔
      admin.isSigner = true ∧ whitelist = some w ∧ w.admin = admin.pubkey := by
  simp only [updateWhitelist, except_bind_eq_ok, signer_eq_ok, check_eq_ok, Rust.okOr_eq_ok,
    Rust.pure_eq_ok, exists_const]
  constructor
  · rintro ⟨hsigner, w', hw, hadmin, rfl⟩
    exact ⟨hsigner, hw, hadmin⟩
  · rintro ⟨hsigner, hw, hadmin⟩
    exact ⟨hsigner, w, hw, hadmin, rfl⟩

theorem setAllowedPrograms_eq_ok {admin : AccountMeta} {programs : List Pubkey}
    {whitelist whitelist' : Option Whitelist} :
    setAllowedPrograms admin programs whitelist = .ok whitelist' ↔
      ∃ w, updateWhitelist admin whitelist = .ok w ∧ default ∉ w.allowedPrograms ∧
        programs.length ≤ 32 ∧ some { w with allowedPrograms := programs } = whitelist' := by
  simp only [setAllowedPrograms, Whitelist.validatePrograms, except_bind_eq_ok, require_eq_ok,
    Rust.pure_eq_ok, exists_const, ge_iff_le, and_assoc]

theorem updateWhitelistAdmin_eq_ok {admin : AccountMeta} {newAdmin : Pubkey}
    {whitelist whitelist' : Option Whitelist} :
    updateWhitelistAdmin admin newAdmin whitelist = .ok whitelist' ↔
      ∃ w, updateWhitelist admin whitelist = .ok w ∧ newAdmin ≠ default ∧
        some { w with admin := newAdmin } = whitelist' := by
  simp only [updateWhitelistAdmin, Whitelist.validateNewAdmin, except_bind_eq_ok, check_eq_ok,
    Rust.pure_eq_ok, exists_const]

/-! ## The law of the whitelist -/

/-- The whitelist has room, lists no default key, and its admin can replace the list. -/
structure Whitelist.Sound (w : Whitelist) : Prop where
  bounded : w.allowedPrograms.length ≤ 32
  proper : default ∉ w.allowedPrograms
  replaceable : ∀ programs : List Pubkey, programs.length ≤ 32 → default ∉ programs →
    setAllowedPrograms { pubkey := w.admin, isSigner := true } programs (some w) =
      .ok (some { w with allowedPrograms := programs })

/-- The law, in a state in which the whitelist exists or not. -/
def WhitelistLaw (whitelist : Option Whitelist) : Prop :=
  ∀ w, whitelist = some w → w.Sound

/-- The call stores a list with the default key: the admin signs it, and it is not too
long. -/
def Locks (whitelist : Option Whitelist) : WhitelistCall → Prop
  | .setAllowedPrograms admin programs =>
    admin.isSigner = true ∧ (∃ w, whitelist = some w ∧ w.admin = admin.pubkey) ∧
      programs.length ≤ 32 ∧ default ∈ programs
  | _ => False

/-- Without the default key in it, the list can be replaced. -/
theorem Whitelist.sound_iff {w : Whitelist} :
    w.Sound ↔ w.allowedPrograms.length ≤ 32 ∧ default ∉ w.allowedPrograms := by
  constructor
  · exact fun h => ⟨h.bounded, h.proper⟩
  · rintro ⟨hbounded, hproper⟩
    refine ⟨hbounded, hproper, fun programs hlength _ => ?_⟩
    exact setAllowedPrograms_eq_ok.mpr
      ⟨w, updateWhitelist_eq_ok.mpr ⟨rfl, rfl, rfl⟩, hproper, hlength, rfl⟩

theorem law_some {w : Whitelist} : WhitelistLaw (some w) ↔ w.Sound := by
  constructor
  · exact fun h => h w rfl
  · intro h w' hw'
    cases hw'
    exact h

/-- A call keeps the law unless it locks the whitelist. -/
theorem submit_law_iff {bump : UInt8} {whitelist : Option Whitelist} {call : WhitelistCall}
    (hlaw : WhitelistLaw whitelist) :
    WhitelistLaw (submit (WhitelistCall.exec bump) whitelist call) ↔ ¬ Locks whitelist call := by
  cases call with
  | initializeWhitelist admin payer =>
    refine iff_of_true (submit_preserves hlaw fun whitelist' h => ?_) id
    obtain ⟨-, -, -, -, rfl⟩ := initializeWhitelist_eq_ok.mp h
    exact law_some.mpr (Whitelist.sound_iff.mpr ⟨Nat.zero_le _, List.not_mem_nil⟩)
  | setAllowedPrograms admin programs =>
    constructor
    · rintro h ⟨hsigner, ⟨w, rfl, hadmin⟩, hlength, hdefault⟩
      have hok : (WhitelistCall.setAllowedPrograms admin programs).exec bump (some w) =
          .ok (some { w with allowedPrograms := programs }) :=
        setAllowedPrograms_eq_ok.mpr ⟨w, updateWhitelist_eq_ok.mpr ⟨hsigner, rfl, hadmin⟩,
          (law_some.mp hlaw).proper, hlength, rfl⟩
      rw [submit_of_ok hok] at h
      exact (law_some.mp h).proper hdefault
    · refine fun hnot => submit_preserves hlaw fun whitelist' h => ?_
      obtain ⟨w, hw, -, hlength, rfl⟩ := setAllowedPrograms_eq_ok.mp h
      obtain ⟨hsigner, hw, hadmin⟩ := updateWhitelist_eq_ok.mp hw
      refine law_some.mpr (Whitelist.sound_iff.mpr ⟨hlength, fun hdefault => ?_⟩)
      exact hnot ⟨hsigner, ⟨w, hw, hadmin⟩, hlength, hdefault⟩
  | updateWhitelistAdmin admin newAdmin =>
    refine iff_of_true (submit_preserves hlaw fun whitelist' h => ?_) id
    obtain ⟨w, hw, -, rfl⟩ := updateWhitelistAdmin_eq_ok.mp h
    obtain ⟨-, hw, -⟩ := updateWhitelist_eq_ok.mp hw
    obtain ⟨hbounded, hproper, -⟩ := hlaw w hw
    exact law_some.mpr (Whitelist.sound_iff.mpr ⟨hbounded, hproper⟩)

/-- **The whitelist over whole runs.** In every state of a run the list has at most 32
keys, none of them the default key, and the admin can replace it, exactly when no call of
the run stores a list with the default key. -/
theorem whitelist_law (bump : UInt8) (calls : List WhitelistCall) :
    Always (WhitelistCall.exec bump) WhitelistLaw none calls ↔
      Along (WhitelistCall.exec bump) (fun whitelist call => ¬ Locks whitelist call) none calls :=
  always_iff_along (fun _ h => nomatch h) fun _ _ => submit_law_iff

/-! ### A run that locks the whitelist -/

def exKey (n : UInt8) : Pubkey := PythnetSdk.HashArray.filled 32 n

def exAdmin : AccountMeta where
  pubkey := exKey 1
  isSigner := true

/-- The admin stores the default key beside another one, and then tries to remove it. -/
def exLockingCalls : List WhitelistCall :=
  [.initializeWhitelist exAdmin exAdmin, .setAllowedPrograms exAdmin [default, exKey 2],
    .setAllowedPrograms exAdmin [exKey 2]]

theorem whitelist_locked :
    runAll (WhitelistCall.exec 255) none exLockingCalls =
        some { bump := 255, admin := exKey 1, allowedPrograms := [default, exKey 2] } ∧
      ¬ Always (WhitelistCall.exec 255) WhitelistLaw none exLockingCalls := by
  have hlast : runAll (WhitelistCall.exec 255) none exLockingCalls =
      some { bump := 255, admin := exKey 1, allowedPrograms := [default, exKey 2] } := by
    decide
  refine ⟨hlast, fun h => ?_⟩
  have hlaw := h.last
  rw [hlast] at hlaw
  exact (law_some.mp hlaw).proper List.mem_cons_self

end PythCrosschain.MessageBuffer
