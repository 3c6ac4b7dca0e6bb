import PythCrosschain.Lib.ReplayCounter
import PythCrosschain.RemoteExecutor.Program

/-!
# Remote executor: replay protection

The sequence of a claim record is a counter that is written late: a call of the program
starts with a larger sequence than the one in the account, and writes it when it exits.
What the calls of a VAA write in between is overwritten then. So a VAA whose payload makes
the program execute a later VAA of the same emitter sets the sequence back, and the later
VAA can be executed again (`replayed`).

In runs in which every VAA that is executed inside of others of its emitter has a smaller
sequence than these (`NestsDown`), no VAA is executed twice and no claim record is set back:
`replay_protection`.
-/

namespace PythCrosschain.RemoteExecutor

open Solana

/-! ## The counters of the program -/

/-- The sequence in the account of a claim record. -/
def Ledger.sequence (ledger : Ledger) (emitter : Pubkey) : Nat :=
  match ledger.claims emitter with
  | .initialised record => record.sequence.toNat
  | _ => 0

/-- The emitter and the sequence of the VAA that a call executes. -/
def Frame.key (frame : Frame) : Pubkey × Nat :=
  (frame.emitterAddress, frame.claimRecord.sequence.toNat)

/-- The ledger and the calls that have not returned, as counters. -/
def counters (ledger : Ledger) (stack : List Frame) : LateCounter Pubkey where
  value := ledger.sequence
  pending := stack.map Frame.key
  started := ledger.executed
  written := ledger.stored

theorem counters_exit (ledger : Ledger) (frame : Frame) (frames : List Frame) :
    counters (frame.exit ledger) frames = (counters ledger (frame :: frames)).finish := by
  have hsequence : (frame.exit ledger).sequence =
      Function.update ledger.sequence frame.key.1 frame.key.2 := by
    funext emitter
    by_cases he : emitter = frame.emitterAddress
    · subst he
      simp [Ledger.sequence, Frame.exit, Frame.key]
    · simp [Ledger.sequence, Frame.exit, Frame.key, he]
  rw [counters, hsequence]
  rfl

/-! ## What a call of the program does when it is entered -/

/-- The VAA in the account that a call of the program is given for it. -/
def postedVaa (env : Env) (ledger : Ledger) : List AccountMeta → Option AnchorVaa
  | _ :: account :: _ => (loadVaa env ledger account.pubkey).toOption
  | _ => none

theorem loadClaim_ok {ledger ledger' : Ledger} {emitter : Pubkey} {record : ClaimRecord}
    (h : loadClaim ledger emitter = .ok (ledger', record)) :
    record.sequence.toNat = ledger.sequence emitter ∧ ledger'.sequence = ledger.sequence ∧
      ledger'.executed = ledger.executed ∧ ledger'.stored = ledger.stored := by
  unfold loadClaim at h
  split at h
  · next heq =>
    cases h
    refine ⟨by simp [Ledger.sequence, heq], ?_, rfl, rfl⟩
    funext emitter'
    by_cases he : emitter' = emitter
    · subst he
      simp [Ledger.sequence, heq]
    · simp [Ledger.sequence, he]
  · exact absurd h nofun
  · next heq =>
    cases h
    exact ⟨by simp [Ledger.sequence, heq], rfl, rfl, rfl⟩

theorem tryAccounts_ok {env : Env} {accounts remaining : List AccountMeta}
    {ledger ledger' : Ledger} {vaa : AnchorVaa} {record : ClaimRecord}
    (h : tryAccounts env accounts ledger = .ok (ledger', vaa, record, remaining)) :
    postedVaa env ledger accounts = some vaa ∧
      loadClaim ledger vaa.emitterAddress = .ok (ledger', record) ∧
      record.sequence < vaa.sequence := by
  unfold tryAccounts at h
  split at h
  · next payer posted claim system rest =>
    simp only [except_bind_eq_ok, require_eq_ok, Rust.pure_eq_ok] at h
    obtain ⟨-, -, vaa', hvaa, -, -, -, -, ⟨ledger'', record'⟩, hclaim, -, -, -, -, -, -, -,
      hsequence, -, -, heq⟩ := h
    cases heq
    exact ⟨by rw [postedVaa, hvaa, Except.toOption], hclaim, hsequence⟩
  · cases h

/-- A call starts work of a larger number than the counter of the emitter. -/
theorem executePostedVaa_ok {env : Env} {height : Nat} {accounts : List AccountMeta}
    {data : Bytes} {ledger ledger' : Ledger} {frame : Frame}
    (h : executePostedVaa env height accounts data ledger = .ok (ledger', frame)) :
    ∃ vaa, postedVaa env ledger accounts = some vaa ∧
      frame.key = (vaa.emitterAddress, vaa.sequence.toNat) ∧
      ledger.sequence frame.key.1 < frame.key.2 ∧
      ∀ stack, counters ledger' (frame :: stack) =
        (counters ledger stack).start frame.key.1 frame.key.2 := by
  simp only [executePostedVaa, except_bind_eq_ok, Rust.pure_eq_ok] at h
  obtain ⟨-, -, ⟨ledger'', vaa, record, remaining⟩, haccounts, payload, -, -, -, heq⟩ := h
  cases heq
  obtain ⟨hvaa, hclaim, hlt⟩ := tryAccounts_ok haccounts
  obtain ⟨hrecord, hsequence, hexecuted, hstored⟩ := loadClaim_ok hclaim
  refine ⟨vaa, hvaa, rfl, ?_, fun stack => ?_⟩
  · show ledger.sequence vaa.emitterAddress < vaa.sequence.toNat
    rw [← hrecord]
    exact hlt
  · have hseq : Ledger.sequence
        { ledger'' with executed := (vaa.emitterAddress, vaa.sequence.toNat) :: ledger''.executed } =
          ledger.sequence := hsequence
    rw [counters, hseq]
    simp only [hexecuted, hstored]
    rfl

/-! ## Runs -/

/-- The VAA that the innermost call is about to make the program execute. -/
def nestedVaa (env : Env) (s : State) : Option AnchorVaa :=
  match s.stack with
  | { instructions := instruction :: _, .. } :: _ =>
    if instruction.programId = ID then postedVaa env s.working instruction.accounts else none
  | _ => none

/-- A VAA that a move executes inside of others of its emitter has a smaller sequence than
each of these. -/
def NestsDown (env : Env) (s : State) : Move → Prop
  | .advance _ => ∀ vaa ∈ nestedVaa env s, ∀ frame ∈ s.stack,
      frame.emitterAddress = vaa.emitterAddress → vaa.sequence < frame.claimRecord.sequence
  | _ => True

instance (env : Env) (s : State) : ∀ m, Decidable (NestsDown env s m)
  | .advance _ => inferInstanceAs (Decidable (∀ vaa ∈ nestedVaa env s, ∀ frame ∈ s.stack,
      frame.emitterAddress = vaa.emitterAddress → vaa.sequence < frame.claimRecord.sequence))
  | .execute _ _ _ => isTrue trivial
  | .other _ => isTrue trivial
  | .commit => isTrue trivial

/-- No VAA of an emitter was executed twice, and no claim record was set back. -/
structure Ledger.Protected (ledger : Ledger) : Prop where
  executed : ledger.executed.Nodup
  stored : ledger.stored.Pairwise fun new old => new.1 = old.1 → old.2 ≤ new.2

/-- The counters of a state, and those that a failure goes back to. -/
structure State.Sound (s : State) : Prop where
  working : (counters s.working s.stack).Sound
  committed : (counters s.committed []).Sound

theorem State.Sound.protected {s : State} (h : s.Sound) :
    s.committed.Protected ∧ s.working.Protected :=
  ⟨⟨h.committed.started_nodup, h.committed.written_increasing⟩,
    ⟨h.working.started_nodup, h.working.written_increasing⟩⟩

theorem State.new_sound (accounts : Accounts) : (State.new accounts).Sound := by
  have hnew : (counters { accounts } []).Sound :=
    ⟨nofun, List.nodup_nil, nofun, List.Pairwise.nil, List.Pairwise.nil, nofun⟩
  exact ⟨hnew, hnew⟩

theorem State.Sound.advance {env : Env} {outcome : Option Accounts} {s s' : State}
    (hs : s.Sound) (hnests : NestsDown env s (.advance outcome))
    (h : (Move.advance outcome).exec env s = .ok s') : s'.Sound := by
  obtain ⟨committed, working, stack⟩ := s
  cases stack with
  | nil =>
    cases h
    exact hs
  | cons frame frames =>
    obtain ⟨height, accounts, remaining, emitter, record, instructions⟩ := frame
    cases instructions with
    | nil =>
      cases h
      refine ⟨?_, hs.committed⟩
      show (counters (Frame.exit _ working) frames).Sound
      rw [counters_exit]
      exact hs.working.finish
    | cons instruction instructions =>
      simp only [Move.exec, except_bind_eq_ok] at h
      obtain ⟨-, -, h⟩ := h
      split at h
      · next hself =>
        simp only [except_bind_eq_ok, Rust.pure_eq_ok] at h
        obtain ⟨⟨working', callee⟩, hcall, rfl⟩ := h
        obtain ⟨vaa, hvaa, hkey, hlt, hcounters⟩ := executePostedVaa_ok hcall
        refine ⟨?_, hs.committed⟩
        show (counters working' (callee :: _)).Sound
        rw [hcounters]
        refine hs.working.start hlt fun x hx hemitter => ?_
        obtain ⟨f, hf, rfl⟩ := List.mem_map.mp hx
        have hnested : nestedVaa env ⟨committed, working,
            ⟨height, accounts, remaining, emitter, record, instruction :: instructions⟩ :: frames⟩ =
              some vaa := (if_pos hself.1).trans hvaa
        rw [hkey] at hemitter ⊢
        exact hnests vaa hnested f hf hemitter
      · simp only [except_bind_eq_ok, Rust.pure_eq_ok] at h
        obtain ⟨accounts, -, rfl⟩ := h
        exact ⟨hs.working, hs.committed⟩

/-- Every move that nests down keeps the counters sound. -/
theorem State.Sound.next {env : Env} {m : Move} {s s' : State} (hs : s.Sound)
    (hnests : NestsDown env s m) (h : next env m s = .ok s') : s'.Sound := by
  unfold RemoteExecutor.next at h
  split at h
  · next s'' hexec =>
    cases h
    obtain ⟨committed, working, stack⟩ := s
    cases m with
    | execute height accounts data =>
      cases stack with
      | nil =>
        simp only [Move.exec, except_bind_eq_ok, Rust.pure_eq_ok] at hexec
        obtain ⟨⟨working', frame⟩, hcall, rfl⟩ := hexec
        obtain ⟨-, -, -, hlt, hcounters⟩ := executePostedVaa_ok hcall
        refine ⟨?_, hs.committed⟩
        show (counters working' [frame]).Sound
        rw [hcounters]
        refine hs.working.start hlt ?_
        intro frame hframe
        cases hframe
      | cons frame frames =>
        cases hexec
        exact hs
    | other outcome =>
      cases stack with
      | nil =>
        simp only [Move.exec, except_bind_eq_ok, Rust.pure_eq_ok] at hexec
        obtain ⟨accounts, -, rfl⟩ := hexec
        exact ⟨hs.working, hs.committed⟩
      | cons frame frames =>
        cases hexec
        exact hs
    | advance outcome => exact hs.advance hnests hexec
    | commit =>
      cases stack with
      | nil =>
        cases hexec
        exact ⟨hs.working, hs.working⟩
      | cons frame frames =>
        cases hexec
        exact hs
  · cases h
    exact ⟨hs.committed, hs.committed⟩

/-- **Replay protection.** In a run in which VAAs nest down, no VAA is executed twice and
no claim record is set back, in committed transactions or in the one that runs. -/
theorem replay_protection (env : Env) (accounts : Accounts) (moves : List Move)
    (h : Along (next env) (NestsDown env) (State.new accounts) moves) :
    Always (next env) (fun s => s.committed.Protected ∧ s.working.Protected)
      (State.new accounts) moves := by
  have hsound : Always (next env) State.Sound (State.new accounts) moves :=
    always_of_along (State.new_sound accounts) (fun _ _ _ hs hq hexec => hs.next hq hexec) h
  exact hsound.mono fun _ hs => hs.protected

/-! ### Runs with nested VAAs

The parameters are those of the pythnet build. The addresses are those that
`find_program_address` gives for the emitter of the run. -/

def exEmitter : Pubkey := ⟨List.replicate 32 7, List.length_replicate⟩

def exOwner : Pubkey :=
  ⟨[238, 106, 51, 154, 165, 236, 145, 158, 20, 176, 156, 210, 101, 132, 136, 107, 95, 235, 248, 189,
    230, 34, 185, 117, 208, 26, 214, 142, 191, 11, 208, 35], rfl⟩

def exClaimRecord : Pubkey :=
  ⟨[255, 68, 196, 92, 139, 1, 213, 84, 135, 43, 160, 71, 45, 221, 201, 221, 224, 255, 125, 39, 161,
    183, 34, 247, 48, 151, 167, 164, 209, 40, 143, 199], rfl⟩

def exExecutorKey : Pubkey :=
  ⟨[47, 94, 223, 29, 80, 234, 135, 145, 177, 208, 3, 224, 158, 137, 181, 63, 32, 195, 209, 228, 248,
    40, 191, 254, 188, 73, 99, 15, 71, 8, 147, 221], rfl⟩

/-- The layout of a posted VAA. -/
def exVaaReader : Borsh.Reader AnchorVaa := do
  let magic ← Borsh.array 3
  let _versionAndConsistencyLevel ← Borsh.uint 2
  let _vaaTime ← Borsh.uint 4
  let _vaaSignatureAccount ← Borsh.array 32
  let _submissionTimeAndNonce ← Borsh.uint 8
  let sequence ← Borsh.uint 8
  let emitterChain ← Borsh.uint 2
  let emitterAddress ← Borsh.array 32
  let payload ← Borsh.byteVec
  return { magic := magic.val, sequence := BitVec.ofNat 64 sequence, emitterChain, emitterAddress,
           payload }

/-- At most five calls deep, and with accounts and privileges of the caller, or the signature
of the executor key. -/
def exInvokable (frame : Frame) (instruction : InstructionData) : Bool :=
  frame.height + 1 ≤ 5 && frame.accounts.any (·.pubkey = instruction.programId) &&
    instruction.accounts.all fun m =>
      frame.remainingAccounts.any (·.pubkey = m.pubkey) &&
        (!m.isSigner || m.pubkey = exExecutorKey ||
          frame.accounts.any fun a => a.pubkey = m.pubkey && a.isSigner) &&
        (!m.isWritable || frame.accounts.any fun a => a.pubkey = m.pubkey && a.isWritable)

def exEnv : Env where
  owner := exOwner
  chainId := 26
  findProgramAddress seeds :=
    if seeds = [CLAIM_RECORD_SEED, exEmitter.val] then exClaimRecord else exExecutorKey
  deserializeVaa data := (exVaaReader data).toOption.map Prod.fst
  invokable := exInvokable

def exPayer : AccountMeta where
  pubkey := PythnetSdk.HashArray.filled 32 1
  isSigner := true
  isWritable := true

/-- The address of the account with the VAA of a sequence. -/
def exVaaKey (sequence : UInt8) : Pubkey := ⟨2 :: List.replicate 31 sequence, by simp⟩

/-- The accounts for a call of the program. -/
def exAccountMetas (sequence : UInt8) : List AccountMeta :=
  [exPayer, { pubkey := exVaaKey sequence, isSigner := false },
    { pubkey := exClaimRecord, isSigner := false, isWritable := true },
    { pubkey := default, isSigner := false }]

/-- The bytes of an instruction that makes the program execute the VAA of a sequence. -/
def exInstruction (sequence : UInt8) : Bytes :=
  ID.val ++ bytesLE 4 4 ++
    ((exAccountMetas sequence).flatMap fun m =>
      m.pubkey.val ++ [m.isSigner.toUInt8, m.isWritable.toUInt8]) ++
    bytesLE 4 8 ++ EXECUTE_POSTED_VAA

/-- A posted VAA that makes the program execute other VAAs. -/
def exPosted (sequence : UInt8) (nested : List UInt8) : Account where
  owner := exOwner
  data :=
    let payload := [80, 84, 71, 77, 0, 0, 0, 26] ++ bytesLE 4 nested.length ++
      nested.flatMap exInstruction
    [118, 97, 97] ++ List.replicate 46 0 ++ bytesLE 8 sequence.toNat ++ bytesLE 2 SOLANA ++
      exEmitter.val ++ bytesLE 4 payload.length ++ payload

/-- VAA 2 makes the program execute VAA 3, and VAA 5 makes it execute VAA 4. -/
def exAccounts : Accounts := fun key =>
  if key = exVaaKey 1 then some (exPosted 1 [])
  else if key = exVaaKey 2 then some (exPosted 2 [3])
  else if key = exVaaKey 3 then some (exPosted 3 [])
  else if key = exVaaKey 4 then some (exPosted 4 [])
  else if key = exVaaKey 5 then some (exPosted 5 [4])
  else none

/-- A call of the program with the accounts for a nested one. -/
def exExecute (sequence nested : UInt8) : Move :=
  .execute 1 (exAccountMetas sequence ++ { pubkey := ID, isSigner := false } ::
    exAccountMetas nested) EXECUTE_POSTED_VAA

/-- VAAs 1, 2 with 3 inside of it, and 3. -/
def exMoves : List Move :=
  [exExecute 1 0, .advance none, .commit,
    exExecute 2 3, .advance none, .advance none, .advance none, .commit,
    exExecute 3 0, .advance none, .commit]

/-- VAAs 1, and 5 with 4 inside of it. -/
def exDownMoves : List Move :=
  [exExecute 1 0, .advance none, .commit,
    exExecute 5 4, .advance none, .advance none, .advance none, .commit]

theorem replay_protection_ex :
    Along (next exEnv) (NestsDown exEnv) (State.new exAccounts) exDownMoves ∧
      (runAll (next exEnv) (State.new exAccounts) exDownMoves).committed.stored =
        [(exEmitter, 5), (exEmitter, 4), (exEmitter, 1)] ∧
      Always (next exEnv) (fun s => s.committed.Protected ∧ s.working.Protected)
        (State.new exAccounts) exDownMoves := by
  have h : Along (next exEnv) (NestsDown exEnv) (State.new exAccounts) exDownMoves := by
    decide +kernel
  exact ⟨h, by decide +kernel, replay_protection exEnv exAccounts exDownMoves h⟩

/-- VAA 2 sets the claim record back from 3 to 2, and VAA 3 is executed again. -/
theorem replayed :
    (runAll (next exEnv) (State.new exAccounts) exMoves).committed.executed =
        [(exEmitter, 3), (exEmitter, 3), (exEmitter, 2), (exEmitter, 1)] ∧
      (runAll (next exEnv) (State.new exAccounts) exMoves).committed.stored =
        [(exEmitter, 3), (exEmitter, 2), (exEmitter, 3), (exEmitter, 1)] ∧
      ¬ Always (next exEnv) (fun s => s.committed.Protected ∧ s.working.Protected)
        (State.new exAccounts) exMoves := by
  have hexecuted : (runAll (next exEnv) (State.new exAccounts) exMoves).committed.executed =
      [(exEmitter, 3), (exEmitter, 3), (exEmitter, 2), (exEmitter, 1)] := by
    decide +kernel
  refine ⟨hexecuted, by decide +kernel, fun h => ?_⟩
  have hnodup := h.last.1.executed
  rw [hexecuted] at hnodup
  exact (List.nodup_cons.mp hnodup).1 List.mem_cons_self

end PythCrosschain.RemoteExecutor
