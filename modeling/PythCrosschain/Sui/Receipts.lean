import PythCrosschain.Lib.ReplayCounter
import PythCrosschain.Lib.Transactions
import PythCrosschain.Sui.Governance

/-!
# Sui: receipts of governance VAAs

A programmable transaction makes receipts with `verify_vaa` and consumes them with
`execute_governance_instruction`, `authorize_upgrade` or `destroy`. A receipt can neither be
stored nor dropped, so none is left when the transaction ends. A command that aborts undoes the
whole transaction.

The emitter is compared when the receipt is made, the sequence when it is consumed. The results
are:

- `executeGovernanceInstruction_ok` and `authorizeUpgrade_ok`: what consuming a receipt does;
- `runCommand_sound`: what one command preserves when transfers are quiet;
- `governed_receipts`: in every run of transactions with quiet transfers, every instruction takes
  effect under the source of its VAA, and no VAA twice;
- `governed_receipts_fail`: both fail without that condition.
-/

namespace PythCrosschain.Sui

open Move

/-! ## Transactions -/

structure VaaId where
  source : DataSource
  sequence : U64
deriving DecidableEq

def VAA.id (vaa : VAA) : VaaId where
  source := vaa.source
  sequence := vaa.sequence

/-- A receipt, with the VAA that it was made from. -/
structure Held where
  vaa : VAA
  receipt : WormholeVAAVerificationReceipt
  made : receipt = vaa.receipt

/-- An instruction that took effect: its VAA, and the source that governed at this moment. -/
structure Effect where
  vaa : VaaId
  governedBy : DataSource
deriving DecidableEq

/-- The state, and the instructions that took effect. -/
structure Ledger where
  state : State
  effects : List Effect := []

/-- A ledger within a transaction, with the receipts that are not consumed. -/
structure Frame extends Ledger where
  held : List Held := []

/-- A command about a VAA that Wormhole has verified, or about the `i`-th receipt.
`capAuthorizes` is whether the upgrade capability allows an upgrade. -/
inductive Command where
  | verifyVaa (verifiedVaa : VAA)
  | executeGovernanceInstruction (i : ℕ)
  | authorizeUpgrade (i : ℕ) (capAuthorizes : Bool)
  | destroy (i : ℕ)

/-- The `i`-th receipt, and the other ones. -/
def takeOut (held : List Held) (i : ℕ) : Result (Held × List Held) :=
  match held[i]? with
  | some h => .ok (h, held.eraseIdx i)
  | none => .error .external

section

variable (chainId : U64)

/-- The frame after a receipt took effect. -/
def Frame.afterEffect (f : Frame) (h : Held) (rest : List Held) (state : State) : Frame where
  state := state
  effects := f.effects ++ [⟨h.vaa.id, f.state.governanceDataSource⟩]
  held := rest

def runCommand (f : Frame) : Command → Result Frame
  | .verifyVaa verifiedVaa =>
    match h : verifyVaa f.state verifiedVaa with
    | .ok receipt =>
      have made : receipt = verifiedVaa.receipt := by
        simp only [verifyVaa, except_bind_eq_ok, Move.pure_eq_ok] at h
        obtain ⟨_, _, _, _, rfl⟩ := h
        rfl
      return { f with held := f.held ++ [⟨verifiedVaa, receipt, made⟩] }
    | .error abort => .error abort
  | .executeGovernanceInstruction i => do
    let (h, rest) ← takeOut f.held i
    let state ← executeGovernanceInstruction chainId h.receipt f.state
    return f.afterEffect h rest state
  | .authorizeUpgrade i capAuthorizes => do
    let (h, rest) ← takeOut f.held i
    let (state, _) ← ContractUpgrade.authorizeUpgrade chainId h.receipt capAuthorizes f.state
    return f.afterEffect h rest state
  | .destroy i => do
    let (_, rest) ← takeOut f.held i
    return { f with held := rest }

/-- The commands of a transaction, which all succeed or have no effect. -/
def runTransaction (commands : List Command) (l : Ledger) : Result Ledger := do
  let f ← commands.foldlM (runCommand chainId) { l with held := [] }
  if f.held.isEmpty then return f.toLedger else .error .external

end

/-! ## What consuming a receipt does -/

/-- The source and the initial sequence that a payload sets, where its instruction is to set
them. -/
def transferOf (chainId : U64) (payload : Bytes) : Option (DataSource × U64) := do
  let instruction ← (GovernanceInstruction.fromByteVec chainId payload).toOption
  guard (instruction.action = .setGovernanceDataSource)
  (Cursor.all takeGovernanceDataSource instruction.payload).toOption

section

variable {chainId : U64} {s s' : State} {receipt : WormholeVAAVerificationReceipt}

theorem transferOf_eq_some {payload : Bytes} {transfer : DataSource × U64} :
    transferOf chainId payload = some transfer ↔
      ∃ instruction, GovernanceInstruction.fromByteVec chainId payload = .ok instruction ∧
        instruction.action = .setGovernanceDataSource ∧
        Cursor.all takeGovernanceDataSource instruction.payload = .ok transfer := by
  simp only [transferOf, Option.bind_eq_bind, Option.bind_eq_some_iff, except_toOption_eq_some,
    Option.guard_eq_some']
  constructor
  · rintro ⟨instruction, hpayload, _, haction, htransfer⟩
    exact ⟨instruction, hpayload, haction, htransfer⟩
  · rintro ⟨instruction, hpayload, haction, htransfer⟩
    exact ⟨instruction, hpayload, (), haction, htransfer⟩

/-- The source that governs and the sequence number are as before. -/
def SameGuard (s s' : State) : Prop :=
  s'.governanceDataSource = s.governanceDataSource ∧
    s'.lastExecutedGovernanceSequence = s.lastExecutedGovernanceSequence

/-- Only one action changes the source that governs, or the sequence number. -/
theorem executeAction_ok {instruction : GovernanceInstruction}
    (h : executeAction instruction s = .ok s') :
    (instruction.action ≠ .setGovernanceDataSource ∧ SameGuard s s') ∨
    ∃ transfer, instruction.action = .setGovernanceDataSource ∧
      Cursor.all takeGovernanceDataSource instruction.payload = .ok transfer ∧
      s'.governanceDataSource = transfer.1 ∧ s'.lastExecutedGovernanceSequence = transfer.2 := by
  unfold executeAction at h
  split at h
  · exact absurd h nofun
  · next haction =>
    obtain ⟨transfer, htransfer, h⟩ := except_bind_eq_ok.mp h
    cases h
    exact .inr ⟨transfer, haction, htransfer, rfl, rfl⟩
  · next haction =>
    simp only [setDataSources, except_bind_eq_ok] at h
    obtain ⟨_, _, _, _, h⟩ := h
    cases h
    exact .inl ⟨by simp [haction], rfl, rfl⟩
  · next haction =>
    simp only [setUpdateFee, except_bind_eq_ok] at h
    obtain ⟨_, _, _, _, _, _, _, _, h⟩ := h
    cases h
    exact .inl ⟨by simp [haction], rfl, rfl⟩
  · next haction =>
    obtain ⟨_, _, h⟩ := except_bind_eq_ok.mp h
    cases h
    exact .inl ⟨by simp [haction], rfl, rfl⟩
  · next haction =>
    simp only [setFeeRecipient, except_bind_eq_ok] at h
    obtain ⟨_, _, _, _, h⟩ := h
    split at h
    · cases h
      exact .inl ⟨by simp [haction], rfl, rfl⟩
    · exact absurd h nofun

/-- An instruction takes effect ahead of the sequence number, and sets the number to its own
sequence unless it is a transfer. -/
theorem executeGovernanceInstruction_ok
    (h : executeGovernanceInstruction chainId receipt s = .ok s') :
    s.lastExecutedGovernanceSequence < receipt.sequence ∧
      ((s'.governanceDataSource = s.governanceDataSource ∧
          s'.lastExecutedGovernanceSequence = receipt.sequence) ∨
        ∃ transfer, transferOf chainId receipt.payload = some transfer ∧
          s'.governanceDataSource = transfer.1 ∧
          s'.lastExecutedGovernanceSequence = transfer.2) := by
  simp only [executeGovernanceInstruction, except_bind_eq_ok, assert_eq_ok] at h
  obtain ⟨_, _, _, hahead, instruction, hpayload, haction⟩ := h
  refine ⟨hahead, ?_⟩
  rcases executeAction_ok haction with ⟨-, hsource, hsequence⟩ | ⟨transfer, hset, htransfer, hto⟩
  · exact .inl ⟨hsource, hsequence⟩
  · exact .inr ⟨transfer, transferOf_eq_some.mpr ⟨instruction, hpayload, hset, htransfer⟩, hto⟩

theorem authorizeUpgrade_ok {capAuthorizes : Bool} {digest : Bytes32}
    (h : ContractUpgrade.authorizeUpgrade chainId receipt capAuthorizes s = .ok (s', digest)) :
    s.lastExecutedGovernanceSequence < receipt.sequence ∧
      s'.governanceDataSource = s.governanceDataSource ∧
      s'.lastExecutedGovernanceSequence = receipt.sequence := by
  simp only [ContractUpgrade.authorizeUpgrade, except_bind_eq_ok, assert_eq_ok] at h
  obtain ⟨_, hahead, digest', _, h⟩ := h
  split at h
  · cases h
    exact ⟨hahead, rfl, rfl⟩
  · exact absurd h nofun

end

/-! ## Quiet transfers -/

section

variable (chainId : U64)

/-- No other receipt can let an instruction of another source take effect later, and no VAA of
the new source that took effect, the one of the transfer included, is ahead of the initial
sequence. -/
def Quiet (f : Frame) (h : Held) (others : List Held) (transfer : DataSource × U64) : Prop :=
  (∀ other ∈ others, other.vaa.source ≠ transfer.1 → other.receipt.sequence ≤ transfer.2) ∧
  ∀ id ∈ f.effects.map Effect.vaa ++ [h.vaa.id], id.source = transfer.1 → id.sequence ≤ transfer.2

/-- If the command consumes a receipt ahead of the sequence number whose instruction is a
transfer, then the transfer is quiet. -/
def CommandIsQuiet (f : Frame) : Command → Prop
  | .executeGovernanceInstruction i =>
    ∀ h ∈ f.held[i]?, f.state.lastExecutedGovernanceSequence < h.receipt.sequence →
      ∀ transfer ∈ transferOf chainId h.receipt.payload, Quiet f h (f.held.eraseIdx i) transfer
  | _ => True

/-- Every command that a transaction gets to is quiet. -/
def CommandsAreQuiet : Frame → List Command → Prop
  | _, [] => True
  | f, command :: commands =>
    CommandIsQuiet chainId f command ∧
      ∀ f' ∈ (runCommand chainId f command).toOption, CommandsAreQuiet f' commands

def TransactionIsQuiet (l : Ledger) (commands : List Command) : Prop :=
  CommandsAreQuiet chainId { l with held := [] } commands

instance (f : Frame) (h : Held) (others : List Held) (transfer : DataSource × U64) :
    Decidable (Quiet f h others transfer) := inferInstanceAs (Decidable (_ ∧ _))

instance decidableCommandIsQuiet (f : Frame) :
    (command : Command) → Decidable (CommandIsQuiet chainId f command)
  | .executeGovernanceInstruction i =>
    inferInstanceAs (Decidable (∀ h ∈ f.held[i]?,
      f.state.lastExecutedGovernanceSequence < h.receipt.sequence →
        ∀ transfer ∈ transferOf chainId h.receipt.payload,
          Quiet f h (f.held.eraseIdx i) transfer))
  | .verifyVaa _ => isTrue trivial
  | .authorizeUpgrade _ _ => isTrue trivial
  | .destroy _ => isTrue trivial

instance decidableCommandsAreQuiet :
    (f : Frame) → (commands : List Command) → Decidable (CommandsAreQuiet chainId f commands)
  | _, [] => isTrue trivial
  | f, command :: commands =>
    have := fun f' => decidableCommandsAreQuiet f' commands
    inferInstanceAs (Decidable (CommandIsQuiet chainId f command ∧
      ∀ f' ∈ (runCommand chainId f command).toOption, CommandsAreQuiet chainId f' commands))

instance (l : Ledger) (commands : List Command) :
    Decidable (TransactionIsQuiet chainId l commands) :=
  decidableCommandsAreQuiet chainId _ commands

end

/-! ## What a command preserves -/

def VaaId.pair (id : VaaId) : DataSource × ℕ := (id.source, id.sequence.toNat)

/-- The replay protection of a frame. -/
def deferredOf (f : Frame) : Deferred DataSource where
  source := f.state.governanceDataSource
  last := f.state.lastExecutedGovernanceSequence.toNat
  held := { m | ∃ h ∈ f.held, m = h.vaa.id.pair }
  executed := f.effects.map fun e => e.vaa.pair

/-- The replay protection is sound, and every instruction took effect under its source. -/
structure Sound (f : Frame) : Prop where
  counter : (deferredOf f).Sound
  governed : ∀ e ∈ f.effects, e.vaa.source = e.governedBy

section

variable {chainId : U64} {f f' : Frame}

theorem takeOut_eq_ok {held rest : List Held} {i : ℕ} {h : Held}
    (htake : takeOut held i = .ok (h, rest)) :
    held[i]? = some h ∧ rest = held.eraseIdx i ∧ h ∈ held ∧ ∀ other ∈ rest, other ∈ held := by
  unfold takeOut at htake
  split at htake
  · next r hr =>
    cases htake
    exact ⟨hr, rfl, List.mem_of_getElem? hr, fun other => List.mem_of_mem_eraseIdx⟩
  · exact absurd htake nofun

theorem Held.sequence_eq (h : Held) : h.receipt.sequence = h.vaa.id.sequence := by
  rw [h.made]
  rfl

/-- Consuming a receipt ahead of the sequence number, by an instruction that is no transfer. -/
theorem Sound.execute (hf : Sound f) {h : Held} {rest : List Held} {state : State}
    (hmem : h ∈ f.held) (hrest : ∀ other ∈ rest, other ∈ f.held)
    (hahead : f.state.lastExecutedGovernanceSequence < h.receipt.sequence)
    (hsource : state.governanceDataSource = f.state.governanceDataSource)
    (hsequence : state.lastExecutedGovernanceSequence = h.receipt.sequence) :
    Sound (f.afterEffect h rest state) := by
  have hheld : h.vaa.id.pair ∈ (deferredOf f).held := ⟨h, hmem, rfl⟩
  have hlast : (deferredOf f).last < h.vaa.id.pair.2 :=
    BitVec.lt_def.mp (h.sequence_eq ▸ hahead)
  have hgoverns : h.vaa.source = f.state.governanceDataSource := hf.counter.governs hheld hlast
  have hmove : (deferredOf f).Move { deferredOf f with
      last := h.vaa.id.pair.2
      held := { m | ∃ other ∈ rest, m = other.vaa.id.pair }
      executed := (deferredOf f).executed ++ [h.vaa.id.pair] } := by
    refine .execute hheld hlast ?_
    rintro m ⟨other, hother, rfl⟩
    exact ⟨other, hrest other hother, rfl⟩
  refine ⟨?_, ?_⟩
  · have hsound := hmove.sound hf.counter
    simpa only [deferredOf, Frame.afterEffect, hsource, hsequence, h.sequence_eq, List.map_append,
      List.map_cons, List.map_nil, VaaId.pair] using hsound
  · intro e he
    rcases List.mem_append.mp he with he | he
    · exact hf.governed e he
    · cases List.mem_singleton.mp he
      exact hgoverns

/-- After its own move, a quiet transfer hands over to the new source. -/
theorem Sound.transfer {h : Held} {rest : List Held} {state state' : State}
    (hf : Sound (f.afterEffect h rest state)) {transfer : DataSource × U64}
    (hquiet : Quiet f h rest transfer) (hsource : state'.governanceDataSource = transfer.1)
    (hsequence : state'.lastExecutedGovernanceSequence = transfer.2) :
    Sound (f.afterEffect h rest state') := by
  have hmove : (deferredOf (f.afterEffect h rest state)).Move
      (deferredOf (f.afterEffect h rest state')) := by
    have hto : deferredOf (f.afterEffect h rest state')
        = { deferredOf (f.afterEffect h rest state) with
            source := transfer.1
            last := transfer.2.toNat } := by
      simp only [deferredOf, Frame.afterEffect, hsource, hsequence]
    rw [hto]
    refine .handOver (fun m hm => hm) ?_ fun n hn => ?_
    · rintro m ⟨other, hother, rfl⟩ hne
      exact BitVec.le_def.mp (other.sequence_eq ▸ hquiet.1 other hother hne)
    · obtain ⟨e, he, hpair⟩ := List.mem_map.mp hn
      obtain ⟨hid, rfl⟩ := Prod.mk.inj hpair
      have hmem : e.vaa ∈ f.effects.map Effect.vaa ++ [h.vaa.id] := by
        have hmap := List.mem_map_of_mem (f := Effect.vaa) he
        rwa [Frame.afterEffect, List.map_append] at hmap
      exact BitVec.le_def.mp (hquiet.2 e.vaa hmem hid)
  exact ⟨hmove.sound hf.counter, hf.governed⟩

/-- **What one command preserves when transfers are quiet.** -/
theorem runCommand_sound {command : Command} (hf : Sound f)
    (hquiet : CommandIsQuiet chainId f command) (hrun : runCommand chainId f command = .ok f') :
    Sound f' := by
  cases command with
  | verifyVaa verifiedVaa =>
    simp only [runCommand] at hrun
    split at hrun
    · next receipt hverify =>
      cases hrun
      simp only [verifyVaa, except_bind_eq_ok, assert_eq_ok] at hverify
      obtain ⟨_, _, _, hsource, hreceipt⟩ := hverify
      have made : receipt = verifiedVaa.receipt := (Except.ok.inj hreceipt).symm
      have hmove : (deferredOf f).Move { deferredOf f with
          held := { m | ∃ h ∈ f.held ++ [⟨verifiedVaa, receipt, made⟩], m = h.vaa.id.pair } } := by
        refine .hold ?_
        rintro m ⟨h, hh, rfl⟩
        rcases List.mem_append.mp hh with hh | hh
        · exact .inl ⟨h, hh, rfl⟩
        · cases List.mem_singleton.mp hh
          exact .inr hsource.symm
      exact ⟨hmove.sound hf.counter, hf.governed⟩
    · exact absurd hrun nofun
  | executeGovernanceInstruction i =>
    simp only [runCommand, except_bind_eq_ok] at hrun
    obtain ⟨⟨h, rest⟩, htake, state, hexecute, hrun⟩ := hrun
    cases hrun
    obtain ⟨hget, hrest, hmem, hsub⟩ := takeOut_eq_ok htake
    obtain ⟨hahead, ⟨hsource, hsequence⟩ | ⟨transfer, htransfer, hsource, hsequence⟩⟩ :=
      executeGovernanceInstruction_ok hexecute
    · exact hf.execute hmem hsub hahead hsource hsequence
    · let executed : State := { f.state with
        lastExecutedGovernanceSequence := h.receipt.sequence }
      have hexecuted : Sound (f.afterEffect h rest executed) :=
        hf.execute hmem hsub hahead rfl rfl
      have hq : Quiet f h rest transfer := hrest ▸ hquiet h hget hahead transfer htransfer
      exact hexecuted.transfer hq hsource hsequence
  | authorizeUpgrade i capAuthorizes =>
    simp only [runCommand, except_bind_eq_ok] at hrun
    obtain ⟨⟨h, rest⟩, htake, ⟨state, digest⟩, hauthorize, hrun⟩ := hrun
    cases hrun
    obtain ⟨-, -, hmem, hsub⟩ := takeOut_eq_ok htake
    obtain ⟨hahead, hsource, hsequence⟩ := authorizeUpgrade_ok hauthorize
    exact hf.execute hmem hsub hahead hsource hsequence
  | destroy i =>
    simp only [runCommand, except_bind_eq_ok] at hrun
    obtain ⟨⟨h, rest⟩, htake, hrun⟩ := hrun
    cases hrun
    obtain ⟨-, -, -, hsub⟩ := takeOut_eq_ok htake
    have hmove : (deferredOf f).Move { deferredOf f with
        held := { m | ∃ other ∈ rest, m = other.vaa.id.pair } } := by
      refine .hold ?_
      rintro m ⟨other, hother, rfl⟩
      exact .inl ⟨other, hsub other hother, rfl⟩
    exact ⟨hmove.sound hf.counter, hf.governed⟩

/-- What the commands of a transaction preserve, from any frame on. -/
theorem runCommands_sound {commands : List Command} (hf : Sound f)
    (hquiet : CommandsAreQuiet chainId f commands)
    (hrun : commands.foldlM (runCommand chainId) f = .ok f') : Sound f' := by
  induction commands generalizing f with
  | nil =>
    cases hrun
    exact hf
  | cons command commands ih =>
    rw [List.foldlM_cons] at hrun
    obtain ⟨f₁, hcommand, hrun⟩ := except_bind_eq_ok.mp hrun
    obtain ⟨hfirst, hothers⟩ := hquiet
    have hf₁ := runCommand_sound hf hfirst hcommand
    exact ih hf₁ (hothers f₁ (except_toOption_eq_some.mpr hcommand)) hrun

/-- The ledger between transactions, when no receipt is left. -/
def Ledger.Sound (l : Ledger) : Prop := Sui.Sound { l with held := [] }

theorem runTransaction_sound {l l' : Ledger} {commands : List Command} (hl : l.Sound)
    (hquiet : TransactionIsQuiet chainId l commands)
    (hrun : runTransaction chainId commands l = .ok l') : l'.Sound := by
  obtain ⟨f, hcommands, hrun⟩ := except_bind_eq_ok.mp hrun
  split at hrun
  · next hheld =>
    cases hrun
    have hf := runCommands_sound hl hquiet hcommands
    have hframe : f = { f.toLedger with held := [] } := by
      rw [← List.isEmpty_iff.mp hheld]
    exact hframe ▸ hf
  · exact absurd hrun nofun

end

/-! ## Runs -/

/-- Every instruction took effect under the source of its VAA, and no VAA twice. -/
def Governed (l : Ledger) : Prop :=
  (∀ e ∈ l.effects, e.vaa.source = e.governedBy) ∧ (l.effects.map Effect.vaa).Nodup

instance (l : Ledger) : Decidable (Governed l) := inferInstanceAs (Decidable (_ ∧ _))

theorem Ledger.Sound.governed {l : Ledger} (hl : l.Sound) : Governed l := by
  obtain ⟨hcounter, hgoverned⟩ := hl
  refine ⟨hgoverned, ?_⟩
  have hnodup : ((l.effects.map Effect.vaa).map VaaId.pair).Nodup := by
    rw [List.map_map]
    exact hcounter.nodup
  exact hnodup.of_map

/-- **Receipts and transfers.** In a run of transactions from a state in which no instruction
took effect, if every transfer is quiet, every instruction takes effect under the source of its
VAA and no VAA takes effect twice. -/
theorem governed_receipts (chainId : U64) (state : State) (transactions : List (List Command))
    (h : Along (runTransaction chainId) (TransactionIsQuiet chainId) { state } transactions) :
    Always (runTransaction chainId) Governed { state } transactions := by
  have hinit : Ledger.Sound { state } := by
    refine ⟨⟨List.nodup_nil, fun n hn => absurd hn List.not_mem_nil, ?_⟩, fun e he => ?_⟩
    · rintro m ⟨receipt, hreceipt, -⟩
      exact absurd hreceipt List.not_mem_nil
    · exact absurd he List.not_mem_nil
  have hsound : Always (runTransaction chainId) Ledger.Sound { state } transactions :=
    always_of_along hinit (fun _ _ _ hl hq hrun => runTransaction_sound hl hq hrun) h
  exact hsound.mono fun _ => Ledger.Sound.governed

/-! ### A receipt that is kept over a transfer -/

def exGovernanceA : DataSource := ⟨1, PythnetSdk.HashArray.filled 32 0xa⟩
def exGovernanceB : DataSource := ⟨1, PythnetSdk.HashArray.filled 32 0xb⟩

/-- A VAA with an instruction for all chains. -/
def exVaa (source : DataSource) (sequence : U64) (action : UInt8) (payload : Bytes) : VAA where
  emitterChain := source.emitterChain.setWidth 16
  emitterAddress := source.emitterAddress
  sequence := sequence
  payload := MAGIC ++ MODULE :: [action, 0, 0] ++ payload
  digest := PythnetSdk.HashArray.filled 32 0

def exSetStalePriceThreshold (source : DataSource) (sequence : U64) : VAA :=
  exVaa source sequence 4 (bytesBE 8 60)

/-- A hands over to B, with the initial sequence. -/
def exHandOver (sequence : U64) (initialSequence : ℕ) : VAA :=
  exVaa exGovernanceA sequence 1
    (bytesBE 2 1 ++ exGovernanceB.emitterAddress.val ++ bytesBE 8 initialSequence)

def exState : State where
  governanceDataSource := exGovernanceA
  stalePriceThreshold := 60
  baseUpdateFee := 1
  feeRecipientAddress := PythnetSdk.HashArray.filled 32 1
  lastExecutedGovernanceSequence := 0
  dataSources := []
  latest := true
  authorizedDigest := PythnetSdk.HashArray.filled 32 0

/-- A holds a receipt while it hands over to B. To consume it after that fails, and the second
transaction with it; in the third one it is destroyed. -/
def exQuietTransactions : List (List Command) :=
  [[.verifyVaa (exSetStalePriceThreshold exGovernanceA 5), .executeGovernanceInstruction 0],
    [.verifyVaa (exSetStalePriceThreshold exGovernanceA 3), .verifyVaa (exHandOver 6 3),
      .executeGovernanceInstruction 1, .executeGovernanceInstruction 0],
    [.verifyVaa (exSetStalePriceThreshold exGovernanceA 3), .verifyVaa (exHandOver 6 3),
      .executeGovernanceInstruction 1, .verifyVaa (exSetStalePriceThreshold exGovernanceB 4),
      .executeGovernanceInstruction 1, .destroy 0]]

/-- The receipt that is held is not ahead of the initial sequence: the transfer is quiet. -/
theorem governed_receipts_quiet :
    Always (runTransaction 21) Governed { state := exState } exQuietTransactions ∧
      (runAll (runTransaction 21) { state := exState } exQuietTransactions).effects
        = [⟨⟨exGovernanceA, 5⟩, exGovernanceA⟩, ⟨⟨exGovernanceA, 6⟩, exGovernanceA⟩,
          ⟨⟨exGovernanceB, 4⟩, exGovernanceB⟩] := by
  have hquiet : Along (runTransaction 21) (TransactionIsQuiet 21) { state := exState }
      exQuietTransactions := by
    decide +kernel
  exact ⟨governed_receipts 21 exState exQuietTransactions hquiet, by decide +kernel⟩

/-- A makes two receipts of one VAA and executes the first one, then hands over to B with the
initial sequence 0, and then the second one is executed as well. -/
theorem governed_receipts_fail :
    ∃ (chainId : U64) (state : State) (transactions : List (List Command)),
      ¬(∀ e ∈ (runAll (runTransaction chainId) { state } transactions).effects,
        e.vaa.source = e.governedBy) ∧
      ¬((runAll (runTransaction chainId) { state } transactions).effects.map Effect.vaa).Nodup := by
  let commands : List Command :=
    [.verifyVaa (exSetStalePriceThreshold exGovernanceA 5),
      .verifyVaa (exSetStalePriceThreshold exGovernanceA 5), .verifyVaa (exHandOver 6 0),
      .executeGovernanceInstruction 0, .executeGovernanceInstruction 1,
      .executeGovernanceInstruction 0]
  have heffects : (runAll (runTransaction 21) { state := exState } [commands]).effects
      = [⟨⟨exGovernanceA, 5⟩, exGovernanceA⟩, ⟨⟨exGovernanceA, 6⟩, exGovernanceA⟩,
        ⟨⟨exGovernanceA, 5⟩, exGovernanceB⟩] := by decide +kernel
  refine ⟨21, exState, [commands], ?_, ?_⟩
  · rw [heffects]
    decide
  · rw [heffects]
    decide

end PythCrosschain.Sui
