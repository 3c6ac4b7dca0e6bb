import PythCrosschain.Lib.ReplayCounter
import PythCrosschain.Lib.Transactions
import PythCrosschain.Near.Receiver

/-!
# The NEAR receiver: interleaved governance

`execute_governance_instruction` promises that Wormhole verifies the VAA and that
`verify_gov_vaa_callback` is called with the answer; for a transfer, this one promises the same
for the claim and `authorize_gov_source_transfer`. Every receipt is a step of its own, and the
steps of different calls interleave in any order. Wormhole may answer anything. A callback that
fails is gone, with the state as it was.

The emitter is only checked by the call. The results are:

- `verifyGovVaaCallback_ok` and `authorizeGovSourceTransfer_eq_ok`: what the callbacks do;
- `exec_sound`: what one step preserves when transfers are quiet;
- `governed_interleavings`: in every interleaving with quiet transfers, every action takes
  effect under the source of its VAA and at most once, and transfers raise the index;
- `governed_interleavings_fail`: actions of another source, and of an executed VAA, take effect
  without that condition.
-/

namespace PythCrosschain.Near

/-! ## Receipts -/

structure VaaId where
  source : Source
  sequence : BitVec 64
deriving DecidableEq

def Vaa.id (vaa : Vaa) : VaaId where
  source := vaa.source
  sequence := vaa.sequence

/-- What is promised and not done yet. The VAA that authorizes a transfer is kept with it. -/
inductive Receipt where
  | verifyVaa (vaa : List Char) (deposit : BitVec 128)
  | verifyGovVaaCallback (vaa : List Char) (deposit : BitVec 128) (success : Bool)
  | verifyClaimVaa (authorizedBy : VaaId) (claim : ClaimPromise) (deposit : BitVec 128)
  | authorizeGovSourceTransfer (authorizedBy : VaaId) (claim : ClaimPromise)
      (deposit : BitVec 128) (success : Bool)

/-- An action that took effect: its VAA, and the source that governed at this moment. -/
structure Effect where
  vaa : VaaId
  governedBy : Source
deriving DecidableEq

/-- The contract and its receipts, with the VAAs whose callbacks succeeded, the actions that
took effect, and the index before and after every transfer. -/
structure System where
  contract : Pyth
  pending : List Receipt := []
  executed : List VaaId := []
  effects : List Effect := []
  transfers : List (BitVec 64 × BitVec 64) := []

/-- A call by anyone, the answer of Wormhole for the `i`-th receipt, or the `i`-th receipt as a
callback, with the storage used when it starts and when its action is done. -/
inductive Step where
  | call (vaa : List Char) (deposit : BitVec 128)
  | wormhole (i : Nat) (success : Bool)
  | callback (i : Nat) (before after : BitVec 64)

inductive Refused where
  | call (e : Rust.Failure Error)
  | noSuchReceipt

/-- The `i`-th receipt, and the other ones. -/
def takeOut (pending : List Receipt) (i : Nat) : Except Refused (Receipt × List Receipt) :=
  match pending[i]? with
  | some receipt => .ok (receipt, pending.eraseIdx i)
  | none => .error .noSuchReceipt

/-- The VAA of a text. -/
def readVaa (host : Host) (text : List Char) : Option Vaa := (Hex.decode text).bind host.fromSlice

namespace System

variable (host : Host)

/-- What `verify_gov_vaa_callback` leaves. -/
def afterCallback (s : System) (rest : List Receipt) (vaa : List Char) (deposit : BitVec 128)
    (result : Result (Pyth × Option ClaimPromise)) : System :=
  let executed := s.executed ++ ((readVaa host vaa).map Vaa.id).toList
  match result with
  | .error _ => { s with pending := rest }
  | .ok (contract, none) =>
    { s with
      contract := contract
      pending := rest
      executed := executed
      effects := s.effects ++
        ((readVaa host vaa).map fun vaa => ⟨vaa.id, s.contract.govSource⟩).toList }
  | .ok (contract, some claim) =>
    { s with
      contract := contract
      pending := rest ++
        ((readVaa host vaa).map fun vaa => .verifyClaimVaa vaa.id claim deposit).toList
      executed := executed }

/-- What `authorize_gov_source_transfer` leaves. -/
def afterTransfer (s : System) (rest : List Receipt) (authorizedBy : VaaId)
    (result : Result Pyth) : System :=
  match result with
  | .error _ => { s with pending := rest }
  | .ok contract =>
    { s with
      contract := contract
      pending := rest
      effects := s.effects ++ [⟨authorizedBy, s.contract.govSource⟩]
      transfers := s.transfers ++
        [(s.contract.executedGovernanceChangeVaa, contract.executedGovernanceChangeVaa)] }

def exec (step : Step) (s : System) : Except Refused System :=
  match step with
  | .call vaa deposit =>
    match s.contract.executeGovernanceInstruction host vaa with
    | .ok _ => .ok { s with pending := s.pending ++ [.verifyVaa vaa deposit] }
    | .error e => .error (.call e)
  | .wormhole i success => do
    let (receipt, rest) ← takeOut s.pending i
    match receipt with
    | .verifyVaa vaa deposit =>
      return { s with pending := rest ++ [.verifyGovVaaCallback vaa deposit success] }
    | .verifyClaimVaa authorizedBy claim deposit =>
      return { s with
        pending := rest ++ [.authorizeGovSourceTransfer authorizedBy claim deposit success] }
    | _ => .error .noSuchReceipt
  | .callback i before after => do
    let (receipt, rest) ← takeOut s.pending i
    match receipt with
    | .verifyGovVaaCallback vaa deposit success =>
      return s.afterCallback host rest vaa deposit
        (s.contract.verifyGovVaaCallback host vaa success before after deposit)
    | .authorizeGovSourceTransfer authorizedBy claim deposit success =>
      return s.afterTransfer rest authorizedBy
        (s.contract.authorizeGovSourceTransfer host claim.claimVaa claim.storage success after
          deposit)
    | _ => .error .noSuchReceipt

end System

/-! ## What the callbacks do -/

/-- The instruction of a VAA, where it is for this chain. -/
def instructionOf (vaa : Vaa) : Option GovernanceInstruction :=
  (GovernanceInstruction.deserialize vaa.payload).toOption.filter fun instruction =>
    instruction.ForNear

/-- The claim in a text, and the index that it asks for. -/
def readClaim (host : Host) (text : List Char) : Option (Vaa × BitVec 64) := do
  let vaa ← readVaa host text
  let instruction ← instructionOf vaa
  match instruction.action with
  | .requestGovernanceDataSourceTransfer index => some (vaa, index.setWidth 64)
  | _ => none

section

variable {host : Host} {self self' : Pyth}

theorem instructionOf_eq_some {vaa : Vaa} {instruction : GovernanceInstruction} :
    instructionOf vaa = some instruction ↔
      GovernanceInstruction.deserialize vaa.payload = .ok instruction ∧ instruction.ForNear := by
  rw [instructionOf, Option.filter_eq_some_iff, except_toOption_eq_some, decide_eq_true_eq]

theorem readClaim_eq_some {text : List Char} {claim : Vaa} {index : BitVec 64} :
    readClaim host text = some (claim, index) ↔
      ∃ instruction dataSourceIndex, readVaa host text = some claim ∧
        instructionOf claim = some instruction ∧
        instruction.action = .requestGovernanceDataSourceTransfer dataSourceIndex ∧
        index = dataSourceIndex.setWidth 64 := by
  simp only [readClaim, Option.bind_eq_bind, Option.bind_eq_some_iff]
  constructor
  · rintro ⟨vaa, hvaa, instruction, hinstruction, h⟩
    split at h
    · next dataSourceIndex haction =>
      cases h
      exact ⟨instruction, dataSourceIndex, hvaa, hinstruction, haction, rfl⟩
    · exact absurd h nofun
  · rintro ⟨instruction, dataSourceIndex, hvaa, hinstruction, haction, rfl⟩
    refine ⟨claim, hvaa, instruction, hinstruction, ?_⟩
    rw [haction]

theorem executeGovernanceInstruction_eq_ok {text : List Char} {u : Unit} :
    self.executeGovernanceInstruction host text = .ok u ↔
      ∃ vaa, readVaa host text = some vaa ∧ self.govSource = vaa.source := by
  simp only [Pyth.executeGovernanceInstruction, except_bind_eq_ok, okOr_eq_ok, require_eq_ok,
    readVaa, Option.bind_eq_some_iff]
  constructor
  · rintro ⟨bytes, hbytes, vaa, hvaa, hsource⟩
    exact ⟨vaa, ⟨bytes, hbytes, hvaa⟩, hsource⟩
  · rintro ⟨vaa, ⟨bytes, hbytes, hvaa⟩, hsource⟩
    exact ⟨bytes, hbytes, vaa, hvaa, hsource⟩

/-- The fields that protect from replays. -/
def Pyth.SameGuard (self self' : Pyth) : Prop :=
  self'.govSource = self.govSource ∧
    self'.executedGovernanceChangeVaa = self.executedGovernanceChangeVaa ∧
    self'.executedGovernanceVaa = self.executedGovernanceVaa

theorem executeAction_sameGuard {instruction : GovernanceInstruction}
    {claimVaa : Option (List Char)}
    (h : self.executeAction instruction = .ok (self', claimVaa)) : self.SameGuard self' := by
  unfold Pyth.executeAction at h
  split at h
  · cases h
    exact ⟨rfl, rfl, rfl⟩
  · obtain ⟨updated, hfee, h⟩ := except_bind_eq_ok.mp h
    simp only [Pyth.setUpdateFee, except_bind_eq_ok] at hfee
    obtain ⟨_, _, _, _, _, _, hfee⟩ := hfee
    cases hfee
    cases h
    exact ⟨rfl, rfl, rfl⟩
  · cases h
    exact ⟨rfl, rfl, rfl⟩
  · exact absurd h nofun
  · obtain ⟨_, _, h⟩ := except_bind_eq_ok.mp h
    cases h
    exact ⟨rfl, rfl, rfl⟩
  · cases h
    exact ⟨rfl, rfl, rfl⟩

/-- A callback that succeeds is for a verified instruction ahead of the sequence number. -/
theorem verifyGovVaaCallback_ok {text : List Char} {success : Bool} {before after : BitVec 64}
    {deposit : BitVec 128} {claim : Option ClaimPromise}
    (h : self.verifyGovVaaCallback host text success before after deposit = .ok (self', claim)) :
    ∃ vaa, success = true ∧ readVaa host text = some vaa ∧ (instructionOf vaa).isSome ∧
      self.executedGovernanceVaa < vaa.sequence ∧ self'.executedGovernanceVaa = vaa.sequence ∧
      self'.govSource = self.govSource ∧
      self'.executedGovernanceChangeVaa = self.executedGovernanceChangeVaa := by
  simp only [Pyth.verifyGovVaaCallback, except_bind_eq_ok, require_eq_ok, okOr_eq_ok,
    propagate_eq_ok] at h
  obtain ⟨_, hsuccess, bytes, hbytes, vaa, hvaa, instruction, hpayload, _, hnear, _, hahead,
    ⟨updated, claimVaa⟩, haction, h⟩ := h
  obtain ⟨hsource, hchange, hsequence⟩ := executeAction_sameGuard haction
  have hread : readVaa host text = some vaa := Option.bind_eq_some_iff.mpr ⟨bytes, hbytes, hvaa⟩
  have hinstruction := instructionOf_eq_some.mpr ⟨hpayload, hnear⟩
  have hself : self' = updated := by
    cases claimVaa with
    | some claimVaa =>
      cases h
      rfl
    | none =>
      obtain ⟨_, _, h⟩ := except_bind_eq_ok.mp h
      cases h
      rfl
  subst hself
  exact ⟨vaa, hsuccess, hread, Option.isSome_iff_exists.mpr ⟨instruction, hinstruction⟩, hahead,
    hsequence, hsource, hchange⟩

/-- A transfer takes effect for a verified claim of a larger index. -/
theorem authorizeGovSourceTransfer_eq_ok {text : List Char} {storage after : BitVec 64}
    {success : Bool} {deposit : BitVec 128} :
    self.authorizeGovSourceTransfer host text storage success after deposit = .ok self' ↔
      ∃ claim index, success = true ∧ readClaim host text = some (claim, index) ∧
        self.executedGovernanceChangeVaa < index ∧
        refundStorageUsage host storage after deposit = .ok () ∧
        self' = { self with
          executedGovernanceChangeVaa := index
          executedGovernanceVaa := claim.sequence
          govSource := claim.source } := by
  simp only [Pyth.authorizeGovSourceTransfer, except_bind_eq_ok, require_eq_ok, okOr_eq_ok,
    unwrap_eq_ok, except_toOption_eq_some, readClaim_eq_some, instructionOf_eq_some, readVaa,
    Option.bind_eq_some_iff]
  constructor
  · rintro ⟨_, hsuccess, bytes, hbytes, vaa, hvaa, instruction, hpayload, h⟩
    split at h
    · next index haction =>
      simp only [except_bind_eq_ok, require_eq_ok] at h
      obtain ⟨_, hindex, _, hnear, _, hrefund, h⟩ := h
      cases h
      exact ⟨vaa, _, hsuccess, ⟨instruction, index, ⟨bytes, hbytes, hvaa⟩, ⟨hpayload, hnear⟩,
        haction, rfl⟩, hindex, hrefund, rfl⟩
    · exact absurd h nofun
  · rintro ⟨claim, _, hsuccess, ⟨instruction, index, ⟨bytes, hbytes, hvaa⟩, ⟨hpayload, hnear⟩,
      haction, rfl⟩, hindex, hrefund, rfl⟩
    refine ⟨(), hsuccess, bytes, hbytes, claim, hvaa, instruction, hpayload, ?_⟩
    simp only [haction, except_bind_eq_ok, require_eq_ok]
    exact ⟨(), hindex, (), hnear, (), hrefund, rfl⟩

end

/-! ## Quiet transfers -/

section

variable (host : Host)

/-- The VAA whose check is under way or done, where its payload is for this chain. -/
def Receipt.heldVaa : Receipt → Option Vaa
  | .verifyVaa vaa _ => (readVaa host vaa).filter fun vaa => (instructionOf vaa).isSome
  | .verifyGovVaaCallback vaa _ success =>
    if success then (readVaa host vaa).filter fun vaa => (instructionOf vaa).isSome else none
  | _ => none

/-- The claim whose check is under way or done, after the VAA that authorizes it. -/
def Receipt.heldClaim : Receipt → Option (VaaId × Vaa × BitVec 64)
  | .verifyClaimVaa authorizedBy claim _ =>
    (readClaim host claim.claimVaa).map fun claim => (authorizedBy, claim)
  | .authorizeGovSourceTransfer authorizedBy claim _ success =>
    if success then (readClaim host claim.claimVaa).map fun claim => (authorizedBy, claim) else none
  | _ => none

def Receipt.authorizedBy : Receipt → Option VaaId
  | .verifyClaimVaa authorizedBy _ _ => some authorizedBy
  | .authorizeGovSourceTransfer authorizedBy _ _ _ => some authorizedBy
  | _ => none

/-- The claim that a step transfers the governance for, the index, and the other receipts. -/
def acceptedTransfer (s : System) : Step → Option (Vaa × BitVec 64 × List Receipt)
  | .callback i _ after =>
    match s.pending[i]? with
    | some (.authorizeGovSourceTransfer _ claim deposit true) => do
      let (vaa, index) ← readClaim host claim.claimVaa
      guard (s.contract.executedGovernanceChangeVaa < index ∧
        (refundStorageUsage host claim.storage after deposit).toOption = some ())
      return (vaa, index, s.pending.eraseIdx i)
    | _ => none
  | _ => none

/-- No other receipt can let an action of another source take effect later, and no executed VAA
of the new source is ahead of the new sequence number. -/
def Quiet (s : System) (others : List Receipt) (claim : Vaa) (index : BitVec 64) : Prop :=
  (∀ receipt ∈ others, ∀ vaa ∈ receipt.heldVaa host,
    vaa.source ≠ claim.source → vaa.sequence ≤ claim.sequence) ∧
  (∀ receipt ∈ others, ∀ held ∈ receipt.heldClaim host,
    held.1.source ≠ claim.source → held.2.2 ≤ index) ∧
  ∀ id ∈ s.executed, id.source = claim.source → id.sequence ≤ claim.sequence

/-- If the step transfers the governance, then the transfer is quiet. -/
def TransferIsQuiet (s : System) (step : Step) : Prop :=
  ∀ transfer ∈ acceptedTransfer host s step, Quiet host s transfer.2.2 transfer.1 transfer.2.1

instance (s : System) (others : List Receipt) (claim : Vaa) (index : BitVec 64) :
    Decidable (Quiet host s others claim index) :=
  inferInstanceAs (Decidable (_ ∧ _ ∧ _))

instance decidableTransferIsQuiet (s : System) (step : Step) :
    Decidable (TransferIsQuiet host s step) :=
  inferInstanceAs (Decidable (∀ transfer ∈ acceptedTransfer host s step,
    Quiet host s transfer.2.2 transfer.1 transfer.2.1))

/-! ## What a step preserves -/

def VaaId.pair (id : VaaId) : Source × Nat := (id.source, id.sequence.toNat)

/-- The replay protection of a system. -/
def deferredOf (s : System) : Deferred Source where
  source := s.contract.govSource
  last := s.contract.executedGovernanceVaa.toNat
  held := { m | ∃ receipt ∈ s.pending, ∃ vaa ∈ receipt.heldVaa host, m = vaa.id.pair }
  executed := s.executed.map VaaId.pair

/-- What holds in every state of a run: the replay protection is sound, every action took effect
under its source, no VAA took effect or can start a transfer twice, and a claim of another
source has no larger index than the last transfer. -/
structure Sound (s : System) : Prop where
  counter : (deferredOf host s).Sound
  governed : ∀ e ∈ s.effects, e.vaa.source = e.governedBy
  once : (s.effects.map Effect.vaa ++ s.pending.filterMap Receipt.authorizedBy).Nodup
  known : ∀ id ∈ s.effects.map Effect.vaa ++ s.pending.filterMap Receipt.authorizedBy,
    id ∈ s.executed
  claims : ∀ receipt ∈ s.pending, ∀ held ∈ receipt.heldClaim host,
    held.1.source = s.contract.govSource ∨
      held.2.2 ≤ s.contract.executedGovernanceChangeVaa
  increasing : ∀ transfer ∈ s.transfers, transfer.1 < transfer.2

end

section

variable {host : Host} {s s' : System}

theorem takeOut_eq_ok {pending rest : List Receipt} {i : Nat} {receipt : Receipt}
    (h : takeOut pending i = .ok (receipt, rest)) :
    pending[i]? = some receipt ∧ rest = pending.eraseIdx i ∧ pending.Perm (receipt :: rest) := by
  unfold takeOut at h
  split at h
  · next r hr =>
    cases h
    obtain ⟨hi, rfl⟩ := List.getElem?_eq_some_iff.mp hr
    exact ⟨hr, rfl, (List.getElem_cons_eraseIdx_perm hi).symm⟩
  · exact absurd h nofun

/-- Other receipts, with no new claim and no new VAA of another source. -/
theorem Sound.withPending (hs : Sound host s) {pending : List Receipt}
    (hheld : ∀ receipt ∈ pending, ∀ vaa ∈ receipt.heldVaa host,
      (∃ old ∈ s.pending, vaa ∈ old.heldVaa host) ∨ vaa.source = s.contract.govSource)
    (hclaims : ∀ receipt ∈ pending, ∀ held ∈ receipt.heldClaim host,
      ∃ old ∈ s.pending, held ∈ old.heldClaim host)
    (hauthorized : (pending.filterMap Receipt.authorizedBy).Subperm
      (s.pending.filterMap Receipt.authorizedBy)) :
    Sound host { s with pending := pending } := by
  have hmove : (deferredOf host s).Move (deferredOf host { s with pending := pending }) := by
    refine .hold fun m hm => ?_
    obtain ⟨receipt, hreceipt, vaa, hvaa, rfl⟩ := hm
    rcases hheld receipt hreceipt vaa hvaa with ⟨old, hold, hvaa⟩ | hsource
    · exact .inl ⟨old, hold, vaa, hvaa, rfl⟩
    · exact .inr hsource
  obtain ⟨heffects, hpending, hdisjoint⟩ := List.nodup_append.mp hs.once
  have hsubset := hauthorized.subset
  obtain ⟨kept, hperm, hsublist⟩ := hauthorized
  refine ⟨hmove.sound hs.counter, hs.governed, ?_, ?_, ?_, hs.increasing⟩
  · exact List.nodup_append.mpr ⟨heffects, hperm.nodup_iff.mp (hpending.sublist hsublist),
      fun a ha b hb => hdisjoint a ha b (hsubset hb)⟩
  · intro id hid
    refine hs.known id (List.mem_append.mpr ?_)
    exact (List.mem_append.mp hid).imp_right fun h => hsubset h
  · intro receipt hreceipt held hheld'
    obtain ⟨old, hold, hheld'⟩ := hclaims receipt hreceipt held hheld'
    exact hs.claims old hold held hheld'

theorem filterMap_authorizedBy {pending rest : List Receipt} {receipt : Receipt}
    (h : pending.Perm (receipt :: rest)) :
    (receipt.authorizedBy.toList ++ rest.filterMap Receipt.authorizedBy).Perm
      (pending.filterMap Receipt.authorizedBy) := by
  refine List.Perm.trans ?_ (h.filterMap Receipt.authorizedBy).symm
  rw [List.filterMap_cons]
  cases receipt.authorizedBy <;> exact .refl _

/-- A receipt is gone. -/
theorem Sound.drop (hs : Sound host s) {receipt : Receipt} {rest : List Receipt}
    (hperm : s.pending.Perm (receipt :: rest)) : Sound host { s with pending := rest } := by
  have hmem : ∀ r ∈ rest, r ∈ s.pending := fun r hr => hperm.mem_iff.mpr (List.mem_cons_of_mem _ hr)
  refine hs.withPending (fun r hr vaa hvaa => .inl ⟨r, hmem r hr, hvaa⟩)
    (fun r hr held hheld => ⟨r, hmem r hr, hheld⟩) ?_
  exact (List.sublist_append_right _ _).subperm.trans (filterMap_authorizedBy hperm).subperm

/-- A receipt goes on with the same VAA, or the same claim. -/
theorem Sound.goOn (hs : Sound host s) {receipt receipt' : Receipt} {rest : List Receipt}
    (hperm : s.pending.Perm (receipt :: rest))
    (hheld : ∀ vaa ∈ receipt'.heldVaa host, vaa ∈ receipt.heldVaa host)
    (hclaim : ∀ held ∈ receipt'.heldClaim host, held ∈ receipt.heldClaim host)
    (hauthorized : receipt'.authorizedBy = receipt.authorizedBy) :
    Sound host { s with pending := rest ++ [receipt'] } := by
  have hhead : receipt ∈ s.pending := hperm.mem_iff.mpr List.mem_cons_self
  have hmem : ∀ r ∈ rest, r ∈ s.pending := fun r hr => hperm.mem_iff.mpr (List.mem_cons_of_mem _ hr)
  refine hs.withPending (fun r hr vaa hvaa => ?_) (fun r hr held hheld' => ?_) ?_
  · rcases List.mem_append.mp hr with hr | hr
    · exact .inl ⟨r, hmem r hr, hvaa⟩
    · cases List.mem_singleton.mp hr
      exact .inl ⟨receipt, hhead, hheld vaa hvaa⟩
  · rcases List.mem_append.mp hr with hr | hr
    · exact ⟨r, hmem r hr, hheld'⟩
    · cases List.mem_singleton.mp hr
      exact ⟨receipt, hhead, hclaim held hheld'⟩
  · refine List.Perm.subperm (List.Perm.trans ?_ (filterMap_authorizedBy hperm))
    rw [List.filterMap_append, ← hauthorized]
    refine List.perm_append_comm.trans ?_
    cases h : receipt'.authorizedBy <;> simp [h]

/-- A callback is done with its VAA: what it does depends on whether it succeeds, and whether
it goes on with a claim. -/
theorem Sound.afterCallback (hs : Sound host s) {vaa : List Char} {deposit : BitVec 128}
    {success : Bool} {before after : BitVec 64} {rest : List Receipt}
    (hperm : s.pending.Perm (.verifyGovVaaCallback vaa deposit success :: rest)) :
    Sound host (s.afterCallback host rest vaa deposit
      (s.contract.verifyGovVaaCallback host vaa success before after deposit)) := by
  cases h : s.contract.verifyGovVaaCallback host vaa success before after deposit with
  | error e => exact hs.drop hperm
  | ok result =>
    obtain ⟨contract, claim⟩ := result
    obtain ⟨v, hsuccess, hread, hinstruction, hahead, hsequence, hsource, hchange⟩ :=
      verifyGovVaaCallback_ok h
    have hheld : v.id.pair ∈ (deferredOf host s).held := by
      refine ⟨_, hperm.mem_iff.mpr List.mem_cons_self, v, ?_, rfl⟩
      simp [Receipt.heldVaa, hsuccess, hread, Option.filter, hinstruction]
    have hlast : (deferredOf host s).last < v.id.pair.2 := BitVec.lt_def.mp hahead
    have hgoverns : v.source = s.contract.govSource := hs.counter.governs hheld hlast
    have hnew : v.id ∉ s.executed := fun hmem =>
      hs.counter.new hheld hlast (List.mem_map_of_mem hmem)
    have hdropped := hs.drop hperm
    -- the replay protection moves in the same way with and without a claim
    have hcounter : ∀ (pending : List Receipt) (effects : List Effect),
        (∀ r ∈ pending, ∀ vaa ∈ r.heldVaa host, ∃ old ∈ rest, vaa ∈ old.heldVaa host) →
        (deferredOf host { s with
          contract := contract
          pending := pending
          executed := s.executed ++ [v.id]
          effects := effects }).Sound := by
      intro pending effects hpending
      have hmove : (deferredOf host s).Move { deferredOf host s with
          last := v.id.pair.2
          held := { m | ∃ r ∈ pending, ∃ vaa ∈ r.heldVaa host, m = vaa.id.pair }
          executed := (deferredOf host s).executed ++ [v.id.pair] } := by
        refine .execute hheld hlast ?_
        rintro m ⟨r, hr, vaa, hvaa, rfl⟩
        obtain ⟨old, hold, hvaa⟩ := hpending r hr vaa hvaa
        exact ⟨old, hperm.mem_iff.mpr (List.mem_cons_of_mem _ hold), vaa, hvaa, rfl⟩
      have hsound := hmove.sound hs.counter
      simpa only [deferredOf, hsource, hsequence, List.map_append, List.map_cons, List.map_nil,
        VaaId.pair, Vaa.id] using hsound
    have hknown : ∀ id ∈ s.effects.map Effect.vaa ++ rest.filterMap Receipt.authorizedBy,
        id ∈ s.executed ++ [v.id] := fun id hid => List.mem_append_left _ (hdropped.known id hid)
    have hfresh : v.id ∉ s.effects.map Effect.vaa ++ rest.filterMap Receipt.authorizedBy :=
      fun hmem => hnew (hdropped.known _ hmem)
    cases claim with
    | none =>
      simp only [System.afterCallback, hread, Option.map_some, Option.toList_some]
      refine ⟨hcounter _ _ fun r hr vaa hvaa => ⟨r, hr, hvaa⟩, ?_, ?_, ?_, ?_, hs.increasing⟩
      · intro e he
        rcases List.mem_append.mp he with he | he
        · exact hs.governed e he
        · cases List.mem_singleton.mp he
          exact hgoverns
      · rw [List.map_append, List.append_assoc]
        exact List.perm_middle.nodup_iff.mpr (List.nodup_cons.mpr ⟨hfresh, hdropped.once⟩)
      · intro id hid
        rw [List.map_append, List.append_assoc] at hid
        rcases List.mem_cons.mp (List.perm_middle.mem_iff.mp hid) with rfl | hid
        · exact List.mem_append_right _ List.mem_cons_self
        · exact hknown id hid
      · rw [hsource, hchange]
        exact hdropped.claims
    | some claim =>
      simp only [System.afterCallback, hread, Option.map_some, Option.toList_some]
      have hids : (rest ++ [Receipt.verifyClaimVaa v.id claim deposit]).filterMap
            Receipt.authorizedBy
          = rest.filterMap Receipt.authorizedBy ++ [v.id] := by
        rw [List.filterMap_append]
        rfl
      refine ⟨hcounter _ _ ?_, hs.governed, ?_, ?_, ?_, hs.increasing⟩
      · intro r hr vaa hvaa
        rcases List.mem_append.mp hr with hr | hr
        · exact ⟨r, hr, hvaa⟩
        · cases List.mem_singleton.mp hr
          exact absurd hvaa nofun
      · rw [hids, ← List.append_assoc]
        exact (List.perm_append_singleton _ _).nodup_iff.mpr
          (List.nodup_cons.mpr ⟨hfresh, hdropped.once⟩)
      · intro id hid
        rw [hids, ← List.append_assoc] at hid
        rcases List.mem_append.mp hid with hid | hid
        · exact hknown id hid
        · exact List.mem_append_right _ hid
      · intro r hr held hheld'
        rw [hsource, hchange]
        rcases List.mem_append.mp hr with hr | hr
        · exact hdropped.claims r hr held hheld'
        · cases List.mem_singleton.mp hr
          obtain ⟨_, _, rfl⟩ := Option.map_eq_some_iff.mp hheld'
          exact .inl hgoverns

/-- A quiet transfer, or a callback that fails. -/
theorem Sound.afterTransfer (hs : Sound host s) {authorizedBy : VaaId} {claim : ClaimPromise}
    {deposit : BitVec 128} {success : Bool} {i : Nat} {before after : BitVec 64}
    {rest : List Receipt}
    (htake : takeOut s.pending i
      = .ok (.authorizeGovSourceTransfer authorizedBy claim deposit success, rest))
    (hquiet : TransferIsQuiet host s (.callback i before after)) :
    Sound host (s.afterTransfer rest authorizedBy
      (s.contract.authorizeGovSourceTransfer host claim.claimVaa claim.storage success after
        deposit)) := by
  obtain ⟨hreceipt, hrest, hperm⟩ := takeOut_eq_ok htake
  have hdropped := hs.drop hperm
  cases h : s.contract.authorizeGovSourceTransfer host claim.claimVaa claim.storage success after
      deposit with
  | error e => exact hdropped
  | ok contract =>
    obtain ⟨vaa, index, rfl, hread, hahead, hrefund, rfl⟩ := authorizeGovSourceTransfer_eq_ok.mp h
    have haccepted : acceptedTransfer host s (.callback i before after)
        = some (vaa, index, rest) := by
      simp [acceptedTransfer, hreceipt, hread, hahead, hrefund, hrest, Except.toOption]
    obtain ⟨hvaas, hclaims, hexecuted⟩ := hquiet _ haccepted
    have hgoverns : authorizedBy.source = s.contract.govSource := by
      refine (hs.claims _ (hperm.mem_iff.mpr List.mem_cons_self) (authorizedBy, vaa, index) ?_)
        |>.resolve_right (BitVec.not_le.mpr hahead)
      simp [Receipt.heldClaim, hread]
    have hmove : (deferredOf host s).Move (deferredOf host (s.afterTransfer rest authorizedBy
        (.ok { s.contract with
          executedGovernanceChangeVaa := index
          executedGovernanceVaa := vaa.sequence
          govSource := vaa.source }))) := by
      refine .handOver ?_ ?_ ?_
      · rintro m ⟨r, hr, v, hv, rfl⟩
        exact ⟨r, hperm.mem_iff.mpr (List.mem_cons_of_mem _ hr), v, hv, rfl⟩
      · rintro m ⟨r, hr, v, hv, rfl⟩ hother
        exact BitVec.le_def.mp (hvaas r hr v hv hother)
      · intro n hn
        obtain ⟨id, hid, hpair⟩ := List.mem_map.mp hn
        obtain ⟨hsource, rfl⟩ := Prod.mk.inj hpair
        exact BitVec.le_def.mp (hexecuted id hid hsource)
    have hids : (s.effects ++ [(⟨authorizedBy, s.contract.govSource⟩ : Effect)]).map Effect.vaa
          ++ rest.filterMap Receipt.authorizedBy
        = s.effects.map Effect.vaa ++ (authorizedBy :: rest.filterMap Receipt.authorizedBy) := by
      rw [List.map_append, List.append_assoc]
      rfl
    have hpermIds : ((s.effects ++ [(⟨authorizedBy, s.contract.govSource⟩ : Effect)]).map Effect.vaa
          ++ rest.filterMap Receipt.authorizedBy).Perm
        (s.effects.map Effect.vaa ++ s.pending.filterMap Receipt.authorizedBy) := by
      rw [hids]
      exact (filterMap_authorizedBy hperm).append_left _
    refine ⟨hmove.sound hs.counter, ?_, ?_, ?_, ?_, ?_⟩
    · intro e he
      rcases List.mem_append.mp he with he | he
      · exact hs.governed e he
      · cases List.mem_singleton.mp he
        exact hgoverns
    · exact hpermIds.nodup_iff.mpr hs.once
    · exact fun id hid => hs.known id (hpermIds.mem_iff.mp hid)
    · intro r hr held hheld
      exact or_iff_not_imp_left.mpr (hclaims r hr held hheld)
    · intro transfer htransfer
      rcases List.mem_append.mp htransfer with hold | hlast
      · exact hs.increasing transfer hold
      · cases List.mem_singleton.mp hlast
        exact hahead

/-- **What one step preserves when transfers are quiet.** -/
theorem exec_sound {step : Step} (hs : Sound host s) (hquiet : TransferIsQuiet host s step)
    (h : System.exec host step s = .ok s') : Sound host s' := by
  cases step with
  | call vaa deposit =>
    simp only [System.exec] at h
    split at h
    · next u hcall =>
      cases h
      obtain ⟨v, hread, hsource⟩ := executeGovernanceInstruction_eq_ok.mp hcall
      refine hs.withPending (fun r hr w hw => ?_) (fun r hr held hheld => ?_) ?_
      · rcases List.mem_append.mp hr with hr | hr
        · exact .inl ⟨r, hr, hw⟩
        · cases List.mem_singleton.mp hr
          obtain ⟨hread', -⟩ := Option.filter_eq_some_iff.mp hw
          obtain rfl := Option.some.inj (hread.symm.trans hread')
          exact .inr hsource.symm
      · rcases List.mem_append.mp hr with hr | hr
        · exact ⟨r, hr, hheld⟩
        · cases List.mem_singleton.mp hr
          exact absurd hheld nofun
      · rw [List.filterMap_append]
        exact (List.append_nil _).symm ▸ List.Subperm.refl _
    · exact absurd h nofun
  | wormhole i success =>
    obtain ⟨⟨receipt, rest⟩, htake, h⟩ := except_bind_eq_ok.mp h
    obtain ⟨-, -, hperm⟩ := takeOut_eq_ok htake
    cases receipt with
    | verifyVaa vaa deposit =>
      cases h
      refine hs.goOn hperm (fun v hv => ?_) (fun held hheld => absurd hheld nofun) rfl
      cases success with
      | true => exact hv
      | false => exact absurd hv nofun
    | verifyClaimVaa authorizedBy claim deposit =>
      cases h
      refine hs.goOn hperm (fun v hv => absurd hv nofun) (fun held hheld => ?_) rfl
      cases success with
      | true => exact hheld
      | false => exact absurd hheld nofun
    | verifyGovVaaCallback vaa deposit answered => exact absurd h nofun
    | authorizeGovSourceTransfer authorizedBy claim deposit answered => exact absurd h nofun
  | callback i before after =>
    obtain ⟨⟨receipt, rest⟩, htake, h⟩ := except_bind_eq_ok.mp h
    obtain ⟨-, -, hperm⟩ := takeOut_eq_ok htake
    cases receipt with
    | verifyGovVaaCallback vaa deposit success =>
      cases h
      exact hs.afterCallback hperm
    | authorizeGovSourceTransfer authorizedBy claim deposit success =>
      cases h
      exact hs.afterTransfer htake hquiet
    | verifyVaa vaa deposit => exact absurd h nofun
    | verifyClaimVaa authorizedBy claim deposit => exact absurd h nofun

end

/-! ## Runs -/

/-- Every action took effect while the source of its VAA governed, no VAA took effect twice, and
every transfer raised the index. -/
structure Governed (s : System) : Prop where
  governed : ∀ e ∈ s.effects, e.vaa.source = e.governedBy
  once : (s.effects.map Effect.vaa).Nodup
  increasing : ∀ transfer ∈ s.transfers, transfer.1 < transfer.2

/-- **Governance in every interleaving with quiet transfers.** -/
theorem governed_interleavings (host : Host) (contract : Pyth) (steps : List Step)
    (h : Along (System.exec host) (TransferIsQuiet host) { contract := contract } steps) :
    Always (System.exec host) Governed { contract := contract } steps := by
  have hstart : Sound host { contract := contract } :=
    ⟨⟨List.nodup_nil, nofun, nofun⟩, nofun, List.nodup_nil, nofun, nofun, nofun⟩
  have halways : Always (System.exec host) (Sound host) { contract := contract } steps :=
    always_of_along hstart (fun step s s' hs hquiet hstep => exec_sound hs hquiet hstep) h
  exact halways.mono fun s hs => ⟨hs.governed, hs.once.of_append_left, hs.increasing⟩

/-! ### A call that is made twice before a transfer -/

def exGovernanceA : Source := ⟨⟨List.replicate 32 0xa, rfl⟩, 1⟩
def exGovernanceB : Source := ⟨⟨List.replicate 32 0xb, rfl⟩, 1⟩

/-- A VAA without signatures. -/
def exVaa (source : Source) (sequence : Nat) (action : UInt8) (payload : Bytes) : Bytes :=
  [1, 0, 0, 0, 0, 0] ++ List.replicate 8 0 ++ bytesBE 2 source.chain.toNat ++ source.emitter.val ++
    bytesBE 8 sequence ++ [0] ++ GOVERNANCE_MAGIC ++ [1, action, 0, 15] ++ payload

/-- The parser of VAAs: the header with the signatures, the body, and the rest as payload. -/
def exFromSlice (bytes : Bytes) : Option Vaa := do
  let count ← bytes[5]?
  let body := bytes.drop (6 + 66 * count.toNat)
  if h : ((body.drop 10).take 32).length = 32 then
    if 51 ≤ body.length then
      return {
        emitterChain := BitVec.ofNat 16 (natBE ((body.drop 8).take 2))
        emitterAddress := ⟨(body.drop 10).take 32, h⟩
        sequence := BitVec.ofNat 64 (natBE ((body.drop 42).take 8))
        payload := body.drop 51 }
    else none
  else none

def exHost : Host where
  fromSlice := exFromSlice
  storageByteCost := 10000000000000000000

def exContract : Pyth where
  sources := ∅
  govSource := exGovernanceA
  executedGovernanceVaa := 0
  executedGovernanceChangeVaa := 0
  codehash := ⟨List.replicate 32 0, rfl⟩
  staleThreshold := 60
  updateFee := 1

/-- The valid period is set. -/
def exSetValidPeriod (source : Source) (sequence : Nat) : List Char :=
  Hex.encode (exVaa source sequence 4 (bytesBE 8 60))

/-- A authorizes the claim of B. -/
def exAuthorize (sequence : Nat) : List Char :=
  Hex.encode (exVaa exGovernanceA sequence 1 (exVaa exGovernanceB 1 5 (bytesBE 4 1)))

/-- The first call of A waits while A hands the governance over to B. Wormhole answers it after
that, and its callback fails. -/
def exInterleaved : List Step :=
  [.call (exSetValidPeriod exGovernanceA 1) 0, .call (exSetValidPeriod exGovernanceA 2) 0,
    .wormhole 1 true, .callback 1 0 0, .call (exAuthorize 3) 0, .wormhole 1 true,
    .callback 1 0 0, .wormhole 1 true, .callback 1 0 0, .call (exSetValidPeriod exGovernanceB 2) 0,
    .wormhole 0 true, .callback 1 0 0, .wormhole 0 true, .callback 0 0 0]

/-- The receipt that waits is not ahead of the claim: the transfer is quiet. -/
theorem governed_interleavings_quiet :
    Always (System.exec exHost) Governed { contract := exContract } exInterleaved ∧
      (runAll (System.exec exHost) { contract := exContract } exInterleaved).effects
        = [⟨⟨exGovernanceA, 2⟩, exGovernanceA⟩, ⟨⟨exGovernanceA, 3⟩, exGovernanceA⟩,
          ⟨⟨exGovernanceB, 2⟩, exGovernanceB⟩] := by
  have hquiet : Along (System.exec exHost) (TransferIsQuiet exHost) { contract := exContract }
      exInterleaved := by
    decide +kernel
  exact ⟨governed_interleavings exHost exContract exInterleaved hquiet, by decide +kernel⟩

/-- The VAA of A that sets the valid period is called twice and executed, then A hands the
governance over to B, and then the second call is executed as well. -/
theorem governed_interleavings_fail :
    ∃ (host : Host) (contract : Pyth) (steps : List Step),
      ¬(∀ e ∈ (runAll (System.exec host) { contract := contract } steps).effects,
        e.vaa.source = e.governedBy) ∧
      ¬((runAll (System.exec host) { contract := contract } steps).effects.map
        Effect.vaa).Nodup := by
  let steps : List Step :=
    [.call (exSetValidPeriod exGovernanceA 2) 0, .call (exSetValidPeriod exGovernanceA 2) 0,
      .wormhole 0 true, .callback 1 0 0, .call (exAuthorize 3) 0, .wormhole 1 true,
      .callback 1 0 0, .wormhole 1 true, .callback 1 0 0, .wormhole 0 true, .callback 0 0 0]
  have heffects : (runAll (System.exec exHost) { contract := exContract } steps).effects
      = [⟨⟨exGovernanceA, 2⟩, exGovernanceA⟩, ⟨⟨exGovernanceA, 3⟩, exGovernanceA⟩,
        ⟨⟨exGovernanceA, 2⟩, exGovernanceB⟩] := by decide +kernel
  refine ⟨exHost, exContract, steps, ?_, ?_⟩
  · rw [heffects]
    decide
  · rw [heffects]
    decide

end PythCrosschain.Near
