import Mathlib.Data.List.Infix
import PythCrosschain.Hermes.Wormhole
import PythCrosschain.Lib.EventLog

/-!
# Hermes: which VAAs are handed on

Calls of `process_message` interleave at their three parts. `store_vaa` checks and clears the
observed sequence numbers, but never inserts one. So the set stays empty, no check refuses a VAA,
and every verified VAA is handed to the aggregate store, as often as it comes.

`handed_once_iff` says exactly in which runs a sequence number is nevertheless handed on once
while it is among the largest. That depends on the VAAs of the calls alone: two that reach
`store_vaa` with the same sequence number are far apart (`Spaced`).
-/

namespace PythCrosschain.Hermes

/-- Where a call is. -/
inductive Stage where
  | start
  | observed (vaa : Vaa)
  | verified (vaa : Vaa)
  | done (result : Except WormholeError Unit)

/-- The state, the calls, and what they have handed to the aggregate store so far. -/
structure World (ι : Type) where
  state : WormholeState := {}
  stage : ι → Stage := fun _ => .start
  handed : List (ℕ × Bytes) := []

/-- One part of a call, or a new guardian set. -/
inductive Action (ι : Type) where
  | observe (i : ι)
  | verify (i : ι)
  | store (i : ι)
  | updateGuardianSet (id : BitVec 32) (guardianSet : GuardianSet)

section

variable {ι : Type} [DecidableEq ι]

def World.goOn (w : World ι) (i : ι) (stage : Stage) : World ι :=
  { w with stage := Function.update w.stage i stage }

section

variable (P : WormholeParams) (vaaBytes : ι → Bytes)

def World.step (w : World ι) : Action ι → World ι
  | .observe i =>
    match w.stage i with
    | .start =>
      match P.observe w.state (vaaBytes i) with
      | .ok vaa => w.goOn i (.observed vaa)
      | .error e => w.goOn i (.done (.error e))
    | _ => w
  | .verify i =>
    match w.stage i with
    | .observed vaa =>
      match P.verify w.state vaa with
      | .ok vaa => w.goOn i (.verified vaa)
      | .error e => w.goOn i (.done (.error e))
    | _ => w
  | .store i =>
    match w.stage i with
    | .verified vaa =>
      let stored := storeVaa w.state vaa.sequence (vaaBytes i)
      { w.goOn i (.done (.ok ())) with
        state := stored.1
        handed := w.handed ++ stored.2.toList.map fun bytes => (vaa.sequence.toNat, bytes) }
    | _ => w
  | .updateGuardianSet id guardianSet =>
    { w with state := updateGuardianSet w.state id guardianSet }

def World.run (actions : List (Action ι)) : World ι := actions.foldl (World.step P vaaBytes) {}

end

def World.handedSeqs (w : World ι) : List ℕ := w.handed.map Prod.fst

/-- The sequence number is among the `n` largest of those that were observed. -/
def AmongLargest (n : ℕ) (observed : List ℕ) (sequence : ℕ) : Prop :=
  sequence ∈ observed ∧ (observed.toFinset.filter (sequence < ·)).card < n

instance (n : ℕ) (observed : List ℕ) (sequence : ℕ) :
    Decidable (AmongLargest n observed sequence) :=
  inferInstanceAs (Decidable (_ ∧ _))

/-- What the set of observed sequence numbers is for. -/
structure Deduplicates (P : WormholeParams) (vaaBytes : ι → Bytes) (w : World ι) : Prop where
  /-- None is handed on again while it is among the largest. -/
  once : ∀ before sequence after, w.handedSeqs = before ++ sequence :: after →
    ¬AmongLargest OBSERVED_CACHE_SIZE before sequence
  /-- The first check refuses only what was handed on. -/
  observes : ∀ i sequence, w.stage i = .start →
    P.observe w.state (vaaBytes i) = .error (.previouslyObserved sequence) →
    sequence.toNat ∈ w.handedSeqs
  /-- The second check drops only what was handed on. -/
  stores : ∀ i vaa, w.stage i = .verified vaa → vaa.sequence.toNat ∉ w.handedSeqs →
    (w.step P vaaBytes (.store i)).handed = w.handed ++ [(vaa.sequence.toNat, vaaBytes i)]
  size : w.state.observedVaaSeqs.card ≤ OBSERVED_CACHE_SIZE + 1

/-! ## Calls

When a call reaches `store_vaa` is said of its VAA, the order of the actions and the guardian sets
that are known, without the set of observed sequence numbers and what was handed on.
-/

section

variable (P : WormholeParams) (vaaBytes : ι → Bytes)

/-- The guardian sets that the actions made known. -/
def knownGuardianSets (actions : List (Action ι)) : WormholeState :=
  actions.foldl (fun state a => match a with
    | .updateGuardianSet id guardianSet => updateGuardianSet state id guardianSet
    | _ => state) {}

/-- The bytes are those of a VAA with a message. -/
def Decodes (bytes : Bytes) (vaa : Vaa) : Prop :=
  P.fromSlice bytes = some vaa ∧ ∃ message, PythnetSdk.WormholeMessage.tryFromBytes vaa.payload =
    .ok message

/-- The call has decoded its VAA and not yet verified it. -/
def Pending (i : ι) (vaa : Vaa) (actions : List (Action ι)) : Prop :=
  Decodes P (vaaBytes i) vaa ∧ Since (.observe i ∉ ·) (.observe i) (.verify i) actions

/-- The call has verified its VAA and comes to `store_vaa` next. -/
def Reaches (i : ι) (vaa : Vaa) (actions : List (Action ι)) : Prop :=
  Since (fun before => ∃ decoded, Pending P vaaBytes i decoded before ∧
    P.verify (knownGuardianSets before) decoded = .ok vaa) (.verify i) (.store i) actions

/-- The action brings a sequence number to `store_vaa`. -/
def Brings (before : List (Action ι)) (a : Action ι) (sequence : ℕ) : Prop :=
  ∃ i vaa, a = .store i ∧ Reaches P vaaBytes i vaa before ∧ sequence = vaa.sequence.toNat

/-- A sequence number has come to `store_vaa`. -/
def Brought (actions : List (Action ι)) (sequence : ℕ) : Prop :=
  ∃ start a rest, actions = start ++ a :: rest ∧ Brings P vaaBytes start a sequence

/-- Where a call brings the sequence number of an earlier one, as many larger ones as the set may
hold have come before it. -/
def Spaced (actions : List (Action ι)) : Prop :=
  ∀ start i between j rest vaa vaa',
    actions = start ++ .store i :: (between ++ .store j :: rest) →
    Reaches P vaaBytes i vaa start → Reaches P vaaBytes j vaa' (start ++ .store i :: between) →
    vaa.sequence = vaa'.sequence →
    ∃ larger : Finset ℕ, OBSERVED_CACHE_SIZE ≤ larger.card ∧ ∀ sequence ∈ larger,
      vaa.sequence.toNat < sequence ∧ Brought P vaaBytes (start ++ .store i :: between) sequence

end

variable {P : WormholeParams} {vaaBytes : ι → Bytes} {w : World ι}

/-! ## The state -/

theorem storeVaa_of_empty {state : WormholeState} (h : state.observedVaaSeqs = ∅)
    (sequence : BitVec 64) (bytes : Bytes) :
    storeVaa state sequence bytes = (state, some bytes) := by
  obtain ⟨seqs, guardianSet⟩ := state
  obtain rfl : seqs = ∅ := h
  exact if_neg (Finset.notMem_empty _)

/-- A call that stores hands its VAA on. -/
theorem step_store (h : w.state.observedVaaSeqs = ∅) {i : ι} {vaa : Vaa}
    (hstage : w.stage i = .verified vaa) :
    w.step P vaaBytes (.store i) =
      { w.goOn i (.done (.ok ())) with
        handed := w.handed ++ [(vaa.sequence.toNat, vaaBytes i)] } := by
  simp only [World.step, hstage, storeVaa_of_empty h]
  rfl

theorem World.goOn_self (w : World ι) (i : ι) : w.goOn i (w.stage i) = w := by
  rw [World.goOn, Function.update_eq_self]

/-- A call that is not verified has nothing to store. -/
theorem step_store_of_ne {i : ι} (h : ∀ vaa, w.stage i ≠ .verified vaa) :
    w.step P vaaBytes (.store i) = w := by
  simp only [World.step]

/-- The first two parts change only where their call is. -/
theorem step_moves {a : Action ι} {i : ι} (ha : a = .observe i ∨ a = .verify i) :
    ∃ stage, w.step P vaaBytes a = w.goOn i stage := by
  rcases ha with rfl | rfl
  · simp only [World.step]
    split
    · split <;> exact ⟨_, rfl⟩
    · exact ⟨_, (w.goOn_self i).symm⟩
  · simp only [World.step]
    split
    · split <;> exact ⟨_, rfl⟩
    · exact ⟨_, (w.goOn_self i).symm⟩

theorem World.run_append (actions : List (Action ι)) (a : Action ι) :
    World.run P vaaBytes (actions ++ [a]) = (World.run P vaaBytes actions).step P vaaBytes a :=
  List.foldl_append

omit [DecidableEq ι] in
theorem knownGuardianSets_append (actions : List (Action ι)) (a : Action ι) :
    knownGuardianSets (actions ++ [a]) = match a with
      | .updateGuardianSet id guardianSet =>
        updateGuardianSet (knownGuardianSets actions) id guardianSet
      | _ => knownGuardianSets actions :=
  List.foldl_append

omit [DecidableEq ι] in
theorem observedVaaSeqs_known (actions : List (Action ι)) :
    (knownGuardianSets actions).observedVaaSeqs = ∅ := by
  induction actions using List.reverseRecOn with
  | nil => rfl
  | append_singleton actions a ih =>
    rw [knownGuardianSets_append]
    cases a <;> exact ih

/-- No sequence number is ever observed. -/
theorem state_run (actions : List (Action ι)) :
    (World.run P vaaBytes actions).state = knownGuardianSets actions := by
  induction actions using List.reverseRecOn with
  | nil => rfl
  | append_singleton actions a ih =>
    rw [World.run_append, knownGuardianSets_append, ← ih]
    have hempty := observedVaaSeqs_known actions
    rw [← ih] at hempty
    generalize World.run P vaaBytes actions = w at hempty
    cases a with
    | observe i =>
      obtain ⟨stage, hstep⟩ := @step_moves _ _ P vaaBytes w _ i (.inl rfl)
      rw [hstep]
      rfl
    | verify i =>
      obtain ⟨stage, hstep⟩ := @step_moves _ _ P vaaBytes w _ i (.inr rfl)
      rw [hstep]
      rfl
    | store i =>
      by_cases hstage : ∃ vaa, w.stage i = .verified vaa
      · rw [step_store hempty hstage.choose_spec]
        rfl
      · rw [step_store_of_ne (not_exists.mp hstage)]
    | updateGuardianSet id guardianSet => rfl

theorem observedVaaSeqs_run (actions : List (Action ι)) :
    (World.run P vaaBytes actions).state.observedVaaSeqs = ∅ := by
  rw [state_run, observedVaaSeqs_known]

/-! ## Where the calls are -/

/-- The first check never refuses. -/
theorem observe_of_empty {state : WormholeState} (h : state.observedVaaSeqs = ∅) (bytes : Bytes) :
    (∃ vaa, P.observe state bytes = .ok vaa ∧ Decodes P bytes vaa) ∨
      ∃ e, P.observe state bytes = .error e ∧ (∀ sequence, e ≠ .previouslyObserved sequence) ∧
        ∀ vaa, ¬Decodes P bytes vaa := by
  unfold WormholeParams.observe Decodes
  cases P.fromSlice bytes with
  | none => exact .inr ⟨_, rfl, nofun, nofun⟩
  | some vaa =>
    cases hmessage : PythnetSdk.WormholeMessage.tryFromBytes vaa.payload with
    | error e =>
      refine .inr ⟨.wormholeMessage, by simp only [hmessage], nofun, ?_⟩
      rintro _ ⟨⟨⟩, message, hok⟩
      rw [hmessage] at hok
      cases hok
    | ok message =>
      have hnew : vaa.sequence.toNat ∉ state.observedVaaSeqs := h ▸ Finset.notMem_empty _
      refine .inl ⟨vaa, ?_, rfl, message, hmessage⟩
      simp only [hmessage, ensure, if_pos hnew]
      rfl

/-- A stage is where the actions have brought the call. -/
structure StageOf (P : WormholeParams) (vaaBytes : ι → Bytes) (actions : List (Action ι)) (i : ι)
    (stage : Stage) : Prop where
  start : stage = .start ↔ .observe i ∉ actions
  observed : ∀ vaa, stage = .observed vaa ↔ Pending P vaaBytes i vaa actions
  verified : ∀ vaa, stage = .verified vaa ↔ Reaches P vaaBytes i vaa actions

section

variable {actions : List (Action ι)} {i : ι} {stage : Stage} {a : Action ι} {vaa : Vaa}

omit [DecidableEq ι] in
theorem pending_append : Pending P vaaBytes i vaa (actions ++ [a]) ↔
    (a = .observe i ∧ .observe i ∉ actions ∧ Decodes P (vaaBytes i) vaa) ∨
      (a ≠ .verify i ∧ Pending P vaaBytes i vaa actions) := by
  unfold Pending
  rw [since_append, and_or_left]
  exact or_congr (and_left_comm.trans (and_congr_right fun _ => and_comm)) and_left_comm

omit [DecidableEq ι] in
theorem reaches_append : Reaches P vaaBytes i vaa (actions ++ [a]) ↔
    (a = .verify i ∧ ∃ decoded, Pending P vaaBytes i decoded actions ∧
      P.verify (knownGuardianSets actions) decoded = .ok vaa) ∨
      (a ≠ .store i ∧ Reaches P vaaBytes i vaa actions) :=
  since_append

omit [DecidableEq ι] in
/-- A call that is not where the action finds it stays where it is. -/
theorem StageOf.keep (h : StageOf P vaaBytes actions i stage)
    (hobserve : a = .observe i → stage ≠ .start)
    (hverify : a = .verify i → ∀ vaa, stage ≠ .observed vaa)
    (hstore : a = .store i → ∀ vaa, stage ≠ .verified vaa) :
    StageOf P vaaBytes (actions ++ [a]) i stage := by
  refine ⟨?_, fun vaa => ?_, fun vaa => ?_⟩
  · rw [h.start, List.mem_append, List.mem_singleton, not_or, iff_self_and]
    exact fun hnot ha => hobserve ha.symm (h.start.mpr hnot)
  · rw [h.observed, pending_append]
    constructor
    · exact fun hpending =>
        .inr ⟨fun ha => hverify ha vaa ((h.observed vaa).mpr hpending), hpending⟩
    · rintro (⟨ha, hnot, -⟩ | ⟨-, hpending⟩)
      · exact absurd (h.start.mpr hnot) (hobserve ha)
      · exact hpending
  · rw [h.verified, reaches_append]
    constructor
    · exact fun hreaches =>
        .inr ⟨fun ha => hstore ha vaa ((h.verified vaa).mpr hreaches), hreaches⟩
    · rintro (⟨ha, decoded, hpending, -⟩ | ⟨-, hreaches⟩)
      · exact absurd ((h.observed decoded).mpr hpending) (hverify ha decoded)
      · exact hreaches

omit [DecidableEq ι] in
theorem StageOf.observe (h : StageOf P vaaBytes actions i .start) (hstart : stage ≠ .start)
    (hobserved : ∀ vaa, stage = .observed vaa ↔ Decodes P (vaaBytes i) vaa)
    (hverified : ∀ vaa, stage ≠ .verified vaa) :
    StageOf P vaaBytes (actions ++ [.observe i]) i stage := by
  have hnot : .observe i ∉ actions := h.start.mp rfl
  refine ⟨iff_of_false hstart fun hmem => hmem List.mem_concat_self, fun vaa => ?_, fun vaa => ?_⟩
  · rw [hobserved, pending_append]
    constructor
    · exact fun hdecodes => .inl ⟨rfl, hnot, hdecodes⟩
    · rintro (⟨-, -, hdecodes⟩ | ⟨-, hpending⟩)
      · exact hdecodes
      · exact hpending.1
  · refine iff_of_false (hverified vaa) fun hreaches => ?_
    rcases reaches_append.mp hreaches with ⟨ha, -⟩ | ⟨-, hreaches⟩
    · cases ha
    · cases (h.verified vaa).mpr hreaches

omit [DecidableEq ι] in
theorem StageOf.verify {decoded : Vaa} (h : StageOf P vaaBytes actions i (.observed decoded))
    (hstart : stage ≠ .start) (hobserved : ∀ vaa, stage ≠ .observed vaa)
    (hverified : ∀ vaa, stage = .verified vaa ↔
      P.verify (knownGuardianSets actions) decoded = .ok vaa) :
    StageOf P vaaBytes (actions ++ [.verify i]) i stage := by
  have hpending := (h.observed decoded).mp rfl
  refine ⟨iff_of_false hstart fun hnot => ?_, fun vaa => iff_of_false (hobserved vaa) fun hnew => ?_,
    fun vaa => ?_⟩
  · cases h.start.mpr fun hmem => hnot (List.mem_append_left _ hmem)
  · rcases pending_append.mp hnew with ⟨ha, -⟩ | ⟨ha, -⟩
    · cases ha
    · exact ha rfl
  · rw [hverified, reaches_append]
    constructor
    · exact fun hverify => .inl ⟨rfl, decoded, hpending, hverify⟩
    · rintro (⟨-, decoded', hpending', hverify⟩ | ⟨-, hreaches⟩)
      · obtain rfl := Stage.observed.inj ((h.observed decoded').mpr hpending')
        exact hverify
      · cases (h.verified vaa).mpr hreaches

omit [DecidableEq ι] in
theorem StageOf.store (h : StageOf P vaaBytes actions i (.verified vaa))
    (result : Except WormholeError Unit) :
    StageOf P vaaBytes (actions ++ [.store i]) i (.done result) := by
  refine ⟨iff_of_false nofun fun hnot => ?_, fun vaa => iff_of_false nofun fun hpending => ?_,
    fun vaa => iff_of_false nofun fun hreaches => ?_⟩
  · cases h.start.mpr fun hmem => hnot (List.mem_append_left _ hmem)
  · rcases pending_append.mp hpending with ⟨ha, -⟩ | ⟨-, hpending⟩
    · cases ha
    · cases (h.observed vaa).mpr hpending
  · rcases reaches_append.mp hreaches with ⟨ha, -⟩ | ⟨ha, -⟩
    · cases ha
    · exact ha rfl

end

theorem stage_step_other {a : Action ι} {i : ι} (hobserve : a ≠ .observe i)
    (hverify : a ≠ .verify i) (hstore : a ≠ .store i) :
    (w.step P vaaBytes a).stage i = w.stage i := by
  cases a with
  | observe j =>
    have hne : i ≠ j := fun h => hobserve (h ▸ rfl)
    obtain ⟨stage, hstep⟩ := @step_moves _ _ P vaaBytes w _ j (.inl rfl)
    rw [hstep]
    exact Function.update_of_ne hne _ _
  | verify j =>
    have hne : i ≠ j := fun h => hverify (h ▸ rfl)
    obtain ⟨stage, hstep⟩ := @step_moves _ _ P vaaBytes w _ j (.inr rfl)
    rw [hstep]
    exact Function.update_of_ne hne _ _
  | store j =>
    have hne : i ≠ j := fun h => hstore (h ▸ rfl)
    simp only [World.step]
    split
    · exact Function.update_of_ne hne _ _
    · rfl
  | updateGuardianSet id guardianSet => rfl

section

variable {actions : List (Action ι)} {i : ι}

theorem stage_observe (hempty : w.state.observedVaaSeqs = ∅)
    (h : StageOf P vaaBytes actions i (w.stage i)) :
    StageOf P vaaBytes (actions ++ [.observe i]) i ((w.step P vaaBytes (.observe i)).stage i) := by
  cases hstage : w.stage i with
  | start =>
    rw [hstage] at h
    rcases @observe_of_empty P _ hempty (vaaBytes i) with
      ⟨vaa, hok, hdecodes⟩ | ⟨e, herror, -, hnot⟩
    · have hstep : (w.step P vaaBytes (.observe i)).stage i = .observed vaa := by
        simp only [World.step, hstage, hok, World.goOn, Function.update_self]
      rw [hstep]
      refine h.observe nofun (fun vaa' => ⟨?_, fun hdecodes' => ?_⟩) nofun
      · rintro ⟨⟩
        exact hdecodes
      · rw [Option.some.inj (hdecodes.1.symm.trans hdecodes'.1)]
    · have hstep : (w.step P vaaBytes (.observe i)).stage i = .done (.error e) := by
        simp only [World.step, hstage, herror, World.goOn, Function.update_self]
      rw [hstep]
      exact h.observe nofun (fun vaa' => iff_of_false nofun (hnot vaa')) nofun
  | observed | verified | done =>
    have hstep : w.step P vaaBytes (.observe i) = w := by simp only [World.step, hstage]
    rw [hstep]
    rw [hstage] at h ⊢
    exact h.keep nofun nofun nofun

theorem stage_verify (hstate : w.state = knownGuardianSets actions)
    (h : StageOf P vaaBytes actions i (w.stage i)) :
    StageOf P vaaBytes (actions ++ [.verify i]) i ((w.step P vaaBytes (.verify i)).stage i) := by
  cases hstage : w.stage i with
  | observed decoded =>
    rw [hstage] at h
    cases hresult : P.verify w.state decoded with
    | ok vaa =>
      have hstep : (w.step P vaaBytes (.verify i)).stage i = .verified vaa := by
        simp only [World.step, hstage, hresult, World.goOn, Function.update_self]
      rw [hstep]
      rw [hstate] at hresult
      refine h.verify nofun nofun fun vaa' => ?_
      rw [hresult, Stage.verified.injEq, Except.ok.injEq]
    | error e =>
      have hstep : (w.step P vaaBytes (.verify i)).stage i = .done (.error e) := by
        simp only [World.step, hstage, hresult, World.goOn, Function.update_self]
      rw [hstep]
      rw [hstate] at hresult
      refine h.verify nofun nofun fun vaa' => iff_of_false nofun ?_
      rw [hresult]
      exact nofun
  | start | verified | done =>
    have hstep : w.step P vaaBytes (.verify i) = w := by simp only [World.step, hstage]
    rw [hstep]
    rw [hstage] at h ⊢
    exact h.keep nofun nofun nofun

theorem stage_store (hempty : w.state.observedVaaSeqs = ∅)
    (h : StageOf P vaaBytes actions i (w.stage i)) :
    StageOf P vaaBytes (actions ++ [.store i]) i ((w.step P vaaBytes (.store i)).stage i) := by
  cases hstage : w.stage i with
  | verified vaa =>
    rw [hstage] at h
    rw [step_store hempty hstage]
    simp only [World.goOn, Function.update_self]
    exact h.store _
  | start | observed | done =>
    rw [step_store_of_ne (fun vaa => by rw [hstage]; exact nofun)]
    rw [hstage] at h ⊢
    exact h.keep nofun nofun nofun

end

/-- **A call is where its VAA, the order of the actions and the guardian sets say.** -/
theorem stage_run (actions : List (Action ι)) (i : ι) :
    StageOf P vaaBytes actions i ((World.run P vaaBytes actions).stage i) := by
  induction actions using List.reverseRecOn generalizing i with
  | nil =>
    refine ⟨⟨fun _ => List.not_mem_nil, fun _ => rfl⟩, fun vaa => ⟨nofun, fun h => ?_⟩,
      fun vaa => ⟨nofun, fun h => ?_⟩⟩
    · exact absurd h.2 not_since_nil
    · exact absurd h not_since_nil
  | append_singleton actions a ih =>
    have h := ih i
    have hempty := @observedVaaSeqs_run _ _ P vaaBytes actions
    rw [World.run_append]
    by_cases hobserve : a = .observe i
    · exact hobserve ▸ stage_observe hempty h
    by_cases hverify : a = .verify i
    · exact hverify ▸ stage_verify (state_run actions) h
    by_cases hstore : a = .store i
    · exact hstore ▸ stage_store hempty h
    rw [stage_step_other hobserve hverify hstore]
    exact h.keep (absurd · hobserve) (absurd · hverify) (absurd · hstore)

/-! ## What is handed on -/

/-- Everything but `once` holds in every run. -/
theorem deduplicates_of_once {actions : List (Action ι)}
    (once : ∀ before sequence after,
      (World.run P vaaBytes actions).handedSeqs = before ++ sequence :: after →
      ¬AmongLargest OBSERVED_CACHE_SIZE before sequence) :
    Deduplicates P vaaBytes (World.run P vaaBytes actions) := by
  have hempty : (World.run P vaaBytes actions).state.observedVaaSeqs = ∅ :=
    observedVaaSeqs_run actions
  refine ⟨once, fun i sequence _ hrefused => ?_, fun i vaa hstage _ => ?_, ?_⟩
  · rcases @observe_of_empty P _ hempty (vaaBytes i) with ⟨vaa, hok, -⟩ | ⟨e, herror, hnew, -⟩
    · rw [hok] at hrefused
      cases hrefused
    · rw [herror] at hrefused
      exact absurd (Except.error.inj hrefused) (hnew sequence)
  · rw [step_store hempty hstage]
  · rw [hempty]
    exact Nat.zero_le _

theorem brings_inj (before : List (Action ι)) (a : Action ι) (sequence sequence' : ℕ)
    (h : Brings P vaaBytes before a sequence) (h' : Brings P vaaBytes before a sequence') :
    sequence = sequence' := by
  obtain ⟨i, vaa, rfl, hreaches, rfl⟩ := h
  obtain ⟨_, vaa', ⟨⟩, hreaches', rfl⟩ := h'
  have hstage := ((stage_run before i).verified vaa).mpr hreaches
  have hstage' := ((stage_run before i).verified vaa').mpr hreaches'
  rw [Stage.verified.inj (hstage.symm.trans hstage')]

/-- Only a call that is verified hands its VAA on. -/
theorem handed_step {a : Action ι} (h : ∀ i vaa, a = .store i → w.stage i ≠ .verified vaa) :
    (w.step P vaaBytes a).handed = w.handed := by
  cases a with
  | observe i =>
    obtain ⟨stage, hstep⟩ := @step_moves _ _ P vaaBytes w _ i (.inl rfl)
    rw [hstep]
    rfl
  | verify i =>
    obtain ⟨stage, hstep⟩ := @step_moves _ _ P vaaBytes w _ i (.inr rfl)
    rw [hstep]
    rfl
  | store i => rw [step_store_of_ne fun vaa => h i vaa rfl]
  | updateGuardianSet id guardianSet => rfl

/-- Every sequence number that comes to `store_vaa` is handed on. -/
theorem emits_handed (actions : List (Action ι)) :
    Emits (Brings P vaaBytes) actions (World.run P vaaBytes actions).handedSeqs := by
  induction actions using List.reverseRecOn with
  | nil => exact .nil
  | append_singleton actions a ih =>
    rw [World.run_append]
    by_cases hbrings : ∃ sequence, Brings P vaaBytes actions a sequence
    · obtain ⟨_, i, vaa, rfl, hreaches, rfl⟩ := hbrings
      have hstage := ((stage_run actions i).verified vaa).mpr hreaches
      rw [step_store (observedVaaSeqs_run actions) hstage, World.handedSeqs, List.map_append]
      exact ih.emit ⟨i, vaa, rfl, hreaches, rfl⟩
    · have hnone : ∀ sequence, ¬Brings P vaaBytes actions a sequence := not_exists.mp hbrings
      rw [World.handedSeqs, handed_step]
      · exact ih.silent hnone
      · intro i vaa ha hstage
        exact hnone _ ⟨i, vaa, ha, ((stage_run actions i).verified vaa).mp hstage, rfl⟩

/-- What is handed on while it is among the largest comes from two calls that are too close. -/
theorem once_iff_spaced (actions : List (Action ι)) :
    (∀ before sequence after,
      (World.run P vaaBytes actions).handedSeqs = before ++ sequence :: after →
      ¬AmongLargest OBSERVED_CACHE_SIZE before sequence) ↔ Spaced P vaaBytes actions := by
  have hemits : Emits (Brings P vaaBytes) actions _ := emits_handed actions
  constructor
  · intro honce start i between j rest vaa vaa' hactions hi hj hsequence
    have hi' : Brings P vaaBytes start (.store i) vaa.sequence.toNat := ⟨i, vaa, rfl, hi, rfl⟩
    have hj' : Brings P vaaBytes (start ++ .store i :: between) (.store j) vaa.sequence.toNat :=
      ⟨j, vaa', rfl, hj, by rw [hsequence]⟩
    obtain ⟨before, after, hhanded, hbefore⟩ :=
      hemits.split brings_inj (hactions.trans (by rw [List.append_assoc, List.cons_append])) hj'
    have hmem : vaa.sequence.toNat ∈ before :=
      (hbefore.mem_iff brings_inj).mpr ⟨start, _, between, rfl, hi'⟩
    refine ⟨before.toFinset.filter (vaa.sequence.toNat < ·), ?_, fun sequence hlarger => ?_⟩
    · exact Nat.le_of_not_lt fun hfew => honce _ _ _ hhanded ⟨hmem, hfew⟩
    · obtain ⟨hsequence, hlt⟩ := Finset.mem_filter.mp hlarger
      exact ⟨hlt, (hbefore.mem_iff brings_inj).mp (List.mem_toFinset.mp hsequence)⟩
  · rintro hspaced before sequence after hhanded ⟨hmem, hfew⟩
    obtain ⟨_, _, rest, hactions, ⟨j, vaa', rfl, hj, hsequence⟩, hbefore⟩ :=
      hemits.exists_split hhanded
    obtain ⟨start, _, between, rfl, i, vaa, rfl, hi, rfl⟩ := (hbefore.mem_iff brings_inj).mp hmem
    obtain ⟨larger, hcard, hlarger⟩ := hspaced start i between j rest vaa vaa'
      (hactions.trans (by rw [List.append_assoc, List.cons_append])) hi hj
      (BitVec.eq_of_toNat_eq hsequence)
    refine absurd (hcard.trans (Finset.card_le_card fun t ht => ?_)) (Nat.not_le_of_lt hfew)
    obtain ⟨hlt, hbrought⟩ := hlarger t ht
    exact Finset.mem_filter.mpr
      ⟨List.mem_toFinset.mpr ((hbefore.mem_iff brings_inj).mpr hbrought), hlt⟩

omit [DecidableEq ι] in
theorem Spaced.of_append {before after : List (Action ι)}
    (h : Spaced P vaaBytes (before ++ after)) : Spaced P vaaBytes before := by
  intro start i between j rest vaa vaa' hbefore
  refine h start i between j (rest ++ after) vaa vaa' ?_
  rw [hbefore, List.append_assoc, List.cons_append, List.append_assoc, List.cons_append]

/-- **VAAs are handed on once** along a run exactly when no two calls bring the same sequence
number to `store_vaa`, unless enough larger ones have come before the second of them. -/
theorem handed_once_iff (P : WormholeParams) (vaaBytes : ι → Bytes) (actions : List (Action ι)) :
    (∀ before, before <+: actions → Deduplicates P vaaBytes (World.run P vaaBytes before)) ↔
      Spaced P vaaBytes actions := by
  constructor
  · exact fun h => (once_iff_spaced actions).mp (h actions List.prefix_rfl).once
  · rintro hspaced before ⟨after, rfl⟩
    exact deduplicates_of_once ((once_iff_spaced before).mpr hspaced.of_append)

end

/-! ### A VAA that comes twice -/

def exVaaSignature : VaaSignature where
  index := 0
  signature := ⟨bytesBE 32 0x688b6d4fcfdc97512ca3668934bbdabdbe33530898c65a801ecfe130386d06ce
    ++ bytesBE 32 0x4005f7abc093ae7c795473ea900d783860908c3e1df0f177e688fb996578e5bf ++ [1],
    by decide⟩

def exWormholeVaa : Vaa where
  version := 1
  guardianSetIndex := 0
  signatures := [exVaaSignature]
  timestamp := 1700000001
  nonce := 0
  emitterChain := CHAIN_PYTHNET
  emitterAddress := ACCUMULATOR_EMITTER_ADDRESS
  sequence := 5
  consistencyLevel := 1
  payload := bytesBE 4 0x41555756 ++ [0] ++ bytesBE 8 100 ++ bytesBE 4 10000
    ++ bytesBE 20 0x3eee56eaec473aa1cbddeb7af64b114eab977f7f

/-- The public key of the guardian. -/
def exGuardianPubkey : PythnetSdk.HashArray 65 :=
  ⟨[4] ++ bytesBE 32 0xbb50e2d89a4ed70663d080659fe0ad4b9bc3e06c17a227433966cb59ceee020d
    ++ bytesBE 32 0xecddbf6e00192011648d13b1c00af770c0c1bb609d4d3a5c98a43772e0e18ef4, by decide⟩

/-- Keccak-256 of the body, the hash that the guardian signs, and the hash of the key. -/
def exBodyHash : Bytes32 := 0xee3a19b28e8440c91fb840ce46b943a550c8c01ad50e8741eabee9b39670a0d3
def exSignedHash : Bytes32 := 0xa05f302cdb7951cbce545241695889a1b3284fe440239c0cf00f682916b8b1b3
def exPubkeyHash : Bytes32 := 0xb7a54dc78a45f25cc8f54a981be31a94361a391bbafb2a4ccd704f57dc04d4bb

def exWormholeKeccak (s : Bytes) : Bytes32 :=
  if s = exWormholeVaa.body then exBodyHash
  else if s = wordBytes exBodyHash then exSignedHash
  else if s = exGuardianPubkey.val.drop 1 then exPubkeyHash
  else 0

def exWormholeParams : WormholeParams where
  fromSlice bytes := if bytes = exWormholeVaa.serialize then some exWormholeVaa else none
  keccak256 := exWormholeKeccak
  recoverEcdsa digest compact recoveryId :=
    if digest = exSignedHash ∧ compact = exVaaSignature.compact ∧ recoveryId = 1 then
      some exGuardianPubkey
    else none

def exGuardianSet : GuardianSet := ⟨[exPubkeyHash.setWidth 160], by decide⟩

/-- Two calls with the same VAA, one after the other. -/
def exActions : List (Action Bool) :=
  [.updateGuardianSet 0 exGuardianSet, .observe false, .verify false, .store false, .observe true,
    .verify true, .store true]

theorem handed_once_fail :
    (World.run exWormholeParams (fun _ : Bool => exWormholeVaa.serialize) exActions).handed =
        [(5, exWormholeVaa.serialize), (5, exWormholeVaa.serialize)] ∧
      ¬Deduplicates exWormholeParams (fun _ => exWormholeVaa.serialize)
        (World.run exWormholeParams (fun _ : Bool => exWormholeVaa.serialize) exActions) := by
  have hhanded :
      (World.run exWormholeParams (fun _ : Bool => exWormholeVaa.serialize) exActions).handed =
        [(5, exWormholeVaa.serialize), (5, exWormholeVaa.serialize)] := by
    decide +kernel
  refine ⟨hhanded, fun h => h.once [5] 5 [] ?_ (by decide)⟩
  rw [World.handedSeqs, hhanded]
  rfl

end PythCrosschain.Hermes
