import Mathlib.Logic.Relation

/-!
# Runs of a component that calls out and may be re-entered

A `Component` runs calls on a state. A call either finishes, reverts, or stops
at an external call and leaves a continuation behind. The external code may
call the component again, any number of times, before it returns or fails.
`Config` is the current state together with the stack of pending frames, and
`Step` is one move of anybody:

* a call that runs to its end, or up to an external call;
* external code opening a sub-call of its own, which is later committed or
  rolled back with everything that happened inside it;
* the external code returning or failing, and the pending call going on;
* a pending call being aborted.

Every rollback restores the state that the frame saved, so the state and all
saved states of a reachable configuration are reached by component moves alone
(`Component.Reachable.flat`). An invariant of the moves therefore holds in
every reachable configuration, whatever is called from inside a callback
(`Component.Reachable.invariant`).
-/

namespace PythCrosschain

/-- How far a call got: to its end, or to an external call. -/
inductive Outcome (σ κ : Type) where
  | done (s : σ)
  | external (s : σ) (k : κ)

/-- The state that an outcome leaves. -/
@[simp] def Outcome.state {σ κ : Type} : Outcome σ κ → σ
  | .done s => s
  | .external s _ => s

/-- The outcome with a record beside its state. -/
def Outcome.annotate {σ κ α : Type} (a : α) : Outcome σ κ → Outcome (σ × α) κ
  | .done s => .done (s, a)
  | .external s k => .external (s, a) k

theorem Outcome.annotate_state {σ κ α : Type} (a : α) (o : Outcome σ κ) :
    (o.annotate a).state = (o.state, a) := by
  cases o <;> rfl

/-- A component with state `σ`, calls `ι` and continuations `κ`. `resume k ok s`
goes on after the external call of `k` returned (`ok = true`) or failed. A call
that reverts is `none`. -/
structure Component (σ ι κ : Type) where
  init : σ → Prop
  start : ι → σ → Option (Outcome σ κ)
  resume : κ → Bool → σ → Option (Outcome σ κ)

/-- A pending frame. `saved` is the state that a revert of the frame restores. -/
inductive Frame (σ κ : Type) where
  | checkpoint (saved : σ)
  | waiting (saved atCall : σ) (k : κ)

/-- The states that a frame may restore. -/
def Frame.states {σ κ : Type} : Frame σ κ → List σ
  | .checkpoint saved => [saved]
  | .waiting saved atCall _ => [saved, atCall]

/-- The current state and the pending frames, innermost first. -/
structure Config (σ κ : Type) where
  state : σ
  stack : List (Frame σ κ)

/-- A frame without the records beside its states. -/
def Frame.forget {σ κ α : Type} : Frame (σ × α) κ → Frame σ κ
  | .checkpoint saved => .checkpoint saved.1
  | .waiting saved atCall k => .waiting saved.1 atCall.1 k

/-- A configuration without the records beside its states. -/
def Config.forget {σ κ α : Type} (c : Config (σ × α) κ) : Config σ κ where
  state := c.state.1
  stack := c.stack.map Frame.forget

namespace Component

variable {σ ι κ : Type} (C : Component σ ι κ)

/-- One move of the component or of the code that calls it. -/
inductive Step : Config σ κ → Config σ κ → Prop
  | call {s s' : σ} {fs : List (Frame σ κ)} {i : ι} :
      C.start i s = some (.done s') → Step ⟨s, fs⟩ ⟨s', fs⟩
  | enter {s s' : σ} {fs : List (Frame σ κ)} {i : ι} {k : κ} :
      C.start i s = some (.external s' k) → Step ⟨s, fs⟩ ⟨s', .waiting s s' k :: fs⟩
  | checkpoint {s : σ} {fs : List (Frame σ κ)} : Step ⟨s, fs⟩ ⟨s, .checkpoint s :: fs⟩
  | commit {s saved : σ} {fs : List (Frame σ κ)} : Step ⟨s, .checkpoint saved :: fs⟩ ⟨s, fs⟩
  | rollback {s saved : σ} {fs : List (Frame σ κ)} :
      Step ⟨s, .checkpoint saved :: fs⟩ ⟨saved, fs⟩
  | finish {s saved atCall s' : σ} {k : κ} {fs : List (Frame σ κ)} {ok : Bool} :
      C.resume k ok (if ok then s else atCall) = some (.done s') →
      Step ⟨s, .waiting saved atCall k :: fs⟩ ⟨s', fs⟩
  | callAgain {s saved atCall s' : σ} {k k' : κ} {fs : List (Frame σ κ)} {ok : Bool} :
      C.resume k ok (if ok then s else atCall) = some (.external s' k') →
      Step ⟨s, .waiting saved atCall k :: fs⟩ ⟨s', .waiting saved s' k' :: fs⟩
  | abort {s saved atCall : σ} {k : κ} {fs : List (Frame σ κ)} :
      Step ⟨s, .waiting saved atCall k :: fs⟩ ⟨saved, fs⟩

/-- The configurations that a run from an initial state can be in. -/
def Reachable (c : Config σ κ) : Prop :=
  ∃ s₀, C.init s₀ ∧ Relation.ReflTransGen C.Step ⟨s₀, []⟩ c

variable {C} in
theorem Reachable.steps {c c' : Config σ κ} (h : C.Reachable c)
    (hs : Relation.ReflTransGen C.Step c c') : C.Reachable c' := by
  obtain ⟨s₀, h0, hc⟩ := h
  exact ⟨s₀, h0, hc.trans hs⟩

/-- A call that runs to its end. One that reverts or calls out leaves the state. -/
def perform (s : σ) (i : ι) : σ :=
  match C.start i s with
  | some (.done s') => s'
  | _ => s

theorem steps_perform (is : List ι) (s : σ) (fs : List (Frame σ κ)) :
    Relation.ReflTransGen C.Step ⟨s, fs⟩ ⟨is.foldl C.perform s, fs⟩ := by
  induction is generalizing s with
  | nil => exact .refl
  | cons i is ih =>
    refine Relation.ReflTransGen.trans ?_ (ih (C.perform s i))
    unfold perform
    split
    · next h => exact .single (.call h)
    · exact .refl

/-- The state in which a call stops for external code. -/
def pause (s : σ) (i : ι) : Option σ :=
  match C.start i s with
  | some (.external s' _) => some s'
  | _ => none

variable {C} in
/-- External code runs in the state in which a call stops. -/
theorem Reachable.pause {s s' : σ} {fs : List (Frame σ κ)} {i : ι} (h : C.Reachable ⟨s, fs⟩)
    (hs : C.pause s i = some s') : ∃ f, C.Reachable ⟨s', f :: fs⟩ := by
  unfold Component.pause at hs
  split at hs
  · next hstart =>
    cases hs
    exact ⟨_, h.steps (.single (.enter hstart))⟩
  · cases hs

/-- A move of the component itself: a call, or the rest of a pending call. -/
inductive Move : σ → σ → Prop
  | start {s : σ} {i : ι} {o : Outcome σ κ} : C.start i s = some o → Move s o.state
  | resume {s : σ} {k : κ} {ok : Bool} {o : Outcome σ κ} :
      C.resume k ok s = some o → Move s o.state

/-- The states that component moves reach from an initial state. -/
def FlatReachable (s : σ) : Prop := ∃ s₀, C.init s₀ ∧ Relation.ReflTransGen C.Move s₀ s

/-- The same component, but a call is only taken where it meets `P`. -/
def restrict (P : ι → σ → Prop) [∀ i s, Decidable (P i s)] : Component σ ι κ where
  init := C.init
  start i s := if P i s then C.start i s else none
  resume := C.resume

variable {C}

theorem FlatReachable.move {s s' : σ} (h : C.FlatReachable s) (hm : C.Move s s') :
    C.FlatReachable s' := by
  obtain ⟨s₀, h0, hs⟩ := h
  exact ⟨s₀, h0, hs.tail hm⟩

/-- A move of a restricted component is a move of the component whose call
meets the restriction. -/
theorem restrict_start {P : ι → σ → Prop} [∀ i s, Decidable (P i s)] {i : ι} {s : σ}
    {o : Outcome σ κ} (h : (C.restrict P).start i s = some o) : P i s ∧ C.start i s = some o := by
  unfold restrict at h
  dsimp only at h
  split at h
  · next hP => exact ⟨hP, h⟩
  · cases h

/-- A call that meets the restriction runs as it does in the component. -/
theorem start_restrict {P : ι → σ → Prop} [∀ i s, Decidable (P i s)] {i : ι} {s : σ}
    (hP : P i s) : (C.restrict P).start i s = C.start i s := if_pos hP

/-- A run of a restricted component is a run of the component. -/
theorem Reachable.of_restrict {P : ι → σ → Prop} [∀ i s, Decidable (P i s)] {c : Config σ κ}
    (h : (C.restrict P).Reachable c) : C.Reachable c := by
  obtain ⟨s₀, h0, hs⟩ := h
  refine ⟨s₀, h0, Relation.ReflTransGen.mono ?_ _ _ hs⟩
  intro c c' hstep
  cases hstep with
  | call hc => exact .call (restrict_start hc).2
  | enter hc => exact .enter (restrict_start hc).2
  | checkpoint => exact .checkpoint
  | commit => exact .commit
  | rollback => exact .rollback
  | finish hc => exact .finish hc
  | callAgain hc => exact .callAgain hc
  | abort => exact .abort

/-- The induction rule for flat runs: an invariant of the moves holds in every
state they reach. -/
theorem FlatReachable.invariant {P : σ → Prop} {s : σ} (h : C.FlatReachable s)
    (hinit : ∀ s, C.init s → P s)
    (hmove : ∀ s s', C.FlatReachable s → P s → C.Move s s' → P s') : P s := by
  obtain ⟨s₀, h0, hs⟩ := h
  induction hs with
  | refl => exact hinit s₀ h0
  | tail hs hm ih => exact hmove _ _ ⟨s₀, h0, hs⟩ ih hm

/-- `s` and everything that the frames can restore are reached by moves. -/
def FlatStack (C : Component σ ι κ) (c : Config σ κ) : Prop :=
  C.FlatReachable c.state ∧ ∀ f ∈ c.stack, ∀ s ∈ f.states, C.FlatReachable s

theorem FlatStack.step {c c' : Config σ κ} (h : FlatStack C c) (hs : C.Step c c') :
    FlatStack C c' := by
  obtain ⟨hstate, hstack⟩ := h
  have hcons : ∀ {f : Frame σ κ} {fs : List (Frame σ κ)},
      (∀ s ∈ f.states, C.FlatReachable s) →
      (∀ g ∈ fs, ∀ s ∈ g.states, C.FlatReachable s) →
      ∀ g ∈ f :: fs, ∀ s ∈ g.states, C.FlatReachable s := by
    intro f fs hf hfs g hg
    rcases List.mem_cons.mp hg with rfl | hg
    · exact hf
    · exact hfs g hg
  have htail : ∀ {f : Frame σ κ} {fs : List (Frame σ κ)},
      (∀ g ∈ f :: fs, ∀ s ∈ g.states, C.FlatReachable s) →
      ∀ g ∈ fs, ∀ s ∈ g.states, C.FlatReachable s :=
    fun hfs g hg => hfs g (List.mem_cons_of_mem _ hg)
  cases hs with
  | call hc => exact ⟨hstate.move (.start hc), hstack⟩
  | enter hc =>
    have hs' := hstate.move (.start hc)
    refine ⟨hs', hcons ?_ hstack⟩
    simpa [Frame.states] using ⟨hstate, hs'⟩
  | checkpoint => exact ⟨hstate, hcons (by simpa [Frame.states] using hstate) hstack⟩
  | commit => exact ⟨hstate, htail hstack⟩
  | rollback => exact ⟨hstack _ List.mem_cons_self _ (by simp [Frame.states]), htail hstack⟩
  | @finish s saved atCall s' k fs ok hc =>
    have hfrom : C.FlatReachable (if ok then s else atCall) := by
      split
      · exact hstate
      · exact hstack _ List.mem_cons_self _ (by simp [Frame.states])
    exact ⟨hfrom.move (.resume hc), htail hstack⟩
  | @callAgain s saved atCall s' k k' fs ok hc =>
    have hfrom : C.FlatReachable (if ok then s else atCall) := by
      split
      · exact hstate
      · exact hstack _ List.mem_cons_self _ (by simp [Frame.states])
    have hs' := hfrom.move (.resume hc)
    refine ⟨hs', hcons ?_ (htail hstack)⟩
    have hsaved : C.FlatReachable saved :=
      hstack _ List.mem_cons_self _ (by simp [Frame.states])
    simpa [Frame.states] using ⟨hsaved, hs'⟩
  | abort => exact ⟨hstack _ List.mem_cons_self _ (by simp [Frame.states]), htail hstack⟩

/-- The state of a reachable configuration is reached by component moves. -/
theorem Reachable.flat {c : Config σ κ} (h : C.Reachable c) : C.FlatReachable c.state := by
  obtain ⟨s₀, h0, hs⟩ := h
  have hstack : FlatStack C c := by
    induction hs with
    | refl => exact ⟨⟨s₀, h0, .refl⟩, by simp⟩
    | tail _ hstep ih => exact ih.step hstep
  exact hstack.1

/-- An invariant of the component's moves holds in every reachable
configuration, in the middle of a callback included. -/
theorem Reachable.invariant {P : σ → Prop} {c : Config σ κ} (h : C.Reachable c)
    (hinit : ∀ s, C.init s → P s)
    (hmove : ∀ s s', C.FlatReachable s → P s → C.Move s s' → P s') : P c.state :=
  h.flat.invariant hinit hmove

/-! ## A pending call -/

/-- The steps that are made while a call above the frames `fs` is pending. -/
def StepAbove (C : Component σ ι κ) (fs : List (Frame σ κ)) (c d : Config σ κ) : Prop :=
  C.Step c d ∧ fs.length < d.stack.length

/-- The frame of a pending call, above `fs`, restores the state `s`. -/
def PendingFrom (s : σ) (fs : List (Frame σ κ)) (c : Config σ κ) : Prop :=
  ∃ gs atCall k, c.stack = gs ++ .waiting s atCall k :: fs

theorem PendingFrom.step {s : σ} {fs : List (Frame σ κ)} {c d : Config σ κ}
    (h : PendingFrom s fs c) (hstep : C.StepAbove fs c d) : PendingFrom s fs d := by
  obtain ⟨gs, a, k, hstack⟩ := h
  obtain ⟨hstep, habove⟩ := hstep
  -- the frame is popped only by a step that leaves no frame above `fs`
  have hpop {f : Frame σ κ} {rest : List (Frame σ κ)}
      (hrest : f :: rest = gs ++ .waiting s a k :: fs) (hlength : fs.length < rest.length) :
      ∃ gs', rest = gs' ++ .waiting s a k :: fs := by
    cases gs with
    | nil =>
      obtain ⟨-, rfl⟩ := List.cons.inj hrest
      exact absurd hlength (Nat.lt_irrefl _)
    | cons g gs =>
      obtain ⟨-, rfl⟩ := List.cons.inj hrest
      exact ⟨gs, rfl⟩
  cases hstep with
  | call hc => exact ⟨gs, a, k, hstack⟩
  | enter hc => exact ⟨_ :: gs, a, k, congrArg _ hstack⟩
  | checkpoint => exact ⟨_ :: gs, a, k, congrArg _ hstack⟩
  | commit =>
    obtain ⟨gs', hgs⟩ := hpop hstack habove
    exact ⟨gs', a, k, hgs⟩
  | rollback =>
    obtain ⟨gs', hgs⟩ := hpop hstack habove
    exact ⟨gs', a, k, hgs⟩
  | finish hc =>
    obtain ⟨gs', hgs⟩ := hpop hstack habove
    exact ⟨gs', a, k, hgs⟩
  | callAgain hc =>
    cases gs with
    | nil =>
      obtain ⟨hframe, rfl⟩ := List.cons.inj hstack
      cases hframe
      exact ⟨[], _, _, rfl⟩
    | cons g gs =>
      obtain ⟨-, rfl⟩ := List.cons.inj hstack
      exact ⟨_ :: gs, a, k, rfl⟩
  | abort =>
    obtain ⟨gs', hgs⟩ := hpop hstack habove
    exact ⟨gs', a, k, hgs⟩

/-- Whatever is called from a pending call, its frame still restores the state before it. -/
theorem frame_of_pending {s s' t : σ} {f : Frame σ κ} {fs : List (Frame σ κ)} {k : κ}
    (h : Relation.ReflTransGen (C.StepAbove fs) ⟨s', .waiting s s' k :: fs⟩ ⟨t, f :: fs⟩) :
    ∃ atCall k', f = .waiting s atCall k' := by
  have hpending : PendingFrom s fs (⟨t, f :: fs⟩ : Config σ κ) := by
    generalize (⟨t, f :: fs⟩ : Config σ κ) = d at h
    induction h with
    | refl => exact ⟨[], s', k, rfl⟩
    | tail _ hstep ih => exact ih.step hstep
  obtain ⟨gs, a, k', hstack⟩ := hpending
  cases gs with
  | nil => exact ⟨a, k', (List.cons.inj hstack).1⟩
  | cons g gs =>
    have hlength := congrArg List.length hstack
    simp only [List.length_cons, List.length_append] at hlength
    omega

/-! ## A record beside the state -/

section Annotated

variable {α : Type} {a₀ : α} {note : ι → α → α}

/-- The component with a record beside its state. `note` brings the record up to
date with a call that does not revert; what is rolled back leaves no trace in it. -/
def annotated (C : Component σ ι κ) (a₀ : α) (note : ι → α → α) : Component (σ × α) ι κ where
  init x := C.init x.1 ∧ x.2 = a₀
  start i x := (C.start i x.1).map (·.annotate (note i x.2))
  resume k ok x := (C.resume k ok x.1).map (·.annotate x.2)

/-- A move of the annotated component is one of the component, and is noted. -/
theorem annotated_move {x y : σ × α} (h : (C.annotated a₀ note).Move x y) :
    (∃ i o, C.start i x.1 = some o ∧ y = (o.state, note i x.2)) ∨
    ∃ k ok o, C.resume k ok x.1 = some o ∧ y = (o.state, x.2) := by
  cases h with
  | start h =>
    obtain ⟨o, ho, rfl⟩ := Option.map_eq_some_iff.mp h
    exact .inl ⟨_, o, ho, o.annotate_state _⟩
  | resume h =>
    obtain ⟨o, ho, rfl⟩ := Option.map_eq_some_iff.mp h
    exact .inr ⟨_, _, o, ho, o.annotate_state _⟩

/-- Without its record, what the annotated component reaches the component reaches. -/
theorem FlatReachable.of_annotated {x : σ × α} (h : (C.annotated a₀ note).FlatReachable x) :
    C.FlatReachable x.1 := by
  refine h.invariant (P := fun x => C.FlatReachable x.1) (fun x hx => ⟨x.1, hx.1, .refl⟩)
    fun x y _ hx hm => hx.move ?_
  rcases annotated_move hm with ⟨i, o, ho, rfl⟩ | ⟨k, ok, o, ho, rfl⟩
  · exact .start ho
  · exact .resume ho

/-- The record changes no run: a step of the component is one of the annotated
component, whatever the records in its configuration are. -/
theorem Step.annotate {c c' : Config σ κ} (h : C.Step c c') {d : Config (σ × α) κ}
    (hd : d.forget = c) : ∃ d', (C.annotated a₀ note).Step d d' ∧ d'.forget = c' := by
  obtain ⟨⟨s, a⟩, fs⟩ := d
  have start_annotated : ∀ {i : ι} {o : Outcome σ κ}, C.start i s = some o →
      (C.annotated a₀ note).start i (s, a) = some (o.annotate (note i a)) :=
    fun h => congrArg (Option.map _) h
  have resume_annotated : ∀ {k : κ} {ok : Bool} {atCall : σ × α} {o : Outcome σ κ},
      C.resume k ok (if ok then s else atCall.1) = some o →
      (C.annotated a₀ note).resume k ok (if ok then (s, a) else atCall) =
        some (o.annotate (if ok then a else atCall.2)) := by
    intro k ok atCall o h
    cases ok <;> exact congrArg (Option.map _) h
  cases h with
  | call h =>
    cases hd
    exact ⟨_, .call (start_annotated h), rfl⟩
  | enter h =>
    cases hd
    exact ⟨_, .enter (start_annotated h), rfl⟩
  | checkpoint =>
    cases hd
    exact ⟨_, .checkpoint, rfl⟩
  | commit =>
    cases fs with
    | nil => cases hd
    | cons f fs =>
      cases f with
      | checkpoint =>
        cases hd
        exact ⟨_, .commit, rfl⟩
      | waiting => cases hd
  | rollback =>
    cases fs with
    | nil => cases hd
    | cons f fs =>
      cases f with
      | checkpoint =>
        cases hd
        exact ⟨_, .rollback, rfl⟩
      | waiting => cases hd
  | finish h =>
    cases fs with
    | nil => cases hd
    | cons f fs =>
      cases f with
      | checkpoint => cases hd
      | waiting saved atCall =>
        cases hd
        exact ⟨_, .finish (resume_annotated h), rfl⟩
  | callAgain h =>
    cases fs with
    | nil => cases hd
    | cons f fs =>
      cases f with
      | checkpoint => cases hd
      | waiting saved atCall =>
        cases hd
        exact ⟨_, .callAgain (resume_annotated h), rfl⟩
  | abort =>
    cases fs with
    | nil => cases hd
    | cons f fs =>
      cases f with
      | checkpoint => cases hd
      | waiting =>
        cases hd
        exact ⟨_, .abort, rfl⟩

/-- Every configuration that the component reaches is reached with some record. -/
theorem Reachable.annotate (a₀ : α) (note : ι → α → α) {c : Config σ κ} (h : C.Reachable c) :
    ∃ d, (C.annotated a₀ note).Reachable d ∧ d.forget = c := by
  obtain ⟨s₀, h0, hs⟩ := h
  induction hs with
  | refl => exact ⟨⟨(s₀, a₀), []⟩, ⟨_, ⟨h0, rfl⟩, .refl⟩, rfl⟩
  | tail _ hstep ih =>
    obtain ⟨d, hd, hforget⟩ := ih
    obtain ⟨d', hstep', hforget'⟩ := hstep.annotate hforget
    exact ⟨d', hd.steps (.single hstep'), hforget'⟩

end Annotated

end Component

end PythCrosschain
