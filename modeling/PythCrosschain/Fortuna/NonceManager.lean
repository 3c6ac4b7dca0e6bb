import Mathlib.Data.BitVec
import PythCrosschain.Lib.Tickets

/-!
# The nonces of the keeper

`NonceManagerMiddleware` of `eth_utils/nonce_manager.rs` and the part of `submit_tx` that goes
through it. A task sends one transaction. Each of its steps is an atomic operation or an await
point, and the steps of all tasks and the calls of `reset` interleave in any order. The RPC answers
with the number of transactions that were accepted.

`get_transaction_count_with_manager` stores a count that may be out of date, as it does not take
the guard that `initialize_nonce` takes, and a transaction that is submitted again has the nonce
that the counter hands out next. The results are:

- `step_moves`: a careful step is a move of a dispenser of tickets;
- `nonces_reused_after_resubmission`: what a re-submission that is accepted leads to;
- `nonces_renewed_of_run`: in careful runs a nonce is only used again after a reset;
- `nonces_renewed_fail`: it is in other runs, without any reset.
-/

namespace PythCrosschain.Fortuna

open Relation (ReflTransGen)
open Tickets (Ticket Spent Dispenser)

/-! ## The middleware -/

/-- A transaction with its nonce, and how often `reset` had been called when it was set. -/
structure Transaction where
  nonce : ℕ
  obtained : ℕ
deriving DecidableEq, Repr

/-- A transaction whose inner send succeeded, and how often `reset` had been called by then. -/
structure AcceptedTransaction extends Transaction where
  sent : ℕ
deriving DecidableEq, Repr

/-- What a task does next. -/
inductive Stage where
  /-- `self.initialized.load()` -/
  | loadInitialized
  /-- `self.inner.get_transaction_count()` of an initialization -/
  | getTransactionCount
  | storeNonce (count : ℕ)
  | storeInitialized
  /-- `self.nonce.fetch_add(1)` -/
  | next
  /-- `self.inner().fill_transaction()` -/
  | fill (tx : Transaction)
  /-- `self.inner.send_transaction()` -/
  | send (tx : Transaction)
  /-- `self.get_transaction_count()` behind a send that failed -/
  | getActualNonce (tx : Transaction)
  /-- `self.nonce.load()`, which is compared with the count -/
  | compare (tx : Transaction) (count : ℕ)
  /-- `self.nonce.store()`, and the new nonce of the transaction -/
  | restore (tx : Transaction) (count : ℕ)
  /-- `self.inner.send_transaction()` with the new nonce -/
  | resend (tx : Transaction)
  | done
deriving DecidableEq, Repr

/-- The middleware, the stages of its tasks, and the account. The accepted transactions stand in
front of the ones that were accepted before. -/
structure NonceManager (ι : Type) where
  initialized : Bool := false
  nonce : UInt64 := 0
  stage : ι → Stage := fun _ => .loadInitialized
  resets : ℕ := 0
  acceptedBefore : ℕ
  accepted : List AcceptedTransaction := []

/-- `U256::as_u64`, which panics. -/
def asU64 (n : ℕ) : Option UInt64 := if n < 2 ^ 64 then some (UInt64.ofNat n) else none

namespace NonceManager

variable {ι : Type}

/-- What the RPC answers. -/
def transactionCount (s : NonceManager ι) : ℕ := s.acceptedBefore + s.accepted.length

def reset (s : NonceManager ι) : NonceManager ι :=
  { s with initialized := false, resets := s.resets + 1 }

def accept (s : NonceManager ι) (tx : Transaction) : NonceManager ι :=
  { s with accepted := { tx with sent := s.resets } :: s.accepted }

variable [DecidableEq ι]

def advance (s : NonceManager ι) (i : ι) (stage : Stage) : NonceManager ι :=
  { s with stage := Function.update s.stage i stage }

/-- A step of a task. `ok` is the outcome of what it awaits, where that may fail. -/
def run (s : NonceManager ι) (i : ι) (ok : Bool) : NonceManager ι :=
  match s.stage i with
  | .loadInitialized => s.advance i (if s.initialized then .next else .getTransactionCount)
  | .getTransactionCount => s.advance i (.storeNonce s.transactionCount)
  | .storeNonce count =>
    match asU64 count with
    | some nonce => { s with nonce }.advance i .storeInitialized
    | none => s.advance i .done
  | .storeInitialized => { s with initialized := true }.advance i .next
  | .next =>
    { s with nonce := s.nonce + 1 }.advance i
      (.fill { nonce := s.nonce.toNat, obtained := s.resets })
  | .fill tx => s.advance i (if ok then .send tx else .done)
  | .send tx => if ok then (s.accept tx).advance i .done else s.advance i (.getActualNonce tx)
  | .getActualNonce tx => s.advance i (.compare tx s.transactionCount)
  | .compare tx count => s.advance i (if count ≠ s.nonce.toNat then .restore tx count else .done)
  | .restore _ count =>
    match asU64 count with
    | some nonce =>
      { s with nonce }.advance i (.resend { nonce := count, obtained := s.resets })
    | none => s.advance i .done
  | .resend tx => if ok then (s.accept tx).advance i .done else s.advance i .done
  | .done => s

end NonceManager

/-- A step of the task `i`, or a call of `reset`. -/
inductive NonceAction (ι : Type) where
  | run (i : ι) (ok : Bool)
  | reset
deriving DecidableEq, Repr

namespace NonceManager

variable {ι : Type} [DecidableEq ι]

def step (s : NonceManager ι) : NonceAction ι → NonceManager ι
  | .run i ok => s.run i ok
  | .reset => s.reset

def runAll (s : NonceManager ι) (actions : List (NonceAction ι)) : NonceManager ι :=
  actions.foldl step s

/-- `reset` was called after the earlier one of two transactions with one nonce was sent, and before
the later one obtained the nonce. -/
def NoncesRenewed (s : NonceManager ι) : Prop :=
  s.accepted.Pairwise fun later earlier =>
    later.nonce = earlier.nonce → earlier.sent < later.obtained

instance (s : NonceManager ι) : Decidable s.NoncesRenewed :=
  inferInstanceAs (Decidable (List.Pairwise _ _))

/-! ## Careful steps -/

/-- The nonce of a transaction that may still be sent for the first time, or that was sent since the
last reset. -/
def NonceInUse (s : NonceManager ι) (n : ℕ) : Prop :=
  (∃ i tx, (s.stage i = .fill tx ∨ s.stage i = .send tx) ∧ tx.nonce = n) ∨
    ∃ tx ∈ s.accepted, tx.nonce = n ∧ tx.sent = s.resets

/-- No count is stored that is not above all nonces in use, the counter does not wrap around, and no
transaction that is submitted again is accepted. -/
def Careful (s : NonceManager ι) : NonceAction ι → Prop
  | .reset => True
  | .run i ok =>
    match s.stage i with
    | .storeNonce count | .restore _ count => ∀ n, s.NonceInUse n → n < count
    | .next => s.nonce.toNat + 1 < 2 ^ 64
    | .resend _ => ok = false
    | _ => True

/-- All steps are careful. -/
def CarefulRun (s : NonceManager ι) : List (NonceAction ι) → Prop
  | [] => True
  | action :: actions => s.Careful action ∧ (s.step action).CarefulRun actions

/-! ## The tickets of a run -/

theorem asU64_eq_some {n : ℕ} {x : UInt64} (h : asU64 n = some x) : x.toNat = n := by
  unfold asU64 at h
  split at h
  · next hlt =>
    cases h
    exact UInt64.toNat_ofNat_of_lt' hlt
  · cases h

end NonceManager

def Transaction.ticket (tx : Transaction) : Ticket := ⟨tx.nonce, tx.obtained⟩

/-- What the task may still send for the first time. -/
def Stage.held : Stage → Option Ticket
  | .fill tx | .send tx => some tx.ticket
  | _ => none

namespace NonceManager

variable {ι : Type}

def dispenser (s : NonceManager ι) : Dispenser ι where
  next := s.nonce.toNat
  round := s.resets
  held := Stage.held ∘ s.stage
  spent := s.accepted.map fun tx => { tx.ticket with spentIn := tx.sent }

theorem inUse_dispenser {s : NonceManager ι} {n : ℕ} (h : s.dispenser.InUse n) :
    s.NonceInUse n := by
  rcases h with ⟨i, t, hi, hn⟩ | ⟨t, ht, hn, hround⟩
  · refine .inl ⟨i, ?_⟩
    change (s.stage i).held = some t at hi
    cases hstage : s.stage i with
    | fill tx =>
      rw [hstage] at hi
      cases hi
      exact ⟨tx, .inl rfl, hn⟩
    | send tx =>
      rw [hstage] at hi
      cases hi
      exact ⟨tx, .inr rfl, hn⟩
    | _ =>
      rw [hstage] at hi
      cases hi
  · obtain ⟨tx, htx, rfl⟩ := List.mem_map.mp ht
    exact .inr ⟨tx, htx, hn, hround⟩

theorem noncesRenewed_of_sound {s : NonceManager ι} (hs : s.dispenser.Sound) :
    s.NoncesRenewed :=
  List.pairwise_map.mp hs.renewed

variable [DecidableEq ι]

theorem dispenser_advance (s : NonceManager ι) (i : ι) (stage : Stage) :
    (s.advance i stage).dispenser
      = { s.dispenser with held := Function.update s.dispenser.held i stage.held } := by
  unfold dispenser advance
  rw [Function.comp_update]

/-- A step that changes neither what the task holds nor anything else. -/
theorem dispenser_advance_of_held {s : NonceManager ι} {i : ι} {stage : Stage}
    (h : stage.held = (s.stage i).held) : (s.advance i stage).dispenser = s.dispenser := by
  rw [dispenser_advance, h]
  exact congrArg (fun held => { s.dispenser with held := held })
    (Function.update_eq_self i s.dispenser.held)

/-- A step between two stages that hold nothing. -/
theorem keeps {s : NonceManager ι} {i : ι} {stage : Stage}
    (h : stage.held = (s.stage i).held) :
    ReflTransGen Tickets.Move s.dispenser (s.advance i stage).dispenser := by
  rw [dispenser_advance_of_held h]

/-- A count that is above all nonces in use may be stored. -/
theorem stores {s : NonceManager ι} {i : ι} {count : ℕ} {nonce : UInt64} {stage : Stage}
    (hcount : asU64 count = some nonce) (habove : ∀ n, s.NonceInUse n → n < count)
    (h : stage.held = (s.stage i).held) :
    ReflTransGen Tickets.Move s.dispenser
      (({ s with nonce } : NonceManager ι).advance i stage).dispenser := by
  rw [dispenser_advance_of_held (s := { s with nonce }) h]
  refine .single (.set nonce.toNat fun n hn => ?_)
  rw [asU64_eq_some hcount]
  exact habove n (inUse_dispenser hn)

theorem drops (s : NonceManager ι) (i : ι) {stage : Stage} (h : stage.held = none) :
    ReflTransGen Tickets.Move s.dispenser (s.advance i stage).dispenser := by
  rw [dispenser_advance, h]
  exact .single (.drop i)

/-- A careful step is a move of the dispenser, or no move. -/
theorem step_moves {s : NonceManager ι} {action : NonceAction ι} (h : s.Careful action) :
    ReflTransGen Tickets.Move s.dispenser (s.step action).dispenser := by
  cases action with
  | reset => exact .single .begin
  | run i ok =>
    simp only [Careful] at h
    simp only [step, run]
    cases hstage : s.stage i with
    | loadInitialized =>
      refine keeps ?_
      rw [hstage]
      split <;> rfl
    | getTransactionCount => exact keeps (by rw [hstage]; rfl)
    | storeNonce count =>
      rw [hstage] at h
      dsimp only at h ⊢
      cases hcount : asU64 count with
      | some nonce => exact stores hcount h (by rw [hstage]; rfl)
      | none => exact keeps (by rw [hstage]; rfl)
    | storeInitialized =>
      exact keeps (s := { s with initialized := true }) (by rw [hstage]; rfl)
    | next =>
      rw [hstage] at h
      dsimp only at h ⊢
      have hnext : (s.nonce + 1).toNat = s.nonce.toNat + 1 := by
        rw [UInt64.toNat_add]
        exact Nat.mod_eq_of_lt h
      have htake := Tickets.Move.take (d := s.dispenser) i
      rw [dispenser_advance]
      refine .single ?_
      simp only [dispenser, hnext]
      exact htake
    | fill tx =>
      dsimp only
      cases ok with
      | true => exact keeps (by rw [hstage]; rfl)
      | false => exact drops s i rfl
    | send tx =>
      dsimp only
      cases ok with
      | true =>
        have hheld : s.dispenser.held i = some tx.ticket := congrArg Stage.held hstage
        rw [if_pos rfl, dispenser_advance]
        exact .single (.spend i tx.ticket hheld)
      | false => exact drops s i rfl
    | getActualNonce tx => exact keeps (by rw [hstage]; rfl)
    | compare tx count =>
      refine keeps ?_
      rw [hstage]
      split <;> rfl
    | restore tx count =>
      rw [hstage] at h
      dsimp only at h ⊢
      cases hcount : asU64 count with
      | some nonce => exact stores hcount h (by rw [hstage]; rfl)
      | none => exact keeps (by rw [hstage]; rfl)
    | resend tx =>
      rw [hstage] at h
      dsimp only at h ⊢
      subst h
      exact keeps (by rw [hstage]; rfl)
    | done => exact .refl

/-! ## Runs -/

/-- `NonceManagerMiddleware::new`, for an account with accepted transactions. -/
def new (acceptedBefore : ℕ) : NonceManager ι := { acceptedBefore }

theorem sound_runAll {s : NonceManager ι} {actions : List (NonceAction ι)}
    (h : s.CarefulRun actions) (hs : s.dispenser.Sound) : (s.runAll actions).dispenser.Sound := by
  induction actions generalizing s with
  | nil => exact hs
  | cons action actions ih =>
    obtain ⟨hcareful, hrest⟩ := h
    exact ih hrest (Tickets.sound_of_run (step_moves hcareful) hs)

/-- In a careful run a nonce is only used again when there was a reset in between. -/
theorem nonces_renewed_of_run (acceptedBefore : ℕ) (actions : List (NonceAction ι))
    (h : (new acceptedBefore : NonceManager ι).CarefulRun actions) :
    ((new acceptedBefore : NonceManager ι).runAll actions).NoncesRenewed :=
  noncesRenewed_of_sound (sound_runAll h (Tickets.sound_empty 0 0))

/-- Two tasks one after the other, of which the first one reads the count. -/
def exCarefulRun : List (NonceAction Bool) :=
  [.run false true, .run false true, .run false true, .run false true, .run false true,
   .run false true, .run false true, .run true true, .run true true, .run true true,
   .run true true]

theorem nonces_renewed_exCarefulRun :
    ((new 7 : NonceManager Bool).runAll exCarefulRun).NoncesRenewed := by
  refine nonces_renewed_of_run 7 exCarefulRun ?_
  simp [exCarefulRun, CarefulRun, Careful, NonceInUse, step, run, new, advance, accept,
    transactionCount, asU64]

/-! ## Careless runs -/

/-- The next transaction has the nonce of a re-submitted one that was accepted. -/
theorem nonces_reused_after_resubmission {s : NonceManager ι} {i j : ι} {tx : Transaction}
    (hij : j ≠ i) (hi : s.stage i = .resend tx) (hnonce : tx.nonce = s.nonce.toNat)
    (hj : s.stage j = .loadInitialized) (hinitialized : s.initialized = true) :
    ¬ (s.runAll (.run i true :: List.replicate 4 (.run j true))).NoncesRenewed := by
  simp [List.replicate, runAll, step, run, hi, hj, hij, hinitialized, advance, accept,
    NoncesRenewed, hnonce]

/-- Two tasks that read the count before either of them has stored it hand out the same nonce. -/
theorem nonces_reused_after_overlap {s : NonceManager ι} {i j : ι} {count : ℕ} (hij : j ≠ i)
    (hi : s.stage i = .storeNonce count) (hj : s.stage j = .storeNonce count)
    (hcount : count < 2 ^ 64) :
    ¬ (s.runAll
      (List.replicate 5 (.run i true) ++ List.replicate 5 (.run j true))).NoncesRenewed := by
  have hnonce : asU64 count = some (UInt64.ofNat count) := if_pos hcount
  simp [List.replicate, runAll, step, run, hi, hj, hij, advance, accept, NoncesRenewed, hnonce]

/-- Both tasks find that the nonce is not initialized, and read the count. -/
def exOverlap : List (NonceAction Bool) :=
  [.run false true, .run true true, .run false true, .run true true]
    ++ List.replicate 5 (.run false true) ++ List.replicate 5 (.run true true)

/-- The send of the first task fails, and it is submitted again before the second task begins. -/
def exResubmission : List (NonceAction Bool) :=
  List.replicate 6 (.run false true) ++ .run false false :: List.replicate 4 (.run false true)
    ++ List.replicate 4 (.run true true)

/-- The second task begins behind a reset, while the first one has a nonce that it has not sent. -/
def exUnsent : List (NonceAction Bool) :=
  List.replicate 6 (.run false true) ++ .reset :: List.replicate 7 (.run true true)
    ++ [.run false true]

/-- Two transactions with one nonce succeed without a reset: when two tasks initialize the nonce at
once, and after a re-submission. A reset that comes before both of them were sent does it, too. -/
theorem nonces_renewed_fail :
    (¬ ((new 7).runAll exOverlap).NoncesRenewed ∧ ((new 7).runAll exOverlap).resets = 0) ∧
      (¬ ((new 7).runAll exResubmission).NoncesRenewed ∧
        ((new 7).runAll exResubmission).resets = 0) ∧
      ¬ ((new 7).runAll exUnsent).NoncesRenewed := by
  decide +kernel

end NonceManager

end PythCrosschain.Fortuna
