import Mathlib.Algebra.BigOperators.Group.Finset.Piecewise
import Mathlib.Algebra.Order.BigOperators.Group.Finset
import Mathlib.Data.Fintype.BigOperators

/-!
# Custody of funds

A custodian holds funds for a finite family of accounts. A deposit is divided
among the accounts in full; a payment leaves through one account; and the
custodian may be handed a surplus that belongs to nobody. Whatever happens, the
accounts hold exactly what was deposited and not paid out, and the custodian
can cover them (`Step.balanced`). So a payment that its account covers never
fails for lack of funds (`Balanced.account_le_balance`).
-/

namespace PythCrosschain

/-- What a custodian holds, what it owes to each account, and its totals. -/
structure Custody (ι : Type) where
  accounts : ι → ℕ
  balance : ℕ
  received : ℕ
  withdrawn : ℕ

namespace Custody

variable {ι : Type} [Fintype ι]

/-- The sum of all accounts. -/
def owed (c : Custody ι) : ℕ := ∑ i, c.accounts i

/-- The accounts are what came in and did not go out, and they are covered. -/
structure Balanced (c : Custody ι) : Prop where
  owed_add_withdrawn : c.owed + c.withdrawn = c.received
  owed_le_balance : c.owed ≤ c.balance

theorem Balanced.account_le_balance {c : Custody ι} (h : c.Balanced) (i : ι) :
    c.accounts i ≤ c.balance :=
  (Finset.single_le_sum (fun _ _ => Nat.zero_le _) (Finset.mem_univ i)).trans h.owed_le_balance

/-- What a custodian does in one step. -/
inductive Step (c c' : Custody ι) : Prop
  | surplus (amount : ℕ) :
      c' = { c with balance := c.balance + amount } → Step c c'
  | deposit (credit : ι → ℕ) :
      c' = { c with
        accounts := c.accounts + credit
        balance := c.balance + ∑ i, credit i
        received := c.received + ∑ i, credit i } → Step c c'
  | payment (i : ι) (amount : ℕ) :
      c.accounts i = c'.accounts i + amount → (∀ j, j ≠ i → c'.accounts j = c.accounts j) →
      c.balance = c'.balance + amount → c'.received = c.received →
      c'.withdrawn = c.withdrawn + amount → Step c c'

theorem Step.idle {c c' : Custody ι} (h : c' = c) : Step c c' := .surplus 0 h

/-- Debiting one account lowers the sum by the same amount. -/
theorem owed_debit {c c' : Custody ι} {i : ι} {amount : ℕ}
    (hdebit : c.accounts i = c'.accounts i + amount)
    (hframe : ∀ j, j ≠ i → c'.accounts j = c.accounts j) : c.owed = c'.owed + amount := by
  classical
  have hc : c.owed = c.accounts i + ∑ j ∈ {i}ᶜ, c.accounts j :=
    Fintype.sum_eq_add_sum_compl i c.accounts
  have hc' : c'.owed = c'.accounts i + ∑ j ∈ {i}ᶜ, c'.accounts j :=
    Fintype.sum_eq_add_sum_compl i c'.accounts
  have hrest : ∑ j ∈ {i}ᶜ, c'.accounts j = ∑ j ∈ {i}ᶜ, c.accounts j :=
    Finset.sum_congr rfl fun j hj => hframe j (by simpa using hj)
  rw [hc, hc', hrest, hdebit, Nat.add_right_comm]

theorem Step.balanced {c c' : Custody ι} (h : c.Balanced) (hs : Step c c') : c'.Balanced := by
  cases hs with
  | surplus amount hc' =>
    subst hc'
    exact ⟨h.owed_add_withdrawn, h.owed_le_balance.trans (Nat.le_add_right _ _)⟩
  | deposit credit hc' =>
    have howed : c'.owed = c.owed + ∑ i, credit i := by
      rw [hc']
      exact Finset.sum_add_distrib
    have hbooked := h.owed_add_withdrawn
    have hcovered := h.owed_le_balance
    constructor
    · rw [howed, hc']
      show c.owed + _ + c.withdrawn = c.received + _
      omega
    · rw [howed, hc']
      show c.owed + _ ≤ c.balance + _
      omega
  | payment i amount hdebit hframe hbalance hreceived hwithdrawn =>
    have howed := owed_debit hdebit hframe
    have hbooked := h.owed_add_withdrawn
    have hcovered := h.owed_le_balance
    constructor
    · rw [hreceived, hwithdrawn, ← hbooked, howed]
      omega
    · omega

/-- One step that credits and debits accounts at once: the debits leave the custodian, and the
credits are paid for by the value that comes in. -/
structure Flow (accounts accounts' : ι → ℕ) (balance balance' : ℕ) (credit debit : ι → ℕ)
    (value : ℕ) : Prop where
  booked : ∀ i, accounts' i + debit i = accounts i + credit i
  paid : balance' + ∑ i, debit i = balance + value
  credit_le : ∑ i, credit i ≤ value

/-- Accounts that are covered stay covered. -/
theorem Flow.covered {accounts accounts' : ι → ℕ} {balance balance' : ℕ} {credit debit : ι → ℕ}
    {value : ℕ} (h : Flow accounts accounts' balance balance' credit debit value)
    (hcovered : ∑ i, accounts i ≤ balance) : ∑ i, accounts' i ≤ balance' := by
  have hbooked : ∑ i, accounts' i + ∑ i, debit i = ∑ i, accounts i + ∑ i, credit i := by
    rw [← Finset.sum_add_distrib, ← Finset.sum_add_distrib]
    exact Finset.sum_congr rfl fun i _ => h.booked i
  have hpaid := h.paid
  have hcredit := h.credit_le
  omega

end Custody

end PythCrosschain
