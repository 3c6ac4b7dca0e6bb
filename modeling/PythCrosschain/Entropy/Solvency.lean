import Mathlib.Data.FinEnum
import PythCrosschain.Entropy.RequestTable
import PythCrosschain.Lib.Custody

/-!
# Entropy: the fees the contract holds

The contract keeps the fees of every provider and those of Pyth until they are
withdrawn. `Transaction` adds ether that arrives without a call to the calls of
`Run`, and `Totals` records beside the world what `request` and
`requestWithCallback` received and what the withdrawals sent. Each move of this
component is a step of a `Custody` with one account for each provider and one
for Pyth (`move_custody`), so in every configuration of a run, during an external
call included:

- the accrued fees are at most the balance (`entropy_solvent`);
- they are what was received minus what was withdrawn;
- a call that is neither a request nor a withdrawal changes none of them.
-/

namespace PythCrosschain.Entropy

/-! ## The accounts -/

/-- The accrued fees of each provider, and of Pyth as `none`. -/
def State.accounts (s : State) : Option Address → ℕ
  | none => s.accruedPythFeesInWei.toNat
  | some provider => (s.providers provider).accruedFeesInWei.toNat

/-- The accrued fees of all providers together. -/
def State.accruedProviderFees (s : State) : ℕ :=
  ∑ provider : Address, (s.providers provider).accruedFeesInWei.toNat

/-- What the contract has received as fees, and what it has paid out. -/
structure Totals where
  received : ℕ := 0
  withdrawn : ℕ := 0

/-- A call of the contract, or ether that reaches it without one of its
functions being called (`selfdestruct`, a block reward). -/
inductive Transaction where
  | call (m : Message)
  | forcedTransfer (amount : ℕ)

/-- The value that the fees of a request are taken from. -/
def Message.received (m : Message) : ℕ :=
  if m.call.payable then m.env.value.toNat else 0

def Call.withdrawn : Call → ℕ
  | .withdraw amount => amount.toNat
  | .withdrawAsFeeManager _ amount => amount.toNat
  | _ => 0

/-- The calls that pay in or pay out. -/
def Call.movesFunds : Call → Bool
  | .request .. => true
  | .requestWithCallback .. => true
  | .withdraw .. => true
  | .withdrawAsFeeManager .. => true
  | _ => false

def Totals.note (t : Totals) : Transaction → Totals
  | .call m =>
    { received := t.received + m.received, withdrawn := t.withdrawn + m.call.withdrawn }
  | .forcedTransfer _ => t

section

variable (keccak256 : Bytes → Bytes32)

/-- The contract, with ether that arrives on its own. -/
def fundedComponent : Component World Transaction Pending where
  init := Initial
  start
    | .call m, w => (execute keccak256 m w).toOption
    | .forcedTransfer amount, w => some (.done { w with balance := w.balance + amount })
  resume := resume

/-- The contract with its totals. -/
def ledger : Component (World × Totals) Transaction Pending :=
  (fundedComponent keccak256).annotated {} fun transaction t => t.note transaction

end

/-- The world and the totals as a custody of the accounts. -/
def custody (w : World) (t : Totals) : Custody (Option Address) where
  accounts := w.state.accounts
  balance := w.balance
  received := t.received
  withdrawn := t.withdrawn

theorem owed_custody (w : World) (t : Totals) :
    (custody w t).owed = w.state.accruedPythFeesInWei.toNat + w.state.accruedProviderFees :=
  Fintype.sum_option w.state.accounts

/-! ## Writing a provider entry -/

theorem accounts_setProvider {s : State} {provider : Address} {info : ProviderInfo} :
    (s.setProvider provider info).accounts =
      Function.update s.accounts (some provider) info.accruedFeesInWei.toNat := by
  funext account
  cases account with
  | none => rfl
  | some p =>
    rcases eq_or_ne p provider with rfl | hp
    · simp [State.accounts]
    · simp [State.accounts, hp]

/-- Writing a provider entry with the same accrued fees. -/
theorem accounts_setProvider_same {s : State} {provider : Address} {info : ProviderInfo}
    (h : info.accruedFeesInWei = (s.providers provider).accruedFeesInWei) :
    (s.setProvider provider info).accounts = s.accounts := by
  rw [accounts_setProvider, h]
  exact Function.update_eq_self (some provider) s.accounts

@[simp] theorem accounts_store {s : State} {ref : RequestRef} {req : Request} :
    (s.store ref req).accounts = s.accounts := by
  cases ref <;> rfl

/-- The accounts and the balance are as they were. -/
structure SameFunds (w w' : World) : Prop where
  accounts : w'.state.accounts = w.state.accounts
  balance : w'.balance = w.balance

theorem SameFunds.step {w w' : World} (h : SameFunds w w') (t : Totals) :
    Custody.Step (custody w t) (custody w' t) :=
  .idle (by simp only [custody, h.accounts, h.balance])

/-! ## The functions of the contract -/

section Functions

variable {keccak256 : Bytes → Bytes32}

/-- What a request credits: the provider's fee of that moment to the provider,
and the rest of the value to Pyth. -/
def credit (env : Env) (provider : Address) (s : State) : Option Address → ℕ
  | none => env.value.toNat - (s.providers provider).feeInWei.toNat
  | some p => if p = provider then (s.providers provider).feeInWei.toNat else 0

theorem sum_credit {env : Env} {provider : Address} {s : State}
    (hfee : (s.providers provider).feeInWei.toNat ≤ env.value.toNat) :
    ∑ account, credit env provider s account = env.value.toNat := by
  rw [Fintype.sum_option]
  simp only [credit, Finset.sum_ite_eq', Finset.mem_univ, if_true]
  omega

theorem assignSequenceNumber_funds {provider : Address} {n : Uint64} {s s' : State}
    (h : assignSequenceNumber provider s = .ok (n, s')) :
    s'.accounts = s.accounts ∧
      (s'.providers provider).feeInWei = (s.providers provider).feeInWei := by
  simp only [assignSequenceNumber, bind_eq_ok, require_eq_ok, checkedAdd_eq_ok, pure_eq_ok,
    exists_const, Prod.mk.injEq] at h
  obtain ⟨-, -, next, -, -, rfl⟩ := h
  refine ⟨accounts_setProvider_same rfl, ?_⟩
  simp

theorem collectFee_funds {env : Env} {provider : Address} {s s' : State}
    (h : collectFee env provider s = .ok s') :
    (s.providers provider).feeInWei.toNat ≤ env.value.toNat ∧
      s'.accounts = s.accounts + credit env provider s := by
  simp only [collectFee, bind_eq_ok, require_eq_ok, checkedAdd_eq_ok, checkedSub_eq_ok,
    safeCast_eq_ok, pure_eq_ok, exists_const] at h
  obtain ⟨requiredFee, -, -, accrued, haccrued, value, hvalue, pythFee, hpythFee, accruedPyth,
    haccruedPyth, rfl⟩ := h
  refine ⟨by omega, ?_⟩
  funext account
  cases account with
  | none =>
    show accruedPyth.toNat = s.accruedPythFeesInWei.toNat + credit env provider s none
    simp only [credit]
    omega
  | some p =>
    show (Function.update s.providers provider _ p).accruedFeesInWei.toNat =
      (s.providers p).accruedFeesInWei.toNat + credit env provider s (some p)
    rcases eq_or_ne p provider with rfl | hp
    · rw [Function.update_self]
      simpa [credit] using haccrued
    · rw [Function.update_of_ne hp]
      simp [credit, hp]

theorem writeRequest_funds {env : Env} {provider : Address} {userCommitment : Bytes32}
    {useBlockhash isRequestWithCallback : Bool} {n : Uint64} {ref : RequestRef} {s s' : State}
    (h : writeRequest keccak256 env provider userCommitment useBlockhash isRequestWithCallback n s
      = .ok (ref, s')) : s'.accounts = s.accounts := by
  simp only [writeRequest, bind_eq_ok, require_eq_ok, checkedSub_eq_ok, safeCast_eq_ok,
    pure_eq_ok, exists_const, Prod.mk.injEq] at h
  obtain ⟨distance, -, numHashes, -, -, blockNumber, -, -, rfl⟩ := h
  rw [accounts_store]
  simp only [allocRequest]
  split <;> simp

theorem requestHelper_funds {env : Env} {provider : Address} {userCommitment : Bytes32}
    {useBlockhash isRequestWithCallback : Bool} {ref : RequestRef} {s s' : State}
    (h : requestHelper keccak256 env provider userCommitment useBlockhash isRequestWithCallback s
      = .ok (ref, s')) :
    (s.providers provider).feeInWei.toNat ≤ env.value.toNat ∧
      s'.accounts = s.accounts + credit env provider s := by
  simp only [requestHelper, bind_eq_ok, Prod.exists] at h
  obtain ⟨n, s₁, hassign, s₂, hcollect, hwrite⟩ := h
  obtain ⟨haccounts₁, hfee⟩ := assignSequenceNumber_funds hassign
  obtain ⟨hpaid, haccounts₂⟩ := collectFee_funds hcollect
  rw [hfee] at hpaid
  refine ⟨hpaid, ?_⟩
  have hcredit : credit env provider s₁ = credit env provider s := by
    funext account
    cases account <;> simp [credit, hfee]
  rw [writeRequest_funds hwrite, haccounts₂, haccounts₁, hcredit]

/-- A call that stores a request is a deposit of its whole value. -/
theorem requestHelper_deposit {m : Message} {provider : Address} {userCommitment : Bytes32}
    {useBlockhash isRequestWithCallback : Bool} {ref : RequestRef} {s : State} {w w' : World}
    (h : requestHelper keccak256 m.env provider userCommitment useBlockhash isRequestWithCallback
      w.state = .ok (ref, s)) (hstate : w'.state = s)
    (hbalance : w'.balance = w.balance + m.env.value.toNat)
    (hreceived : m.received = m.env.value.toNat) (hwithdrawn : m.call.withdrawn = 0)
    (t : Totals) : Custody.Step (custody w t) (custody w' (t.note (.call m))) := by
  obtain ⟨hpaid, haccounts⟩ := requestHelper_funds h
  refine .deposit (credit m.env provider w.state) ?_
  rw [sum_credit hpaid]
  simp only [custody, Totals.note, hstate, haccounts, hbalance, hreceived, hwithdrawn, add_zero]

theorem startWithdrawal_payment {m : Message} {provider : Address} {amount : Uint128}
    {w : World} {o : Outcome World Pending}
    (h : startWithdrawal m.env provider amount w = .ok o) (hreceived : m.received = 0)
    (hwithdrawn : m.call.withdrawn = amount.toNat) (t : Totals) :
    Custody.Step (custody w t) (custody o.state (t.note (.call m))) := by
  simp only [startWithdrawal, bind_eq_ok, require_eq_ok, checkedSub_eq_ok, exists_const,
    pure_eq_ok] at h
  obtain ⟨-, accrued, haccrued, hbalance, rfl⟩ := h
  refine .payment (some provider) amount.toNat ?_ ?_ ?_ ?_ ?_
  · simp only [custody, Outcome.state, accounts_setProvider, Function.update_self]
    rw [State.accounts, haccrued, Nat.add_comm]
  · intro account haccount
    simp only [custody, Outcome.state, accounts_setProvider, Function.update_of_ne haccount]
  · exact (Nat.sub_add_cancel hbalance).symm
  · simp [custody, Totals.note, hreceived]
  · simp [custody, Totals.note, hwithdrawn]

theorem revealHelper_funds {env : Env} {req : Request} {userRevelation providerRevelation : Bytes32}
    {revelation : Revelation} {s s' : State}
    (h : revealHelper keccak256 env req userRevelation providerRevelation s
      = .ok (revelation, s')) : s'.accounts = s.accounts := by
  simp only [revealHelper, bind_eq_ok, require_eq_ok, pure_eq_ok, exists_const,
    Prod.mk.injEq] at h
  obtain ⟨-, blockHash, -, -, rfl⟩ := h
  split
  · exact accounts_setProvider_same rfl
  · rfl

@[simp] theorem accounts_clearRequest {provider : Address} {n : Uint64} {s : State} :
    (clearRequest keccak256 provider n s).accounts = s.accounts := by
  simp only [clearRequest]
  split <;> simp

theorem Reveals.funds {w w' : World} {provider : Address} {n : Uint64}
    {userRevelation providerRevelation : Bytes32}
    (h : Reveals keccak256 w provider n userRevelation providerRevelation w') :
    SameFunds w w' := by
  cases h with
  | reveal h =>
    simp only [Entropy.reveal, bind_eq_ok, require_eq_ok, Prod.exists, exists_const, pure_eq_ok,
      Prod.mk.injEq] at h
    obtain ⟨ref, -, -, -, revelation, s, hreveal, -, rfl⟩ := h
    exact ⟨accounts_clearRequest.trans (revealHelper_funds hreveal), rfl⟩
  | revealWithCallback h =>
    simp only [Entropy.revealWithCallback, bind_eq_ok, require_eq_ok, Prod.exists,
      exists_const] at h
    obtain ⟨ref, -, -, revelation, s, hreveal, hcall⟩ := h
    split at hcall
    · cases pure_eq_ok.mp hcall
      exact ⟨accounts_clearRequest.trans (revealHelper_funds hreveal), rfl⟩
    · cases pure_eq_ok.mp hcall
      exact ⟨accounts_clearRequest.trans (revealHelper_funds hreveal), rfl⟩

theorem updateOwnProvider_funds {w w' : World} {env : Env} {update : ProviderInfo → ProviderInfo}
    {event : ProviderInfo → Event} (h : updateOwnProvider env update event w = .ok w')
    (hfees : ∀ info, (update info).accruedFeesInWei = info.accruedFeesInWei) :
    SameFunds w w' := by
  simp only [updateOwnProvider, bind_eq_ok, require_eq_ok, exists_const, pure_eq_ok] at h
  obtain ⟨-, rfl⟩ := h
  exact ⟨accounts_setProvider_same (hfees _), rfl⟩

/-- A call that is neither a request nor a withdrawal leaves every account as it is. -/
theorem execute_sameFunds {m : Message} {w : World} {o : Outcome World Pending}
    (hcall : m.call.movesFunds = false) (h : execute keccak256 m w = .ok o) :
    SameFunds w o.state := by
  obtain ⟨env, owner, call⟩ := m
  simp only [execute, bind_eq_ok, require_eq_ok, exists_const] at h
  obtain ⟨-, h⟩ := h
  cases call with
  | withdraw | withdrawAsFeeManager | request | requestWithCallback => cases hcall
  | register =>
    simp only [register, bind_eq_ok, require_eq_ok, checkedAdd_eq_ok, pure_eq_ok,
      exists_const] at h
    obtain ⟨_, ⟨-, _, -, _, -, rfl⟩, rfl⟩ := h
    exact ⟨accounts_setProvider_same rfl, rfl⟩
  | advanceProviderCommitment =>
    simp only [advanceProviderCommitment, bind_eq_ok, require_eq_ok, pure_eq_ok,
      exists_const] at h
    obtain ⟨_, ⟨-, -, _, -, _, -, -, _, -, rfl⟩, rfl⟩ := h
    exact ⟨accounts_setProvider_same rfl, rfl⟩
  | reveal =>
    simp only [bind_eq_ok, pure_eq_ok] at h
    obtain ⟨_, h, rfl⟩ := h
    exact (Reveals.reveal h).funds
  | revealWithCallback => exact (Reveals.revealWithCallback h).funds
  | setProviderFee | setProviderUri | setFeeManager | setMaxNumHashes =>
    simp only [bind_eq_ok, pure_eq_ok] at h
    obtain ⟨w', h, rfl⟩ := h
    exact updateOwnProvider_funds h (fun _ => rfl)
  | setProviderFeeAsFeeManager =>
    simp only [setProviderFeeAsFeeManager, bind_eq_ok, pure_eq_ok] at h
    obtain ⟨_, ⟨_, -, rfl⟩, rfl⟩ := h
    exact ⟨accounts_setProvider_same rfl, rfl⟩
  | proposeAdmin =>
    simp only [proposeAdmin, bind_eq_ok, pure_eq_ok] at h
    obtain ⟨w', ⟨_, -, _, -, rfl⟩, rfl⟩ := h
    exact ⟨rfl, rfl⟩
  | acceptAdmin =>
    simp only [acceptAdmin, bind_eq_ok, pure_eq_ok] at h
    obtain ⟨w', ⟨_, -, rfl⟩, rfl⟩ := h
    exact ⟨rfl, rfl⟩
  | setPythFee =>
    simp only [setPythFee, bind_eq_ok, pure_eq_ok] at h
    obtain ⟨w', ⟨_, -, rfl⟩, rfl⟩ := h
    exact ⟨rfl, rfl⟩
  | setDefaultProvider =>
    simp only [setDefaultProvider, bind_eq_ok, pure_eq_ok] at h
    obtain ⟨w', ⟨_, -, _, -, rfl⟩, rfl⟩ := h
    exact ⟨rfl, rfl⟩

/-- Such a call is not noted. -/
theorem note_of_not_movesFunds {m : Message} (hcall : m.call.movesFunds = false) (t : Totals) :
    t.note (.call m) = t := by
  obtain ⟨env, owner, call⟩ := m
  cases call with
  | withdraw | withdrawAsFeeManager | request | requestWithCallback => cases hcall
  | _ => rfl

/-- A request is a deposit, a withdrawal a payment, and any other call is idle. -/
theorem execute_custody {m : Message} {w : World} {o : Outcome World Pending}
    (h : execute keccak256 m w = .ok o) (t : Totals) :
    Custody.Step (custody w t) (custody o.state (t.note (.call m))) := by
  cases hcall : m.call.movesFunds with
  | false =>
    rw [note_of_not_movesFunds hcall]
    exact (execute_sameFunds hcall h).step t
  | true =>
    obtain ⟨env, owner, call⟩ := m
    simp only [execute, bind_eq_ok, require_eq_ok, exists_const] at h
    obtain ⟨-, h⟩ := h
    cases call with
    | withdraw amount =>
      exact startWithdrawal_payment (m := ⟨env, owner, .withdraw amount⟩) h rfl rfl t
    | withdrawAsFeeManager provider amount =>
      obtain ⟨_, -, h⟩ := bind_eq_ok.mp h
      exact startWithdrawal_payment (m := ⟨env, owner, .withdrawAsFeeManager provider amount⟩)
        h rfl rfl t
    | request provider commitment useBlockHash =>
      simp only [request, bind_eq_ok, Prod.exists, pure_eq_ok, Prod.mk.injEq] at h
      obtain ⟨_, _, ⟨ref, s, hreq, -, rfl⟩, rfl⟩ := h
      exact requestHelper_deposit (m := ⟨env, owner, .request provider commitment useBlockHash⟩)
        hreq rfl rfl rfl rfl t
    | requestWithCallback provider number =>
      simp only [requestWithCallback, bind_eq_ok, Prod.exists, pure_eq_ok, Prod.mk.injEq] at h
      obtain ⟨_, _, ⟨ref, s, hreq, -, rfl⟩, rfl⟩ := h
      exact requestHelper_deposit (m := ⟨env, owner, .requestWithCallback provider number⟩)
        hreq rfl rfl rfl rfl t
    | _ => cases hcall

theorem resume_sameFunds {k : Pending} {ok : Bool} {w : World} {o : Outcome World Pending}
    (h : resume k ok w = some o) : SameFunds w o.state := by
  cases ok with
  | false => cases k <;> cases h
  | true => cases k <;> cases h <;> exact ⟨rfl, rfl⟩

/-! ## Runs -/

/-- Every move of the ledger is a step of the custody of its accounts. -/
theorem move_custody {x y : World × Totals} (h : (ledger keccak256).Move x y) :
    Custody.Step (custody x.1 x.2) (custody y.1 y.2) := by
  rcases Component.annotated_move h with ⟨transaction, o, ho, rfl⟩ | ⟨k, ok, o, ho, rfl⟩
  · cases transaction with
    | call m => exact execute_custody (toOption_eq_some.mp ho) x.2
    | forcedTransfer amount =>
      cases ho
      exact .surplus amount rfl
  · exact (resume_sameFunds ho).step x.2

theorem initial_balanced {w : World} (h : Initial w) : (custody w {}).Balanced := by
  obtain ⟨owner, admin, pythFeeInWei, defaultProvider, prefill, s, balance, hinit, rfl⟩ := h
  have haccounts : s.accounts = fun _ => 0 := by
    simp only [initializeEntropy, bind_eq_ok, require_eq_ok, exists_const] at hinit
    obtain ⟨-, -, -, hinit⟩ := hinit
    funext account
    split at hinit
    · cases pure_eq_ok.mp hinit
      cases account <;> rfl
    · cases pure_eq_ok.mp hinit
      cases account <;> rfl
  have howed : (custody { state := s, balance } {}).owed = 0 := by
    simp [Custody.owed, custody, haccounts]
  constructor
  · rw [howed]
    rfl
  · rw [howed]
    exact Nat.zero_le _

/-- In every configuration of a run the custody is balanced. -/
theorem reachable_balanced {c : Config (World × Totals) Pending}
    (h : (ledger keccak256).Reachable c) : (custody c.state.1 c.state.2).Balanced := by
  refine h.invariant (P := fun x => (custody x.1 x.2).Balanced) ?_ ?_
  · rintro ⟨w, t⟩ ⟨hinit, rfl⟩
    exact initial_balanced hinit
  · intro x y _ hbalanced hmove
    exact (move_custody hmove).balanced hbalanced

/-- The accrued fees of all providers and of Pyth are covered by the balance, in
the middle of a withdrawal or of a callback too, and they are what requests paid
minus what was withdrawn. Only requests and withdrawals change them: setting a
fee, or registering again, leaves the accrued fees of every account. -/
theorem entropy_solvent {c : Config (World × Totals) Pending}
    (h : (ledger keccak256).Reachable c) :
    c.state.1.state.accruedProviderFees + c.state.1.state.accruedPythFeesInWei.toNat ≤
      c.state.1.balance ∧
    c.state.2.withdrawn ≤ c.state.2.received ∧
    c.state.1.state.accruedProviderFees + c.state.1.state.accruedPythFeesInWei.toNat =
      c.state.2.received - c.state.2.withdrawn ∧
    ∀ (m : Message) (w : World) (o : Outcome World Pending),
      m.call.movesFunds = false → execute keccak256 m w = .ok o →
        (∀ provider, (o.state.state.providers provider).accruedFeesInWei =
          (w.state.providers provider).accruedFeesInWei) ∧
        o.state.state.accruedPythFeesInWei = w.state.accruedPythFeesInWei := by
  obtain ⟨hbooked, hcovered⟩ := reachable_balanced h
  rw [owed_custody] at hbooked hcovered
  have hbooked : c.state.1.state.accruedPythFeesInWei.toNat +
      c.state.1.state.accruedProviderFees + c.state.2.withdrawn = c.state.2.received := hbooked
  have hcovered : c.state.1.state.accruedPythFeesInWei.toNat +
      c.state.1.state.accruedProviderFees ≤ c.state.1.balance := hcovered
  refine ⟨by omega, by omega, by omega, fun m w o hcall hexecute => ?_⟩
  have haccounts := (execute_sameFunds hcall hexecute).accounts
  refine ⟨fun provider => ?_, ?_⟩
  · exact BitVec.eq_of_toNat_eq (congrFun haccounts (some provider))
  · exact BitVec.eq_of_toNat_eq (congrFun haccounts none)

/-- The totals are a record only: they restrict no run of the contract. -/
theorem accrued_le_balance {c : Config World Pending}
    (h : (fundedComponent keccak256).Reachable c) :
    c.state.state.accruedProviderFees + c.state.state.accruedPythFeesInWei.toNat ≤
      c.state.balance := by
  obtain ⟨d, hd, rfl⟩ := h.annotate {} fun transaction t => Totals.note t transaction
  have hcovered := (reachable_balanced hd).owed_le_balance
  rw [owed_custody, Nat.add_comm] at hcovered
  exact hcovered

/-- The balance covers every withdrawal that its account covers. -/
theorem withdrawal_never_short {c : Config (World × Totals) Pending}
    (h : (ledger keccak256).Reachable c) (provider : Address) :
    (c.state.1.state.providers provider).accruedFeesInWei.toNat ≤ c.state.1.balance :=
  (reachable_balanced h).account_le_balance (some provider)

end Functions

/-! ## A run -/

/-- A call with value. -/
def exPaid (sender : Address) (value : Uint256) (call : Call) : Message :=
  let m := exMessage sender call
  { m with env := { m.env with value } }

/-- Provider 7 asks for 10 wei, user 9 pays 25, and the provider raises its fee. -/
def exFunded : World × Totals :=
  [.call (exMessage 7 (.register 10 (exChain 0) [] 10 [])),
    .call (exPaid 9 25 (.request 7 (constructUserCommitment exKeccak 33) false)),
    .call (exMessage 7 (.setProviderFee 20))].foldl (ledger exKeccak).perform (exInitial, {})

theorem exFunded_reachable : (ledger exKeccak).Reachable ⟨exFunded, []⟩ :=
  ⟨(exInitial, {}), ⟨exInitial_initial, rfl⟩, Component.steps_perform _ _ _ _⟩

/-- What the recipient of a withdrawal sees, and `none` when nothing is sent. -/
def duringWithdrawal (keccak256 : Bytes → Bytes32) (m : Message) (x : World × Totals) :
    Option (World × Totals) :=
  match (ledger keccak256).start (.call m) x with
  | some (.external y _) => some y
  | _ => none

theorem duringWithdrawal_reachable {keccak256 : Bytes → Bytes32} {m : Message}
    {x y : World × Totals} (hx : (ledger keccak256).Reachable ⟨x, []⟩)
    (h : duringWithdrawal keccak256 m x = some y) :
    ∃ f, (ledger keccak256).Reachable ⟨y, [f]⟩ := by
  unfold duringWithdrawal at h
  split at h
  · next hstart =>
    cases h
    exact ⟨_, hx.steps (.single (.enter hstart))⟩
  · cases h

/-- While provider 7 receives 4 of its 10 wei, the 21 that are left are accounted for. -/
theorem entropy_solvent_run : ∃ (y : World × Totals) (f : Frame (World × Totals) Pending),
    (ledger exKeccak).Reachable ⟨y, [f]⟩ ∧ y.1.balance = 21 ∧
    (y.1.state.providers 7).accruedFeesInWei = 6 ∧
    y.1.state.accruedProviderFees + y.1.state.accruedPythFeesInWei.toNat = 21 := by
  have hduring : (duringWithdrawal exKeccak (exMessage 7 (.withdraw 4)) exFunded).any
      (fun y => y.1.balance = 21 ∧ (y.1.state.providers 7).accruedFeesInWei = 6 ∧
        y.2.received = 25 ∧ y.2.withdrawn = 4) = true := by
    decide +kernel
  obtain ⟨y, hy, hfacts⟩ := (Option.any_eq_true _ _).mp hduring
  obtain ⟨hbalance, hprovider, hreceived, hwithdrawn⟩ := of_decide_eq_true hfacts
  obtain ⟨f, hreachable⟩ := duringWithdrawal_reachable exFunded_reachable hy
  refine ⟨y, f, hreachable, hbalance, hprovider, ?_⟩
  obtain ⟨-, -, hsum, -⟩ := entropy_solvent hreachable
  show _ = 25 - 4
  rw [← hreceived, ← hwithdrawn]
  exact hsum

end PythCrosschain.Entropy
