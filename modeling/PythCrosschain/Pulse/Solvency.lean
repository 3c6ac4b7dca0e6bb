import Mathlib.Data.FinEnum
import PythCrosschain.Lib.Custody
import PythCrosschain.Pulse.Callback

/-!
# Pulse: the fees the contract holds

A request pays the fee of Pyth and credits the rest of its value to the default provider. An
execution calls the Pyth contract without value: it takes nothing out and credits nothing. A
withdrawal debits one account, for its owner.

So each call is a flow of funds (`execute_flow`), and the balance covers all accounts in every
configuration of a run, during a callback or a withdrawal included (`pulse_solvent`).
-/

namespace PythCrosschain.Pulse

/-! ## The accounts -/

/-- The accrued fees of each provider, and of Pyth as `none`. -/
def State.accounts (s : State) : Option Address → ℕ
  | none => s.accruedFeesInWei.toNat
  | some provider => (s.providers provider).accruedFeesInWei.toNat

/-- The accrued fees of all providers together. -/
def State.accruedProviderFees (s : State) : ℕ :=
  ∑ provider : Address, (s.providers provider).accruedFeesInWei.toNat

/-- Who may withdraw from an account. -/
def State.owner (s : State) : Option Address → Address
  | none => s.admin
  | some provider => (s.providers provider).feeManager

/-- What a request credits: the fee of Pyth, and the rest of the value to the provider. -/
def requestCredit (value : ℕ) (provider : Address) (pythFee : ℕ) : Option Address → ℕ
  | none => pythFee
  | some p => if p = provider then value - pythFee else 0

/-- What a call credits to the accounts. -/
def Message.credit (m : Message) (s : State) : Option Address → ℕ :=
  match m.call with
  | .requestPriceUpdatesWithCallback .. =>
    requestCredit m.env.value.toNat s.defaultProvider s.pythFeeInWei.toNat
  | _ => 0

/-- What a call takes out of the accounts. -/
def Call.debit : Call → Option Address → ℕ
  | .withdrawFees amount => Pi.single none amount.toNat
  | .withdrawAsFeeManager provider amount => Pi.single (some provider) amount.toNat
  | _ => 0

/-- A call of the contract, or ether that reaches it without one of its functions being
called. -/
inductive Transaction where
  | call (m : Message)
  | forcedTransfer (amount : ℕ)

section

variable (keccak256 : Bytes → Bytes32)

/-- The contract, with ether that arrives on its own. -/
def fundedComponent : Component World Transaction Pending where
  init := Initial
  start
    | .call m, w => (execute keccak256 m w).toOption
    | .forcedTransfer amount, w => some (.done { w with balance := w.balance + amount })
  resume := resume keccak256

end

/-- The accounts and the balance of two worlds, and what moved between them. -/
abbrev Flow (w w' : World) (credit debit : Option Address → ℕ) (value : ℕ) : Prop :=
  Custody.Flow w.state.accounts w'.state.accounts w.balance w'.balance credit debit value

/-- What flows in and belongs to nobody. -/
theorem Flow.surplus {w w' : World} {value : ℕ} (haccounts : w'.state.accounts = w.state.accounts)
    (hbalance : w'.balance = w.balance + value) : Flow w w' 0 0 value where
  booked account := by rw [haccounts]
  paid := by simpa using hbalance
  credit_le := by simp

/-! ## Writing a provider entry -/

theorem accounts_setProvider {s : State} {provider : Address} {info : ProviderInfo} :
    (s.setProvider provider info).accounts =
      Function.update s.accounts (some provider) info.accruedFeesInWei.toNat := by
  funext account
  cases account with
  | none => rfl
  | some p =>
    rcases eq_or_ne p provider with rfl | hp
    · simp [State.accounts, State.setProvider]
    · simp [State.accounts, State.setProvider, hp]

/-- Writing a provider entry with the same accrued fees. -/
theorem accounts_setProvider_same {s : State} {provider : Address} {info : ProviderInfo}
    (h : info.accruedFeesInWei = (s.providers provider).accruedFeesInWei) :
    (s.setProvider provider info).accounts = s.accounts := by
  rw [accounts_setProvider, h]
  exact Function.update_eq_self (some provider) s.accounts

@[simp] theorem accounts_store {s : State} {ref : RequestRef} {req : Request} :
    (s.store ref req).accounts = s.accounts := by
  cases ref <;> rfl

/-! ## The functions of the contract -/

section Functions

variable {keccak256 : Bytes → Bytes32}

@[simp] theorem accounts_clearRequest {n : Uint64} {s : State} :
    (clearRequest keccak256 n s).accounts = s.accounts := by
  simp only [clearRequest]
  split <;> simp

theorem sum_requestCredit {value pythFee : ℕ} {provider : Address} (hfee : pythFee ≤ value) :
    ∑ account, requestCredit value provider pythFee account = value := by
  rw [Fintype.sum_option]
  simp only [requestCredit, Finset.sum_ite_eq', Finset.mem_univ, if_true]
  exact Nat.add_sub_cancel' hfee

theorem allocRequest_funds {n : Uint64} {s : State} :
    let alloc := (allocRequest keccak256 n s).2
    alloc.accounts = s.accounts ∧ alloc.pythFeeInWei = s.pythFeeInWei := by
  simp only [allocRequest]
  split
  · exact ⟨accounts_store, rfl⟩
  · exact ⟨rfl, rfl⟩

theorem writeRequest_funds {env : PulseEnv} {n : Uint64} {publishTime gas : Uint256}
    {priceIds : List Bytes32} {s : State} :
    let write := (writeRequest keccak256 env n publishTime priceIds gas s).2
    write.accounts = s.accounts ∧ write.pythFeeInWei = s.pythFeeInWei := by
  obtain ⟨haccounts, hfee⟩ := @allocRequest_funds keccak256 n s
  exact ⟨accounts_store.trans haccounts, hfee⟩

theorem collectFee_funds {env : PulseEnv} {s s' : State} {provider : Address}
    (h : collectFee env provider s = .ok s') :
    s.pythFeeInWei.toNat ≤ env.value.toNat ∧
      s'.accounts =
        s.accounts + requestCredit env.value.toNat provider s.pythFeeInWei.toNat := by
  simp only [collectFee, bind_eq_ok, checkedAdd_eq_ok, checkedSub_eq_ok, safeCast_eq_ok,
    pure_eq_ok] at h
  obtain ⟨surplus, hsurplus, cast, hcast, fees, hfees, accrued, haccrued, rfl⟩ := h
  rw [BitVec.toNat_setWidth_of_le (by decide)] at hsurplus
  have hfee : s.pythFeeInWei.toNat ≤ env.value.toNat := by
    rw [hsurplus]
    exact Nat.le_add_right _ _
  refine ⟨hfee, ?_⟩
  funext account
  cases account with
  | none => exact haccrued
  | some p =>
    show (Function.update s.providers provider _ p).accruedFeesInWei.toNat =
      (s.providers p).accruedFeesInWei.toNat + requestCredit _ provider _ (some p)
    rcases eq_or_ne p provider with rfl | hp
    · rw [Function.update_self]
      simp only [requestCredit, if_true]
      show fees.toNat = _
      rw [hfees, hcast, hsurplus, Nat.add_sub_cancel_left]
    · rw [Function.update_of_ne hp]
      simp [requestCredit, hp]

theorem requestPriceUpdatesWithCallback_flow {env : PulseEnv} {publishTime gas : Uint256}
    {priceIds : List Bytes32} {w w' : World}
    (h : requestPriceUpdatesWithCallback keccak256 env publishTime priceIds gas w = .ok w') :
    Flow w w'
      (requestCredit env.value.toNat w.state.defaultProvider w.state.pythFeeInWei.toNat) 0
      env.value.toNat := by
  simp only [requestPriceUpdatesWithCallback, bind_eq_ok, require_eq_ok, pure_eq_ok,
    exists_const] at h
  obtain ⟨-, _, _, -, -, next, -, _, _, -, s, hcollect, rfl⟩ := h
  obtain ⟨hfee, hcollected⟩ := collectFee_funds hcollect
  obtain ⟨hwritten, hsameFee⟩ := @writeRequest_funds keccak256 env
    w.state.currentSequenceNumber publishTime gas priceIds
    { w.state with currentSequenceNumber := next }
  rw [hwritten, hsameFee] at hcollected
  rw [hsameFee] at hfee
  refine ⟨fun account => congrFun hcollected account, by simp [World.emit], ?_⟩
  exact le_of_eq (sum_requestCredit hfee)

theorem executeCallback_flow {env : PulseEnv} {n : Uint64} {updateData : List Bytes}
    {priceIds : List Bytes32} {w : World} {o : Outcome World Pending}
    (h : executeCallback keccak256 env n updateData priceIds w = .ok o) :
    Flow w o.state 0 0 env.value.toNat := by
  simp only [executeCallback, bind_eq_ok, require_eq_ok, Prod.exists, exists_const,
    pure_eq_ok] at h
  obtain ⟨_, _, -, -, rfl⟩ := h
  exact .surplus accounts_clearRequest rfl

/-- A payment of what one account holds. -/
theorem withdrawal_flow {w w' : World} {account : Option Address} {amount : ℕ}
    (hdebit : w.state.accounts account = amount + w'.state.accounts account)
    (hframe : ∀ other, other ≠ account → w'.state.accounts other = w.state.accounts other)
    (hcovered : amount ≤ w.balance) (hbalance : w'.balance = w.balance - amount) :
    Flow w w' 0 (Pi.single account amount) 0 where
  booked other := by
    rcases eq_or_ne other account with rfl | hother
    · rw [Pi.single_eq_same, hdebit]
      simp [Nat.add_comm]
    · rw [Pi.single_eq_of_ne hother, hframe other hother]
      rfl
  paid := by
    rw [Finset.sum_pi_single']
    simp [hbalance, Nat.sub_add_cancel hcovered]
  credit_le := by simp

theorem withdrawFees_flow {env : PulseEnv} {amount : Uint128} {w : World}
    {o : Outcome World Pending} (h : withdrawFees env amount w = .ok o) :
    env.sender = w.state.admin ∧ Flow w o.state 0 (Pi.single none amount.toNat) 0 := by
  simp only [withdrawFees, bind_eq_ok, require_eq_ok, checkedSub_eq_ok, exists_const,
    pure_eq_ok] at h
  obtain ⟨hsender, -, accrued, haccrued, hcovered, rfl⟩ := h
  refine ⟨hsender, withdrawal_flow haccrued (fun other hother => ?_) hcovered rfl⟩
  cases other with
  | none => exact absurd rfl hother
  | some p => rfl

theorem withdrawAsFeeManager_flow {env : PulseEnv} {provider : Address} {amount : Uint128}
    {w : World} {o : Outcome World Pending}
    (h : withdrawAsFeeManager env provider amount w = .ok o) :
    env.sender = (w.state.providers provider).feeManager ∧
      Flow w o.state 0 (Pi.single (some provider) amount.toNat) 0 := by
  simp only [withdrawAsFeeManager, bind_eq_ok, require_eq_ok, checkedSub_eq_ok, exists_const,
    pure_eq_ok] at h
  obtain ⟨hsender, -, accrued, haccrued, hcovered, rfl⟩ := h
  refine ⟨hsender, withdrawal_flow ?_ (fun other hother => ?_) hcovered rfl⟩
  · rw [Outcome.state, accounts_setProvider, Function.update_self]
    exact haccrued
  · rw [Outcome.state, accounts_setProvider, Function.update_of_ne hother]

theorem updateOwnProvider_accounts {w w' : World} {env : PulseEnv}
    {update : ProviderInfo → ProviderInfo} {event : ProviderInfo → Event}
    (h : updateOwnProvider env update event w = .ok w')
    (hfees : ∀ info, (update info).accruedFeesInWei = info.accruedFeesInWei) :
    w'.state.accounts = w.state.accounts ∧ w'.balance = w.balance := by
  simp only [updateOwnProvider, bind_eq_ok, require_eq_ok, exists_const, pure_eq_ok] at h
  obtain ⟨-, rfl⟩ := h
  exact ⟨accounts_setProvider_same (hfees _), rfl⟩

/-- Each call is a flow of funds, and takes from the accounts of its caller only. -/
theorem execute_flow {m : Message} {w : World} {o : Outcome World Pending}
    (h : execute keccak256 m w = .ok o) :
    Flow w o.state (m.credit w.state) m.call.debit m.env.value.toNat ∧
      ∀ account, m.call.debit account ≠ 0 → m.env.sender = w.state.owner account := by
  obtain ⟨env, call⟩ := m
  simp only [execute, bind_eq_ok, require_eq_ok, exists_const] at h
  obtain ⟨hvalue, h⟩ := h
  have hfree : call.payable = false → env.value.toNat = 0 := by
    intro hcall
    rw [hvalue.resolve_left (by simp [hcall])]
    rfl
  have hquiet : ∀ {w' : World}, call.payable = false →
      w'.state.accounts = w.state.accounts ∧ w'.balance = w.balance →
      Flow w w' 0 0 env.value.toNat := by
    rintro w' hcall ⟨haccounts, hbalance⟩
    refine .surplus haccounts ?_
    rw [hfree hcall]
    exact hbalance
  cases call with
  | requestPriceUpdatesWithCallback =>
    simp only [bind_eq_ok, pure_eq_ok] at h
    obtain ⟨w', h, rfl⟩ := h
    exact ⟨requestPriceUpdatesWithCallback_flow h, fun _ hdebit => absurd rfl hdebit⟩
  | executeCallback =>
    exact ⟨executeCallback_flow h, fun _ hdebit => absurd rfl hdebit⟩
  | withdrawFees amount =>
    obtain ⟨hsender, hflow⟩ := withdrawFees_flow h
    refine ⟨?_, fun account hdebit => ?_⟩
    · show Flow w o.state 0 (Pi.single none amount.toNat) env.value.toNat
      rw [hfree rfl]
      exact hflow
    · have haccount : account = none := of_not_not fun hne => hdebit (Pi.single_eq_of_ne hne _)
      rw [haccount]
      exact hsender
  | withdrawAsFeeManager provider amount =>
    obtain ⟨hsender, hflow⟩ := withdrawAsFeeManager_flow h
    refine ⟨?_, fun account hdebit => ?_⟩
    · show Flow w o.state 0 (Pi.single (some provider) amount.toNat) env.value.toNat
      rw [hfree rfl]
      exact hflow
    · have haccount : account = some provider :=
        of_not_not fun hne => hdebit (Pi.single_eq_of_ne hne _)
      rw [haccount]
      exact hsender
  | registerProvider =>
    simp only [registerProvider, bind_eq_ok, pure_eq_ok] at h
    obtain ⟨w', ⟨_, -, rfl⟩, rfl⟩ := h
    exact ⟨hquiet rfl ⟨accounts_setProvider_same rfl, rfl⟩, fun _ hdebit => absurd rfl hdebit⟩
  | setFeeManager | setProviderFee =>
    simp only [bind_eq_ok, pure_eq_ok] at h
    obtain ⟨w', h, rfl⟩ := h
    exact ⟨hquiet rfl (updateOwnProvider_accounts h fun _ => rfl), fun _ hdebit => absurd rfl hdebit⟩
  | setDefaultProvider =>
    simp only [setDefaultProvider, bind_eq_ok, pure_eq_ok] at h
    obtain ⟨w', ⟨_, -, _, -, rfl⟩, rfl⟩ := h
    exact ⟨hquiet rfl ⟨rfl, rfl⟩, fun _ hdebit => absurd rfl hdebit⟩
  | setExclusivityPeriod =>
    simp only [setExclusivityPeriod, bind_eq_ok, pure_eq_ok] at h
    obtain ⟨w', ⟨_, -, rfl⟩, rfl⟩ := h
    exact ⟨hquiet rfl ⟨rfl, rfl⟩, fun _ hdebit => absurd rfl hdebit⟩

/-- The rest of a call moves no funds. -/
theorem resume_flow {k : Pending} {ok : Bool} {w : World} {o : Outcome World Pending}
    (h : resume keccak256 k ok w = some o) : Flow w o.state 0 0 0 := by
  cases k with
  | withdrawal recipient amount =>
    cases ok with
    | false => cases h
    | true =>
      cases h
      exact .surplus rfl rfl
  | pulseCallback ref n sender priceIds priceFeeds callbackError =>
    cases ok with
    | false =>
      cases h
      exact .surplus rfl rfl
    | true =>
      cases h
      exact .surplus rfl rfl

/-! ## Runs -/

/-- The balance covers all accounts. -/
def Covered (w : World) : Prop := ∑ account, w.state.accounts account ≤ w.balance

theorem sum_accounts (s : State) :
    ∑ account, s.accounts account = s.accruedFeesInWei.toNat + s.accruedProviderFees :=
  Fintype.sum_option s.accounts

theorem initial_covered {w : World} (h : Initial w) : Covered w := by
  obtain ⟨_, _, _, _, _, _, _, s, balance, hs, rfl⟩ := h
  have haccounts : s.accounts = 0 := by
    simp only [initializePulse, bind_eq_ok, require_eq_ok, exists_const] at hs
    obtain ⟨-, -, -, -, hs⟩ := hs
    funext account
    split at hs
    · cases pure_eq_ok.mp hs
      cases account <;> rfl
    · cases pure_eq_ok.mp hs
      cases account <;> rfl
  simp [Covered, haccounts]

theorem move_covered {w w' : World} (hcovered : Covered w)
    (h : (fundedComponent keccak256).Move w w') : Covered w' := by
  cases h with
  | @start transaction _ h =>
    cases transaction with
    | call m => exact (execute_flow (toOption_eq_some.mp h)).1.covered hcovered
    | forcedTransfer amount =>
      cases h
      exact Nat.le_add_right_of_le hcovered
  | resume h => exact (resume_flow h).covered hcovered

/-- In every configuration of a run, the balance covers the accrued fees of all providers and
of Pyth, and it covers each withdrawal. Every call moves what it brings, and nothing but that,
into the accounts that it credits, and takes from accounts of its caller only: an execution
credits and takes nothing. Returning from a callback or a withdrawal moves nothing. -/
theorem pulse_solvent {c : Config World Pending} (h : (fundedComponent keccak256).Reachable c) :
    c.state.state.accruedProviderFees + c.state.state.accruedFeesInWei.toNat ≤ c.state.balance ∧
    (∀ m o, execute keccak256 m c.state = .ok o →
      Flow c.state o.state (m.credit c.state.state) m.call.debit m.env.value.toNat ∧
        ∀ account, m.call.debit account ≠ 0 → m.env.sender = c.state.state.owner account) ∧
    ∀ k ok o, resume keccak256 k ok c.state = some o → Flow c.state o.state 0 0 0 := by
  refine ⟨?_, fun m o hexecute => execute_flow hexecute, fun k ok o => resume_flow⟩
  have hcovered : Covered c.state :=
    h.invariant (fun _ => initial_covered) fun _ _ _ hcovered hmove => move_covered hcovered hmove
  rw [Covered, sum_accounts, Nat.add_comm] at hcovered
  exact hcovered

end Functions

/-! ## A run

Pyth asks for 10 wei. Account 9 pays 25 for a request, provider 7 executes it with 3 wei, and
in the callback its fee manager withdraws 5. -/

def exPaid (sender : Address) (value : Uint256) (call : Call) : Transaction :=
  let m := exMessage sender call
  .call { m with env := { m.env with value } }

def exFunded : World :=
  [exPaid 7 0 (.registerProvider 0), exPaid 7 0 (.setFeeManager 8),
    exPaid 9 25 (.requestPriceUpdatesWithCallback 900 [] 50000)].foldl
      (fundedComponent exKeccak).perform
      { state := (initializePulse 1 2 10 5 7 true 0 {}).toOption.getD {} }

theorem exFunded_reachable : (fundedComponent exKeccak).Reachable ⟨exFunded, []⟩ :=
  ⟨_, ⟨1, 2, 10, 5, 7, true, 0, _, 0, rfl, rfl⟩, Component.steps_perform _ _ _ _⟩

/-- What the fee manager sees while it is paid, in the callback. -/
def exNested : Option World :=
  ((fundedComponent exKeccak).pause exFunded (exPaid 7 3 (.executeCallback 1 [] []))).bind
    fun during =>
      (fundedComponent exKeccak).pause during (exPaid 8 0 (.withdrawAsFeeManager 7 5))

theorem pulse_solvent_nested : ∃ (w : World) (f g : Frame World Pending),
    (fundedComponent exKeccak).Reachable ⟨w, [f, g]⟩ ∧ w.balance = 23 ∧
    (w.state.providers 7).accruedFeesInWei = 10 ∧ w.state.accruedFeesInWei = 10 ∧
    w.state.accruedProviderFees + w.state.accruedFeesInWei.toNat ≤ 23 := by
  have hnested : exNested.any (fun w => w.balance = 23 ∧
      (w.state.providers 7).accruedFeesInWei = 10 ∧ w.state.accruedFeesInWei = 10) = true := by
    decide +kernel
  obtain ⟨w, hw, hfacts⟩ := (Option.any_eq_true _ _).mp hnested
  obtain ⟨hbalance, hprovider, hpyth⟩ := of_decide_eq_true hfacts
  obtain ⟨during, hduring, hw⟩ := Option.bind_eq_some_iff.mp hw
  obtain ⟨g, hreachable⟩ := exFunded_reachable.pause hduring
  obtain ⟨f, hreachable⟩ := hreachable.pause hw
  refine ⟨w, f, g, hreachable, hbalance, hprovider, hpyth, ?_⟩
  rw [← hbalance]
  exact (pulse_solvent hreachable).1

end PythCrosschain.Pulse
