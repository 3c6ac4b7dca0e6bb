import PythCrosschain.Near.Interleaving

/-!
# NEAR: where the deposits of governance calls go

The methods of `Near/Receiver` with what they transfer, and the receipts of one call of
`execute_governance_instruction` (`settle`). A call passes the account of the caller on to its
callback. The callback of a transfer of governance passes its own predecessor on, which is the
contract. So the refund of such a call goes to the contract.

- `Deposits.refundStorageUsage_eq`, `Deposits.verifyGovVaaCallback_eq` and
  `Deposits.authorizeGovSourceTransfer_eq`: the methods are those of `Near/Receiver`;
- `deposits_settled_iff`: exactly which calls are settled.
-/

namespace PythCrosschain.Near

/-- `Promise::new(recipient).transfer(amount)`. -/
structure Transfer (A : Type) where
  recipient : A
  amount : BitVec 128
deriving DecidableEq

/-- What the promises of a transfer of governance pass on. -/
structure ClaimCall (A : Type) where
  accountId : A
  claimVaa : List Char
  storage : BitVec 64
  deposit : BitVec 128

/-! ## Methods -/

namespace Deposits

variable {A : Type} (host : Host)

/-- `refund_storage_usage`. -/
def refundStorageUsage (recipient : A) (before after : BitVec 64) (deposit : BitVec 128)
    (additionalFee : Option (BitVec 128)) : Result (List (Transfer A)) :=
  let fee := additionalFee.getD 0
  match checkedSub after before with
  | some diff => do
    let storageCost ← unwrap (checkedMul host.storageByteCost (diff.setWidth 128))
    let cost ← unwrap (checkedAdd storageCost fee)
    let refund ← okOr .insufficientDeposit (checkedSub deposit cost)
    return if refund = 0 then [] else [{ recipient, amount := refund }]
  | none => do
    let diff ← unwrap (checkedSub before after)
    let storageRefund ← unwrap (checkedMul host.storageByteCost (diff.setWidth 128))
    let sum ← unwrap (checkedAdd storageRefund deposit)
    let refund ← unwrap (checkedSub sum fee)
    return [{ recipient, amount := refund }]

/-- `refund_vaa`. `success` is whether the promise before it succeeded. -/
def refundVaa (accountId : A) (amount : BitVec 128) (success : Bool) : List (Transfer A) :=
  if success then [] else [{ recipient := accountId, amount }]

def verifyGovVaaCallback (self : Pyth) (predecessor accountId : A) (vaa : List Char)
    (success : Bool) (before after : BitVec 64) (deposit : BitVec 128) :
    Result (Pyth × List (Transfer A) × Option (ClaimCall A)) := do
  require (success = true) .vaaVerificationFailed
  let vaa ← okOr .invalidPayload (Hex.decode vaa)
  let vaa ← okOr .invalidPayload (host.fromSlice vaa)
  let instruction ← propagate (GovernanceInstruction.deserialize vaa.payload)
  require instruction.ForNear .invalidPayload
  require (self.executedGovernanceVaa < vaa.sequence) .vaaVerificationFailed
  let (self, claimVaa) ←
    Pyth.executeAction { self with executedGovernanceVaa := vaa.sequence } instruction
  match claimVaa with
  | some claimVaa =>
    return (self, [], some { accountId := predecessor, claimVaa, storage := before, deposit })
  | none => do
    let transfers ← refundStorageUsage host accountId before after deposit none
    return (self, transfers, none)

def authorizeGovSourceTransfer (self : Pyth) (accountId : A) (claimVaa : List Char)
    (storage : BitVec 64) (success : Bool) (after : BitVec 64) (deposit : BitVec 128) :
    Result (Pyth × List (Transfer A)) := do
  require (success = true) .vaaVerificationFailed
  let vaa ← okOr .invalidPayload (Hex.decode claimVaa)
  let vaa ← unwrap (host.fromSlice vaa)
  let instruction ← unwrap (GovernanceInstruction.deserialize vaa.payload).toOption
  match instruction.action with
  | .requestGovernanceDataSourceTransfer governanceDataSourceIndex => do
    require (self.executedGovernanceChangeVaa < governanceDataSourceIndex.setWidth 64) .unknown
    require instruction.ForNear .invalidPayload
    let self := { self with
      executedGovernanceChangeVaa := governanceDataSourceIndex.setWidth 64
      executedGovernanceVaa := vaa.sequence
      govSource := vaa.source }
    let transfers ← refundStorageUsage host accountId storage after deposit none
    return (self, transfers)
  | _ => .error (.error .unknown)

end Deposits

/-! ## The receipts of a call -/

/-- What the receipts of a call find: the answers of Wormhole, the state of the contract and its
storage, and whether a callback runs out of gas. -/
structure Receipts where
  verified : Bool
  callbackState : Pyth
  before : BitVec 64
  after : BitVec 64
  callbackAborts : Bool
  claimVerified : Bool
  claimState : Pyth
  claimBefore : BitVec 64
  claimAfter : BitVec 64
  claimAborts : Bool

def aborting {α : Type} (aborts : Bool) (result : Result α) : Result α :=
  if aborts then .error .panic else result

/-- What a call has transferred, and the growth of the storage where its action took effect. -/
structure Settlement (A : Type) where
  transfers : List (Transfer A)
  growth : Option ℤ

section

variable {A : Type} (host : Host) (contract : A)

/-- A call by an account with a deposit, and all its receipts. A method that fails keeps no
deposit: the runtime returns it to the predecessor. -/
def settle (account : A) (deposit : BitVec 128) (self : Pyth) (vaa : List Char) (r : Receipts) :
    Settlement A :=
  match self.executeGovernanceInstruction host vaa with
  | .error _ => { transfers := [{ recipient := account, amount := deposit }], growth := none }
  | .ok () =>
    match aborting r.callbackAborts (Deposits.verifyGovVaaCallback host r.callbackState contract
      account vaa r.verified r.before r.after deposit) with
    | .error _ => { transfers := Deposits.refundVaa account deposit false, growth := none }
    | .ok (_, transfers, none) =>
      { transfers := transfers ++ Deposits.refundVaa account deposit true
        growth := some (r.after.toNat - r.before.toNat) }
    | .ok (_, transfers, some claim) =>
      -- the promise of the callback has the result of the inner `refund_vaa`, which succeeds
      match aborting r.claimAborts (Deposits.authorizeGovSourceTransfer host r.claimState
        claim.accountId claim.claimVaa claim.storage r.claimVerified r.claimAfter claim.deposit) with
      | .error _ =>
        { transfers := transfers ++ Deposits.refundVaa claim.accountId claim.deposit false
            ++ Deposits.refundVaa account deposit true
          growth := none }
      | .ok (_, claimTransfers) =>
        { transfers := transfers ++ claimTransfers
            ++ Deposits.refundVaa claim.accountId claim.deposit true
            ++ Deposits.refundVaa account deposit true
          growth := some ((r.after.toNat - r.before.toNat)
            + (r.claimAfter.toNat - r.claimBefore.toNat)) }

/-- What is left of a deposit, for a growth of the storage. -/
def remainder (deposit : BitVec 128) : Option ℤ → ℤ
  | none => deposit.toNat
  | some growth => deposit.toNat - host.storageByteCost.toNat * growth

/-- The transfers that move something. -/
def moved (transfers : List (Transfer A)) : List (A × ℤ) :=
  (transfers.filter fun t => t.amount ≠ 0).map fun t => (t.recipient, (t.amount.toNat : ℤ))

/-- One transfer, or none of nothing. -/
def paidOnce (account : A) (amount : ℤ) : List (A × ℤ) :=
  if amount = 0 then [] else [(account, amount)]

/-- The account has got back what is left of the deposit, once, and no other account anything. -/
def Settlement.Settled (s : Settlement A) (account : A) (deposit : BitVec 128) : Prop :=
  moved s.transfers = paidOnce account (remainder host deposit s.growth)

/-- The callback accepts the VAA, and it carries the claim of a transfer of governance. -/
def CarriesTransfer (self : Pyth) (text : List Char) (claimVaa : Bytes) : Prop :=
  ∃ vaa instruction, readVaa host text = some vaa ∧ instructionOf vaa = some instruction ∧
    self.executedGovernanceVaa < vaa.sequence ∧
    instruction.action = .authorizeGovernanceDataSourceTransfer claimVaa

/-- The call comes to the claim of a transfer. -/
def StartsClaim (self : Pyth) (vaa : List Char) (r : Receipts) (claimVaa : Bytes) : Prop :=
  self.executeGovernanceInstruction host vaa = .ok () ∧ r.callbackAborts = false ∧
    r.verified = true ∧ CarriesTransfer host r.callbackState vaa claimVaa

/-- The claim takes effect. -/
def ClaimTakesEffect (deposit : BitVec 128) (r : Receipts) (claimVaa : Bytes) : Prop :=
  r.claimAborts = false ∧ r.claimVerified = true ∧
    Near.refundStorageUsage host r.before r.claimAfter deposit = .ok () ∧
    ∃ claim index, readClaim host (Hex.encode claimVaa) = some (claim, index) ∧
      r.claimState.executedGovernanceChangeVaa < index

/-- The growth of the storage in the two callbacks of a transfer. -/
def Receipts.claimGrowth (r : Receipts) : ℤ :=
  (r.after.toNat - r.before.toNat) + (r.claimAfter.toNat - r.claimBefore.toNat)

/-- The refund that the contract gets is what is due to the caller: it is nothing, or the caller is
the contract. The refund of a claim compares the storage with that before the first callback. -/
structure Harmless (account : A) (deposit : BitVec 128) (r : Receipts) (claimVaa : Bytes) :
    Prop where
  effect : ClaimTakesEffect host deposit r claimVaa →
    remainder host deposit (some (r.claimAfter.toNat - r.before.toNat))
        = remainder host deposit (some r.claimGrowth) ∧
      (contract = account ∨ remainder host deposit (some r.claimGrowth) = 0)
  noEffect : ¬ClaimTakesEffect host deposit r claimVaa → contract = account ∨ deposit = 0

end

/-! ## The methods of `Near/Receiver` -/

namespace Deposits

variable {A : Type} {host : Host} {self : Pyth}

theorem refundStorageUsage_eq (recipient : A) (before after : BitVec 64) (deposit : BitVec 128) :
    (fun _ => ()) <$> refundStorageUsage host recipient before after deposit none
      = Near.refundStorageUsage host before after deposit := by
  unfold refundStorageUsage Near.refundStorageUsage
  have hzero (x : BitVec 128) : checkedAdd x 0 = some x :=
    Rust.checkedAdd_eq_some.mpr (Nat.add_zero _).symm
  have hsub (x : BitVec 128) : checkedSub x 0 = some x :=
    Rust.checkedSub_eq_some.mpr ⟨Nat.zero_le _, (Nat.sub_zero _).symm⟩
  cases checkedSub after before with
  | some diff =>
    dsimp only [Option.getD_none]
    cases checkedMul host.storageByteCost (diff.setWidth 128) with
    | none => rfl
    | some cost =>
      rw [unwrap, except_ok_bind, except_ok_bind, hzero, unwrap, except_ok_bind]
      cases checkedSub deposit cost <;> rfl
  | none =>
    dsimp only [Option.getD_none]
    cases checkedSub before after with
    | none => rfl
    | some diff =>
      rw [unwrap, except_ok_bind, except_ok_bind]
      cases checkedMul host.storageByteCost (diff.setWidth 128) with
      | none => rfl
      | some storageRefund =>
        rw [unwrap, except_ok_bind, except_ok_bind]
        cases checkedAdd storageRefund deposit with
        | none => rfl
        | some sum =>
          rw [unwrap, except_ok_bind, except_ok_bind, hsub]
          rfl

/-- What the receiver's methods say of a transfer of governance. -/
def claimPromise (claim : ClaimCall A) : ClaimPromise where
  claimVaa := claim.claimVaa
  storage := claim.storage

theorem verifyGovVaaCallback_eq (predecessor accountId : A) (vaa : List Char) (success : Bool)
    (before after : BitVec 64) (deposit : BitVec 128) :
    (fun r => (r.1, r.2.2.map claimPromise)) <$>
        verifyGovVaaCallback host self predecessor accountId vaa success before after deposit
      = self.verifyGovVaaCallback host vaa success before after deposit := by
  simp only [verifyGovVaaCallback, Pyth.verifyGovVaaCallback, map_bind]
  refine bind_congr fun _ => bind_congr fun _ => bind_congr fun vaa => bind_congr fun instruction =>
    bind_congr fun _ => bind_congr fun _ => bind_congr fun r => ?_
  obtain ⟨self', claimVaa⟩ := r
  cases claimVaa with
  | some claimVaa => rfl
  | none =>
    dsimp only
    rw [map_bind, ← refundStorageUsage_eq accountId, bind_map_left]
    rfl

theorem authorizeGovSourceTransfer_eq (accountId : A) (claimVaa : List Char)
    (storage : BitVec 64) (success : Bool) (after : BitVec 64) (deposit : BitVec 128) :
    Prod.fst <$> authorizeGovSourceTransfer host self accountId claimVaa storage success after deposit
      = self.authorizeGovSourceTransfer host claimVaa storage success after deposit := by
  simp only [authorizeGovSourceTransfer, Pyth.authorizeGovSourceTransfer, map_bind]
  refine bind_congr fun _ => bind_congr fun _ => bind_congr fun vaa => bind_congr fun instruction =>
    ?_
  cases instruction.action with
  | requestGovernanceDataSourceTransfer index =>
    dsimp only
    rw [map_bind]
    refine bind_congr fun _ => ?_
    rw [map_bind]
    refine bind_congr fun _ => ?_
    rw [map_bind, ← refundStorageUsage_eq accountId, bind_map_left]
    rfl
  | upgradeContract => rfl
  | authorizeGovernanceDataSourceTransfer => rfl
  | setDataSources => rfl
  | setFee => rfl
  | setValidPeriod => rfl

/-! ## What the methods transfer -/

theorem toNat_setWidth_diff (diff : BitVec 64) : (diff.setWidth 128).toNat = diff.toNat :=
  BitVec.toNat_setWidth_of_le (by decide)

theorem moved_singleton (recipient : A) (amount : BitVec 128) :
    moved [{ recipient, amount }] = paidOnce recipient amount.toNat := by
  have hiff : (amount.toNat : ℤ) = 0 ↔ amount = 0 :=
    Int.ofNat_eq_zero.trans ⟨fun h => BitVec.eq_of_toNat_eq h, fun h => congrArg BitVec.toNat h⟩
  unfold moved paidOnce
  by_cases hzero : amount = 0
  · rw [if_pos (hiff.mpr hzero), hzero]
    rfl
  · rw [if_neg (mt hiff.mp hzero)]
    have hkeep : decide (amount ≠ 0) = true := decide_eq_true hzero
    simp only [List.filter, hkeep]
    rfl

/-- A refund is what is left of the deposit after the growth of the storage. -/
theorem refundStorageUsage_ok {recipient : A} {before after : BitVec 64} {deposit : BitVec 128}
    {transfers : List (Transfer A)}
    (hok : refundStorageUsage host recipient before after deposit none = .ok transfers) :
    moved transfers
      = paidOnce recipient (remainder host deposit (some (after.toNat - before.toNat))) := by
  unfold refundStorageUsage at hok
  cases hdiff : checkedSub after before with
  | some diff =>
    rw [hdiff] at hok
    dsimp only [Option.getD_none] at hok
    obtain ⟨product, hproduct, hok⟩ := except_bind_eq_ok.mp hok
    obtain ⟨cost, hcost, hok⟩ := except_bind_eq_ok.mp hok
    obtain ⟨refund, hrefund, hok⟩ := except_bind_eq_ok.mp hok
    obtain ⟨hle, hdiff⟩ := Rust.checkedSub_eq_some.mp hdiff
    have hproduct := Rust.checkedMul_eq_some.mp (Rust.unwrap_eq_ok.mp hproduct)
    have hcost := Rust.checkedAdd_eq_some.mp (Rust.unwrap_eq_ok.mp hcost)
    obtain ⟨hcovered, hrefund⟩ := Rust.checkedSub_eq_some.mp (Rust.okOr_eq_ok.mp hrefund)
    have hamount : remainder host deposit (some (after.toNat - before.toNat)) = refund.toNat := by
      rw [toNat_setWidth_diff, hdiff] at hproduct
      rw [remainder, hrefund, hcost, hproduct, Nat.cast_sub (by
        rw [hcost, hproduct] at hcovered
        exact hcovered)]
      push_cast [Nat.cast_sub hle]
      simp
    rw [hamount]
    by_cases hzero : refund = 0
    · rw [if_pos hzero] at hok
      cases hok
      rw [hzero]
      rfl
    · rw [if_neg hzero] at hok
      cases hok
      exact moved_singleton recipient refund
  | none =>
    rw [hdiff] at hok
    dsimp only [Option.getD_none] at hok
    obtain ⟨diff, hback, hok⟩ := except_bind_eq_ok.mp hok
    obtain ⟨storageRefund, hstorage, hok⟩ := except_bind_eq_ok.mp hok
    obtain ⟨sum, hsum, hok⟩ := except_bind_eq_ok.mp hok
    obtain ⟨refund, hrefund, hok⟩ := except_bind_eq_ok.mp hok
    obtain ⟨hle, hback⟩ := Rust.checkedSub_eq_some.mp (Rust.unwrap_eq_ok.mp hback)
    have hstorage := Rust.checkedMul_eq_some.mp (Rust.unwrap_eq_ok.mp hstorage)
    have hsum := Rust.checkedAdd_eq_some.mp (Rust.unwrap_eq_ok.mp hsum)
    obtain ⟨-, hrefund⟩ := Rust.checkedSub_eq_some.mp (Rust.unwrap_eq_ok.mp hrefund)
    have hamount : remainder host deposit (some (after.toNat - before.toNat)) = refund.toNat := by
      rw [toNat_setWidth_diff, hback] at hstorage
      have hnum : refund.toNat
          = host.storageByteCost.toNat * (before.toNat - after.toNat) + deposit.toNat := by
        rw [hrefund, hsum, hstorage]
        rfl
      rw [remainder, hnum]
      push_cast [Nat.cast_sub hle]
      ring
    cases hok
    rw [hamount]
    exact moved_singleton recipient refund

/-- Only a transfer of governance waits for a claim. -/
theorem executeAction_claim {instruction : GovernanceInstruction} {self' : Pyth}
    {claimText : List Char} (hok : self.executeAction instruction = .ok (self', some claimText)) :
    ∃ claimVaa, instruction.action = .authorizeGovernanceDataSourceTransfer claimVaa ∧
      claimText = Hex.encode claimVaa := by
  unfold Pyth.executeAction at hok
  split at hok
  · cases hok
  · obtain ⟨_, -, hok⟩ := except_bind_eq_ok.mp hok
    cases hok
  · cases hok
  · cases hok
  · obtain ⟨_, -, hok⟩ := except_bind_eq_ok.mp hok
    cases hok
  · next claimVaa haction =>
    cases hok
    exact ⟨claimVaa, haction, rfl⟩

/-- The callback of a transfer of governance transfers nothing. Every other one refunds. -/
theorem verifyGovVaaCallback_ok {predecessor accountId : A} {text : List Char} {success : Bool}
    {before after : BitVec 64} {deposit : BitVec 128} {self' : Pyth}
    {transfers : List (Transfer A)} {claim : Option (ClaimCall A)}
    (hok : verifyGovVaaCallback host self predecessor accountId text success before after deposit
      = .ok (self', transfers, claim)) :
    success = true ∧
      ((claim = none ∧ (¬∃ claimVaa, CarriesTransfer host self text claimVaa) ∧
          refundStorageUsage host accountId before after deposit none = .ok transfers) ∨
        ∃ claimVaa, CarriesTransfer host self text claimVaa ∧ transfers = [] ∧
          claim = some ⟨predecessor, Hex.encode claimVaa, before, deposit⟩) := by
  simp only [verifyGovVaaCallback, except_bind_eq_ok, require_eq_ok, okOr_eq_ok,
    propagate_eq_ok] at hok
  obtain ⟨_, hsuccess, bytes, hbytes, vaa, hvaa, instruction, hpayload, _, hnear, _, hahead,
    ⟨updated, claimVaa⟩, haction, hok⟩ := hok
  have hread : readVaa host text = some vaa := Option.bind_eq_some_iff.mpr ⟨bytes, hbytes, hvaa⟩
  have hinstruction := instructionOf_eq_some.mpr ⟨hpayload, hnear⟩
  refine ⟨hsuccess, ?_⟩
  cases claimVaa with
  | none =>
    obtain ⟨ts, hrefund, hok⟩ := except_bind_eq_ok.mp hok
    cases hok
    refine .inl ⟨rfl, ?_, hrefund⟩
    rintro ⟨claimVaa, vaa', instruction', hread', hinstruction', -, hcarries⟩
    cases hread.symm.trans hread'
    cases hinstruction.symm.trans hinstruction'
    rw [Pyth.executeAction, hcarries] at haction
    cases haction
  | some claimText =>
    cases hok
    obtain ⟨claimVaa, hcarries, rfl⟩ := executeAction_claim haction
    exact .inr ⟨claimVaa, ⟨vaa, instruction, hread, hinstruction, hahead, hcarries⟩, rfl, rfl⟩

/-- A verified VAA with a claim comes to the promise of its claim. -/
theorem verifyGovVaaCallback_carries {predecessor accountId : A} {text : List Char}
    {before after : BitVec 64} {deposit : BitVec 128} {claimVaa : Bytes}
    (h : CarriesTransfer host self text claimVaa) :
    ∃ self', verifyGovVaaCallback host self predecessor accountId text true before after deposit
      = .ok (self', [], some ⟨predecessor, Hex.encode claimVaa, before, deposit⟩) := by
  obtain ⟨vaa, instruction, hread, hinstruction, hahead, hcarries⟩ := h
  obtain ⟨bytes, hbytes, hvaa⟩ := Option.bind_eq_some_iff.mp hread
  obtain ⟨hpayload, hnear⟩ := instructionOf_eq_some.mp hinstruction
  refine ⟨{ self with executedGovernanceVaa := vaa.sequence }, ?_⟩
  simp only [verifyGovVaaCallback, except_bind_eq_ok, require_eq_ok, okOr_eq_ok, propagate_eq_ok]
  refine ⟨(), trivial, bytes, hbytes, vaa, hvaa, instruction, hpayload, (), hnear, (), hahead,
    ({ self with executedGovernanceVaa := vaa.sequence }, some (Hex.encode claimVaa)), ?_, rfl⟩
  rw [Pyth.executeAction, hcarries]
  rfl

theorem authorizeGovSourceTransfer_ok {accountId : A} {claimVaa : List Char} {success : Bool}
    {storage after : BitVec 64} {deposit : BitVec 128} {self' : Pyth}
    {transfers : List (Transfer A)}
    (hok : authorizeGovSourceTransfer host self accountId claimVaa storage success after deposit
      = .ok (self', transfers)) :
    refundStorageUsage host accountId storage after deposit none = .ok transfers := by
  simp only [authorizeGovSourceTransfer, except_bind_eq_ok] at hok
  obtain ⟨_, -, bytes, -, vaa, -, instruction, -, hok⟩ := hok
  split at hok
  · obtain ⟨_, -, hok⟩ := except_bind_eq_ok.mp hok
    obtain ⟨_, -, hok⟩ := except_bind_eq_ok.mp hok
    obtain ⟨_, hrefund, hok⟩ := except_bind_eq_ok.mp hok
    cases hok
    exact hrefund
  · cases hok

end Deposits

/-! ## Settled calls -/

section

variable {A : Type} {host : Host} {contract account : A} {deposit : BitVec 128}
  {self : Pyth} {vaa : List Char} {r : Receipts}

theorem aborting_eq_ok {α : Type} {aborts : Bool} {result : Result α} {a : α} :
    aborting aborts result = .ok a ↔ aborts = false ∧ result = .ok a := by
  cases aborts with
  | false => exact (and_iff_right rfl).symm
  | true => exact iff_of_false nofun fun h => nomatch h.1

/-- A call that does not come to a claim is settled. -/
theorem settled_of_not_startsClaim (h : ∀ claimVaa, ¬StartsClaim host self vaa r claimVaa) :
    (settle host contract account deposit self vaa r).Settled host account deposit := by
  unfold settle
  cases hcall : self.executeGovernanceInstruction host vaa with
  | error e => exact Deposits.moved_singleton account deposit
  | ok u =>
    dsimp only
    cases hcallback : aborting r.callbackAborts (Deposits.verifyGovVaaCallback host r.callbackState
        contract account vaa r.verified r.before r.after deposit) with
    | error e => exact Deposits.moved_singleton account deposit
    | ok result =>
      obtain ⟨self', transfers, claim⟩ := result
      obtain ⟨haborts, hok⟩ := aborting_eq_ok.mp hcallback
      obtain ⟨hverified, hcase⟩ := Deposits.verifyGovVaaCallback_ok hok
      rcases hcase with ⟨rfl, -, hrefund⟩ | ⟨claimVaa, hcarries, -, -⟩
      · show moved (transfers ++ []) = _
        rw [List.append_nil]
        exact Deposits.refundStorageUsage_ok hrefund
      · exact absurd ⟨hcall, haborts, hverified, hcarries⟩ (h claimVaa)

theorem authorizeGovSourceTransfer_isOk {claimVaa : Bytes} :
    (∃ result, aborting r.claimAborts (Deposits.authorizeGovSourceTransfer host r.claimState contract
        (Hex.encode claimVaa) r.before r.claimVerified r.claimAfter deposit) = .ok result) ↔
      ClaimTakesEffect host deposit r claimVaa := by
  have heq := @Deposits.authorizeGovSourceTransfer_eq _ host r.claimState contract
    (Hex.encode claimVaa) r.before r.claimVerified r.claimAfter deposit
  constructor
  · rintro ⟨result, hok⟩
    obtain ⟨haborts, hok⟩ := aborting_eq_ok.mp hok
    rw [hok] at heq
    obtain ⟨claim, index, hverified, hread, hindex, hrefund, -⟩ :=
      authorizeGovSourceTransfer_eq_ok.mp heq.symm
    exact ⟨haborts, hverified, hrefund, claim, index, hread, hindex⟩
  · rintro ⟨haborts, hverified, hrefund, claim, index, hread, hindex⟩
    rw [authorizeGovSourceTransfer_eq_ok.mpr ⟨claim, index, hverified, hread, hindex, hrefund, rfl⟩]
      at heq
    cases hok : Deposits.authorizeGovSourceTransfer host r.claimState contract
        (Hex.encode claimVaa) r.before r.claimVerified r.claimAfter deposit with
    | error e =>
      rw [hok] at heq
      cases heq
    | ok result => exact ⟨result, aborting_eq_ok.mpr ⟨haborts, rfl⟩⟩

/-- A call that comes to a claim refunds the contract. -/
theorem settle_of_startsClaim {claimVaa : Bytes} (h : StartsClaim host self vaa r claimVaa) :
    (ClaimTakesEffect host deposit r claimVaa →
      moved (settle host contract account deposit self vaa r).transfers
          = paidOnce contract
            (remainder host deposit (some (r.claimAfter.toNat - r.before.toNat))) ∧
        (settle host contract account deposit self vaa r).growth = some r.claimGrowth) ∧
    (¬ClaimTakesEffect host deposit r claimVaa →
      moved (settle host contract account deposit self vaa r).transfers
          = paidOnce contract deposit.toNat ∧
        (settle host contract account deposit self vaa r).growth = none) := by
  obtain ⟨hcall, haborts, hverified, hcarries⟩ := h
  obtain ⟨self', hok⟩ := @Deposits.verifyGovVaaCallback_carries _ _ _ contract account _ r.before
    r.after deposit _ hcarries
  rw [← @authorizeGovSourceTransfer_isOk _ host contract deposit r claimVaa]
  unfold settle
  rw [hcall, hverified, hok, aborting_eq_ok.mpr ⟨haborts, rfl⟩]
  dsimp only
  cases hclaim : aborting r.claimAborts (Deposits.authorizeGovSourceTransfer host r.claimState
      contract (Hex.encode claimVaa) r.before r.claimVerified r.claimAfter deposit) with
  | error e =>
    exact ⟨fun h => absurd h nofun, fun _ => ⟨Deposits.moved_singleton contract deposit, rfl⟩⟩
  | ok result =>
    obtain ⟨self', transfers⟩ := result
    obtain ⟨-, hok⟩ := aborting_eq_ok.mp hclaim
    refine ⟨fun _ => ⟨?_, rfl⟩, fun h => absurd ⟨_, rfl⟩ h⟩
    show moved (transfers ++ [] ++ []) = _
    rw [List.append_nil, List.append_nil]
    exact Deposits.refundStorageUsage_ok (Deposits.authorizeGovSourceTransfer_ok hok)

theorem paidOnce_eq_iff {recipient recipient' : A} {amount amount' : ℤ} :
    paidOnce recipient amount = paidOnce recipient' amount' ↔
      amount = amount' ∧ (recipient = recipient' ∨ amount' = 0) := by
  unfold paidOnce
  by_cases hzero : amount = 0
  · rw [if_pos hzero]
    by_cases hzero' : amount' = 0
    · rw [if_pos hzero']
      exact iff_of_true rfl ⟨hzero.trans hzero'.symm, .inr hzero'⟩
    · rw [if_neg hzero']
      exact iff_of_false nofun fun h => hzero' (h.1.symm.trans hzero)
  · rw [if_neg hzero]
    by_cases hzero' : amount' = 0
    · rw [if_pos hzero']
      exact iff_of_false nofun fun h => hzero (h.1.trans hzero')
    · rw [if_neg hzero', List.cons.injEq, Prod.mk.injEq, and_iff_left rfl, or_iff_left hzero',
        and_comm]

/-- **Deposits of governance calls** are settled exactly where a call does not come to the claim
of a transfer of governance, or where the refund to the contract does no harm. -/
theorem deposits_settled_iff (host : Host) (contract account : A) (deposit : BitVec 128)
    (self : Pyth) (vaa : List Char) (r : Receipts) :
    (settle host contract account deposit self vaa r).Settled host account deposit ↔
      ∀ claimVaa, StartsClaim host self vaa r claimVaa →
        Harmless host contract account deposit r claimVaa := by
  by_cases hclaim : ∃ claimVaa, StartsClaim host self vaa r claimVaa
  · obtain ⟨claimVaa, hstarts⟩ := hclaim
    obtain ⟨heffect, hnoEffect⟩ := @settle_of_startsClaim _ host contract account deposit _ _ _ _
      hstarts
    have hunique : ∀ claimVaa', StartsClaim host self vaa r claimVaa' → claimVaa' = claimVaa := by
      rintro claimVaa' ⟨-, -, -, vaa₁, instruction₁, hread₁, hinstruction₁, -, haction₁⟩
      obtain ⟨-, -, -, vaa₂, instruction₂, hread₂, hinstruction₂, -, haction₂⟩ := hstarts
      cases hread₁.symm.trans hread₂
      cases hinstruction₁.symm.trans hinstruction₂
      cases haction₁.symm.trans haction₂
      rfl
    have hzero : (deposit.toNat : ℤ) = 0 ↔ deposit = 0 :=
      Int.ofNat_eq_zero.trans
        ⟨fun h => BitVec.eq_of_toNat_eq h, fun h => congrArg BitVec.toNat h⟩
    rw [Settlement.Settled]
    by_cases htakes : ClaimTakesEffect host deposit r claimVaa
    · obtain ⟨hmoved, hgrowth⟩ := heffect htakes
      rw [hmoved, hgrowth, paidOnce_eq_iff]
      constructor
      · intro h claimVaa' hstarts'
        rw [hunique claimVaa' hstarts']
        exact ⟨fun _ => h, fun hnot => absurd htakes hnot⟩
      · exact fun h => (h claimVaa hstarts).effect htakes
    · obtain ⟨hmoved, hgrowth⟩ := hnoEffect htakes
      rw [hmoved, hgrowth, paidOnce_eq_iff]
      constructor
      · intro h claimVaa' hstarts'
        rw [hunique claimVaa' hstarts']
        exact ⟨fun hyes => absurd hyes htakes, fun _ => h.2.imp_right hzero.mp⟩
      · exact fun h => ⟨rfl, ((h claimVaa hstarts).noEffect htakes).imp_right hzero.mpr⟩
  · refine iff_of_true (settled_of_not_startsClaim fun claimVaa h => hclaim ⟨claimVaa, h⟩) ?_
    exact fun claimVaa h => absurd ⟨claimVaa, h⟩ hclaim

end

/-! ### A transfer of governance with a deposit -/

/-- A transfer that takes effect, with nothing else in between. -/
def exTransferReceipts : Receipts where
  verified := true
  callbackState := exContract
  before := 1000
  after := 1000
  callbackAborts := false
  claimVerified := true
  claimState := { exContract with executedGovernanceVaa := 3 }
  claimBefore := 1000
  claimAfter := 1000
  claimAborts := false

/-- The accounts are 0 for the contract and 1 for the caller. The deposit of 5 goes back to the
contract, where 5 are due to the caller. -/
theorem deposits_settled_fail :
    (settle exHost 0 1 5 exContract (exAuthorize 3) exTransferReceipts).transfers
        = [⟨0, 5⟩] ∧
      (settle exHost 0 1 5 exContract (exAuthorize 3) exTransferReceipts).growth = some 0 ∧
      ¬(settle exHost 0 1 5 exContract (exAuthorize 3) exTransferReceipts).Settled exHost 1 5 := by
  refine ⟨by decide +kernel, by decide +kernel, ?_⟩
  unfold Settlement.Settled
  decide +kernel

end PythCrosschain.Near
