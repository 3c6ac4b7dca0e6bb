import Mathlib.Data.BitVec
import PythCrosschain.CosmWasm.Governance

/-!
# The CosmWasm contract: the fee of an update

`update_price_feeds`, `is_fee_sufficient` and `get_update_fee` of `contract.rs`, as they are built
for other chains than Osmosis. The check compares the coins that are sent with the quote, unless
the base fee is zero: a quote that is zero for another reason needs a coin of the denomination
among the coins, although no such coin can be sent.

The results are:

- `countUpdates_eq_ok`: when the number of updates of a quote is zero;
- `updatePriceFeeds_eq_ok`: a call succeeds when its coins suffice and its updates apply;
- `quoted_fee_iff`: exactly when the quote is what has to be sent.
-/

namespace PythCrosschain.CosmWasm

open PythnetSdk
open Rust (unwrap okOr propagate unwrap_eq_ok okOr_eq_ok propagate_eq_ok
  checkedAdd_eq_some checkedMul_eq_some)

/-- A `StdError`, of which `StdError::Overflow` carries the operands. -/
inductive UpdateError where
  | std (e : StdError)
  | overflow (operand1 operand2 : BitVec 128)
deriving DecidableEq, Repr

abbrev UpdateResult (α : Type) := Rust.Result UpdateError α

/-- `PythContractError::InsufficientFee`. -/
def insufficientFee : UpdateError := .std (.genericErr "InsufficientFee")

def invalidAccumulatorPayload : UpdateError :=
  .std (.genericErr PythContractError.invalidAccumulatorPayload.text)

/-- `?` on a result of the standard library of CosmWasm. -/
def ofStd {α : Type} : StdResult α → UpdateResult α
  | .ok a => .ok a
  | .error e => .error (.error (.std e))

/-- The stored configuration and price feeds. -/
structure PythState where
  config : GovernedConfig
  priceFeedBucket : PriceIdentifier → Option PriceFeed

/-- What `apply_updates` reads and writes. -/
def PythState.storage (s : PythState) : Storage where
  config := some s.config.toConfigInfo
  priceFeedBucket := s.priceFeedBucket

/-! ## The quote -/

/-- The updates that one element of the update data is charged for. -/
def updatesOf (datum : Bytes) : UpdateResult (BitVec 128) :=
  if datum.take 4 = PYTHNET_ACCUMULATOR_UPDATE_MAGIC.val then do
    let updateData ←
      Rust.mapErr invalidAccumulatorPayload (AccumulatorUpdateData.tryFromSlice datum)
    match updateData.proof with
    | .wormholeMerkle _ updates => return BitVec.ofNat 128 updates.length
  else return 1

/-- The loop of `get_update_fee_amount`, which is built with overflow checks. -/
def countUpdates (totalUpdates : BitVec 128) : List Bytes → UpdateResult (BitVec 128)
  | [] => return totalUpdates
  | datum :: vaas => do
    let updates ← updatesOf datum
    let totalUpdates ← unwrap (Rust.checkedAdd totalUpdates updates)
    countUpdates totalUpdates vaas

def getUpdateFeeAmount (s : PythState) (vaas : List Bytes) : UpdateResult (BitVec 128) := do
  let totalUpdates ← countUpdates 0 vaas
  okOr (.overflow s.config.fee.amount totalUpdates) (Rust.checkedMul s.config.fee.amount totalUpdates)

def getUpdateFee (s : PythState) (vaas : List Bytes) : UpdateResult Coin := do
  let amount ← getUpdateFeeAmount s vaas
  return { amount, denom := s.config.fee.denom }

/-! ## The check -/

/-- `has_coins` of the standard library of CosmWasm, which looks at the first coin of the
denomination. -/
def hasCoins (coins : List Coin) (required : Coin) : Bool :=
  match coins.find? fun c => c.denom = required.denom with
  | some m => required.amount ≤ m.amount
  | none => false

def isFeeSufficient (s : PythState) (funds : List Coin) (data : List Bytes) : UpdateResult Bool :=
  if s.config.fee.amount = 0 then return true
  else do
    let fee ← getUpdateFee s data
    return hasCoins funds fee

section

variable (H : Hasher 20) (deserializeBatch : Bytes → Option (List PriceAttestation)) (env : Env)

/-- The new state, the number of all price feeds and the new ones. -/
def updatePriceFeeds (s : PythState) (funds : List Coin) (data : List Bytes) :
    UpdateResult (PythState × ℕ × List PriceFeed) := do
  let sufficient ← isFeeSufficient s funds data
  Rust.require (sufficient = true) insufficientFee
  let (storage, numTotalAttestations, totalNewFeeds) ←
    ofStd (applyUpdates H deserializeBatch env s.storage data)
  return ({ s with priceFeedBucket := storage.priceFeedBucket }, numTotalAttestations,
    totalNewFeeds)

/-- The state behind the call: what fails is rolled back. -/
def execute (s : PythState) (funds : List Coin) (data : List Bytes) : PythState :=
  match updatePriceFeeds H deserializeBatch env s funds data with
  | .ok (s', _) => s'
  | .error _ => s

end

/-- The coins of a message. A coin of the amount zero cannot be sent. -/
def sent (coin : Coin) : List Coin := if coin.amount = 0 then [] else [coin]

/-- The update is charged for: it is a batch, or an accumulator update with an update. -/
def CarriesUpdate (datum : Bytes) : Prop :=
  datum.take 4 = PYTHNET_ACCUMULATOR_UPDATE_MAGIC.val →
    ∃ updateData, AccumulatorUpdateData.tryFromSlice datum = .ok updateData ∧
      updateData.proof.updates ≠ []

/-! ## What is charged -/

theorem updatesOf_eq_zero {datum : Bytes} {n : BitVec 128} (h : updatesOf datum = .ok n) :
    n.toNat = 0 ↔ ¬ CarriesUpdate datum := by
  unfold updatesOf at h
  unfold CarriesUpdate
  split at h
  · next hmagic =>
    obtain ⟨updateData, hdata, hn⟩ := except_bind_eq_ok.mp h
    have hread := Rust.mapErr_eq_ok.mp hdata
    obtain ⟨⟨rest, hparse⟩, -, -⟩ := AccumulatorUpdateData.tryFromSlice_eq_ok.mp hread
    obtain ⟨magic, majorVersion, minorVersion, trailing, ⟨vaa, updates⟩⟩ := updateData
    have hlt : updates.length < 2 ^ 128 := (length_updates_lt hparse).trans (by decide)
    cases hn
    rw [BitVec.toNat_ofNat, Nat.mod_eq_of_lt hlt]
    constructor
    · intro hzero hcarries
      obtain ⟨updateData, hread', hne⟩ := hcarries hmagic
      cases hread.symm.trans hread'
      exact hne (List.length_eq_zero_iff.mp hzero)
    · intro hnot
      by_contra hne
      refine hnot fun _ => ⟨_, hread, fun hnil => hne ?_⟩
      exact List.length_eq_zero_iff.mpr hnil
  · next hmagic =>
    cases h
    exact iff_of_false (by decide) (not_not.mpr fun hmagic' => absurd hmagic' hmagic)

theorem countUpdates_eq_ok {start total : BitVec 128} {vaas : List Bytes}
    (h : countUpdates start vaas = .ok total) :
    start.toNat ≤ total.toNat ∧
      (total.toNat = start.toNat ↔ ∀ datum ∈ vaas, ¬ CarriesUpdate datum) := by
  induction vaas generalizing start with
  | nil =>
    cases h
    exact ⟨le_rfl, iff_of_true rfl fun _ hmem => absurd hmem List.not_mem_nil⟩
  | cons datum vaas ih =>
    obtain ⟨updates, hupdates, h⟩ := except_bind_eq_ok.mp h
    obtain ⟨mid, hmid, h⟩ := except_bind_eq_ok.mp h
    obtain ⟨hle, heq⟩ := ih h
    have hsum := checkedAdd_eq_some.mp (unwrap_eq_ok.mp hmid)
    rw [List.forall_mem_cons, ← updatesOf_eq_zero hupdates, ← heq]
    omega

/-- The quote, as the product of the base fee and the number of updates. -/
theorem getUpdateFee_eq_ok {s : PythState} {vaas : List Bytes} {fee : Coin}
    (h : getUpdateFee s vaas = .ok fee) :
    fee.denom = s.config.fee.denom ∧ ∃ total, countUpdates 0 vaas = .ok total ∧
      fee.amount.toNat = s.config.fee.amount.toNat * total.toNat := by
  obtain ⟨amount, hamount, ⟨⟩⟩ := except_bind_eq_ok.mp h
  obtain ⟨total, htotal, hproduct⟩ := except_bind_eq_ok.mp hamount
  exact ⟨rfl, total, htotal, checkedMul_eq_some.mp (okOr_eq_ok.mp hproduct)⟩

/-- Apart from the base fee, the quote is zero when nothing is charged for. -/
theorem amount_eq_zero_iff {s : PythState} {vaas : List Bytes} {fee : Coin}
    (h : getUpdateFee s vaas = .ok fee) :
    fee.amount = 0 ↔ s.config.fee.amount = 0 ∨ ∀ datum ∈ vaas, ¬ CarriesUpdate datum := by
  obtain ⟨-, total, htotal, hamount⟩ := getUpdateFee_eq_ok h
  have hnone := (countUpdates_eq_ok htotal).2
  have hzero (x : BitVec 128) : x = 0 ↔ x.toNat = 0 := BitVec.toNat_inj.symm
  rw [hzero, hzero, hamount, Nat.mul_eq_zero]
  exact or_congr_right hnone

/-! ## What is accepted -/

theorem hasCoins_singleton (coin required : Coin) :
    hasCoins [coin] required = true ↔
      coin.denom = required.denom ∧ required.amount ≤ coin.amount := by
  unfold hasCoins
  by_cases hdenom : coin.denom = required.denom
  · simp [hdenom]
  · simp [hdenom]

/-- The coins that are sent for an amount suffice when it is not zero and at least the quote. -/
theorem hasCoins_sent (coin required : Coin) :
    hasCoins (sent coin) required = true ↔
      coin.amount ≠ 0 ∧ coin.denom = required.denom ∧ required.amount ≤ coin.amount := by
  unfold sent
  split
  · next hzero => exact iff_of_false Bool.false_ne_true fun h => h.1 hzero
  · next hne => rw [hasCoins_singleton, and_iff_right hne]

variable {H : Hasher 20} {deserializeBatch : Bytes → Option (List PriceAttestation)} {env : Env}
  {s : PythState} {data : List Bytes} {fee : Coin}

theorem isFeeSufficient_eq_ok {funds : List Coin} (hquote : getUpdateFee s data = .ok fee) :
    isFeeSufficient s funds data = .ok true ↔
      s.config.fee.amount = 0 ∨ hasCoins funds fee = true := by
  unfold isFeeSufficient
  split
  · next hzero => exact iff_of_true rfl (.inl hzero)
  · next hne =>
    rw [hquote, or_iff_right hne]
    exact ⟨Except.ok.inj, congrArg Except.ok⟩

/-- When the updates apply, the call is only refused for its coins. -/
theorem updatePriceFeeds_eq_ok {funds : List Coin} {r : Storage × ℕ × List PriceFeed}
    (hquote : getUpdateFee s data = .ok fee)
    (happly : applyUpdates H deserializeBatch env s.storage data = .ok r) :
    (∃ r', updatePriceFeeds H deserializeBatch env s funds data = .ok r') ↔
      s.config.fee.amount = 0 ∨ hasCoins funds fee = true := by
  rw [← isFeeSufficient_eq_ok hquote]
  simp only [updatePriceFeeds, happly, except_bind_eq_ok, Rust.require_eq_ok]
  constructor
  · rintro ⟨_, sufficient, hsufficient, _, rfl, -⟩
    exact hsufficient
  · intro hsufficient
    exact ⟨_, true, hsufficient, (), rfl, r, rfl, rfl⟩

/-- The coin is the price of the update: it is accepted, and so is more of it, but not less. -/
structure Quoted (H : Hasher 20) (deserializeBatch : Bytes → Option (List PriceAttestation))
    (env : Env) (s : PythState) (data : List Bytes) (fee : Coin) : Prop where
  quote : ∃ r, updatePriceFeeds H deserializeBatch env s (sent fee) data = .ok r
  more : ∀ amount, fee.amount < amount →
    ∃ r, updatePriceFeeds H deserializeBatch env s (sent { fee with amount }) data = .ok r
  less : ∀ amount, amount < fee.amount →
    (∃ e, updatePriceFeeds H deserializeBatch env s (sent { fee with amount }) data = .error e) ∧
      execute H deserializeBatch env s (sent { fee with amount }) data = s

/-- For an update that applies, the quote is what has to be sent exactly when the base fee is zero
or some element of the update data is charged for. -/
theorem quoted_fee_iff {r : Storage × ℕ × List PriceFeed}
    (hquote : getUpdateFee s data = .ok fee)
    (happly : applyUpdates H deserializeBatch env s.storage data = .ok r) :
    Quoted H deserializeBatch env s data fee ↔
      s.config.fee.amount = 0 ∨ ∃ datum ∈ data, CarriesUpdate datum := by
  have haccepts (coin : Coin) :
      (∃ r', updatePriceFeeds H deserializeBatch env s (sent coin) data = .ok r') ↔
        s.config.fee.amount = 0 ∨ hasCoins (sent coin) fee = true :=
    updatePriceFeeds_eq_ok hquote happly
  simp only [hasCoins_sent] at haccepts
  have hzero := amount_eq_zero_iff hquote
  constructor
  · intro h
    refine ((haccepts fee).mp h.quote).imp_right fun hsent => ?_
    obtain ⟨-, hcarries⟩ := not_or.mp (mt hzero.mpr hsent.1)
    by_contra hnone
    exact hcarries fun datum hmem hdatum => hnone ⟨datum, hmem, hdatum⟩
  · intro h
    have hcharged : s.config.fee.amount = 0 ∨ fee.amount ≠ 0 := by
      refine or_iff_not_imp_left.mpr fun hbase hamount => ?_
      obtain ⟨datum, hmem, hdatum⟩ := h.resolve_left hbase
      exact (hzero.mp hamount).resolve_left hbase datum hmem hdatum
    refine ⟨(haccepts fee).mpr (hcharged.imp_right fun hne => ⟨hne, rfl, ?_⟩), ?_, ?_⟩
    · exact BitVec.le_refl fee.amount
    · intro amount hmore
      refine (haccepts { fee with amount }).mpr (.inr ⟨?_, rfl, ?_⟩)
      · rintro rfl
        exact absurd hmore (by bv_omega)
      · exact BitVec.le_of_lt hmore
    · intro amount hless
      have hne : fee.amount ≠ 0 := by
        rintro hamount
        rw [hamount] at hless
        exact absurd hless (by bv_omega)
      have hbase : s.config.fee.amount ≠ 0 := fun hbase => hne (hzero.mpr (.inl hbase))
      have hrefused := mt (haccepts { fee with amount }).mp
        (not_or.mpr ⟨hbase, fun hsent => absurd hsent.2.2 (BitVec.not_le.mpr hless)⟩)
      obtain ⟨e, he⟩ := except_eq_error.mpr fun r' hr' => hrefused ⟨r', hr'⟩
      refine ⟨⟨e, he⟩, ?_⟩
      rw [execute, he]

/-- A batch without attestations, which the contract accepts. -/
def exEmptyBatch : Bytes :=
  [0x50, 0x32, 0x57, 0x48, 0, 3, 0, 1, 0, 1, 2, 0, 0, 0, 0]

def exFeeHasher : Hasher 20 where
  digest _ := HashArray.filled 20 0

def exDeserializeBatch (payload : Bytes) : Option (List PriceAttestation) :=
  if payload = exEmptyBatch then some [] else none

def exFeeEnv : Env where
  blockTime := 1700000000
  verifyVAA _ _ _ := .ok { emitterChain := 26, emitterAddress := [1], payload := exEmptyBatch }

def exFeeState : PythState where
  config := {
    wormholeContract := "wormhole"
    dataSources := {⟨[1], 26⟩}
    governanceSource := ⟨[2], 1⟩
    governanceSourceIndex := 0
    governanceSequenceNumber := 0
    chainId := 60013
    validTimePeriod := 60
    fee := ⟨100, "foo"⟩ }
  priceFeedBucket _ := none

/-- One batch is charged the base fee. -/
theorem quoted_fee_batch :
    Quoted exFeeHasher exDeserializeBatch exFeeEnv exFeeState [[1]] ⟨100, "foo"⟩ := by
  have hquote : getUpdateFee exFeeState [[1]] = .ok ⟨100, "foo"⟩ := by decide +kernel
  have happly : applyUpdates exFeeHasher exDeserializeBatch exFeeEnv exFeeState.storage [[1]]
      = .ok (exFeeState.storage, 0, []) := rfl
  refine (quoted_fee_iff hquote happly).mpr (.inr ⟨[1], List.mem_singleton_self _, ?_⟩)
  intro hmagic
  exact absurd hmagic (by decide)

/-- No updates are quoted the fee zero and apply, but the call without coins is refused. -/
theorem quoted_fee_fail :
    getUpdateFee exFeeState [] = .ok ⟨0, "foo"⟩ ∧
      applyUpdates exFeeHasher exDeserializeBatch exFeeEnv exFeeState.storage []
        = .ok (exFeeState.storage, 0, []) ∧
      updatePriceFeeds exFeeHasher exDeserializeBatch exFeeEnv exFeeState (sent ⟨0, "foo"⟩) []
        = .error (.error insufficientFee) ∧
      ¬ Quoted exFeeHasher exDeserializeBatch exFeeEnv exFeeState [] ⟨0, "foo"⟩ := by
  have hrefused : updatePriceFeeds exFeeHasher exDeserializeBatch exFeeEnv exFeeState
      (sent ⟨0, "foo"⟩) [] = .error (.error insufficientFee) := by
    have hcheck : isFeeSufficient exFeeState (sent ⟨0, "foo"⟩) [] = .ok false := by
      decide +kernel
    rw [updatePriceFeeds, hcheck]
    rfl
  refine ⟨by decide +kernel, rfl, hrefused, fun h => ?_⟩
  obtain ⟨r, hr⟩ := h.quote
  cases hr.symm.trans hrefused

end PythCrosschain.CosmWasm
