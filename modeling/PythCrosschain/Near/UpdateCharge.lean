import Mathlib.Data.BitVec
import PythCrosschain.Near.PriceFeeds
import PythCrosschain.PythnetSdk.VerifiedUpdate

/-!
# The NEAR receiver: what a price update is charged

`update_price_feeds` with both of its callbacks and `get_update_fee_estimate` of `lib.rs`. The
callback of accumulator data takes the fee off the storage that it compares with, counted in
bytes, and `refund_storage_usage` takes the fee off the deposit again. So a fee that pays for a
byte of storage or more is charged twice, up to rounding.

The results are:

- `UpdateCall.netPaid_of_accepted`: what an accepted call pays, by its callback;
- `update_charge_iff`: exactly which calls pay for their storage and the fee, and are not refused
  for their deposit.
-/

namespace PythCrosschain.Near

open PythnetSdk (HashArray Hasher Message PriceFeedMessage MerklePriceUpdate MerkleTree
  AccumulatorUpdateData WormholeMessage PYTHNET_ACCUMULATOR_UPDATE_MAGIC)
open PythnetSdk.Legacy (readExact PriceAttestation BatchPriceAttestation)
open Rust (require_eq_error okOr_eq_error unwrap_eq_error mapErr mapErr_eq_ok mapErr_eq_error
  bind_eq_error checkedDiv toUnsigned)

/-- `std::mem::size_of::<PriceFeed>()`: the identifier, and twice a price, which takes 32 bytes. -/
def sizeOfPriceFeed : BitVec 128 := 96

/-- `From<&PriceFeedMessage>`. -/
def PriceFeed.ofMessage (priceFeedMessage : PriceFeedMessage) : PriceFeed where
  id := priceFeedMessage.feedId
  price := {
    price := priceFeedMessage.price
    conf := priceFeedMessage.conf
    expo := priceFeedMessage.exponent
    publishTime := priceFeedMessage.publishTime }
  emaPrice := {
    price := priceFeedMessage.emaPrice
    conf := priceFeedMessage.emaConf
    expo := priceFeedMessage.exponent
    publishTime := priceFeedMessage.publishTime }

/-! ## Accumulator data -/

section

variable (host : Host) (H : Hasher 20)

/-- One round of the loop over the updates. -/
def merkleFeed (root : HashArray 20) (update : MerklePriceUpdate) : Result PriceFeed := do
  require (MerkleTree.check H root update.proof update.message = true) .invalidMerkleProof
  let (msg, _) ←
    mapErr .invalidAccumulatorMessage (Message.schema.fromSlice .BE update.message)
  match msg with
  | .priceFeedMessage priceFeedMessage => return PriceFeed.ofMessage priceFeedMessage
  | _ => .error (.error .invalidAccumulatorMessageType)

def merkleFeeds (root : HashArray 20) : List MerklePriceUpdate → Result (List PriceFeed)
  | [] => return []
  | update :: updates => do
    let feed ← merkleFeed H root update
    let feeds ← merkleFeeds root updates
    return feed :: feeds

/-- The price feeds of accumulator data, in the order in which they are stored. A method that fails
stores none, so they can be read first. -/
def accumulatorFeeds (bytes : Bytes) : Result (List PriceFeed) := do
  let updateData ← unwrap (AccumulatorUpdateData.tryFromSlice bytes).toOption
  match updateData.proof with
  | .wormholeMerkle vaa updates => do
    let vaa ← unwrap (host.fromSlice vaa)
    let message ← mapErr .invalidWormholeMessage (WormholeMessage.tryFromBytes vaa.payload)
    match message.payload with
    | .merkle merkleRoot => merkleFeeds H merkleRoot.root updates

variable {host H}

theorem merkleFeeds_ne_insufficient {root : HashArray 20} {updates : List MerklePriceUpdate} :
    merkleFeeds H root updates ≠ .error (.error .insufficientDeposit) := by
  induction updates with
  | nil => exact nofun
  | cons update updates ih =>
    intro h
    rcases bind_eq_error.mp h with h | ⟨feed, -, h⟩
    · rcases bind_eq_error.mp h with h | ⟨_, -, h⟩
      · exact nomatch (require_eq_error.mp h).2
      rcases bind_eq_error.mp h with h | ⟨⟨msg, rest⟩, -, h⟩
      · exact nomatch (mapErr_eq_error.mp h).2
      cases msg <;> cases h
    · rcases bind_eq_error.mp h with h | ⟨feeds, -, h⟩
      · exact ih h
      · cases h

theorem accumulatorFeeds_ne_insufficient {bytes : Bytes} :
    accumulatorFeeds host H bytes ≠ .error (.error .insufficientDeposit) := by
  intro h
  rcases bind_eq_error.mp h with h | ⟨updateData, -, h⟩
  · exact nomatch (unwrap_eq_error.mp h).2
  rcases bind_eq_error.mp h with h | ⟨vaa, -, h⟩
  · exact nomatch (unwrap_eq_error.mp h).2
  rcases bind_eq_error.mp h with h | ⟨message, -, h⟩
  · exact nomatch (mapErr_eq_error.mp h).2
  exact merkleFeeds_ne_insufficient h

theorem batchFeeds_ne_insufficient {payload : Bytes} :
    batchFeeds payload ≠ .error (.error .insufficientDeposit) := by
  intro h
  rcases bind_eq_error.mp h with h | ⟨header, -, h⟩
  · exact nomatch (unwrap_eq_error.mp h).2
  rcases bind_eq_error.mp h with h | ⟨_, -, h⟩
  · exact nomatch (require_eq_error.mp h).2
  rcases bind_eq_error.mp h with h | ⟨batch, -, h⟩
  · exact nomatch (unwrap_eq_error.mp h).2
  · cases h

end

/-! ## Methods -/

/-- The callback that waits for the verification of a VAA. -/
inductive UpdateCallback where
  | merkle
  | batch
deriving DecidableEq

namespace PricedPyth

variable {A : Type} (host : Host) (H : Hasher 20) (self : PricedPyth)

def verifyEncodedVaaSource (vaa : Bytes) : Result Unit := do
  let vaa ← unwrap (host.fromSlice vaa)
  require (vaa.source ∈ self.sources) (.unknownSource vaa.emitterAddress)

def updatePriceFeeds (data : List Char) : Result UpdateCallback := do
  let bytes ← okOr .invalidHex (Hex.decode data)
  let (header, _) ← unwrap (readExact 4 bytes).toOption
  if header = PYTHNET_ACCUMULATOR_UPDATE_MAGIC.val then do
    let updateData ← unwrap (AccumulatorUpdateData.tryFromSlice bytes).toOption
    self.verifyEncodedVaaSource host updateData.proof.vaa
    return .merkle
  else do
    self.verifyEncodedVaaSource host bytes
    return .batch

/-- `used` is the storage used when the method starts, and `after` when the prices are stored. -/
def verifyWormholeMerkleCallback (accountId : A) (data : List Char) (success : Bool)
    (used after : BitVec 64) (deposit : BitVec 128) :
    Result (PricedPyth × List (Transfer A)) := do
  require (success = true) .vaaVerificationFailed
  let bytesOfFee ← okOr .arithmeticOverflow (checkedDiv self.updateFee host.storageByteCost)
  let storage ← okOr .insufficientDeposit (checkedSub (used.setWidth 128) bytesOfFee)
  let storage ← okOr .arithmeticOverflow (toUnsigned 64 storage.toNat)
  let bytes ← okOr .invalidHex (Hex.decode data)
  let feeds ← accumulatorFeeds host H bytes
  let stored := feeds.foldl updatePriceFeedIfNew self
  let diff ← unwrap (checkedSub after storage)
  let _costs ← unwrap (checkedMul host.storageByteCost (diff.setWidth 128))
  let transfers ←
    Deposits.refundStorageUsage host accountId storage after deposit (some self.updateFee)
  return (stored, transfers)

/-- `total_updates`. -/
def totalUpdates (bytes : Bytes) : Result (BitVec 128) := do
  let (header, _) ← unwrap (readExact 4 bytes).toOption
  if header = PYTHNET_ACCUMULATOR_UPDATE_MAGIC.val then do
    let updateData ← unwrap (AccumulatorUpdateData.tryFromSlice bytes).toOption
    return BitVec.ofNat 128 updateData.proof.updates.length
  else return 1

def getUpdateFeeEstimate (data : List Char) : Result (BitVec 128) := do
  let dataCost ← unwrap (checkedMul host.storageByteCost sizeOfPriceFeed)
  let bytes ← unwrap (Hex.decode data)
  let totalUpdates ← totalUpdates bytes
  let headway ← unwrap (checkedMul dataCost (5 * 4))
  let fee ← unwrap (checkedMul self.updateFee totalUpdates)
  unwrap (checkedAdd headway fee)

end PricedPyth

/-! ## Calls -/

/-- What is outside of the contract: the storage used depends on which feeds are stored, as all
price feeds take the same bytes. -/
structure UpdateHost extends Host where
  hasher : Hasher 20
  storageUsage : (HashArray 32 → Bool) → BitVec 64

def UpdateHost.usage (host : UpdateHost) (p : PricedPyth) : BitVec 64 :=
  host.storageUsage fun id => (p.prices id).isSome

/-- A call of `update_price_feeds` with its receipts: the state that the method finds, what Wormhole
answers, and the state that the callback finds. -/
structure UpdateCall (A : Type) where
  accountId : A
  data : List Char
  deposit : BitVec 128
  self : PricedPyth
  verified : Bool
  found : PricedPyth

/-- What a call ends with. -/
structure UpdateOutcome (A : Type) where
  failure : Option (Rust.Failure Error)
  stored : PricedPyth
  transfers : List (Transfer A)

namespace UpdateCall

variable {A : Type} (host : UpdateHost) (c : UpdateCall A)

/-- What the callback reads. -/
def feeds : UpdateCallback → Result (List PriceFeed)
  | .merkle => do
    let bytes ← okOr .invalidHex (Hex.decode c.data)
    accumulatorFeeds host.toHost host.hasher bytes
  | .batch => do
    let vaa ← unwrap (Hex.decode c.data)
    let vaa ← unwrap (host.fromSlice vaa)
    batchFeeds vaa.payload

/-- The state with the feeds that the callback reads. -/
def updated (callback : UpdateCallback) : PricedPyth :=
  match c.feeds host callback with
  | .ok feeds => feeds.foldl PricedPyth.updatePriceFeedIfNew c.found
  | .error _ => c.found

def runCallback (callback : UpdateCallback) : Result (PricedPyth × List (Transfer A)) :=
  let used := host.usage c.found
  let after := host.usage (c.updated host callback)
  match callback with
  | .merkle => c.found.verifyWormholeMerkleCallback host.toHost host.hasher c.accountId c.data
      c.verified used after c.deposit
  | .batch => c.found.verifyWormholeBatchCallback host.toHost c.accountId c.data c.verified used
      after c.deposit

/-- A method that fails changes nothing. The runtime returns the deposit of a call that fails, and
`refund_vaa` returns that of a callback. -/
def outcome : UpdateOutcome A :=
  match c.self.updatePriceFeeds host.toHost c.data with
  | .error e =>
    { failure := some e, stored := c.found
      transfers := [{ recipient := c.accountId, amount := c.deposit }] }
  | .ok callback =>
    match c.runCallback host callback with
    | .error e =>
      { failure := some e, stored := c.found
        transfers := Deposits.refundVaa c.accountId c.deposit false }
    | .ok (stored, transfers) =>
      { failure := none, stored
        transfers := transfers ++ Deposits.refundVaa c.accountId c.deposit true }

/-- What an account gets. -/
def received [DecidableEq A] (account : A) (transfers : List (Transfer A)) : ℤ :=
  ((transfers.filter fun t => t.recipient = account).map fun t => (t.amount.toNat : ℤ)).sum

/-- The deposit, without what the caller gets back. -/
def netPaid [DecidableEq A] : ℤ := c.deposit.toNat - received c.accountId (c.outcome host).transfers

/-- The growth of the storage. -/
def growth : ℤ := (host.usage (c.outcome host).stored).toNat - (host.usage c.found).toNat

/-- What the caller owes for the storage and the update. -/
def due : ℤ := host.storageByteCost.toNat * c.growth host + c.found.updateFee.toNat

/-! ## What a call pays -/

/-- The storage that the refund compares with. -/
def baseline : UpdateCallback → Result (BitVec 64)
  | .batch => .ok (host.usage c.found)
  | .merkle => do
    let bytesOfFee ←
      okOr .arithmeticOverflow (checkedDiv c.found.updateFee host.storageByteCost)
    let storage ←
      okOr .insufficientDeposit (checkedSub ((host.usage c.found).setWidth 128) bytesOfFee)
    okOr .arithmeticOverflow (toUnsigned 64 storage.toNat)

section

variable {host c} {callback : UpdateCallback} {storage : BitVec 64}

/-- Both callbacks, once they have a baseline, are the same. -/
theorem runCallback_eq :
    c.runCallback host callback = do
      require (c.verified = true) .vaaVerificationFailed
      let storage ← c.baseline host callback
      let feeds ← c.feeds host callback
      let after := host.usage (c.updated host callback)
      let diff ← unwrap (checkedSub after storage)
      let _costs ← unwrap (checkedMul host.storageByteCost (diff.setWidth 128))
      let transfers ← Deposits.refundStorageUsage host.toHost c.accountId storage after c.deposit
        (some c.found.updateFee)
      return (feeds.foldl PricedPyth.updatePriceFeedIfNew c.found, transfers) := by
  cases callback with
  | batch =>
    simp only [runCallback, PricedPyth.verifyWormholeBatchCallback, baseline, feeds, bind_assoc,
      except_ok_bind]
  | merkle =>
    simp only [runCallback, PricedPyth.verifyWormholeMerkleCallback, baseline, feeds, bind_assoc]

theorem baseline_merkle_eq_ok :
    c.baseline host .merkle = .ok storage ↔
      host.storageByteCost ≠ 0 ∧
        c.found.updateFee.toNat / host.storageByteCost.toNat ≤ (host.usage c.found).toNat ∧
        storage.toNat = (host.usage c.found).toNat
          - c.found.updateFee.toNat / host.storageByteCost.toNat := by
  have hwide : ((host.usage c.found).setWidth 128).toNat = (host.usage c.found).toNat :=
    Deposits.toNat_setWidth_diff _
  simp only [baseline, except_bind_eq_ok, okOr_eq_ok, Rust.checkedDiv_eq_some,
    Rust.checkedSub_eq_some, Rust.toUnsigned_eq_some, hwide]
  constructor
  · rintro ⟨bytesOfFee, ⟨hcost, hbytes⟩, difference, ⟨hle, hdifference⟩, hstorage⟩
    rw [← hbytes]
    exact ⟨hcost, hle, (Int.ofNat.inj hstorage).trans hdifference⟩
  · rintro ⟨hcost, hle, hstorage⟩
    refine ⟨c.found.updateFee / host.storageByteCost, ⟨hcost, BitVec.toNat_udiv⟩,
      storage.setWidth 128, ⟨?_, ?_⟩, ?_⟩
    · rw [BitVec.toNat_udiv]
      exact hle
    · rw [BitVec.toNat_udiv, Deposits.toNat_setWidth_diff, hstorage]
    · rw [Deposits.toNat_setWidth_diff]

/-- The storage is too small for the fee. -/
theorem baseline_insufficient :
    c.baseline host callback = .error (.error .insufficientDeposit) ↔
      callback = .merkle ∧ (host.usage c.found).toNat
        < c.found.updateFee.toNat / host.storageByteCost.toNat := by
  cases callback with
  | batch => exact ⟨nofun, nofun⟩
  | merkle =>
    rw [and_iff_right rfl]
    have hwide : ((host.usage c.found).setWidth 128).toNat = (host.usage c.found).toNat :=
      Deposits.toNat_setWidth_diff _
    unfold baseline
    cases hdiv : checkedDiv c.found.updateFee host.storageByteCost with
    | none =>
      refine iff_of_false nofun ?_
      unfold checkedDiv at hdiv
      split at hdiv
      · next hzero => simp [hzero]
      · cases hdiv
    | some bytesOfFee =>
      rw [Rust.okOr_some, except_ok_bind, ← (Rust.checkedDiv_eq_some.mp hdiv).2, ← hwide,
        ← Rust.checkedSub_eq_none]
      cases checkedSub ((host.usage c.found).setWidth 128) bytesOfFee with
      | none => exact iff_of_true rfl rfl
      | some storage =>
        refine iff_of_false ?_ nofun
        rw [Rust.okOr_some, except_ok_bind]
        exact fun h => nomatch (okOr_eq_error.mp h).2

/-- Reading the price feeds never fails for the deposit. -/
theorem feeds_ne_insufficient :
    c.feeds host callback ≠ .error (.error .insufficientDeposit) := by
  cases callback with
  | batch =>
    intro h
    rcases bind_eq_error.mp h with h | ⟨_, -, h⟩
    · exact nomatch (unwrap_eq_error.mp h).2
    rcases bind_eq_error.mp h with h | ⟨vaa, -, h⟩
    · exact nomatch (unwrap_eq_error.mp h).2
    exact batchFeeds_ne_insufficient h
  | merkle =>
    intro h
    rcases bind_eq_error.mp h with h | ⟨bytes, -, h⟩
    · exact nomatch (okOr_eq_error.mp h).2
    exact accumulatorFeeds_ne_insufficient h

/-- A callback that its deposit covers goes through. -/
theorem runCallback_of_covered {feeds : List PriceFeed} (hverified : c.verified = true)
    (hstorage : c.baseline host callback = .ok storage)
    (hfeeds : c.feeds host callback = .ok feeds)
    (hcovered : c.found.Covered host.toHost storage (host.usage (c.updated host callback))
      c.deposit) :
    ∃ transfers, c.runCallback host callback
      = .ok (feeds.foldl PricedPyth.updatePriceFeedIfNew c.found, transfers) := by
  obtain ⟨diff, costs, transfers, hdiff, hcosts, hrefund⟩ :=
    PricedPyth.refundStorageUsage_covered c.accountId hcovered
  refine ⟨transfers, ?_⟩
  rw [runCallback_eq]
  simp only [except_bind_eq_ok, require_eq_ok, unwrap_eq_ok]
  exact ⟨(), hverified, storage, hstorage, feeds, hfeeds, diff, hdiff, costs, hcosts, transfers,
    hrefund, rfl⟩

theorem runCallback_ok {stored : PricedPyth} {transfers : List (Transfer A)}
    (h : c.runCallback host callback = .ok (stored, transfers)) :
    c.verified = true ∧ stored = c.updated host callback ∧ (∃ feeds, c.feeds host callback = .ok feeds) ∧
      ∃ storage, c.baseline host callback = .ok storage ∧
        storage.toNat ≤ (host.usage stored).toNat ∧
        Deposits.refundStorageUsage host.toHost c.accountId storage (host.usage stored) c.deposit
          (some c.found.updateFee) = .ok transfers := by
  rw [runCallback_eq] at h
  simp only [except_bind_eq_ok, require_eq_ok, unwrap_eq_ok] at h
  obtain ⟨_, hverified, storage, hstorage, feeds, hfeeds, diff, hdiff, _, -, _, hrefund, h⟩ := h
  cases h
  have hstored : feeds.foldl PricedPyth.updatePriceFeedIfNew c.found = c.updated host callback := by
    rw [updated, hfeeds]
  rw [hstored]
  exact ⟨hverified, rfl, ⟨feeds, hfeeds⟩, storage, hstorage,
    (Rust.checkedSub_eq_some.mp hdiff).1, hrefund⟩

theorem outcome_of_error {e : Rust.Failure Error}
    (hcallback : c.self.updatePriceFeeds host.toHost c.data = .ok callback)
    (hrun : c.runCallback host callback = .error e) :
    c.outcome host
      = { failure := some e, stored := c.found, transfers := [⟨c.accountId, c.deposit⟩] } := by
  rw [outcome, hcallback]
  dsimp only
  rw [hrun]
  rfl

theorem outcome_of_ok {stored : PricedPyth} {transfers : List (Transfer A)}
    (hcallback : c.self.updatePriceFeeds host.toHost c.data = .ok callback)
    (hrun : c.runCallback host callback = .ok (stored, transfers)) :
    c.outcome host = { failure := none, stored, transfers } := by
  rw [outcome, hcallback]
  dsimp only
  rw [hrun]
  dsimp only
  rw [Deposits.refundVaa, if_pos rfl, List.append_nil]

/-! ### What the caller gets back -/

variable [DecidableEq A]

theorem received_singleton (account : A) (amount : BitVec 128) :
    received account [{ recipient := account, amount }] = amount.toNat := by
  simp [received]

/-- The caller gets the deposit without the cost of the growth and without the fee. -/
theorem received_refund {account : A} {before after : BitVec 64} {deposit fee : BitVec 128}
    {transfers : List (Transfer A)}
    (h : Deposits.refundStorageUsage host.toHost account before after deposit (some fee)
      = .ok transfers) (hle : before.toNat ≤ after.toNat) :
    received account transfers
      = deposit.toNat
        - (host.storageByteCost.toNat * ((after.toNat : ℤ) - before.toNat) + fee.toNat) := by
  unfold Deposits.refundStorageUsage at h
  rw [Rust.checkedSub_of_le hle] at h
  dsimp only [Option.getD_some] at h
  obtain ⟨product, hproduct, h⟩ := except_bind_eq_ok.mp h
  obtain ⟨cost, hcost, h⟩ := except_bind_eq_ok.mp h
  obtain ⟨refund, hrefund, h⟩ := except_bind_eq_ok.mp h
  have hproduct := Rust.checkedMul_eq_some.mp (unwrap_eq_ok.mp hproduct)
  rw [Deposits.toNat_setWidth_diff, BitVec.toNat_sub_of_le hle] at hproduct
  have hcost := Rust.checkedAdd_eq_some.mp (unwrap_eq_ok.mp hcost)
  obtain ⟨hcovered, hrefund⟩ := Rust.checkedSub_eq_some.mp (okOr_eq_ok.mp hrefund)
  have hreceived : received account transfers = refund.toNat := by
    by_cases hzero : refund = 0
    · rw [if_pos hzero] at h
      cases h
      rw [hzero]
      rfl
    · rw [if_neg hzero] at h
      cases h
      exact received_singleton account refund
  rw [hreceived, hrefund, Nat.cast_sub hcovered, hcost, hproduct]
  push_cast [Nat.cast_sub hle]
  rfl

/-- A call that fails pays nothing, and the storage stays as it was. -/
theorem netPaid_of_failure {e : Rust.Failure Error} (h : (c.outcome host).failure = some e) :
    c.netPaid host = 0 ∧ c.growth host = 0 := by
  have hrefund : (c.outcome host).stored = c.found ∧
      (c.outcome host).transfers = [⟨c.accountId, c.deposit⟩] := by
    cases hcallback : c.self.updatePriceFeeds host.toHost c.data with
    | error e' =>
      rw [outcome, hcallback]
      exact ⟨rfl, rfl⟩
    | ok callback =>
      cases hrun : c.runCallback host callback with
      | error e' =>
        rw [outcome_of_error hcallback hrun]
        exact ⟨rfl, rfl⟩
      | ok result =>
        rw [outcome_of_ok hcallback hrun] at h
        cases h
  rw [netPaid, growth, hrefund.1, hrefund.2, received_singleton]
  exact ⟨sub_self _, sub_self _⟩

/-- The storage that is charged for is the growth above the baseline. -/
theorem netPaid_of_run {result : PricedPyth × List (Transfer A)}
    (hcallback : c.self.updatePriceFeeds host.toHost c.data = .ok callback)
    (hrun : c.runCallback host callback = .ok result) :
    ∃ storage, c.baseline host callback = .ok storage ∧
      c.netPaid host = host.storageByteCost.toNat
        * ((host.usage result.1).toNat - storage.toNat : ℤ) + c.found.updateFee.toNat := by
  obtain ⟨stored, transfers⟩ := result
  obtain ⟨-, -, -, storage, hstorage, hle, hrefund⟩ := runCallback_ok hrun
  refine ⟨storage, hstorage, ?_⟩
  rw [netPaid, outcome_of_ok hcallback hrun, received_refund hrefund hle]
  ring

/-- What an accepted call pays: the callback of accumulator data adds the bytes that the fee pays
for to the growth. -/
theorem netPaid_of_accepted (hcallback : c.self.updatePriceFeeds host.toHost c.data = .ok callback)
    (haccepted : (c.outcome host).failure = none) :
    (callback = .batch → c.netPaid host = c.due host) ∧
      (callback = .merkle → host.storageByteCost ≠ 0 ∧
        c.netPaid host = c.due host + host.storageByteCost.toNat
          * (c.found.updateFee.toNat / host.storageByteCost.toNat : ℕ)) := by
  cases hrun : c.runCallback host callback with
  | error e =>
    rw [outcome_of_error hcallback hrun] at haccepted
    cases haccepted
  | ok result =>
    obtain ⟨storage, hstorage, hpaid⟩ := netPaid_of_run hcallback hrun
    have hgrowth : c.growth host = (host.usage result.1).toNat - (host.usage c.found).toNat := by
      rw [growth, outcome_of_ok hcallback hrun]
    rw [hpaid, due, hgrowth]
    constructor
    · rintro rfl
      cases hstorage
      rfl
    · rintro rfl
      obtain ⟨hcost, hle, hstorage⟩ := baseline_merkle_eq_ok.mp hstorage
      refine ⟨hcost, ?_⟩
      rw [hstorage, Nat.cast_sub hle]
      ring

end

/-! ## Quoted calls -/

/-- The callback can read its updates. -/
def Readable (callback : UpdateCallback) : Prop := ∃ feeds, c.feeds host callback = .ok feeds

/-- All the feeds that the callback reads are stored already. -/
def NoNewFeeds (callback : UpdateCallback) : Prop :=
  ∀ feeds, c.feeds host callback = .ok feeds → ∀ feed ∈ feeds, (c.found.prices feed.id).isSome

/-- The VAA is verified, the deposit is at least the estimate, and no feed is new. -/
structure Quoted (callback : UpdateCallback) : Prop where
  awaits : c.self.updatePriceFeeds host.toHost c.data = .ok callback
  verified : c.verified = true
  covered : ∃ estimate, c.found.getUpdateFeeEstimate host.toHost c.data = .ok estimate ∧
    estimate.toNat ≤ c.deposit.toNat
  noNewFeeds : c.NoNewFeeds host callback

/-- The call is not refused for its deposit, and pays what is due. A call whose updates cannot be
read is refused for that. -/
structure Charged [DecidableEq A] (callback : UpdateCallback) : Prop where
  sufficient : (c.outcome host).failure ≠ some (.error .insufficientDeposit)
  paid : c.Readable host callback → c.netPaid host = c.due host

/-- The fee pays for no byte of storage, where that matters. -/
def FeeBelowByte (callback : UpdateCallback) : Prop :=
  callback = .batch ∨ c.found.updateFee = 0 ∨
    c.found.updateFee.toNat < host.storageByteCost.toNat ∨
      (¬c.Readable host callback ∧
        c.found.updateFee.toNat / host.storageByteCost.toNat ≤ (host.usage c.found).toNat)

section

variable {host c} {callback : UpdateCallback}

theorem isSome_updatePriceFeedIfNew {p : PricedPyth} {feed : PriceFeed}
    (h : (p.prices feed.id).isSome) (id : HashArray 32) :
    ((p.updatePriceFeedIfNew feed).prices id).isSome = (p.prices id).isSome := by
  have hupdate : (Function.update p.prices feed.id (some feed) id).isSome = (p.prices id).isSome := by
    by_cases hid : id = feed.id
    · rw [hid, Function.update_self, h]
      rfl
    · rw [Function.update_of_ne hid]
  unfold PricedPyth.updatePriceFeedIfNew
  split
  · split
    · exact hupdate
    · rfl
  · exact hupdate

theorem isSome_foldl {feeds : List PriceFeed} {p : PricedPyth}
    (h : ∀ feed ∈ feeds, (p.prices feed.id).isSome) (id : HashArray 32) :
    ((feeds.foldl PricedPyth.updatePriceFeedIfNew p).prices id).isSome = (p.prices id).isSome := by
  induction feeds generalizing p with
  | nil => rfl
  | cons feed feeds ih =>
    have hfeed := isSome_updatePriceFeedIfNew (h feed List.mem_cons_self)
    rw [List.foldl_cons, ih fun other hother => ?_, hfeed]
    rw [hfeed]
    exact h other (List.mem_cons_of_mem _ hother)

/-- Without new feeds the storage does not grow. -/
theorem usage_updated (h : c.NoNewFeeds host callback) :
    host.usage (c.updated host callback) = host.usage c.found := by
  unfold updated
  cases hfeeds : c.feeds host callback with
  | error e => rfl
  | ok feeds =>
    unfold UpdateHost.usage
    congr 1
    funext id
    exact isSome_foldl (h feeds hfeeds) id

/-- The estimate is the headway for 20 price feeds, and the fee for each update. -/
theorem getUpdateFeeEstimate_ok {host : Host} {self : PricedPyth} {data : List Char}
    {estimate : BitVec 128} (h : self.getUpdateFeeEstimate host data = .ok estimate) :
    ∃ bytes updates, Hex.decode data = some bytes ∧ PricedPyth.totalUpdates bytes = .ok updates ∧
      estimate.toNat
        = host.storageByteCost.toNat * 96 * 20 + self.updateFee.toNat * updates.toNat := by
  simp only [PricedPyth.getUpdateFeeEstimate, except_bind_eq_ok, unwrap_eq_ok,
    Rust.checkedMul_eq_some, Rust.checkedAdd_eq_some] at h
  obtain ⟨dataCost, hdataCost, bytes, hbytes, updates, hupdates, headway, hheadway, fee, hfee, hsum⟩ := h
  refine ⟨bytes, updates, hbytes, hupdates, ?_⟩
  rw [hsum, hheadway, hfee, hdataCost]
  rfl

theorem totalUpdates_of_batch {host : Host} {self : PricedPyth} {data : List Char} {bytes : Bytes}
    {updates : BitVec 128} (hcallback : self.updatePriceFeeds host data = .ok .batch)
    (hbytes : Hex.decode data = some bytes)
    (hupdates : PricedPyth.totalUpdates bytes = .ok updates) : updates = 1 := by
  simp only [PricedPyth.updatePriceFeeds, except_bind_eq_ok, okOr_eq_ok] at hcallback
  obtain ⟨bytes', hbytes', ⟨header, rest⟩, hheader, hcallback⟩ := hcallback
  cases hbytes.symm.trans hbytes'
  rw [PricedPyth.totalUpdates, hheader, except_ok_bind] at hupdates
  dsimp only at hcallback hupdates
  split at hcallback
  · simp only [except_bind_eq_ok] at hcallback
    obtain ⟨_, -, _, -, hcallback⟩ := hcallback
    cases hcallback
  · next hother =>
    rw [if_neg hother] at hupdates
    cases hupdates
    rfl

/-- A fee below the cost of a byte, and the fee of batch attestations, is part of the estimate. -/
theorem fee_le_deposit (h : c.Quoted host callback)
    (hfee : callback = .batch ∨ c.found.updateFee = 0 ∨
      c.found.updateFee.toNat < host.storageByteCost.toNat) :
    c.found.updateFee.toNat ≤ c.deposit.toNat := by
  obtain ⟨estimate, hestimate, hcovered⟩ := h.covered
  obtain ⟨bytes, updates, hbytes, hupdates, hvalue⟩ := getUpdateFeeEstimate_ok hestimate
  refine le_trans ?_ hcovered
  rw [hvalue]
  rcases hfee with rfl | hzero | hbelow
  · have hone : (1 : BitVec 128).toNat = 1 := rfl
    rw [totalUpdates_of_batch h.awaits hbytes hupdates, hone, Nat.mul_one]
    exact Nat.le_add_left _ _
  · rw [hzero]
    exact Nat.zero_le _
  · omega

theorem quotient_eq_zero (hbelow : c.found.updateFee = 0 ∨
      c.found.updateFee.toNat < host.storageByteCost.toNat) :
    c.found.updateFee.toNat / host.storageByteCost.toNat = 0 := by
  rcases hbelow with hzero | hsmall
  · rw [hzero]
    exact Nat.zero_div _
  · exact Nat.div_eq_of_lt hsmall

/-- Where the fee pays for no byte, a callback has the storage before it as its baseline. -/
theorem baseline_of_below (hbelow : c.found.updateFee = 0 ∨
      c.found.updateFee.toNat < host.storageByteCost.toNat) (hcost : host.storageByteCost ≠ 0) :
    c.baseline host callback = .ok (host.usage c.found) := by
  cases callback with
  | batch => rfl
  | merkle =>
    refine baseline_merkle_eq_ok.mpr ⟨hcost, ?_, ?_⟩
    · rw [quotient_eq_zero hbelow]
      exact Nat.zero_le _
    · rw [quotient_eq_zero hbelow, Nat.sub_zero]

/-- A quoted call whose updates can be read is accepted, where its baseline is the storage before
it. -/
theorem accepted_of_quoted (h : c.Quoted host callback) (hreadable : c.Readable host callback)
    (hstorage : c.baseline host callback = .ok (host.usage c.found))
    (hfee : c.found.updateFee.toNat ≤ c.deposit.toNat) : (c.outcome host).failure = none := by
  obtain ⟨feeds, hfeeds⟩ := hreadable
  have hcovered : c.found.Covered host.toHost (host.usage c.found)
      (host.usage (c.updated host callback)) c.deposit := by
    rw [usage_updated h.noNewFeeds]
    refine ⟨le_rfl, ?_⟩
    rw [Nat.sub_self, Nat.mul_zero, Nat.zero_add]
    exact hfee
  obtain ⟨transfers, hrun⟩ := runCallback_of_covered h.verified hstorage hfeeds hcovered
  rw [outcome_of_ok h.awaits hrun]

/-- A call that is refused for its deposit has failed in its callback. -/
theorem runCallback_insufficient (h : c.Quoted host callback)
    (hfailure : (c.outcome host).failure = some (.error .insufficientDeposit)) :
    c.runCallback host callback = .error (.error .insufficientDeposit) := by
  cases hrun : c.runCallback host callback with
  | ok result =>
    rw [outcome_of_ok h.awaits hrun] at hfailure
    cases hfailure
  | error e =>
    rw [outcome_of_error h.awaits hrun] at hfailure
    cases hfailure
    rfl

/-- It has no baseline, or it has one and its updates can be read. -/
theorem insufficient_cases (h : c.Quoted host callback)
    (hfailure : (c.outcome host).failure = some (.error .insufficientDeposit)) :
    (callback = .merkle ∧ (host.usage c.found).toNat
        < c.found.updateFee.toNat / host.storageByteCost.toNat) ∨
      (c.Readable host callback ∧ ∃ storage, c.baseline host callback = .ok storage) := by
  have hrun := runCallback_insufficient h hfailure
  rw [runCallback_eq] at hrun
  rcases bind_eq_error.mp hrun with hrun | ⟨_, -, hrun⟩
  · exact nomatch (require_eq_error.mp hrun).2
  rcases bind_eq_error.mp hrun with hrun | ⟨storage, hstorage, hrun⟩
  · exact .inl (baseline_insufficient.mp hrun)
  rcases bind_eq_error.mp hrun with hrun | ⟨feeds, hfeeds, -⟩
  · exact absurd hrun feeds_ne_insufficient
  · exact .inr ⟨⟨feeds, hfeeds⟩, storage, hstorage⟩

theorem FeeBelowByte.of_readable (h : c.FeeBelowByte host callback)
    (hreadable : c.Readable host callback) : callback = .batch ∨ c.found.updateFee = 0 ∨
      c.found.updateFee.toNat < host.storageByteCost.toNat := by
  rcases h with hbatch | hzero | hsmall | ⟨hnot, -⟩
  · exact .inl hbatch
  · exact .inr (.inl hzero)
  · exact .inr (.inr hsmall)
  · exact absurd hreadable hnot

/-- Where the fee pays for no byte, a callback with a baseline goes through. -/
theorem FeeBelowByte.accepted (hbelow : c.FeeBelowByte host callback) (h : c.Quoted host callback)
    (hreadable : c.Readable host callback)
    (hcost : callback = .batch ∨ host.storageByteCost ≠ 0) : (c.outcome host).failure = none := by
  refine accepted_of_quoted h hreadable ?_ (fee_le_deposit h (hbelow.of_readable hreadable))
  rcases hbelow.of_readable hreadable with rfl | hfee
  · rfl
  · rcases hcost with rfl | hcost
    · rfl
    · exact baseline_of_below hfee hcost

theorem FeeBelowByte.sufficient (hbelow : c.FeeBelowByte host callback)
    (h : c.Quoted host callback) :
    (c.outcome host).failure ≠ some (.error .insufficientDeposit) := by
  intro hfailure
  rcases insufficient_cases h hfailure with ⟨rfl, hshort⟩ | ⟨hreadable, storage, hstorage⟩
  · rcases hbelow with hbatch | hzero | hsmall | ⟨-, henough⟩
    · cases hbatch
    · exact Nat.not_lt_zero _ (hshort.trans_eq (quotient_eq_zero (.inl hzero)))
    · exact Nat.not_lt_zero _ (hshort.trans_eq (quotient_eq_zero (.inr hsmall)))
    · exact Nat.not_le.mpr hshort henough
  · have hcost : callback = .batch ∨ host.storageByteCost ≠ 0 := by
      cases callback with
      | batch => exact .inl rfl
      | merkle => exact .inr (baseline_merkle_eq_ok.mp hstorage).1
    rw [hbelow.accepted h hreadable hcost] at hfailure
    cases hfailure

/-- A call that is not accepted has no fee to pay, where its fee pays for no byte. -/
theorem FeeBelowByte.updateFee_of_failure (hbelow : c.FeeBelowByte host callback)
    (h : c.Quoted host callback) (hreadable : c.Readable host callback) {e : Rust.Failure Error}
    (hfailure : (c.outcome host).failure = some e) : c.found.updateFee = 0 := by
  rcases hbelow.of_readable hreadable with hbatch | hzero | hsmall
  · rw [hbelow.accepted h hreadable (.inl hbatch)] at hfailure
    cases hfailure
  · exact hzero
  · have hcost : host.storageByteCost ≠ 0 := by
      intro hcost
      rw [hcost] at hsmall
      exact Nat.not_lt_zero _ hsmall
    rw [hbelow.accepted h hreadable (.inr hcost)] at hfailure
    cases hfailure

/-- Bytes that cost nothing, or none: the fee is below the cost of a byte. -/
theorem product_eq_zero_iff (hcost : host.storageByteCost ≠ 0) :
    host.storageByteCost.toNat * (c.found.updateFee.toNat / host.storageByteCost.toNat) = 0 ↔
      c.found.updateFee.toNat < host.storageByteCost.toNat := by
  have hbyte : host.storageByteCost.toNat ≠ 0 := fun h => hcost (BitVec.eq_of_toNat_eq h)
  rw [Nat.mul_eq_zero, or_iff_right hbyte, Nat.div_eq_zero_iff, or_iff_right hbyte]

variable [DecidableEq A]

/-- An accepted call pays what is due, where its fee pays for no byte. -/
theorem FeeBelowByte.netPaid_eq_due (hbelow : c.FeeBelowByte host callback)
    (h : c.Quoted host callback) (hreadable : c.Readable host callback)
    (haccepted : (c.outcome host).failure = none) : c.netPaid host = c.due host := by
  obtain ⟨hbatch, hmerkle⟩ := netPaid_of_accepted h.awaits haccepted
  rcases hbelow.of_readable hreadable with rfl | hfee
  · exact hbatch rfl
  · cases callback with
    | batch => exact hbatch rfl
    | merkle => rw [(hmerkle rfl).2, quotient_eq_zero hfee, Nat.cast_zero, mul_zero, add_zero]

/-- Where the fee pays for no byte, a quoted call is charged what is due. -/
theorem FeeBelowByte.charged (hbelow : c.FeeBelowByte host callback) (h : c.Quoted host callback) :
    c.Charged host callback := by
  refine ⟨hbelow.sufficient h, fun hreadable => ?_⟩
  cases hfailure : (c.outcome host).failure with
  | none => exact hbelow.netPaid_eq_due h hreadable hfailure
  | some e =>
    obtain ⟨hpaid, hgrowth⟩ := netPaid_of_failure hfailure
    rw [hpaid, due, hgrowth, hbelow.updateFee_of_failure h hreadable hfailure, mul_zero]
    rfl

/-- A fee that pays for a byte is not charged as it is due. -/
theorem below_of_charged (h : c.Quoted host callback) (hcharged : c.Charged host callback) :
    c.FeeBelowByte host callback := by
  cases callback with
  | batch => exact .inl rfl
  | merkle =>
    by_cases hzero : c.found.updateFee = 0
    · exact .inr (.inl hzero)
    by_cases hsmall : c.found.updateFee.toNat < host.storageByteCost.toNat
    · exact .inr (.inr (.inl hsmall))
    refine .inr (.inr (.inr ⟨fun hreadable => ?_, ?_⟩))
    · have hpaid := hcharged.paid hreadable
      cases hfailure : (c.outcome host).failure with
      | none =>
        obtain ⟨hcost, hcharge⟩ := (netPaid_of_accepted h.awaits hfailure).2 rfl
        refine hsmall ((product_eq_zero_iff hcost).mp ?_)
        exact_mod_cast left_eq_add.mp (hpaid.symm.trans hcharge)
      | some e =>
        obtain ⟨hnothing, hgrowth⟩ := netPaid_of_failure hfailure
        rw [hnothing, due, hgrowth, mul_zero, zero_add] at hpaid
        exact hzero (BitVec.eq_of_toNat_eq (Int.ofNat.inj hpaid.symm))
    · by_contra hshort
      have hbaseline : c.baseline host .merkle = .error (.error .insufficientDeposit) :=
        baseline_insufficient.mpr ⟨rfl, Nat.not_le.mp hshort⟩
      have hrun : c.runCallback host .merkle = .error (.error .insufficientDeposit) := by
        rw [runCallback_eq, require_eq_ok (u := ()) |>.mpr h.verified, except_ok_bind, hbaseline]
        rfl
      refine hcharged.sufficient ?_
      rw [outcome_of_error h.awaits hrun]

end

end UpdateCall

/-- **Charge of a price update**: a call whose VAA is verified, with a deposit of at least the
estimate and without new feeds, is not refused for its deposit and pays for the growth of the
storage and the fee exactly where the fee pays for no byte of storage or the data is a batch
attestation. For the same growth both paths charge the same exactly where the fee pays for no
byte. -/
theorem update_charge_iff {A : Type} [DecidableEq A] (host : UpdateHost) :
    (∀ (c : UpdateCall A) callback, c.Quoted host callback →
      (c.Charged host callback ↔ c.FeeBelowByte host callback)) ∧
    ∀ b m : UpdateCall A, b.self.updatePriceFeeds host.toHost b.data = .ok .batch →
      m.self.updatePriceFeeds host.toHost m.data = .ok .merkle →
      (b.outcome host).failure = none → (m.outcome host).failure = none →
      b.found.updateFee = m.found.updateFee → b.growth host = m.growth host →
      (b.netPaid host = m.netPaid host ↔
        m.found.updateFee.toNat < host.storageByteCost.toNat) := by
  refine ⟨fun c callback h => ⟨UpdateCall.below_of_charged h, fun hbelow => hbelow.charged h⟩, ?_⟩
  intro b m hb hm hbAccepted hmAccepted hfee hgrowth
  have hbPaid := (UpdateCall.netPaid_of_accepted hb hbAccepted).1 rfl
  obtain ⟨hcost, hmPaid⟩ := (UpdateCall.netPaid_of_accepted hm hmAccepted).2 rfl
  have hdue : b.due host = m.due host := by rw [UpdateCall.due, UpdateCall.due, hfee, hgrowth]
  rw [hbPaid, hmPaid, hdue, left_eq_add, ← UpdateCall.product_eq_zero_iff hcost]
  exact_mod_cast Iff.rfl

/-! ### One feed, by both paths -/

def exFeedId : HashArray 32 :=
  ⟨bytesBE 32 0xe62df6c8b4a85fe1a67db44dc12de5db330f7ac66b72dc658afedf0f4a415b43,
    length_bytesBE _ _⟩

/-- The message of the feed. -/
def exFeedMessage : Bytes :=
  [0] ++ exFeedId.val ++ bytesBE 8 6000000000000 ++ bytesBE 8 300000000 ++ bytesBE 4 (2 ^ 32 - 8) ++
    bytesBE 8 1700000000 ++ bytesBE 8 1699999999 ++ bytesBE 8 6010000000000 ++ bytesBE 8 310000000

/-- The root of the tree with the message alone: the first 20 bytes of its hash. -/
def exFeedRoot : HashArray 20 :=
  ⟨bytesBE 20 0x340ae4895219a6feb62fd8948b24f3bdc76c4cc7, length_bytesBE _ _⟩

def exUpdateHost : UpdateHost where
  toHost := exHost
  hasher := { digest := fun s => if s = 0 :: exFeedMessage then exFeedRoot else default }
  storageUsage := fun stored => if stored exFeedId then 10200 else 10000

def exPriceSource : Source :=
  ⟨⟨bytesBE 32 0xe101faedac5851e32b9b23b5f9411a8c2bac4aae3ed4dd7b811dd1a72ea4aa71,
    length_bytesBE _ _⟩, 26⟩

/-- A VAA with one signature. -/
def exPriceVaa (payload : Bytes) : Bytes :=
  [1] ++ bytesBE 4 0 ++ [1] ++ List.replicate 66 0 ++ bytesBE 4 1700000001 ++ bytesBE 4 0 ++
    bytesBE 2 26 ++ exPriceSource.emitter.val ++ bytesBE 8 5000 ++ [1] ++ payload

def exAccumulatorData : List Char :=
  Hex.encode (PYTHNET_ACCUMULATOR_UPDATE_MAGIC.val ++ [1, 0, 0, 0] ++ bytesBE 2 160 ++
    exPriceVaa (bytesBE 4 0x41555756 ++ [0] ++ bytesBE 8 100 ++ bytesBE 4 10000 ++ exFeedRoot.val) ++
    [1] ++ bytesBE 2 85 ++ exFeedMessage ++ [0])

def exAttestation : PriceAttestation where
  productId := ⟨bytesBE 32 7, length_bytesBE _ _⟩
  priceId := exFeedId
  price := 6000000000000
  conf := 300000000
  expo := -8
  emaPrice := 6010000000000
  emaConf := 310000000
  status := .trading
  numPublishers := 20
  maxNumPublishers := 30
  attestationTime := 1700000001
  publishTime := 1700000000
  prevPublishTime := 1699999999
  prevPrice := 6000000000000
  prevConf := 300000000
  lastAttestedPublishTime := 1700000000

def exBatchData : List Char :=
  Hex.encode (exPriceVaa
    ((BatchPriceAttestation.serialize { priceAttestations := [exAttestation] }).toOption.getD []))

/-- The feed is stored, with a price of an hour before. -/
def exPriced (updateFee : BitVec 128) : PricedPyth where
  toPyth := { exContract with sources := {exPriceSource}, updateFee }
  prices := fun id =>
    if id = exFeedId then
      some { id, price := ⟨5990000000000, 300000000, -8, 1699996400⟩
             emaPrice := ⟨6010000000000, 310000000, -8, 1699996400⟩ }
    else none

/-- A call with the estimate as its deposit: 20 times the 96 bytes of a price feed, and the fee. -/
def exCall (data : List Char) (updateFee : BitVec 128) : UpdateCall ℕ where
  accountId := 1
  data
  deposit := 19200000000000000000000 + updateFee
  self := exPriced updateFee
  verified := true
  found := exPriced updateFee

theorem exQuoted {data : List Char} {updateFee : BitVec 128} {callback : UpdateCallback}
    (hawaits : ((exPriced updateFee).updatePriceFeeds exHost data).toOption = some callback)
    (hestimate : ((exPriced updateFee).getUpdateFeeEstimate exHost data).toOption
      = some (exCall data updateFee).deposit)
    (hids : ((exCall data updateFee).feeds exUpdateHost callback).toOption.map
      (List.map PriceFeed.id) = some [exFeedId]) :
    (exCall data updateFee).Quoted exUpdateHost callback where
  awaits := except_toOption_eq_some.mp hawaits
  verified := rfl
  covered := ⟨_, except_toOption_eq_some.mp hestimate, le_rfl⟩
  noNewFeeds := by
    intro feeds hfeeds feed hfeed
    rw [hfeeds] at hids
    have hid : feed.id ∈ [exFeedId] := by
      rw [← Option.some.inj hids]
      exact List.mem_map_of_mem hfeed
    rw [List.mem_singleton.mp hid]
    rfl

/-- A fee of 1, which pays for no byte, is charged once by both callbacks. -/
theorem update_charge_exCall :
    (exCall exAccumulatorData 1).Charged exUpdateHost .merkle ∧
      (exCall exBatchData 1).Charged exUpdateHost .batch ∧
      (exCall exBatchData 1).netPaid exUpdateHost
        = (exCall exAccumulatorData 1).netPaid exUpdateHost := by
  have hmerkle : (exCall exAccumulatorData 1).Quoted exUpdateHost .merkle :=
    exQuoted (by decide +kernel) (by decide +kernel) (by decide +kernel)
  have hbatch : (exCall exBatchData 1).Quoted exUpdateHost .batch :=
    exQuoted (by decide +kernel) (by decide +kernel) (by decide +kernel)
  have hfee : (1 : BitVec 128).toNat < exUpdateHost.storageByteCost.toNat := by decide +kernel
  refine ⟨((update_charge_iff exUpdateHost).1 _ _ hmerkle).mpr (.inr (.inr (.inl hfee))),
    ((update_charge_iff exUpdateHost).1 _ _ hbatch).mpr (.inl rfl),
    ((update_charge_iff exUpdateHost).2 _ _ hbatch.awaits hmerkle.awaits ?_ ?_ rfl ?_).mpr hfee⟩
  · decide +kernel
  · decide +kernel
  · decide +kernel

/-- A fee that pays for a byte of storage is charged twice for accumulator data, and once for a
batch. With a fee that pays for 2000 bytes the estimate is too small. -/
theorem update_charge_fail :
    (exCall exAccumulatorData (10 ^ 19)).Quoted exUpdateHost .merkle ∧
      ¬(exCall exAccumulatorData (10 ^ 19)).Charged exUpdateHost .merkle ∧
      (exCall exAccumulatorData (10 ^ 19)).netPaid exUpdateHost = 2 * 10 ^ 19 ∧
      (exCall exBatchData (10 ^ 19)).netPaid exUpdateHost = 10 ^ 19 ∧
      (exCall exAccumulatorData (10 ^ 19)).growth exUpdateHost
        = (exCall exBatchData (10 ^ 19)).growth exUpdateHost ∧
      (exCall exAccumulatorData (2000 * 10 ^ 19)).Quoted exUpdateHost .merkle ∧
      ((exCall exAccumulatorData (2000 * 10 ^ 19)).outcome exUpdateHost).failure
        = some (.error .insufficientDeposit) := by
  have hquoted : (exCall exAccumulatorData (10 ^ 19)).Quoted exUpdateHost .merkle :=
    exQuoted (by decide +kernel) (by decide +kernel) (by decide +kernel)
  have hpaid : (exCall exAccumulatorData (10 ^ 19)).netPaid exUpdateHost = 2 * 10 ^ 19 := by
    decide +kernel
  have hdue : (exCall exAccumulatorData (10 ^ 19)).due exUpdateHost = 10 ^ 19 := by
    decide +kernel
  have hreadable : (exCall exAccumulatorData (10 ^ 19)).Readable exUpdateHost .merkle := by
    have hread : ((exCall exAccumulatorData (10 ^ 19)).feeds exUpdateHost .merkle).toOption.isSome := by
      decide +kernel
    obtain ⟨feeds, hfeeds⟩ := Option.isSome_iff_exists.mp hread
    exact ⟨feeds, except_toOption_eq_some.mp hfeeds⟩
  refine ⟨hquoted, fun hcharged => ?_, hpaid, ?_, ?_, ?_, ?_⟩
  · have hequal := hcharged.paid hreadable
    rw [hpaid, hdue] at hequal
    exact absurd hequal (by decide)
  · decide +kernel
  · decide +kernel
  · exact exQuoted (by decide +kernel) (by decide +kernel) (by decide +kernel)
  · decide +kernel

end PythCrosschain.Near
