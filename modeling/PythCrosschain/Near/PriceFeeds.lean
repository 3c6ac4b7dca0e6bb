import PythCrosschain.Near.Deposits
import PythCrosschain.PythnetSdk.WormholeAttester

/-!
# The NEAR receiver: batch attestations

`verify_wormhole_batch_callback` of `lib.rs`, and `PriceFeed` of `state.rs`. The number of updates
is only logged and left out; the costs that are logged with it can panic.
-/

namespace PythCrosschain.Near

open PythnetSdk (HashArray I32 I64 U64)
open PythnetSdk.Legacy (PriceAttestation BatchPriceAttestation P2W_MAGIC)

structure Price where
  price : I64
  conf : U64
  expo : I32
  publishTime : I64
deriving DecidableEq

structure PriceFeed where
  id : HashArray 32
  price : Price
  emaPrice : Price
deriving DecidableEq

/-- `From<&PriceAttestation>`, which does not look at the status. -/
def PriceFeed.ofAttestation (priceAttestation : PriceAttestation) : PriceFeed where
  id := priceAttestation.priceId
  price := {
    price := priceAttestation.price
    conf := priceAttestation.conf
    expo := priceAttestation.expo
    publishTime := priceAttestation.publishTime }
  emaPrice := {
    price := priceAttestation.emaPrice
    conf := priceAttestation.emaConf
    expo := priceAttestation.expo
    publishTime := priceAttestation.publishTime }

/-- `Pyth` with its prices. -/
structure PricedPyth extends Pyth where
  prices : HashArray 32 → Option PriceFeed

/-- The price feeds of a payload, in the order in which they are stored. -/
def batchFeeds (payload : Bytes) : Result (List PriceFeed) := do
  let (header, _) ← unwrap (PythnetSdk.Legacy.readExact 4 payload).toOption
  require (header = P2W_MAGIC) .invalidVaa
  let batch ← unwrap (BatchPriceAttestation.deserialize payload).toOption
  return batch.priceAttestations.map PriceFeed.ofAttestation

namespace PricedPyth

variable {A : Type} (host : Host) (self : PricedPyth)

def updatePriceFeedIfNew (priceFeed : PriceFeed) : PricedPyth :=
  match self.prices priceFeed.id with
  | some storedPriceFeed =>
    if storedPriceFeed.price.publishTime.slt priceFeed.price.publishTime then
      { self with prices := Function.update self.prices priceFeed.id (some priceFeed) }
    else self
  | none => { self with prices := Function.update self.prices priceFeed.id (some priceFeed) }

/-- `success` is whether the VAA was verified, `before` and `after` are the storage used when the
method starts and when the prices are stored. -/
def verifyWormholeBatchCallback (accountId : A) (vaa : List Char) (success : Bool)
    (before after : BitVec 64) (deposit : BitVec 128) :
    Result (PricedPyth × List (Transfer A)) := do
  require (success = true) .vaaVerificationFailed
  let vaa ← unwrap (Hex.decode vaa)
  let vaa ← unwrap (host.fromSlice vaa)
  let feeds ← batchFeeds vaa.payload
  let stored := feeds.foldl updatePriceFeedIfNew self
  let diff ← unwrap (checkedSub after before)
  let _costs ← unwrap (checkedMul host.storageByteCost (diff.setWidth 128))
  let transfers ←
    Deposits.refundStorageUsage host accountId before after deposit (some self.updateFee)
  return (stored, transfers)

/-! ## What is accepted -/

/-- The deposit covers the storage and the fee. -/
def Covered (before after : BitVec 64) (deposit : BitVec 128) : Prop :=
  before.toNat ≤ after.toNat ∧
    host.storageByteCost.toNat * (after.toNat - before.toNat) + self.updateFee.toNat
      ≤ deposit.toNat

section

variable {host self} {accountId : A} {vaa : List Char} {success : Bool}
  {before after : BitVec 64} {deposit : BitVec 128}

variable (accountId) in
/-- A covered refund goes through. -/
theorem refundStorageUsage_covered (h : self.Covered host before after deposit) :
    ∃ diff costs transfers, checkedSub after before = some diff ∧
      checkedMul host.storageByteCost (diff.setWidth 128) = some costs ∧
      Deposits.refundStorageUsage host accountId before after deposit (some self.updateFee)
        = .ok transfers := by
  obtain ⟨hle, hcost⟩ := h
  have hdeposit := deposit.isLt
  obtain ⟨diff, hdiff⟩ : ∃ diff, checkedSub after before = some diff :=
    ⟨after - before, Rust.checkedSub_eq_some.mpr ⟨hle, BitVec.toNat_sub_of_le hle⟩⟩
  obtain ⟨-, hdiffNat⟩ := Rust.checkedSub_eq_some.mp hdiff
  rw [← hdiffNat, ← Deposits.toNat_setWidth_diff] at hcost
  obtain ⟨costs, hcosts⟩ : ∃ costs, checkedMul host.storageByteCost (diff.setWidth 128) = some costs := by
    refine ⟨host.storageByteCost * diff.setWidth 128, Rust.checkedMul_eq_some.mpr ?_⟩
    rw [BitVec.toNat_mul, Nat.mod_eq_of_lt (by omega)]
  rw [← Rust.checkedMul_eq_some.mp hcosts] at hcost
  obtain ⟨cost, hsum⟩ : ∃ cost, Rust.checkedAdd costs self.updateFee = some cost := by
    refine ⟨costs + self.updateFee, Rust.checkedAdd_eq_some.mpr ?_⟩
    rw [BitVec.toNat_add, Nat.mod_eq_of_lt (by omega)]
  obtain ⟨refund, hrefund⟩ : ∃ refund, checkedSub deposit cost = some refund := by
    have hcovered : cost.toNat ≤ deposit.toNat := by
      rw [Rust.checkedAdd_eq_some.mp hsum]
      exact hcost
    exact ⟨deposit - cost, Rust.checkedSub_eq_some.mpr ⟨hcovered, BitVec.toNat_sub_of_le hcovered⟩⟩
  refine ⟨diff, costs, if refund = 0 then [] else [{ recipient := accountId, amount := refund }],
    hdiff, hcosts, ?_⟩
  unfold Deposits.refundStorageUsage
  rw [hdiff]
  dsimp only [Option.getD_some]
  rw [hcosts, Rust.unwrap_some, except_ok_bind, hsum, Rust.unwrap_some, except_ok_bind, hrefund,
    Rust.okOr_some, except_ok_bind]
  rfl

/-- The payloads that are read are those of the SDK. -/
theorem batchFeeds_eq_ok {payload : Bytes} {feeds : List PriceFeed} :
    batchFeeds payload = .ok feeds ↔
      ∃ batch, BatchPriceAttestation.deserialize payload = .ok batch ∧
        feeds = batch.priceAttestations.map PriceFeed.ofAttestation := by
  unfold batchFeeds
  simp only [except_bind_eq_ok, require_eq_ok, unwrap_eq_ok, except_toOption_eq_some]
  constructor
  · rintro ⟨_, -, _, -, batch, hbatch, hfeeds⟩
    cases hfeeds
    exact ⟨batch, hbatch, rfl⟩
  · rintro ⟨batch, hbatch, rfl⟩
    have hmagic := (PythnetSdk.Legacy.deserialize_headed hbatch).magic
    have hheader : PythnetSdk.Legacy.readExact 4 payload = .ok (P2W_MAGIC, payload.drop 4) := by
      refine PythnetSdk.Legacy.readExact_eq_ok.mpr ⟨rfl, ?_⟩
      rw [← hmagic, List.take_append_drop]
    exact ⟨_, hheader, (), rfl, batch, hbatch, rfl⟩

/-- With a verified VAA, a payload that is read stores its price feeds. -/
theorem verifyWormholeBatchCallback_run {bytes : Bytes} {parsed : Vaa} {feeds : List PriceFeed}
    (hhex : Hex.decode vaa = some bytes) (hparsed : host.fromSlice bytes = some parsed)
    (hfeeds : batchFeeds parsed.payload = .ok feeds)
    (hcovered : self.Covered host before after deposit) :
    ∃ transfers, self.verifyWormholeBatchCallback host accountId vaa true before after deposit
      = .ok (feeds.foldl updatePriceFeedIfNew self, transfers) := by
  obtain ⟨diff, costs, transfers, hdiff, hcosts, hrefund⟩ :=
    refundStorageUsage_covered accountId hcovered
  refine ⟨transfers, ?_⟩
  unfold verifyWormholeBatchCallback
  simp only [except_bind_eq_ok, require_eq_ok, unwrap_eq_ok]
  exact ⟨(), trivial, bytes, hhex, parsed, hparsed, feeds, hfeeds, diff, hdiff, costs, hcosts,
    transfers, hrefund, rfl⟩

/-- What is accepted is read. -/
theorem batchFeeds_of_verifyWormholeBatchCallback {bytes : Bytes} {parsed : Vaa}
    {result : PricedPyth × List (Transfer A)} (hhex : Hex.decode vaa = some bytes)
    (hparsed : host.fromSlice bytes = some parsed)
    (h : self.verifyWormholeBatchCallback host accountId vaa success before after deposit
      = .ok result) : ∃ feeds, batchFeeds parsed.payload = .ok feeds := by
  unfold verifyWormholeBatchCallback at h
  simp only [except_bind_eq_ok, require_eq_ok, unwrap_eq_ok] at h
  obtain ⟨_, -, _, hhex', _, hparsed', feeds, hfeeds, -⟩ := h
  cases hhex.symm.trans hhex'
  cases hparsed.symm.trans hparsed'
  exact ⟨feeds, hfeeds⟩

end

end PricedPyth

end PythCrosschain.Near
