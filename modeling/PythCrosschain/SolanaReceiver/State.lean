import PythCrosschain.Lib.Rust
import PythCrosschain.PythnetSdk.Messages
import PythCrosschain.Solana.Accounts
import PythCrosschain.Solana.Anchor

/-!
# Solana receiver: errors and price updates

`error.rs` of the program, and `price_update.rs` of its SDK: the account `PriceUpdateV2`, and the
reads of a price that a consumer makes.
-/

namespace PythCrosschain.SolanaReceiver

export Solana (require require_eq_ok)

inductive ReceiverError where
  | invalidWormholeMessage
  | deserializeMessageFailed
  | invalidPriceUpdate
  | unsupportedMessageType
  | invalidDataSource
  | insufficientFunds
  | feedIdMismatch
  | exponentMismatch
  | invalidTwapSlots
  | invalidTwapStartMessage
  | invalidTwapEndMessage
  | twapCalculationOverflow
  | wrongWriteAuthority
  | wrongVaaOwner
  | deserializeVaaFailed
  | insufficientGuardianSignatures
  | invalidVaaVersion
  | guardianSetMismatch
  | invalidGuardianOrder
  | invalidGuardianIndex
  | invalidSignature
  | invalidGuardianKeyRecovery
  | wrongGuardianSetOwner
  | invalidGuardianSetPda
  | guardianSetExpired
  | governanceAuthorityMismatch
  | targetGovernanceAuthorityMismatch
  | nonexistentGovernanceAuthorityTransferRequest
  | zeroMinimumSignatures
deriving DecidableEq, Repr

abbrev Result (α : Type) := Solana.Result ReceiverError α

end PythCrosschain.SolanaReceiver

/-! ## Price updates -/

namespace PythCrosschain.SolanaReceiver

open Solana
open PythnetSdk hiding Pubkey

/-- `partially` is `Partial`. -/
inductive VerificationLevel where
  | partially (numSignatures : UInt8)
  | full
deriving DecidableEq, Repr

/-- `Full` is always greater than `Partial`, and `Partial` with more signatures is greater
than `Partial` with fewer signatures. -/
def VerificationLevel.gte : VerificationLevel → VerificationLevel → Bool
  | .full, _ => true
  | .partially _, .full => false
  | .partially numSignatures, .partially otherNumSignatures => numSignatures ≥ otherNumSignatures

structure PriceUpdateV2 where
  writeAuthority : Pubkey
  verificationLevel : VerificationLevel
  priceMessage : PriceFeedMessage
  postedSlot : U64
deriving DecidableEq

def PriceUpdateV2.LEN : Nat := 8 + 32 + 2 + 32 + 8 + 8 + 4 + 8 + 8 + 8 + 8 + 8

structure Price where
  price : I64
  conf : U64
  exponent : I32
  publishTime : I64
deriving DecidableEq

inductive GetPriceError where
  | priceTooOld
  | mismatchedFeedId
  | insufficientVerificationLevel
deriving DecidableEq, Repr

/-- `i64::saturating_add`. -/
def saturatingAdd (a b : I64) : Int := max (-2 ^ 63) (min (2 ^ 63 - 1) (a.toInt + b.toInt))

namespace PriceUpdateV2

variable (update : PriceUpdateV2)

def getPriceUnchecked (feedId : FeedId) : Rust.Result GetPriceError Price := do
  Rust.require (update.priceMessage.feedId = feedId) .mismatchedFeedId
  return {
    price := update.priceMessage.price
    conf := update.priceMessage.conf
    exponent := update.priceMessage.exponent
    publishTime := update.priceMessage.publishTime }

def getPriceNoOlderThanWithCustomVerificationLevel (clock : Clock) (maximumAge : U64)
    (feedId : FeedId) (verificationLevel : VerificationLevel) : Rust.Result GetPriceError Price := do
  Rust.require (update.verificationLevel.gte verificationLevel = true)
    .insufficientVerificationLevel
  let price ← update.getPriceUnchecked feedId
  let maximumAge ← Rust.unwrap (Rust.toSigned 64 maximumAge.toNat)
  Rust.require (saturatingAdd price.publishTime maximumAge ≥ clock.unixTimestamp.toInt) .priceTooOld
  return price

/-- A price that is returned is the one in the account, which has the level that was asked
for. -/
theorem getPrice_ok {clock : Clock} {maximumAge : U64} {feedId : FeedId}
    {verificationLevel : VerificationLevel} {price : Price}
    (h : update.getPriceNoOlderThanWithCustomVerificationLevel clock maximumAge feedId
      verificationLevel = .ok price) :
    update.verificationLevel.gte verificationLevel = true ∧ update.priceMessage.feedId = feedId ∧
      price.price = update.priceMessage.price ∧
      price.publishTime = update.priceMessage.publishTime := by
  obtain ⟨_, hlevel, h⟩ := except_bind_eq_ok.mp h
  obtain ⟨found, hfound, h⟩ := except_bind_eq_ok.mp h
  obtain ⟨_, hfeed, hprice⟩ := except_bind_eq_ok.mp hfound
  obtain ⟨age, -, h⟩ := except_bind_eq_ok.mp h
  obtain ⟨_, -, h⟩ := except_bind_eq_ok.mp h
  cases hprice
  cases h
  exact ⟨Rust.require_eq_ok.mp hlevel, Rust.require_eq_ok.mp hfeed, rfl, rfl⟩

end PriceUpdateV2

end PythCrosschain.SolanaReceiver
