import PythCrosschain.MovePackages.Prices

/-!
# Move packages: `batch_price_attestation`

The legacy format of price updates, as both Move packages read it. The time of arrival is that
of the clock, in seconds.
-/

namespace PythCrosschain.MovePackages

open Move
open Sui (Cursor)

/-- "P2WH". -/
def MAGIC : BitVec 32 := 0x50325748

structure Header where
  magic : BitVec 32
  versionMajor : BitVec 16
  versionMinor : BitVec 16
  headerSize : BitVec 16
  payloadId : UInt8
deriving DecidableEq

structure BatchPriceAttestation where
  header : Header
  attestationSize : BitVec 16
  attestationCount : BitVec 16
  priceInfos : List PriceInfo
deriving DecidableEq

namespace BatchPriceAttestation

section

variable (errors : Errors)

def deserializeHeader : Cursor Header := do
  let magic ← deserializeU32
  assert (magic = MAGIC) errors.invalidAttestationMagicValue
  let versionMajor ← deserializeU16
  let versionMinor ← deserializeU16
  let headerSize ← deserializeU16
  let payloadId ← deserializeU8
  assert (headerSize ≥ 1) errors.invalidBatchAttestationHeaderSize
  let _unknown ← deserializeVector (headerSize.toNat - 1)
  return { magic, versionMajor, versionMinor, headerSize, payloadId }

def deserializePriceInfo (now : U64) : Cursor PriceInfo := do
  let _productIdentifier ← deserializeVector 32
  let priceIdentifier ← takePriceIdentifier
  let price ← deserializeI64 errors
  let conf ← deserializeU64
  let expo ← deserializeI32 errors
  let emaPrice ← deserializeI64 errors
  let emaConf ← deserializeU64
  let status ← deserializeU8
  let status ← liftM (PriceStatus.fromU64 errors status.toNat)
  let _numPublishers ← deserializeU32
  let _maxNumPublishers ← deserializeU32
  let attestationTime ← deserializeU64
  let publishTime ← deserializeU64
  let prevPublishTime ← deserializeU64
  let prevPrice ← deserializeI64 errors
  let prevConf ← deserializeU64
  -- without trading, the last known trading price and its time
  let currentPrice : Price :=
    if status ≠ .trading then
      { price := prevPrice, conf := prevConf, expo, timestamp := prevPublishTime }
    else { price, conf, expo, timestamp := publishTime }
  let emaTimestamp := if status ≠ .trading then prevPublishTime else publishTime
  return {
    attestationTime
    arrivalTime := now
    priceFeed := {
      priceIdentifier
      price := currentPrice
      emaPrice := { price := emaPrice, conf := emaConf, expo, timestamp := emaTimestamp } } }

/-- The bytes of an attestation that are parsed. -/
def parsedBytes : ℕ := 32 + 32 + 8 + 8 + 4 + 8 + 8 + 1 + 4 + 4 + 8 + 8 + 8 + 8 + 8

/-- A subtraction, which aborts below 0. -/
def sub (a b : ℕ) : Result ℕ := if b ≤ a then .ok (a - b) else .error .arithmeticError

/-- A round of the loop of `deserialize`. -/
def takeAttestation (attestationSize : BitVec 16) (now : U64) : Cursor PriceInfo := do
  let priceInfo ← deserializePriceInfo errors now
  let excess ← liftM (sub attestationSize.toNat parsedBytes)
  let _excess ← deserializeVector excess
  return priceInfo

def deserialize (bytes : Bytes) (now : U64) : Result BatchPriceAttestation :=
  Sui.Cursor.all (do
    let header ← deserializeHeader errors
    let attestationCount ← deserializeU16
    let attestationSize ← deserializeU16
    let priceInfos ← Decoder.elements (takeAttestation errors attestationSize now)
      attestationCount.toNat
    return { header, attestationSize, attestationCount, priceInfos }) bytes

end

end BatchPriceAttestation

end PythCrosschain.MovePackages
