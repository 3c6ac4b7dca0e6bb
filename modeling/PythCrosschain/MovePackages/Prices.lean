import PythCrosschain.Lib.Outcomes
import PythCrosschain.Sui.Governance

/-!
# Move packages: prices

The modules that the Sui package took over from the Aptos package: `i64`, `deserialize`,
`price_status`, `price`, `price_feed` and `price_info`. The two differ in the codes with which
their assertions abort (`Errors`). The cursors of the two Wormhole packages read alike.

A number with a sign is a magnitude, at most `2 ^ 63`, and zero has one representation, so the
values are those of 64 bits in two's complement (`I64.bits`, `I64.toInt`).
-/

namespace PythCrosschain.MovePackages

open Move
open Sui (Cursor)
open PythnetSdk (HashArray)

/-- The codes with which the assertions of these modules abort. -/
structure Errors where
  magnitudeTooLarge : ℕ
  invalidPriceStatus : ℕ
  invalidAttestationMagicValue : ℕ
  invalidBatchAttestationHeaderSize : ℕ

/-! ## `i64` -/

def MAX_POSITIVE_MAGNITUDE : U64 := (1 <<< 63) - 1
def MAX_NEGATIVE_MAGNITUDE : U64 := 1 <<< 63

def maxMagnitude (negative : Bool) : U64 :=
  if negative then MAX_NEGATIVE_MAGNITUDE else MAX_POSITIVE_MAGNITUDE

structure I64 where
  negative : Bool
  magnitude : U64
  bounded : magnitude ≤ maxMagnitude negative
  positiveZero : magnitude = 0 → negative = false
deriving DecidableEq

namespace I64

def new (errors : Errors) (magnitude : U64) (negative : Bool) : Result I64 :=
  if h : magnitude ≤ maxMagnitude negative then
    -- there is no negative zero
    if hzero : magnitude = 0 then .ok ⟨false, 0, by decide, fun _ => rfl⟩
    else .ok ⟨negative, magnitude, h, fun h' => absurd h' hzero⟩
  else .error (.code errors.magnitudeTooLarge)

/-- The magnitude of a negative number is inverted, plus 1. -/
def parseMagnitude (value : U64) (negative : Bool) : Result U64 :=
  if negative then Move.ofNat ((value ^^^ 0xFFFFFFFFFFFFFFFF).toNat + 1) else .ok value

def fromU64 (errors : Errors) (value : U64) : Result I64 := do
  let negative := decide (value >>> 63 = 1)
  let magnitude ← parseMagnitude value negative
  new errors magnitude negative

/-- The number. -/
def toInt (i : I64) : ℤ := if i.negative then -(i.magnitude.toNat : ℤ) else i.magnitude.toNat

/-- The number in two's complement. -/
def bits (i : I64) : U64 := if i.negative then -i.magnitude else i.magnitude

theorem maxMagnitude_toNat (negative : Bool) :
    (maxMagnitude negative).toNat = if negative then 2 ^ 63 else 2 ^ 63 - 1 := by
  cases negative <;> decide

theorem toInt_bits (i : I64) : i.bits.toInt = i.toInt := by
  obtain ⟨negative, magnitude, hbounded, hzero⟩ := i
  rw [BitVec.le_def, maxMagnitude_toNat] at hbounded
  unfold bits toInt
  cases negative with
  | false =>
    have hlt : magnitude.toNat < 2 ^ 63 := by
      simp only [Bool.false_eq_true, if_false] at hbounded
      omega
    simp only [Bool.false_eq_true, if_false]
    exact BitVec.toInt_eq_toNat_of_lt (by omega)
  | true =>
    have hpos : magnitude.toNat ≠ 0 := fun h => nomatch hzero (BitVec.eq_of_toNat_eq h)
    simp only [if_true] at hbounded ⊢
    rw [BitVec.toInt_eq_toNat_cond, BitVec.toNat_neg]
    split <;> omega

theorem bits_injective : Function.Injective bits := by
  intro i j h
  have hint : i.toInt = j.toInt := by
    rw [← toInt_bits, ← toInt_bits, h]
  obtain ⟨negative, magnitude, hbounded, hzero⟩ := i
  obtain ⟨negative', magnitude', hbounded', hzero'⟩ := j
  have hpos : negative = true → magnitude.toNat ≠ 0 := fun hneg h0 =>
    nomatch hneg.symm.trans (hzero (BitVec.eq_of_toNat_eq h0))
  have hpos' : negative' = true → magnitude'.toNat ≠ 0 := fun hneg h0 =>
    nomatch hneg.symm.trans (hzero' (BitVec.eq_of_toNat_eq h0))
  have heq : negative = negative' ∧ magnitude.toNat = magnitude'.toNat := by
    cases negative <;> cases negative' <;> simp [toInt] at hint hpos hpos' ⊢ <;> omega
  obtain ⟨rfl, hmagnitude⟩ := heq
  obtain rfl := BitVec.eq_of_toNat_eq hmagnitude
  rfl

theorem new_bits {errors : Errors} {magnitude : U64} {negative : Bool}
    (h : magnitude ≤ maxMagnitude negative) :
    ∃ i, new errors magnitude negative = .ok i ∧
      i.bits = if negative then -magnitude else magnitude := by
  unfold new
  rw [dif_pos h]
  by_cases hzero : magnitude = 0
  · rw [dif_pos hzero, hzero]
    refine ⟨_, rfl, ?_⟩
    cases negative <;> rfl
  · rw [dif_neg hzero]
    exact ⟨_, rfl, rfl⟩

theorem highBit_iff (value : U64) : value >>> 63 = 1 ↔ 2 ^ 63 ≤ value.toNat := by
  have hlt := value.isLt
  rw [← BitVec.toNat_inj, BitVec.toNat_ushiftRight, Nat.shiftRight_eq_div_pow]
  show value.toNat / 2 ^ 63 = 1 ↔ _
  omega

theorem toNat_neg_of_high {value : U64} (h : 2 ^ 63 ≤ value.toNat) :
    (-value).toNat = 2 ^ 64 - value.toNat := by
  rw [BitVec.toNat_neg]
  omega

theorem parseMagnitude_true {value : U64} (h : 2 ^ 63 ≤ value.toNat) :
    parseMagnitude value true = .ok (-value) := by
  have hlt := value.isLt
  have hinverted : (value ^^^ 0xFFFFFFFFFFFFFFFF) = ~~~value := by
    rw [← BitVec.xor_allOnes]
    rfl
  have hsucc : (value ^^^ 0xFFFFFFFFFFFFFFFF).toNat + 1 = (-value).toNat := by
    rw [hinverted, BitVec.toNat_not, toNat_neg_of_high h]
    omega
  rw [parseMagnitude, if_pos rfl, Move.ofNat, hsucc, if_pos (-value).isLt, BitVec.ofNat_toNat,
    BitVec.setWidth_eq]

/-- Every word is read. -/
theorem fromU64_bits (errors : Errors) (value : U64) :
    ∃ i, fromU64 errors value = .ok i ∧ i.bits = value := by
  have hhigh := highBit_iff value
  show ∃ i, (parseMagnitude value (decide (value >>> 63 = 1)) >>= fun magnitude =>
    new errors magnitude (decide (value >>> 63 = 1))) = .ok i ∧ i.bits = value
  by_cases hneg : value >>> 63 = 1
  · have hge := hhigh.mp hneg
    have hle : -value ≤ maxMagnitude true := by
      rw [BitVec.le_def, maxMagnitude_toNat, toNat_neg_of_high hge, if_pos rfl]
      omega
    obtain ⟨i, hi, hbits⟩ := @new_bits errors _ _ hle
    rw [if_pos rfl, BitVec.neg_neg] at hbits
    rw [decide_eq_true hneg, parseMagnitude_true hge]
    exact ⟨i, hi, hbits⟩
  · have hsmall : value.toNat < 2 ^ 63 := Nat.not_le.mp (mt hhigh.mpr hneg)
    have hle : value ≤ maxMagnitude false := by
      rw [BitVec.le_def, maxMagnitude_toNat, if_neg (by decide)]
      omega
    obtain ⟨i, hi, hbits⟩ := @new_bits errors _ _ hle
    rw [if_neg (by decide)] at hbits
    rw [decide_eq_false hneg, parseMagnitude, if_neg (by decide)]
    exact ⟨i, hi, hbits⟩

end I64

/-! ## `deserialize` -/

def deserializeVector (n : ℕ) : Cursor Bytes := Sui.Cursor.takeVector n

def deserializeU8 : Cursor UInt8 := Sui.Cursor.takeU8

/-- A big-endian word. -/
def deserializeWord (w k : ℕ) : Cursor (BitVec w) := BitVec.ofNat w <$> Sui.Cursor.takeBE k

def deserializeU16 : Cursor (BitVec 16) := deserializeWord 16 2

def deserializeU32 : Cursor (BitVec 32) := deserializeWord 32 4

def deserializeU64 : Cursor U64 := deserializeWord 64 8

def deserializeI32 (errors : Errors) : Cursor I64 := do
  let deserialized ← deserializeU32
  -- a negative value is padded
  if deserialized >>> 31 = 1 then
    let padded ← liftM (Move.ofNat ((0xFFFFFFFF <<< 32) + deserialized.toNat))
    liftM (I64.fromU64 errors padded)
  else liftM (I64.fromU64 errors (deserialized.setWidth 64))

def deserializeI64 (errors : Errors) : Cursor I64 := do
  let value ← deserializeU64
  liftM (I64.fromU64 errors value)

/-! ### What is read -/

section

open Decoder (ReadsAs)

variable {errors : Errors}

theorem reads_vector (n : ℕ) : ReadsAs Eq (deserializeVector n) (Parser.take n) :=
  .of_reads (Decoder.reads_take _ n)

theorem reads_u8 : ReadsAs (fun b v => b.toBitVec = v) deserializeU8 (Parser.uint 8 1) := by
  intro bs
  cases bs with
  | nil => trivial
  | cons b rest =>
    refine ⟨?_, rfl⟩
    show b.toBitVec = BitVec.ofNat 8 (natBE [b])
    simp [natBE]

theorem reads_word (w k : ℕ) : ReadsAs Eq (deserializeWord w k) (Parser.uint w k) := by
  have htake : ReadsAs Eq (natBE <$> Sui.Cursor.takeVector k) (natBE <$> Parser.take k) :=
    .of_reads ((Decoder.reads_take _ k).map natBE)
  have hword : deserializeWord w k
      = natBE <$> Sui.Cursor.takeVector k >>= fun n => pure (BitVec.ofNat w n) := rfl
  have hparser : Parser.uint w k = natBE <$> Parser.take k >>= fun n => pure (BitVec.ofNat w n) :=
    by simp only [Parser.uint, map_eq_pure_bind, bind_assoc, pure_bind]
  rw [hword, hparser]
  exact htake.bind fun n m h => .ret (congrArg _ h)

theorem fromU64_agree {value : U64} {β : Type} {b : β} {φ : I64 → β → Prop}
    (h : ∀ i : I64, i.bits = value → φ i b) :
    Agree φ (I64.fromU64 errors value) (some b) := by
  obtain ⟨i, hi, hbits⟩ := I64.fromU64_bits errors value
  rw [hi]
  exact h i hbits

/-- A step that succeeds with a value against no step of the parser. -/
theorem reads_fromU64 {value : U64} {β : Type} {b : β} {φ : I64 → β → Prop}
    (h : ∀ i : I64, i.bits = value → φ i b) :
    ReadsAs φ (liftM (I64.fromU64 errors value) : Cursor I64) (pure b) := by
  have hlift : ReadsAs φ (liftM (I64.fromU64 errors value) : Cursor I64) (Parser.assert (some b)) :=
    .lift (fromU64_agree h)
  exact hlift

theorem reads_i64 :
    ReadsAs (fun i v => i.bits = v) (deserializeI64 errors) (Parser.uint 64 8) := by
  refine (reads_word 64 8).last fun a b hab => ?_
  subst hab
  exact reads_fromU64 fun i hi => hi

/-- The sign is that of the word. -/
theorem reads_i32 :
    ReadsAs (fun i v => i.bits = v.signExtend 64) (deserializeI32 errors) (Parser.uint 32 4) := by
  refine (reads_word 32 4).last fun a b hab => ?_
  subst hab
  have hlt := a.isLt
  have hhigh : a >>> 31 = 1 ↔ 2 ^ 31 ≤ a.toNat := by
    rw [← BitVec.toNat_inj, BitVec.toNat_ushiftRight, Nat.shiftRight_eq_div_pow]
    show a.toNat / 2 ^ 31 = 1 ↔ _
    omega
  by_cases hneg : a >>> 31 = 1
  · rw [if_pos hneg]
    have hge := hhigh.mp hneg
    have hmsb : a.msb = true := by
      rw [BitVec.msb_eq_decide]
      exact decide_eq_true hge
    have hsum : (0xFFFFFFFF <<< 32) + a.toNat = (a.signExtend 64).toNat := by
      rw [BitVec.toNat_signExtend, hmsb, if_pos rfl, BitVec.toNat_setWidth]
      omega
    rw [Move.ofNat, hsum, if_pos (a.signExtend 64).isLt, BitVec.ofNat_toNat, BitVec.setWidth_eq]
    exact reads_fromU64 fun i hi => hi
  · rw [if_neg hneg]
    have hmsb : a.msb = false := by
      rw [BitVec.msb_eq_decide]
      exact decide_eq_false (mt hhigh.mpr hneg)
    have hsame : a.setWidth 64 = a.signExtend 64 :=
      (BitVec.signExtend_eq_setWidth_of_msb_false hmsb).symm
    rw [hsame]
    exact reads_fromU64 fun i hi => hi

end

/-! ## Prices -/

/-- `price_identifier::from_byte_vec` of the next 32 bytes. -/
def takePriceIdentifier : Cursor (HashArray 32) := Sui.Cursor.takeBytes32

inductive PriceStatus where
  | unknown
  | trading
deriving DecidableEq, Repr

def PriceStatus.fromU64 (errors : Errors) (status : ℕ) : Result PriceStatus :=
  if status = 0 then .ok .unknown
  else if status = 1 then .ok .trading
  else .error (.code errors.invalidPriceStatus)

structure Price where
  price : I64
  conf : U64
  expo : I64
  timestamp : U64
deriving DecidableEq

structure PriceFeed where
  priceIdentifier : HashArray 32
  price : Price
  emaPrice : Price
deriving DecidableEq

structure PriceInfo where
  attestationTime : U64
  arrivalTime : U64
  priceFeed : PriceFeed
deriving DecidableEq

namespace PriceInfo

def identifier (info : PriceInfo) : HashArray 32 := info.priceFeed.priceIdentifier

def timestamp (info : PriceInfo) : U64 := info.priceFeed.price.timestamp

end PriceInfo

end PythCrosschain.MovePackages
