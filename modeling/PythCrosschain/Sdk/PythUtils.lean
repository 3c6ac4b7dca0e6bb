import Mathlib.Algebra.Order.Floor.Semifield
import Mathlib.Data.Rat.Floor
import Mathlib.Tactic.FieldSimp
import Mathlib.Tactic.Linarith
import PythCrosschain.Evm.Solidity

/-!
# The Solidity SDK: `PythUtils.sol`

`convertToUint` scales a price up or down by a power of ten, whichever of its own decimals and the
target decimals are more. The power of ten has 256 bits, so it overflows from `10 ** 78` on.

The results are:

- `convertToUint_eq_ok`: what the function returns, and when;
- `convertToUint_converts_iff`: it is the floor of the scaled price exactly where the difference of
  the decimals is in range, or is too large for every price but zero.
-/

namespace PythCrosschain.PythUtils

/-! ## The function -/

/-- `10 ** exponent`, a `uint256`. -/
def powTen (exponent : Uint32) : Exec Empty Uint256 :=
  if 10 ^ exponent.toNat < 2 ^ 256 then .ok (BitVec.ofNat 256 (10 ^ exponent.toNat))
  else .error (.panic 0x11)

def convertToUint (price : Int64Bits) (expo : Int32Bits) (targetDecimals : Uint8) :
    Exec Empty Uint256 :=
  if price.toInt < 0 ∨ expo.toInt > 0 ∨ expo.toInt < -255 then .error .noData
  else
    -- from -255 on the product does not overflow
    let priceDecimals : Uint8 := (-1 * expo).setWidth 8
    if priceDecimals ≤ targetDecimals then do
      let difference ← checkedSub targetDecimals priceDecimals
      let factor ← powTen (difference.setWidth 32)
      checkedMul (price.setWidth 256) factor
    else do
      let difference ← checkedSub priceDecimals targetDecimals
      let divisor ← powTen (difference.setWidth 32)
      return price.setWidth 256 / divisor

/-! ## What it is for -/

/-- The decimals by which a price is scaled. -/
def shift (expo : Int32Bits) (targetDecimals : Uint8) : ℤ := targetDecimals.toNat + expo.toInt

/-- The price with the target decimals, without what they cannot represent. -/
def value (price : Int64Bits) (expo : Int32Bits) (targetDecimals : Uint8) : ℕ :=
  ⌊(price.toInt : ℚ) * 10 ^ shift expo targetDecimals⌋₊

/-- The function returns the value whenever it fits, so it reverts only where it does not; a larger
price has no smaller result; and more decimals are cut off by a division. -/
structure Converts (price : Int64Bits) (expo : Int32Bits) (targetDecimals : Uint8) : Prop where
  exact : value price expo targetDecimals < 2 ^ 256 →
    ∃ r, convertToUint price expo targetDecimals = .ok r ∧
      r.toNat = value price expo targetDecimals
  sound : ∀ r, convertToUint price expo targetDecimals = .ok r →
    r.toNat = value price expo targetDecimals
  monotone : ∀ price' : Int64Bits, price.toInt ≤ price'.toInt → ∀ r',
    convertToUint price' expo targetDecimals = .ok r' →
      ∃ r, convertToUint price expo targetDecimals = .ok r ∧ r.toNat ≤ r'.toNat
  rescale : ∀ targetDecimals' : Uint8, targetDecimals.toNat ≤ targetDecimals'.toNat → ∀ r',
    convertToUint price expo targetDecimals' = .ok r' →
      ∃ r, convertToUint price expo targetDecimals = .ok r ∧
        r.toNat = r'.toNat / 10 ^ (targetDecimals'.toNat - targetDecimals.toNat)

section

variable {price : Int64Bits} {expo : Int32Bits} {targetDecimals : Uint8}

/-! ## What it returns -/

theorem powTen_eq_ok {exponent : Uint32} {r : Uint256} :
    powTen exponent = .ok r ↔ exponent.toNat ≤ 77 ∧ r.toNat = 10 ^ exponent.toNat := by
  have hfits : 10 ^ exponent.toNat < 2 ^ 256 ↔ exponent.toNat ≤ 77 := by
    constructor
    · intro h
      by_contra hlarge
      have hpow : 10 ^ 78 ≤ 10 ^ exponent.toNat :=
        Nat.pow_le_pow_right (by decide) (by omega)
      have hmax : 2 ^ 256 < 10 ^ 78 := by norm_num
      omega
    · intro h
      have hpow : 10 ^ exponent.toNat ≤ 10 ^ 77 := Nat.pow_le_pow_right (by decide) h
      have hmax : 10 ^ 77 < 2 ^ 256 := by norm_num
      omega
  unfold powTen
  split
  · next h =>
    rw [Except.ok.injEq, BitVec.toNat_eq, BitVec.toNat_ofNat, Nat.mod_eq_of_lt h, eq_comm,
      and_iff_right (hfits.mp h)]
  · next h => exact iff_of_false nofun fun hok => h (hfits.mpr hok.1)

/-- The decimals of a price. -/
theorem toNat_priceDecimals (hlow : -255 ≤ expo.toInt) (hhigh : expo.toInt ≤ 0) :
    (((-1 * expo).setWidth 8 : Uint8).toNat : ℤ) = -expo.toInt := by
  have hneg : -1 * expo = -expo := by
    rw [BitVec.neg_mul]
    exact congrArg _ (BitVec.one_mul expo)
  rw [hneg, BitVec.toNat_setWidth, BitVec.toNat_neg]
  have hlt := expo.isLt
  rw [BitVec.toInt_eq_toNat_cond] at hlow hhigh ⊢
  split at hlow
  · next hsmall =>
    rw [if_pos hsmall] at hhigh ⊢
    omega
  · next hlarge =>
    rw [if_neg hlarge] at hhigh ⊢
    omega

/-- A price that is not negative is its own number. -/
theorem toInt_price (hprice : 0 ≤ price.toInt) :
    price.toInt = (price.setWidth 256 : Uint256).toNat := by
  rw [BitVec.toNat_setWidth_of_le (by decide)]
  have hlt := price.isLt
  rw [BitVec.toInt_eq_toNat_cond] at hprice ⊢
  split at hprice
  · next hsmall => rw [if_pos hsmall]
  · omega

/-- Scaling up is a multiplication. -/
theorem value_of_shift_nonneg (hprice : 0 ≤ price.toInt) {k : ℕ}
    (hk : shift expo targetDecimals = k) :
    value price expo targetDecimals = (price.setWidth 256 : Uint256).toNat * 10 ^ k := by
  rw [value, hk, toInt_price hprice, zpow_natCast, Int.cast_natCast]
  have hcast : (((price.setWidth 256 : Uint256).toNat : ℚ) * 10 ^ k)
      = (((price.setWidth 256 : Uint256).toNat * 10 ^ k : ℕ) : ℚ) := by
    push_cast
    rfl
  rw [hcast, Nat.floor_natCast]

/-- Scaling down is a division. -/
theorem value_of_shift_neg (hprice : 0 ≤ price.toInt) {k : ℕ}
    (hk : shift expo targetDecimals = -k) :
    value price expo targetDecimals = (price.setWidth 256 : Uint256).toNat / 10 ^ k := by
  rw [value, hk, toInt_price hprice, zpow_neg, zpow_natCast, Int.cast_natCast, ← div_eq_mul_inv]
  have hcast : ((10 : ℚ) ^ k) = ((10 ^ k : ℕ) : ℚ) := by
    push_cast
    rfl
  rw [hcast, Nat.floor_div_eq_div]

/-- What is done with the power of ten of a difference of decimals. -/
theorem scaled_eq_ok {a b : Uint8} (hle : b ≤ a) {f : Uint256 → Exec Empty Uint256} {r : Uint256} :
    (do
      let difference ← checkedSub a b
      let power ← powTen (difference.setWidth 32)
      f power) = .ok r ↔
      a.toNat - b.toNat ≤ 77 ∧
        ∃ power : Uint256, power.toNat = 10 ^ (a.toNat - b.toNat) ∧ f power = .ok r := by
  have hnat : b.toNat ≤ a.toNat := BitVec.le_def.mp hle
  simp only [bind_eq_ok, checkedSub_eq_ok, powTen_eq_ok]
  constructor
  · rintro ⟨difference, hdifference, power, ⟨hsmall, hpower⟩, hr⟩
    rw [BitVec.toNat_setWidth_of_le (by decide)] at hsmall hpower
    have heq : difference.toNat = a.toNat - b.toNat := by omega
    exact ⟨heq ▸ hsmall, power, heq ▸ hpower, hr⟩
  · rintro ⟨hsmall, power, hpower, hr⟩
    have hdifference : (a - b).toNat = a.toNat - b.toNat := BitVec.toNat_sub_of_le hle
    refine ⟨a - b, by omega, power, ?_, hr⟩
    rw [BitVec.toNat_setWidth_of_le (by decide), hdifference]
    exact ⟨hsmall, hpower⟩

theorem exists_word {n : ℕ} (h : n < 2 ^ 256) : ∃ r : Uint256, r.toNat = n :=
  ⟨BitVec.ofNat 256 n, by rw [BitVec.toNat_ofNat, Nat.mod_eq_of_lt h]⟩

theorem exists_power {k : ℕ} (h : k ≤ 77) : ∃ power : Uint256, power.toNat = 10 ^ k := by
  have hpow : 10 ^ k ≤ 10 ^ 77 := Nat.pow_le_pow_right (by decide) h
  exact exists_word (hpow.trans_lt (by norm_num))

/-- **The result** is the value, as long as the power of ten fits. -/
theorem convertToUint_eq_ok (hprice : 0 ≤ price.toInt) (hlow : -255 ≤ expo.toInt)
    (hhigh : expo.toInt ≤ 0) {r : Uint256} :
    convertToUint price expo targetDecimals = .ok r ↔
      |shift expo targetDecimals| ≤ 77 ∧ r.toNat = value price expo targetDecimals := by
  have hdecimals := toNat_priceDecimals hlow hhigh
  have hguard : ¬(price.toInt < 0 ∨ expo.toInt > 0 ∨ expo.toInt < -255) := by omega
  unfold convertToUint
  rw [if_neg hguard]
  dsimp only
  generalize ((-1 * expo).setWidth 8 : Uint8) = priceDecimals at hdecimals ⊢
  by_cases hup : priceDecimals ≤ targetDecimals
  · have hle : priceDecimals.toNat ≤ targetDecimals.toNat := BitVec.le_def.mp hup
    have hshift : shift expo targetDecimals
        = ((targetDecimals.toNat - priceDecimals.toNat : ℕ) : ℤ) := by
      rw [shift]
      omega
    rw [if_pos hup, scaled_eq_ok hup, hshift, Nat.abs_cast, value_of_shift_nonneg hprice hshift]
    simp only [checkedMul_eq_ok]
    constructor
    · rintro ⟨hsmall, power, hpower, hr⟩
      exact ⟨by omega, by rw [hr, hpower]⟩
    · rintro ⟨hsmall, hr⟩
      have hsmall : targetDecimals.toNat - priceDecimals.toNat ≤ 77 := by omega
      obtain ⟨power, hpower⟩ := exists_power hsmall
      exact ⟨hsmall, power, hpower, by rw [hr, hpower]⟩
  · have hle : targetDecimals ≤ priceDecimals := BitVec.le_of_lt (BitVec.not_le.mp hup)
    have hnat : targetDecimals.toNat ≤ priceDecimals.toNat := BitVec.le_def.mp hle
    have hshift : shift expo targetDecimals
        = -((priceDecimals.toNat - targetDecimals.toNat : ℕ) : ℤ) := by
      rw [shift]
      omega
    rw [if_neg hup, scaled_eq_ok hle, hshift, abs_neg, Nat.abs_cast,
      value_of_shift_neg hprice hshift]
    simp only [pure_eq_ok]
    constructor
    · rintro ⟨hsmall, power, hpower, rfl⟩
      exact ⟨by omega, by rw [BitVec.toNat_udiv, hpower]⟩
    · rintro ⟨hsmall, hr⟩
      have hsmall : priceDecimals.toNat - targetDecimals.toNat ≤ 77 := by omega
      obtain ⟨power, hpower⟩ := exists_power hsmall
      refine ⟨hsmall, power, hpower, BitVec.eq_of_toNat_eq ?_⟩
      rw [BitVec.toNat_udiv, hpower, hr]

/-! ## The value -/

theorem value_mono {price' : Int64Bits} (hle : price.toInt ≤ price'.toInt) :
    value price expo targetDecimals ≤ value price' expo targetDecimals := by
  have hpow : (0 : ℚ) ≤ 10 ^ shift expo targetDecimals := zpow_nonneg (by norm_num) _
  have hcast : (price.toInt : ℚ) ≤ price'.toInt := by exact_mod_cast hle
  exact Nat.floor_le_floor (mul_le_mul_of_nonneg_right hcast hpow)

/-- Fewer decimals cut off digits of the value. -/
theorem value_rescale {targetDecimals' : Uint8}
    (hle : targetDecimals.toNat ≤ targetDecimals'.toNat) :
    value price expo targetDecimals
      = value price expo targetDecimals' / 10 ^ (targetDecimals'.toNat - targetDecimals.toNat) := by
  have hshift : shift expo targetDecimals
      = shift expo targetDecimals' - (targetDecimals'.toNat - targetDecimals.toNat : ℕ) := by
    rw [shift, shift]
    omega
  have hcast : ((10 : ℚ) ^ (targetDecimals'.toNat - targetDecimals.toNat))
      = ((10 ^ (targetDecimals'.toNat - targetDecimals.toNat) : ℕ) : ℚ) := by
    push_cast
    rfl
  rw [value, value, hshift, zpow_sub₀ (by norm_num), zpow_natCast, ← mul_div_assoc, hcast,
    Nat.floor_div_natCast]

/-- A value of at least one with 78 more decimals does not fit. -/
theorem le_value (hprice : 0 < price.toInt) (hshift : 78 ≤ shift expo targetDecimals) :
    2 ^ 256 ≤ value price expo targetDecimals := by
  obtain ⟨k, hk⟩ := Int.eq_ofNat_of_zero_le (le_trans (by norm_num) hshift)
  have hpos : 1 ≤ (price.setWidth 256 : Uint256).toNat := by
    have heq := toInt_price hprice.le
    omega
  have hpow : 10 ^ 78 ≤ 10 ^ k := Nat.pow_le_pow_right (by decide) (by omega)
  rw [value_of_shift_nonneg hprice.le hk]
  calc 2 ^ 256 ≤ 10 ^ 78 := by norm_num
    _ ≤ 10 ^ k := hpow
    _ = 1 * 10 ^ k := (Nat.one_mul _).symm
    _ ≤ _ := Nat.mul_le_mul_right _ hpos

/-- With 78 decimals less nothing is left. -/
theorem value_eq_zero (hprice : 0 ≤ price.toInt) (hshift : shift expo targetDecimals ≤ -78) :
    value price expo targetDecimals = 0 := by
  obtain ⟨k, hk⟩ := Int.eq_ofNat_of_zero_le (show 0 ≤ -shift expo targetDecimals by omega)
  have hpow : 10 ^ 78 ≤ 10 ^ k := Nat.pow_le_pow_right (by decide) (by omega)
  have hsmall : (price.setWidth 256 : Uint256).toNat < 10 ^ 78 := by
    have hlt := price.isLt
    rw [BitVec.toNat_setWidth_of_le (by decide)]
    exact hlt.trans (by norm_num)
  rw [value_of_shift_neg hprice (show shift expo targetDecimals = -k by omega)]
  exact Nat.div_eq_of_lt (hsmall.trans_le hpow)

/-! ## Where it converts -/

/-- **The function converts** a price exactly where the power of ten fits in 256 bits, or where it
does not and the value does not either. -/
theorem convertToUint_converts_iff (hprice : 0 ≤ price.toInt) (hlow : -255 ≤ expo.toInt)
    (hhigh : expo.toInt ≤ 0) :
    Converts price expo targetDecimals ↔
      -77 ≤ shift expo targetDecimals ∧
        (shift expo targetDecimals ≤ 77 ∨ 0 < price.toInt) := by
  constructor
  · intro h
    by_contra hout
    -- The value is zero, and the power of ten does not fit.
    have hzero : value price expo targetDecimals = 0 := by
      by_cases hsmall : -77 ≤ shift expo targetDecimals
      · have hnone : price.toInt = 0 := by omega
        rw [value, hnone, Int.cast_zero, zero_mul, Nat.floor_zero]
      · exact value_eq_zero hprice (by omega)
    obtain ⟨r, hr, -⟩ := h.exact (by rw [hzero]; norm_num)
    have hfits := (abs_le.mp ((convertToUint_eq_ok hprice hlow hhigh).mp hr).1)
    omega
  · rintro ⟨hsmall, hlarge⟩
    constructor
    case exact =>
      intro hvalue
      have hfits : shift expo targetDecimals ≤ 77 := by
        by_contra hcontra
        have hle := @le_value price expo targetDecimals (by omega) (by omega)
        omega
      obtain ⟨r, hr⟩ := exists_word hvalue
      exact ⟨r, (convertToUint_eq_ok hprice hlow hhigh).mpr ⟨abs_le.mpr ⟨hsmall, hfits⟩, hr⟩, hr⟩
    case sound =>
      intro r hr
      exact ((convertToUint_eq_ok hprice hlow hhigh).mp hr).2
    case monotone =>
      intro price' hle r' hr'
      obtain ⟨hfits, hvalue'⟩ := (convertToUint_eq_ok (hprice.trans hle) hlow hhigh).mp hr'
      have hvalue := @value_mono price expo targetDecimals price' hle
      have hlt := r'.isLt
      obtain ⟨r, hr⟩ := exists_word (show value price expo targetDecimals < 2 ^ 256 by omega)
      exact ⟨r, (convertToUint_eq_ok hprice hlow hhigh).mpr ⟨hfits, hr⟩, by omega⟩
    case rescale =>
      intro targetDecimals' hle r' hr'
      obtain ⟨hfits, hvalue'⟩ := (convertToUint_eq_ok hprice hlow hhigh).mp hr'
      have hvalue := @value_rescale price expo targetDecimals targetDecimals' hle
      have hshift : shift expo targetDecimals ≤ shift expo targetDecimals' := by
        rw [shift, shift]
        omega
      have hlt := r'.isLt
      have hdiv := Nat.div_le_self r'.toNat (10 ^ (targetDecimals'.toNat - targetDecimals.toNat))
      rw [← hvalue'] at hvalue
      obtain ⟨r, hr⟩ := exists_word (show value price expo targetDecimals < 2 ^ 256 by omega)
      refine ⟨r, (convertToUint_eq_ok hprice hlow hhigh).mpr ⟨?_, hr⟩, hr.trans hvalue⟩
      exact abs_le.mpr ⟨hsmall, hshift.trans (abs_le.mp hfits).2⟩

end

/-- A price of 6.1 million million with 8 decimals, in 18 decimals. -/
theorem convertToUint_converts_iff_btc :
    Converts 6100000000000 (-8) 18 ↔
      -77 ≤ shift (-8) 18 ∧ (shift (-8) 18 ≤ 77 ∨ 0 < (6100000000000 : Int64Bits).toInt) :=
  convertToUint_converts_iff (by decide) (by decide) (by decide)

/-- With 78 decimals more than are asked for the result should be zero. -/
theorem convertToUint_reverts :
    value 1 (-78) 0 = 0 ∧ convertToUint 1 (-78) 0 = .error (.panic 0x11) ∧
      ¬Converts 1 (-78) 0 := by
  refine ⟨value_eq_zero (by decide) (by decide), by decide +kernel, fun h => ?_⟩
  obtain ⟨r, hr, -⟩ := h.exact (by rw [value_eq_zero (by decide) (by decide)]; norm_num)
  rw [show convertToUint 1 (-78) 0 = .error (.panic 0x11) by decide +kernel] at hr
  cases hr

end PythCrosschain.PythUtils
