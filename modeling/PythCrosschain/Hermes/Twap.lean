import Mathlib.Algebra.Order.Floor.Ring
import Mathlib.Data.Rat.Floor
import Mathlib.Tactic.FieldSimp
import Mathlib.Tactic.Linarith
import PythCrosschain.PythnetSdk.TwapWindow

/-!
# Hermes: time-weighted average prices

`calculate_twap` of `aggregate.rs`, and what `get_verified_twaps_with_update_data` does with
each pair of messages (`priceFeedTwap`). The difference of the down slots is not checked:
it panics or wraps around, depending on the build. The quotient of two decimals is a
parameter.
-/

namespace PythCrosschain.Hermes

open PythnetSdk

inductive TwapError where
  | endSlotNotGreater
  | startMessageNotFirst
  | endMessageNotFirst
  | slotDifferenceOverflow
  | priceDifferenceOverflow
  | confidenceDifferenceOverflow
  | priceOverflow
  | confidenceOverflow
deriving DecidableEq, Repr

structure Price where
  price : I64
  conf : U64
  expo : I32
  publishTime : I64
deriving DecidableEq

structure PriceFeedTwap where
  id : FeedId
  twap : Price
  startTimestamp : I64
  endTimestamp : I64
  downSlotsRatio : ℚ
deriving DecidableEq

def calculateTwap (startMessage endMessage : TwapMessage) : Rust.Result TwapError Price := do
  Rust.require (¬endMessage.publishSlot ≤ startMessage.publishSlot) .endSlotNotGreater
  Rust.require (¬startMessage.prevPublishTime.toInt ≥ startMessage.publishTime.toInt)
    .startMessageNotFirst
  Rust.require (¬endMessage.prevPublishTime.toInt ≥ endMessage.publishTime.toInt)
    .endMessageNotFirst
  let slotDiff ← Rust.okOr .slotDifferenceOverflow
    (Rust.checkedSub endMessage.publishSlot startMessage.publishSlot)
  let priceDiff ← Rust.okOr .priceDifferenceOverflow
    (Rust.checkedSubSigned endMessage.cumulativePrice startMessage.cumulativePrice)
  let confDiff ← Rust.okOr .confidenceDifferenceOverflow
    (Rust.checkedSub endMessage.cumulativeConf startMessage.cumulativeConf)
  let price ← Rust.divSigned priceDiff (slotDiff.setWidth 128)
  let price ← Rust.okOr .priceOverflow (Rust.toSigned 64 price.toInt)
  let conf ← Rust.div confDiff (slotDiff.setWidth 128)
  let conf ← Rust.okOr .confidenceOverflow (Rust.toUnsigned 64 conf.toNat)
  return { price, conf, expo := endMessage.exponent, publishTime := endMessage.publishTime }

/-- `Decimal::from(a) / Decimal::from(b)`. -/
abbrev DecimalDiv := U64 → U64 → ℚ

/-- The body of the loop of `get_verified_twaps_with_update_data`. -/
def priceFeedTwap (overflowChecks : Bool) (decimalDiv : DecimalDiv)
    (startTwap endTwap : TwapMessage) : Rust.Result TwapError PriceFeedTwap := do
  let twapPrice ← calculateTwap startTwap endTwap
  let totalSlots ← Rust.sub overflowChecks endTwap.publishSlot startTwap.publishSlot
  let totalDownSlots ← Rust.sub overflowChecks endTwap.numDownSlots startTwap.numDownSlots
  let downSlotsRatio ← Rust.unwrap
    (if totalSlots = 0 then none else some (decimalDiv totalDownSlots totalSlots))
  return { id := startTwap.feedId, twap := twapPrice, startTimestamp := startTwap.publishTime,
           endTimestamp := endTwap.publishTime, downSlotsRatio }

/-! ## What the functions return -/

theorem calculateTwap_eq_ok {start stop : TwapMessage} {twap : Price} :
    calculateTwap start stop = .ok twap ↔
      IsWindow start stop ∧ Averages start stop twap.price twap.conf ∧
        twap.expo = stop.exponent ∧ twap.publishTime = stop.publishTime := by
  simp only [calculateTwap, except_bind_eq_ok, Rust.require_eq_ok, Rust.okOr_eq_ok,
    Rust.divSigned_eq_ok (show 0 < 128 by decide), Rust.div_eq_ok, Rust.pure_eq_ok, exists_const,
    not_le, ge_iff_le, BitVec.not_le]
  constructor
  · rintro ⟨hslots, hstart, hstop, slots, hdiff, priceDiff, hprice, confDiff, hconf, q, hq, price,
      hprice', c, hc, conf, hconf', rfl⟩
    obtain ⟨-, hnat⟩ := Rust.checkedSub_eq_some.mp hdiff
    have hlt : start.publishSlot.toNat < stop.publishSlot.toNat := hslots
    refine ⟨⟨hlt, hstart, hstop⟩, (averages_iff hnat (by omega)).mp ?_, rfl, rfl⟩
    exact ⟨priceDiff, hprice, confDiff, hconf, q, hq, hprice', c, hc, hconf'⟩
  · obtain ⟨price, conf, expo, publishTime⟩ := twap
    rintro ⟨hwindow, haverages, rfl, rfl⟩
    have hlt := hwindow.slots
    have hdiff : Rust.checkedSub stop.publishSlot start.publishSlot =
        some (BitVec.ofNat 64 (slotDiff start stop)) := by
      refine Rust.checkedSub_eq_some.mpr ⟨hlt.le, ?_⟩
      rw [BitVec.toNat_ofNat, Nat.mod_eq_of_lt]
      · rfl
      · exact (Nat.sub_le _ _).trans_lt stop.publishSlot.isLt
    obtain ⟨-, hnat⟩ := Rust.checkedSub_eq_some.mp hdiff
    obtain ⟨priceDiff, hprice, confDiff, hconf, q, hq, hprice', c, hc, hconf'⟩ :=
      (averages_iff hnat (by omega)).mpr haverages
    exact ⟨hlt, hwindow.startFirst, hwindow.stopFirst, _, hdiff, priceDiff, hprice, confDiff,
      hconf, q, hq, price, hprice', c, hc, conf, hconf', rfl⟩

theorem calculateTwap_ne_panic {start stop : TwapMessage} :
    calculateTwap start stop ≠ .error .panic := by
  intro h
  simp only [calculateTwap, Rust.bind_eq_panic, Rust.require_ne_panic, Rust.okOr_ne_panic,
    Rust.require_eq_ok, Rust.okOr_eq_ok, BitVec.not_le, false_or, exists_const] at h
  obtain ⟨hslots, -, -, slots, hdiff, priceDiff, -, confDiff, -, h⟩ := h
  obtain ⟨-, hnat⟩ := Rust.checkedSub_eq_some.mp hdiff
  have hlt : start.publishSlot.toNat < stop.publishSlot.toNat := hslots
  have hpos : 0 < slots.toNat := by omega
  rcases h with h | ⟨q, -, price, -, h | ⟨c, -, conf, -, h⟩⟩
  · exact Rust.divSigned_ne_panic (by rw [toInt_wide]; exact_mod_cast hpos) h
  · exact Rust.div_ne_panic (wide_ne_zero hpos) h
  · exact absurd h nofun

/-! ## The quotient of two decimals -/

/-- What the crate says of a quotient of two whole numbers: it is exact where it has a
mantissa of 96 bits and at most 28 decimals, and has 27 correct digits otherwise. -/
structure DecimalDivision (decimalDiv : DecimalDiv) : Prop where
  exact : ∀ (a b : U64) (m s : Nat), b ≠ 0 → m < 2 ^ 96 → s ≤ 28 →
    a.toNat * 10 ^ s = m * b.toNat → decimalDiv a b = m / 10 ^ s
  near : ∀ a b : U64, b ≠ 0 →
    |decimalDiv a b - a.toNat / b.toNat| ≤ ((a.toNat : ℚ) / b.toNat + 1) / 10 ^ 27

section

variable {decimalDiv : DecimalDiv} {a b : U64}

theorem toNat_pos (hb : b ≠ 0) : 0 < b.toNat := by
  refine Nat.pos_of_ne_zero fun h => hb ?_
  exact BitVec.eq_of_toNat_eq h

/-- The reciprocal of a word is far larger than the error. -/
theorem error_lt (hb : b ≠ 0) : (2 : ℚ) / 10 ^ 21 < 1 / b.toNat := by
  have hpos : (0 : ℚ) < b.toNat := by exact_mod_cast toNat_pos hb
  have hlt : (b.toNat : ℚ) < 2 ^ 64 := by exact_mod_cast b.isLt
  rw [div_lt_div_iff₀ (by norm_num) hpos]
  linarith

/-- A quotient that is larger than one stays so. -/
theorem DecimalDivision.one_lt (h : DecimalDivision decimalDiv) (hb : b ≠ 0)
    (hlt : b.toNat < a.toNat) : 1 < decimalDiv a b := by
  have hpos : (0 : ℚ) < b.toNat := by exact_mod_cast toNat_pos hb
  have hge : 1 + 1 / (b.toNat : ℚ) ≤ a.toNat / b.toNat := by
    have hsum : 1 + 1 / (b.toNat : ℚ) = (b.toNat + 1) / b.toNat := by
      rw [add_div, div_self hpos.ne']
    rw [hsum]
    exact div_le_div_of_nonneg_right (by exact_mod_cast hlt) hpos.le
  have hnear := (abs_le.mp (h.near a b hb)).1
  have herror := error_lt hb
  linarith

/-- A quotient of at most one is in the unit interval, with the six decimals that whole
numbers give. -/
theorem DecimalDivision.floor (h : DecimalDivision decimalDiv) (hb : b ≠ 0)
    (hle : a.toNat ≤ b.toNat) :
    (0 ≤ decimalDiv a b ∧ decimalDiv a b ≤ 1) ∧
      ⌊10 ^ 6 * decimalDiv a b⌋ = (a.toNat * 1000000 / b.toNat : Nat) := by
  have hnat := toNat_pos hb
  have hpos : (0 : ℚ) < b.toNat := by exact_mod_cast hnat
  obtain ⟨k, hk⟩ : ∃ k, k = a.toNat * 1000000 / b.toNat := ⟨_, rfl⟩
  obtain ⟨r, hr⟩ : ∃ r, r = a.toNat * 1000000 % b.toNat := ⟨_, rfl⟩
  have hsplit : a.toNat * 1000000 = k * b.toNat + r := by
    rw [hk, hr, Nat.mul_comm _ b.toNat, Nat.div_add_mod]
  have hrlt : r < b.toNat := hr ▸ Nat.mod_lt _ hnat
  have hkle : k ≤ 1000000 := by
    rw [hk]
    exact Nat.div_le_of_le_mul (Nat.mul_le_mul_right _ hle)
  rw [← hk]
  by_cases hzero : r = 0
  · -- The quotient has six decimals.
    have hexact : decimalDiv a b = k / 10 ^ 6 :=
      h.exact a b k 6 hb (hkle.trans_lt (by norm_num)) (by norm_num)
        (by rw [hzero, Nat.add_zero] at hsplit; exact hsplit)
    have hkq : (k : ℚ) ≤ 1000000 := by exact_mod_cast hkle
    rw [hexact]
    refine ⟨⟨by positivity, ?_⟩, ?_⟩
    · rw [div_le_one (by norm_num)]
      linarith
    · rw [mul_div_cancel₀ _ (by norm_num), Int.floor_natCast]
  · -- The quotient is not within the error of a number with six decimals.
    have hq : (a.toNat : ℚ) / b.toNat * 10 ^ 6 = k + r / b.toNat := by
      have hsplitq : (a.toNat : ℚ) * 1000000 = k * b.toNat + r := by exact_mod_cast hsplit
      field_simp
      linarith
    have hlow : 1 / (b.toNat : ℚ) ≤ r / b.toNat :=
      div_le_div_of_nonneg_right (by exact_mod_cast Nat.pos_of_ne_zero hzero) hpos.le
    have hhigh : (r : ℚ) / b.toNat ≤ 1 - 1 / b.toNat := by
      rw [le_sub_iff_add_le, ← add_div, div_le_one hpos]
      exact_mod_cast hrlt
    have hk0 : (0 : ℚ) ≤ k := Nat.cast_nonneg k
    have hone : (a.toNat : ℚ) / b.toNat ≤ 1 := by
      rw [div_le_one hpos]
      exact_mod_cast hle
    have herror := error_lt hb
    obtain ⟨hnear, hnear'⟩ := abs_le.mp (h.near a b hb)
    have hkone : k + 1 ≤ 1000000 := by
      by_contra hcontra
      have hkeq : k = 1000000 := by omega
      rw [hkeq] at hsplit
      have : a.toNat * 1000000 ≤ b.toNat * 1000000 := Nat.mul_le_mul_right _ hle
      omega
    have hkoneq : (k : ℚ) + 1 ≤ 1000000 := by exact_mod_cast hkone
    refine ⟨⟨by linarith, by linarith⟩, ?_⟩
    rw [Int.floor_eq_iff]
    constructor
    · push_cast
      linarith
    · push_cast
      linarith

end

end PythCrosschain.Hermes
