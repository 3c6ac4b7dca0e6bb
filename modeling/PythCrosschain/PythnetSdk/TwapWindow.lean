import PythCrosschain.Lib.Rust
import PythCrosschain.PythnetSdk.Messages

/-!
# The window between two TWAP messages

What a time-weighted average over the slots between two messages is (`Averages`), and that
the checked arithmetic on words of 64 and 128 bits computes it (`averages_iff`).
-/

namespace PythCrosschain.PythnetSdk

/-- The messages are the ends of a window of slots, and the first ones of their second. -/
structure IsWindow (start stop : TwapMessage) : Prop where
  slots : start.publishSlot.toNat < stop.publishSlot.toNat
  startFirst : start.prevPublishTime.toInt < start.publishTime.toInt
  stopFirst : stop.prevPublishTime.toInt < stop.publishTime.toInt

/-- The number of slots in the window. -/
def slotDiff (start stop : TwapMessage) : Nat := stop.publishSlot.toNat - start.publishSlot.toNat

/-- The averages over the window. The cumulative values differ by what fits in their types. -/
structure Averages (start stop : TwapMessage) (price : I64) (conf : U64) : Prop where
  priceDiff : -2 ^ 127 ≤ stop.cumulativePrice.toInt - start.cumulativePrice.toInt ∧
    stop.cumulativePrice.toInt - start.cumulativePrice.toInt < 2 ^ 127
  price : price.toInt = (stop.cumulativePrice.toInt - start.cumulativePrice.toInt).tdiv
    (slotDiff start stop)
  confDiff : start.cumulativeConf.toNat ≤ stop.cumulativeConf.toNat
  conf : conf.toNat =
    (stop.cumulativeConf.toNat - start.cumulativeConf.toNat) / slotDiff start stop

theorem toNat_wide (slots : U64) : (slots.setWidth 128).toNat = slots.toNat := by
  rw [BitVec.toNat_setWidth]
  exact Nat.mod_eq_of_lt (slots.isLt.trans (by decide))

theorem toInt_wide (slots : U64) : (slots.setWidth 128).toInt = slots.toNat := by
  have hlt := slots.isLt
  rw [BitVec.toInt_eq_toNat_of_lt (by rw [toNat_wide]; omega), toNat_wide]

theorem wide_ne_zero {slots : U64} (h : 0 < slots.toNat) : slots.setWidth 128 ≠ 0 := by
  intro hzero
  have hnat := toNat_wide slots
  rw [hzero] at hnat
  exact absurd hnat h.ne

/-- The checked arithmetic computes the averages. -/
theorem averages_iff {start stop : TwapMessage} {slots : U64}
    (hslots : slots.toNat = slotDiff start stop) (hpos : 0 < slots.toNat) {price : I64}
    {conf : U64} :
    (∃ priceDiff, Rust.checkedSubSigned stop.cumulativePrice start.cumulativePrice =
        some priceDiff ∧
      ∃ confDiff, Rust.checkedSub stop.cumulativeConf start.cumulativeConf = some confDiff ∧
      ∃ q : I128, (slots.setWidth 128 ≠ 0 ∧
          q.toInt = priceDiff.toInt.tdiv (slots.setWidth 128).toInt) ∧
        Rust.toSigned 64 q.toInt = some price ∧
      ∃ c : U128, (slots.setWidth 128 ≠ 0 ∧ confDiff / slots.setWidth 128 = c) ∧
        Rust.toUnsigned 64 c.toNat = some conf) ↔ Averages start stop price conf := by
  constructor
  · rintro ⟨priceDiff, hpriceDiff, confDiff, hconfDiff, q, ⟨-, hq⟩, hprice, c, ⟨-, rfl⟩, hconf⟩
    rw [Rust.checkedSubSigned_eq_some (by decide)] at hpriceDiff
    obtain ⟨hle, hconfDiff⟩ := Rust.checkedSub_eq_some.mp hconfDiff
    rw [Rust.toSigned_eq_some (by decide)] at hprice
    rw [Rust.toUnsigned_eq_some] at hconf
    refine ⟨?_, ?_, hle, ?_⟩
    · rw [← hpriceDiff]
      exact ⟨priceDiff.le_toInt, priceDiff.toInt_lt⟩
    · rw [hprice, hq, toInt_wide, hpriceDiff, hslots]
    · have hnat : conf.toNat = (confDiff / slots.setWidth 128).toNat := by exact_mod_cast hconf
      rw [hnat, BitVec.toNat_udiv, toNat_wide, hconfDiff, hslots]
  · rintro ⟨hpriceDiff, hprice, hle, hconf⟩
    have hne := wide_ne_zero hpos
    obtain ⟨priceDiff, hdiff⟩ : ∃ priceDiff, Rust.checkedSubSigned stop.cumulativePrice
        start.cumulativePrice = some priceDiff := ⟨_, if_pos hpriceDiff⟩
    have hpriceDiff := (Rust.checkedSubSigned_eq_some (by decide)).mp hdiff
    obtain ⟨confDiff, hcdiff⟩ : ∃ confDiff, Rust.checkedSub stop.cumulativeConf
        start.cumulativeConf = some confDiff :=
      ⟨BitVec.ofNat 128 (stop.cumulativeConf.toNat - start.cumulativeConf.toNat),
        Rust.checkedSub_eq_some.mpr ⟨hle, by
          rw [BitVec.toNat_ofNat, Nat.mod_eq_of_lt]
          exact (Nat.sub_le _ _).trans_lt stop.cumulativeConf.isLt⟩⟩
    have hconfDiff := (Rust.checkedSub_eq_some.mp hcdiff).2
    refine ⟨priceDiff, hdiff, confDiff, hcdiff, price.signExtend 128, ⟨hne, ?_⟩, ?_,
      confDiff / slots.setWidth 128, ⟨hne, rfl⟩, ?_⟩
    · rw [BitVec.toInt_signExtend_of_le (by decide), hprice, toInt_wide, hpriceDiff, hslots]
    · rw [BitVec.toInt_signExtend_of_le (by decide), Rust.toSigned_eq_some (by decide)]
    · rw [Rust.toUnsigned_eq_some, BitVec.toNat_udiv, toNat_wide, hconfDiff, hslots, hconf]

end PythCrosschain.PythnetSdk
