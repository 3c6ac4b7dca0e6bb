import PythCrosschain.PythnetSdk.TwapWindow
import PythCrosschain.SolanaReceiver.State

/-!
# Solana receiver: time-weighted average prices

What `post_twap_update_from_vaas` of `lib.rs` does with the two messages (`twapOf`).
-/

namespace PythCrosschain.SolanaReceiver

open PythnetSdk Solana

abbrev U32 := BitVec 32

structure TwapPrice where
  feedId : FeedId
  startTime : I64
  endTime : I64
  price : I64
  conf : U64
  exponent : I32
  downSlotsRatio : U32
deriving DecidableEq

def validateTwapMessages (startMsg endMsg : TwapMessage) : Result Unit := do
  require (startMsg.feedId = endMsg.feedId) .feedIdMismatch
  require (startMsg.exponent = endMsg.exponent) .exponentMismatch
  require (endMsg.publishSlot > startMsg.publishSlot) .invalidTwapSlots
  require (startMsg.prevPublishTime.toInt < startMsg.publishTime.toInt) .invalidTwapStartMessage
  require (endMsg.prevPublishTime.toInt < endMsg.publishTime.toInt) .invalidTwapEndMessage

/-- `ok_or(ReceiverError::TwapCalculationOverflow)?`. -/
def orOverflow {α : Type} (o : Option α) : Result α :=
  Rust.okOr (.custom .twapCalculationOverflow) o

def calculateTwap (startMsg endMsg : TwapMessage) : Result (I64 × U64 × U32) := do
  let slotDiff ← orOverflow (Rust.checkedSub endMsg.publishSlot startMsg.publishSlot)
  let priceDiff ← orOverflow
    (Rust.checkedSubSigned endMsg.cumulativePrice startMsg.cumulativePrice)
  let confDiff ← orOverflow (Rust.checkedSub endMsg.cumulativeConf startMsg.cumulativeConf)
  let price ← Rust.divSigned priceDiff (slotDiff.setWidth 128)
  let price ← orOverflow (Rust.toSigned 64 price.toInt)
  let conf ← Rust.div confDiff (slotDiff.setWidth 128)
  let conf ← orOverflow (Rust.toUnsigned 64 conf.toNat)
  let totalDownSlots ← orOverflow (Rust.checkedSub endMsg.numDownSlots startMsg.numDownSlots)
  let scaled ← orOverflow (Rust.checkedMul totalDownSlots 1000000)
  let downSlotsRatio ← orOverflow (if slotDiff = 0 then none else some (scaled / slotDiff))
  let downSlotsRatio ← orOverflow (Rust.toUnsigned 32 downSlotsRatio.toNat)
  return (price, conf, downSlotsRatio)

/-- The TWAP that is stored for two messages. -/
def twapOf (startMessage endMessage : Message) : Result TwapPrice :=
  match startMessage, endMessage with
  | .twapMessage startMsg, .twapMessage endMsg => do
    validateTwapMessages startMsg endMsg
    let (price, conf, downSlotsRatio) ← calculateTwap startMsg endMsg
    return { feedId := startMsg.feedId, startTime := startMsg.publishTime,
             endTime := endMsg.publishTime, price, conf, exponent := startMsg.exponent,
             downSlotsRatio }
  | _, _ => .error (.error (.custom .unsupportedMessageType))

/-! ## What the functions return -/

/-- The down slots over the window, out of a million. -/
structure DownSlots (start stop : TwapMessage) (ratio : U32) : Prop where
  le : start.numDownSlots.toNat ≤ stop.numDownSlots.toNat
  fits : (stop.numDownSlots.toNat - start.numDownSlots.toNat) * 1000000 < 2 ^ 64
  ratio : ratio.toNat =
    (stop.numDownSlots.toNat - start.numDownSlots.toNat) * 1000000 / slotDiff start stop

theorem validateTwapMessages_eq_ok {start stop : TwapMessage} {u : Unit} :
    validateTwapMessages start stop = .ok u ↔
      start.feedId = stop.feedId ∧ start.exponent = stop.exponent ∧ IsWindow start stop := by
  simp only [validateTwapMessages, except_bind_eq_ok, require_eq_ok, exists_const]
  constructor
  · rintro ⟨hfeed, hexponent, hslots, hstart, hstop⟩
    exact ⟨hfeed, hexponent, hslots, hstart, hstop⟩
  · rintro ⟨hfeed, hexponent, hslots, hstart, hstop⟩
    exact ⟨hfeed, hexponent, hslots, hstart, hstop⟩

/-- The checked arithmetic computes the ratio. -/
theorem downSlots_iff {start stop : TwapMessage} {slots : U64}
    (hslots : slots.toNat = slotDiff start stop) (hpos : 0 < slots.toNat) {ratio : U32} :
    (∃ down, Rust.checkedSub stop.numDownSlots start.numDownSlots = some down ∧
      ∃ scaled, Rust.checkedMul down 1000000 = some scaled ∧
      ∃ q, (if slots = 0 then none else some (scaled / slots)) = some q ∧
        Rust.toUnsigned 32 q.toNat = some ratio) ↔ DownSlots start stop ratio := by
  have hne : slots ≠ 0 := fun h => absurd (h ▸ hpos) (by decide)
  have hmillion : (1000000 : U64).toNat = 1000000 := by decide
  simp only [if_neg hne, Option.some.injEq, exists_eq_left', Rust.toUnsigned_eq_some,
    BitVec.toNat_udiv, hslots]
  constructor
  · rintro ⟨down, hdown, scaled, hscaled, hratio⟩
    obtain ⟨hle, hdown⟩ := Rust.checkedSub_eq_some.mp hdown
    have hscaled := Rust.checkedMul_eq_some.mp hscaled
    rw [hdown, hmillion] at hscaled
    refine ⟨hle, hscaled ▸ scaled.isLt, ?_⟩
    rw [← hscaled]
    exact_mod_cast hratio
  · rintro ⟨hle, hfits, hratio⟩
    have hdown := BitVec.toNat_sub_of_le (show start.numDownSlots ≤ stop.numDownSlots from hle)
    refine ⟨_, Rust.checkedSub_of_le hle, BitVec.ofNat 64
      ((stop.numDownSlots.toNat - start.numDownSlots.toNat) * 1000000), ?_, ?_⟩
    · rw [Rust.checkedMul_eq_some, BitVec.toNat_ofNat, Nat.mod_eq_of_lt hfits, hdown, hmillion]
    · rw [BitVec.toNat_ofNat, Nat.mod_eq_of_lt hfits]
      exact_mod_cast hratio

theorem calculateTwap_eq_ok {start stop : TwapMessage}
    (hslots : start.publishSlot.toNat < stop.publishSlot.toNat) {price : I64} {conf : U64}
    {ratio : U32} :
    calculateTwap start stop = .ok (price, conf, ratio) ↔
      Averages start stop price conf ∧ DownSlots start stop ratio := by
  have hdiff := Rust.checkedSub_of_le hslots.le
  obtain ⟨-, hnat⟩ := Rust.checkedSub_eq_some.mp hdiff
  have hpos : 0 < (stop.publishSlot - start.publishSlot).toNat := by omega
  rw [← averages_iff hnat hpos, ← downSlots_iff hnat hpos]
  simp only [calculateTwap, orOverflow, except_bind_eq_ok, Rust.okOr_eq_ok,
    Rust.divSigned_eq_ok (show 0 < 128 by decide), Rust.div_eq_ok, Rust.pure_eq_ok, hdiff,
    Option.some.injEq, exists_eq_left', Prod.mk.injEq]
  constructor
  · rintro ⟨priceDiff, hprice, confDiff, hconf, q, hq, price, hprice', c, hc, conf, hconf', down,
      hdown, scaled, hscaled, d, hd, ratio, hratio, rfl, rfl, rfl⟩
    exact ⟨⟨priceDiff, hprice, confDiff, hconf, q, hq, hprice', c, hc, hconf'⟩,
      down, hdown, scaled, hscaled, d, hd, hratio⟩
  · rintro ⟨⟨priceDiff, hprice, confDiff, hconf, q, hq, hprice', c, hc, hconf'⟩,
      down, hdown, scaled, hscaled, d, hd, hratio⟩
    exact ⟨priceDiff, hprice, confDiff, hconf, q, hq, price, hprice', c, hc, conf, hconf', down,
      hdown, scaled, hscaled, d, hd, ratio, hratio, rfl, rfl, rfl⟩

/-- The receiver stores the averages over the window. -/
theorem twapOf_eq_ok {start stop : TwapMessage} {twap : TwapPrice} :
    twapOf (.twapMessage start) (.twapMessage stop) = .ok twap ↔
      start.feedId = stop.feedId ∧ start.exponent = stop.exponent ∧ IsWindow start stop ∧
        Averages start stop twap.price twap.conf ∧ DownSlots start stop twap.downSlotsRatio ∧
        twap.feedId = start.feedId ∧ twap.startTime = start.publishTime ∧
        twap.endTime = stop.publishTime ∧ twap.exponent = start.exponent := by
  simp only [twapOf, except_bind_eq_ok, validateTwapMessages_eq_ok, Rust.pure_eq_ok, exists_const]
  constructor
  · rintro ⟨⟨hfeed, hexponent, hwindow⟩, ⟨price, conf, ratio⟩, hcalc, rfl⟩
    obtain ⟨haverages, hdown⟩ := (calculateTwap_eq_ok hwindow.slots).mp hcalc
    exact ⟨hfeed, hexponent, hwindow, haverages, hdown, rfl, rfl, rfl, rfl⟩
  · obtain ⟨feedId, startTime, endTime, price, conf, exponent, ratio⟩ := twap
    rintro ⟨hfeed, hexponent, hwindow, haverages, hdown, rfl, rfl, rfl, rfl⟩
    exact ⟨⟨hfeed, hexponent, hwindow⟩, (price, conf, ratio),
      (calculateTwap_eq_ok hwindow.slots).mpr ⟨haverages, hdown⟩, rfl⟩

end PythCrosschain.SolanaReceiver
