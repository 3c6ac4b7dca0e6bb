import PythCrosschain.Hermes.Twap
import PythCrosschain.SolanaReceiver.Twap

/-!
# TWAPs of Hermes and of the Solana receiver

Both compute the same averages from two messages. But Hermes compares neither the exponents
nor the down slots of the messages, and its difference of the down slots is unchecked. So it
serves TWAPs that the receiver rejects (`twap_rejected`).

They agree on a pair of messages exactly when the pair is `Comparable`, or Hermes serves no
TWAP for it: `twap_agreement`.
-/

namespace PythCrosschain.SolanaReceiver

open PythnetSdk

/-- The receiver stores what Hermes serves. Its ratio is that of Hermes, out of a million. -/
structure SameTwap (hermes : Hermes.PriceFeedTwap) (receiver : TwapPrice) : Prop where
  feedId : receiver.feedId = hermes.id
  price : receiver.price = hermes.twap.price
  conf : receiver.conf = hermes.twap.conf
  exponent : receiver.exponent = hermes.twap.expo
  startTime : receiver.startTime = hermes.startTimestamp
  endTime : receiver.endTime = hermes.endTimestamp
  ratio_mem : 0 ≤ hermes.downSlotsRatio ∧ hermes.downSlotsRatio ≤ 1
  ratio : (receiver.downSlotsRatio.toNat : ℤ) = ⌊10 ^ 6 * hermes.downSlotsRatio⌋

/-- On a pair of messages Hermes does not panic, its difference of the down slots does not
wrap around, and the receiver stores the TWAP that Hermes serves. -/
structure TwapsAgree (overflowChecks : Bool) (decimalDiv : Hermes.DecimalDiv)
    (start stop : TwapMessage) : Prop where
  no_panic : Hermes.priceFeedTwap overflowChecks decimalDiv start stop ≠ .error .panic
  no_wrap : ∀ twap, Hermes.priceFeedTwap overflowChecks decimalDiv start stop = .ok twap →
    start.numDownSlots.toNat ≤ stop.numDownSlots.toNat
  accepted : ∀ twap, Hermes.priceFeedTwap overflowChecks decimalDiv start stop = .ok twap →
    ∃ receiver, twapOf (.twapMessage start) (.twapMessage stop) = .ok receiver ∧
      SameTwap twap receiver

/-- There are averages over the window of the messages. -/
def HasAverages (start stop : TwapMessage) : Prop :=
  IsWindow start stop ∧ ∃ price conf, Averages start stop price conf

/-- What the receiver asks of the exponents and of the down slots. -/
structure Comparable (start stop : TwapMessage) : Prop where
  exponent : start.exponent = stop.exponent
  le : start.numDownSlots.toNat ≤ stop.numDownSlots.toNat
  le_slots : stop.numDownSlots.toNat - start.numDownSlots.toNat ≤ slotDiff start stop
  fits : (stop.numDownSlots.toNat - start.numDownSlots.toNat) * 1000000 < 2 ^ 64

section

variable {overflowChecks : Bool} {decimalDiv : Hermes.DecimalDiv} {start stop : TwapMessage}

/-- Hermes serves nothing where there are no averages, and does not panic either. -/
theorem priceFeedTwap_error (overflowChecks : Bool) (decimalDiv : Hermes.DecimalDiv)
    (h : ¬HasAverages start stop) :
    ∃ e, Hermes.priceFeedTwap overflowChecks decimalDiv start stop = .error (.error e) := by
  cases hcalc : Hermes.calculateTwap start stop with
  | ok twap =>
    obtain ⟨hwindow, haverages, -, -⟩ := Hermes.calculateTwap_eq_ok.mp hcalc
    exact absurd ⟨hwindow, twap.price, twap.conf, haverages⟩ h
  | error e =>
    cases e with
    | panic => exact absurd hcalc Hermes.calculateTwap_ne_panic
    | error e =>
      refine ⟨e, ?_⟩
      rw [Hermes.priceFeedTwap, hcalc]
      rfl

theorem slots_ne_zero (hwindow : IsWindow start stop) :
    stop.publishSlot - start.publishSlot ≠ 0 := by
  intro h
  have hnat := BitVec.toNat_sub_of_le (show start.publishSlot ≤ stop.publishSlot from
    hwindow.slots.le)
  have hzero : (0 : U64).toNat = 0 := rfl
  have hlt := hwindow.slots
  rw [h] at hnat
  omega

/-- What Hermes serves depends on the unchecked difference. -/
theorem priceFeedTwap_eq (overflowChecks : Bool) (decimalDiv : Hermes.DecimalDiv) {price : I64}
    {conf : U64} (hwindow : IsWindow start stop) (haverages : Averages start stop price conf) :
    Hermes.priceFeedTwap overflowChecks decimalDiv start stop =
      (Rust.sub overflowChecks stop.numDownSlots start.numDownSlots).map fun down =>
        { id := start.feedId
          twap := { price, conf, expo := stop.exponent, publishTime := stop.publishTime }
          startTimestamp := start.publishTime
          endTimestamp := stop.publishTime
          downSlotsRatio := decimalDiv down (stop.publishSlot - start.publishSlot) } := by
  have hcalc : Hermes.calculateTwap start stop =
      .ok { price, conf, expo := stop.exponent, publishTime := stop.publishTime } :=
    Hermes.calculateTwap_eq_ok.mpr ⟨hwindow, haverages, rfl, rfl⟩
  rw [Hermes.priceFeedTwap, hcalc]
  show (Rust.sub overflowChecks stop.publishSlot start.publishSlot >>= _) = _
  rw [Rust.sub_of_le overflowChecks hwindow.slots.le]
  show (Rust.sub overflowChecks stop.numDownSlots start.numDownSlots >>= fun down =>
    Rust.unwrap (if stop.publishSlot - start.publishSlot = 0 then none else
      some (decimalDiv down (stop.publishSlot - start.publishSlot))) >>= _) = _
  simp only [if_neg (slots_ne_zero hwindow)]
  cases Rust.sub overflowChecks stop.numDownSlots start.numDownSlots with
  | ok down => rfl
  | error e => rfl

/-- Where the down slots decrease, Hermes panics or wraps around. -/
theorem not_agree_of_lt {price : I64} {conf : U64} (hwindow : IsWindow start stop)
    (haverages : Averages start stop price conf)
    (hlt : stop.numDownSlots.toNat < start.numDownSlots.toNat) :
    ¬TwapsAgree overflowChecks decimalDiv start stop := by
  rintro ⟨hpanic, hwrap, -⟩
  rw [priceFeedTwap_eq _ _ hwindow haverages] at hpanic
  cases overflowChecks with
  | true =>
    rw [Rust.sub_panics hlt] at hpanic
    exact hpanic rfl
  | false =>
    exact absurd (hwrap _ (priceFeedTwap_eq _ _ hwindow haverages)) (Nat.not_le.mpr hlt)

/-- Where they do not, the receiver is what has to agree. -/
theorem agree_iff_of_le {price : I64} {conf : U64} (hwindow : IsWindow start stop)
    (haverages : Averages start stop price conf)
    (hle : start.numDownSlots.toNat ≤ stop.numDownSlots.toNat) :
    TwapsAgree overflowChecks decimalDiv start stop ↔
      ∃ receiver, twapOf (.twapMessage start) (.twapMessage stop) = .ok receiver ∧
        SameTwap
          { id := start.feedId
            twap := { price, conf, expo := stop.exponent, publishTime := stop.publishTime }
            startTimestamp := start.publishTime
            endTimestamp := stop.publishTime
            downSlotsRatio := decimalDiv (stop.numDownSlots - start.numDownSlots)
              (stop.publishSlot - start.publishSlot) } receiver := by
  have hserved := priceFeedTwap_eq overflowChecks decimalDiv hwindow haverages
  rw [Rust.sub_of_le overflowChecks hle] at hserved
  constructor
  · exact fun h => h.accepted _ hserved
  · intro h
    refine ⟨?_, fun _ _ => hle, fun twap htwap => ?_⟩
    · rw [hserved]
      exact nofun
    · rw [hserved] at htwap
      cases htwap
      exact h

/-- What the receiver accepts is comparable. -/
theorem comparable_of_agree (hdiv : Hermes.DecimalDivision decimalDiv) {price : I64} {conf : U64}
    (hwindow : IsWindow start stop) (haverages : Averages start stop price conf)
    (hle : start.numDownSlots.toNat ≤ stop.numDownSlots.toNat)
    (h : TwapsAgree overflowChecks decimalDiv start stop) : Comparable start stop := by
  obtain ⟨receiver, hreceiver, hsame⟩ := (agree_iff_of_le hwindow haverages hle).mp h
  obtain ⟨-, hexponent, -, -, hratio, -, -, -, -⟩ := twapOf_eq_ok.mp hreceiver
  refine ⟨hexponent, hle, ?_, hratio.fits⟩
  by_contra hlt
  have hslots := BitVec.toNat_sub_of_le (show start.publishSlot ≤ stop.publishSlot from
    hwindow.slots.le)
  have hdown := BitVec.toNat_sub_of_le (show start.numDownSlots ≤ stop.numDownSlots from hle)
  have hlarge : (stop.publishSlot - start.publishSlot).toNat <
      (stop.numDownSlots - start.numDownSlots).toNat := by
    rw [hslots, hdown]
    exact Nat.lt_of_not_le hlt
  exact absurd hsame.ratio_mem.2 (not_le.mpr (hdiv.one_lt (slots_ne_zero hwindow) hlarge))

/-- A comparable pair has the same TWAP in the receiver. -/
theorem agree_of_comparable (overflowChecks : Bool) (hdiv : Hermes.DecimalDivision decimalDiv)
    {price : I64} {conf : U64} (hwindow : IsWindow start stop)
    (haverages : Averages start stop price conf) (hfeed : start.feedId = stop.feedId)
    (h : Comparable start stop) : TwapsAgree overflowChecks decimalDiv start stop := by
  obtain ⟨hexponent, hle, hslotsle, hfits⟩ := h
  have hslots := BitVec.toNat_sub_of_le (show start.publishSlot ≤ stop.publishSlot from
    hwindow.slots.le)
  have hdown := BitVec.toNat_sub_of_le (show start.numDownSlots ≤ stop.numDownSlots from hle)
  have hunit : (stop.numDownSlots - start.numDownSlots).toNat ≤
      (stop.publishSlot - start.publishSlot).toNat := by
    rw [hslots, hdown]
    exact hslotsle
  obtain ⟨hmem, hfloor⟩ := hdiv.floor (slots_ne_zero hwindow) hunit
  rw [hslots, hdown] at hfloor
  have hsmall : (stop.numDownSlots.toNat - start.numDownSlots.toNat) * 1000000 /
      slotDiff start stop ≤ 1000000 := Nat.div_le_of_le_mul (Nat.mul_le_mul_right _ hslotsle)
  have hratio : DownSlots start stop (BitVec.ofNat 32
      ((stop.numDownSlots.toNat - start.numDownSlots.toNat) * 1000000 / slotDiff start stop)) := by
    refine ⟨hle, hfits, ?_⟩
    rw [BitVec.toNat_ofNat, Nat.mod_eq_of_lt (by omega)]
  refine (agree_iff_of_le hwindow haverages hle).mpr
    ⟨⟨start.feedId, start.publishTime, stop.publishTime, price, conf, start.exponent, _⟩,
      twapOf_eq_ok.mpr ⟨hfeed, hexponent, hwindow, haverages, hratio, rfl, rfl, rfl, rfl⟩,
      rfl, rfl, rfl, hexponent, rfl, rfl, hmem, ?_⟩
  rw [hfloor]
  exact_mod_cast hratio.ratio

/-- **Agreement on TWAPs.** For messages of one feed, and in a build with overflow checks as
in one without. -/
theorem twap_agreement (overflowChecks : Bool) (decimalDiv : Hermes.DecimalDiv)
    (hdiv : Hermes.DecimalDivision decimalDiv) (start stop : TwapMessage)
    (hfeed : start.feedId = stop.feedId) :
    TwapsAgree overflowChecks decimalDiv start stop ↔
      (HasAverages start stop → Comparable start stop) := by
  by_cases hhas : HasAverages start stop
  · rw [imp_iff_right hhas]
    obtain ⟨hwindow, price, conf, haverages⟩ := hhas
    by_cases hle : start.numDownSlots.toNat ≤ stop.numDownSlots.toNat
    · exact ⟨comparable_of_agree hdiv hwindow haverages hle,
        agree_of_comparable overflowChecks hdiv hwindow haverages hfeed⟩
    · refine iff_of_false (not_agree_of_lt hwindow haverages (Nat.lt_of_not_le hle)) ?_
      exact fun h => hle h.le
  · obtain ⟨e, he⟩ := priceFeedTwap_error overflowChecks decimalDiv hhas
    refine iff_of_true ⟨?_, ?_, ?_⟩ fun h => absurd h hhas
    · rw [he]
      exact nofun
    · rw [he]
      exact nofun
    · rw [he]
      exact nofun

end

/-! ### Pairs of messages -/

/-- A message at a slot, with a cumulative price of ten a slot. -/
def exTwapMessage (slot numDownSlots : Nat) (exponent : Int) : TwapMessage where
  feedId := PUBLISHER_STAKE_CAPS_MESSAGE_FEED_ID
  cumulativePrice := BitVec.ofNat 128 (10 * slot)
  cumulativeConf := BitVec.ofNat 128 slot
  numDownSlots := BitVec.ofNat 64 numDownSlots
  exponent := BitVec.ofInt 32 exponent
  publishTime := BitVec.ofNat 64 slot
  prevPublishTime := BitVec.ofNat 64 (slot - 1)
  publishSlot := BitVec.ofNat 64 slot

/-- A division that is exact. -/
def exDecimalDiv : Hermes.DecimalDiv := fun a b => a.toNat / b.toNat

theorem exDecimalDiv_division : Hermes.DecimalDivision exDecimalDiv where
  exact a b m s hb _ _ h := by
    have hpos : (0 : ℚ) < b.toNat := by exact_mod_cast Hermes.toNat_pos hb
    have hq : (a.toNat : ℚ) * 10 ^ s = m * b.toNat := by exact_mod_cast h
    rw [exDecimalDiv, div_eq_div_iff hpos.ne' (by positivity)]
    exact hq
  near a b _ := by
    rw [exDecimalDiv, sub_self, abs_zero]
    positivity

theorem twap_agreement_ex :
    TwapsAgree false exDecimalDiv (exTwapMessage 100 5 (-8)) (exTwapMessage 200 30 (-8)) ↔
      (HasAverages (exTwapMessage 100 5 (-8)) (exTwapMessage 200 30 (-8)) →
        Comparable (exTwapMessage 100 5 (-8)) (exTwapMessage 200 30 (-8))) :=
  twap_agreement false exDecimalDiv exDecimalDiv_division _ _ rfl

/-- Hermes serves a TWAP for messages with different exponents, and one for messages whose
down slots decrease, with a ratio that wrapped around. The receiver rejects both. -/
theorem twap_rejected :
    (Hermes.priceFeedTwap false exDecimalDiv (exTwapMessage 100 5 (-8))
        (exTwapMessage 200 30 (-6))).toOption.map (·.twap.price) = some 10 ∧
      twapOf (.twapMessage (exTwapMessage 100 5 (-8))) (.twapMessage (exTwapMessage 200 30 (-6))) =
        .error (.error (.custom .exponentMismatch)) ∧
      ¬TwapsAgree false exDecimalDiv (exTwapMessage 100 5 (-8)) (exTwapMessage 200 30 (-6)) ∧
      (Hermes.priceFeedTwap false exDecimalDiv (exTwapMessage 100 5 (-8))
        (exTwapMessage 200 4 (-8))).toOption.map (·.downSlotsRatio) =
          some ((2 ^ 64 - 1) / 100) ∧
      twapOf (.twapMessage (exTwapMessage 100 5 (-8))) (.twapMessage (exTwapMessage 200 4 (-8))) =
        .error (.error (.custom .twapCalculationOverflow)) := by
  have hserved : (Hermes.priceFeedTwap false exDecimalDiv (exTwapMessage 100 5 (-8))
      (exTwapMessage 200 30 (-6))).toOption.map (·.twap.price) = some 10 := by
    decide +kernel
  have hrejected : twapOf (.twapMessage (exTwapMessage 100 5 (-8)))
      (.twapMessage (exTwapMessage 200 30 (-6))) =
        .error (.error (.custom .exponentMismatch)) := by
    decide +kernel
  refine ⟨hserved, hrejected, fun h => ?_, by decide +kernel, by decide +kernel⟩
  cases hhermes : Hermes.priceFeedTwap false exDecimalDiv (exTwapMessage 100 5 (-8))
      (exTwapMessage 200 30 (-6)) with
  | ok twap =>
    obtain ⟨receiver, hreceiver, -⟩ := h.accepted twap hhermes
    rw [hrejected] at hreceiver
    exact absurd hreceiver nofun
  | error e =>
    rw [hhermes] at hserved
    exact absurd hserved nofun

end PythCrosschain.SolanaReceiver
