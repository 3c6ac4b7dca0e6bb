import PythCrosschain.BatchAttestations.Fuel
import PythCrosschain.BatchAttestations.MovePackages
import PythCrosschain.CosmWasm.Contract
import PythCrosschain.Fuel.Acceptance
import PythCrosschain.Fuel.GuardianSets
import PythCrosschain.Near.PriceFeeds
import PythCrosschain.Sui.Accumulator

/-!
# Batch attestations: the four contracts

A payload comes to Sui, Fuel, CosmWasm and NEAR in VAAs that they have verified (`Delivery`). Each
of them reads it and offers price feeds to its store (`AllOffer`), or rejects it (`AllReject`).
The result is `batch_attestations_agree`:

- which extended batches all of them accept and offer with the last prices of trading;
- which payloads with another header all of them reject;
- all of them reject what is truncated.
-/

namespace PythCrosschain

open PythnetSdk.Legacy (PriceAttestation BatchPriceAttestation ExtendedBatch Headed)

/-! ## What is offered -/

namespace CosmWasm

def PriceStatus.ofSdk : PythnetSdk.Legacy.PriceStatus → PriceStatus
  | .unknown => .unknown
  | .trading => .trading
  | .halted => .halted
  | .auction => .auction

def PriceAttestation.ofSdk (a : PythnetSdk.Legacy.PriceAttestation) : PriceAttestation where
  priceId := a.priceId
  price := a.price
  conf := a.conf
  expo := a.expo
  emaPrice := a.emaPrice
  emaConf := a.emaConf
  status := .ofSdk a.status
  publishTime := a.publishTime
  prevPublishTime := a.prevPublishTime
  prevPrice := a.prevPrice
  prevConf := a.prevConf

/-- `BatchPriceAttestation::deserialize` of the SDK. -/
def deserializeBatch (payload : Bytes) : Option (List PriceAttestation) :=
  (PythnetSdk.Legacy.BatchPriceAttestation.deserialize payload).toOption.map fun batch =>
    batch.priceAttestations.map .ofSdk

def PriceFeed.offer (priceFeed : PriceFeed) : Offer where
  id := priceFeed.id
  price := priceFeed.price.price.toInt
  conf := priceFeed.price.conf.toNat
  expo := priceFeed.price.expo.toInt
  publishTime := priceFeed.price.publishTime.toInt
  emaPrice := priceFeed.emaPrice.price.toInt
  emaConf := priceFeed.emaPrice.conf.toNat

theorem offer_createPriceFeed (a : PythnetSdk.Legacy.PriceAttestation) :
    (createPriceFeedFromPriceAttestation (.ofSdk a)).offer = a.offer := by
  unfold createPriceFeedFromPriceAttestation PriceAttestation.ofSdk PriceFeed.offer
    PythnetSdk.Legacy.PriceAttestation.offer
  cases a.status <;> rfl

end CosmWasm

namespace Near

def PriceFeed.offer (priceFeed : PriceFeed) : Offer where
  id := priceFeed.id
  price := priceFeed.price.price.toInt
  conf := priceFeed.price.conf.toNat
  expo := priceFeed.price.expo.toInt
  publishTime := priceFeed.price.publishTime.toInt
  emaPrice := priceFeed.emaPrice.price.toInt
  emaConf := priceFeed.emaPrice.conf.toNat

/-- The current price is the previous one, unless the status is trading. -/
def IsCurrent (a : PriceAttestation) : Prop :=
  a.status ≠ .trading →
    a.prevPrice = a.price ∧ a.prevConf = a.conf ∧ a.prevPublishTime = a.publishTime

/-- The contract offers the current price. -/
theorem offer_ofAttestation_iff (a : PriceAttestation) :
    (PriceFeed.ofAttestation a).offer = a.offer ↔ IsCurrent a := by
  unfold PriceFeed.ofAttestation PriceFeed.offer PriceAttestation.offer IsCurrent
  by_cases h : a.status = .trading
  · simp only [if_pos h]
    exact iff_of_true trivial fun hne => absurd h hne
  · simp only [if_neg h, Offer.mk.injEq, true_and, and_true]
    constructor
    · rintro ⟨hprice, hconf, htime⟩ -
      exact ⟨(BitVec.eq_of_toInt_eq hprice).symm, (BitVec.eq_of_toNat_eq hconf).symm,
        (BitVec.eq_of_toInt_eq htime).symm⟩
    · intro hcurrent
      obtain ⟨hprice, hconf, htime⟩ := hcurrent h
      exact ⟨congrArg BitVec.toInt hprice.symm, congrArg BitVec.toNat hconf.symm,
        congrArg BitVec.toInt htime.symm⟩

end Near

namespace BatchAttestations

/-! ## Deliveries -/

/-- A payload in VAAs that the contracts have verified, and what they are called with. -/
structure Delivery (payload : Bytes) where
  suiNow : BitVec 64
  fuelHost : Fuel.WormholeHost
  fuelTimestamp : BitVec 64
  fuelStorage : Fuel.PythStorage
  fuelUpdate : Fuel.BatchAttestationUpdate
  fuelVm : Fuel.WormholeVM
  fuelVerified : Fuel.parseAndVerifyPythVm fuelHost fuelStorage.toStorage fuelTimestamp
    fuelStorage.wormholeGuardianSetIndex fuelUpdate.data = .ok fuelVm
  fuelPayload : fuelVm.payload = payload
  cosmWasmEnv : CosmWasm.Env
  cosmWasmStorage : CosmWasm.Storage
  cosmWasmData : Bytes
  cosmWasmVaa : CosmWasm.ParsedVAA
  cosmWasmVerified :
    CosmWasm.AcceptsVaa cosmWasmEnv cosmWasmStorage cosmWasmData cosmWasmVaa
  cosmWasmPayload : cosmWasmVaa.payload = payload
  nearHost : Near.Host
  nearState : Near.PricedPyth
  nearAccount : ℕ
  nearText : List Char
  nearBytes : Bytes
  nearVaa : Near.Vaa
  nearHex : Hex.decode nearText = some nearBytes
  nearParsed : nearHost.fromSlice nearBytes = some nearVaa
  nearPayload : nearVaa.payload = payload
  nearBefore : BitVec 64
  nearAfter : BitVec 64
  nearDeposit : BitVec 128
  nearCovered : nearState.Covered nearHost nearBefore nearAfter nearDeposit

namespace Delivery

variable {payload : Bytes} (d : Delivery payload)

def sui : Move.Result MovePackages.BatchPriceAttestation :=
  MovePackages.BatchPriceAttestation.deserialize Sui.errors payload d.suiNow

def fuel : Fuel.Result (List Bytes32 × Fuel.PythStorage) :=
  d.fuelUpdate.updatePriceFeeds d.fuelHost d.fuelTimestamp d.fuelStorage

def cosmWasm : CosmWasm.StdResult (List CosmWasm.PriceFeed) :=
  CosmWasm.parseBatchAttestation CosmWasm.deserializeBatch d.cosmWasmEnv d.cosmWasmStorage
    d.cosmWasmData

/-- The callback of a promise that succeeded. -/
def near : Near.Result (Near.PricedPyth × List (Near.Transfer ℕ)) :=
  d.nearState.verifyWormholeBatchCallback d.nearHost d.nearAccount d.nearText true d.nearBefore
    d.nearAfter d.nearDeposit

/-- The contracts accept the payload, and these are what they offer their stores. -/
structure AllOffer (offers : List Offer) : Prop where
  sui : ∃ b, d.sui = .ok b ∧ b.priceInfos.map MovePackages.PriceInfo.offer = offers
  fuel : ∃ feeds, Fuel.BatchAttestationUpdate.priceFeeds payload = .ok feeds ∧
    d.fuel = .ok (Fuel.BatchAttestationUpdate.stored d.fuelStorage feeds) ∧
    feeds.map Fuel.PriceFeed.offer = offers
  cosmWasm : ∃ feeds, d.cosmWasm = .ok feeds ∧ feeds.map CosmWasm.PriceFeed.offer = offers
  near : ∃ feeds transfers, Near.batchFeeds payload = .ok feeds ∧
    d.near = .ok (feeds.foldl Near.PricedPyth.updatePriceFeedIfNew d.nearState, transfers) ∧
    feeds.map Near.PriceFeed.offer = offers

structure AllReject : Prop where
  sui : ∃ e, d.sui = .error e
  fuel : ∃ e, d.fuel = .error e
  cosmWasm : ∃ e, d.cosmWasm = .error e
  near : ∃ e, d.near = .error e

/-! ## What each contract accepts -/

theorem sui_isOk_iff :
    (∃ b, d.sui = .ok b) ↔ MovePackages.BatchPriceAttestation.Readable payload :=
  MovePackages.BatchPriceAttestation.deserialize_isOk_iff payload d.suiNow

theorem fuel_eq :
    d.fuel = (Fuel.BatchAttestationUpdate.priceFeeds payload).map
      (Fuel.BatchAttestationUpdate.stored d.fuelStorage) := by
  rw [fuel, Fuel.BatchAttestationUpdate.updatePriceFeeds_eq d.fuelVerified, d.fuelPayload]

theorem cosmWasm_eq_ok {feeds : List CosmWasm.PriceFeed} :
    d.cosmWasm = .ok feeds ↔ ∃ batch, BatchPriceAttestation.deserialize payload = .ok batch ∧
      feeds = batch.priceAttestations.map fun a =>
        CosmWasm.createPriceFeedFromPriceAttestation (.ofSdk a) := by
  obtain ⟨hvaa, state, hstate, hsource⟩ := d.cosmWasmVerified
  have hrun : d.cosmWasm = (CosmWasm.deserializeBatch payload).elim
      (CosmWasm.fail .invalidUpdatePayload)
      fun priceAttestations =>
        .ok (priceAttestations.map CosmWasm.createPriceFeedFromPriceAttestation) := by
    unfold cosmWasm CosmWasm.parseBatchAttestation
    rw [hvaa, except_ok_bind, hstate, except_ok_bind, hsource, except_ok_bind, d.cosmWasmPayload]
    cases CosmWasm.deserializeBatch payload with
    | none => rfl
    | some priceAttestations => rfl
  rw [hrun, CosmWasm.deserializeBatch]
  cases BatchPriceAttestation.deserialize payload with
  | error e =>
    constructor
    · intro h
      cases h
    · rintro ⟨batch, h, -⟩
      cases h
  | ok batch =>
    show Except.ok ((batch.priceAttestations.map _).map _) = _ ↔ _
    rw [List.map_map]
    constructor
    · rintro ⟨⟩
      exact ⟨batch, rfl, rfl⟩
    · rintro ⟨_, ⟨⟩, rfl⟩
      rfl

theorem near_run {feeds : List Near.PriceFeed} (h : Near.batchFeeds payload = .ok feeds) :
    ∃ transfers, d.near
      = .ok (feeds.foldl Near.PricedPyth.updatePriceFeedIfNew d.nearState, transfers) := by
  rw [← d.nearPayload] at h
  exact Near.PricedPyth.verifyWormholeBatchCallback_run d.nearHex d.nearParsed h d.nearCovered

/-- CosmWasm and NEAR reject what the SDK does not read. -/
theorem rejects_of_not_deserialize
    (h : ∀ batch, BatchPriceAttestation.deserialize payload ≠ .ok batch) :
    (∃ e, d.cosmWasm = .error e) ∧ ∃ e, d.near = .error e := by
  constructor
  · refine except_eq_error.mpr fun feeds hfeeds => ?_
    obtain ⟨batch, hbatch, -⟩ := d.cosmWasm_eq_ok.mp hfeeds
    exact h batch hbatch
  · refine except_eq_error.mpr fun result hresult => ?_
    obtain ⟨feeds, hfeeds⟩ := Near.PricedPyth.batchFeeds_of_verifyWormholeBatchCallback d.nearHex
      d.nearParsed hresult
    obtain ⟨batch, hbatch, -⟩ := Near.PricedPyth.batchFeeds_eq_ok.mp hfeeds
    rw [d.nearPayload] at hbatch
    exact h batch hbatch

/-- Fuel accepts what has the right header, is complete, and is small enough. -/
theorem fuel_rejects (h : ¬(Headed payload ∧ countOf payload * recordSize payload < 2 ^ 16 ∧
    Framed payload)) : ∃ e, d.fuel = .error e := by
  refine except_eq_error.mpr fun result hresult => ?_
  rw [fuel_eq] at hresult
  cases hfeeds : Fuel.BatchAttestationUpdate.priceFeeds payload with
  | error e =>
    rw [hfeeds] at hresult
    cases hresult
  | ok feeds => exact h (Fuel.BatchAttestationUpdate.priceFeeds_ok hfeeds)

end Delivery

/-! ## Agreement -/

open MovePackages.BatchPriceAttestation (Known Readable)

theorem cosmWasm_offers (e : ExtendedBatch) (d : Delivery e.payload) :
    ∃ feeds, d.cosmWasm = .ok feeds ∧
      feeds.map CosmWasm.PriceFeed.offer = e.attestations.map fun a => a.1.offer := by
  refine ⟨_, d.cosmWasm_eq_ok.mpr ⟨_, PythnetSdk.Legacy.deserialize_extended e, rfl⟩, ?_⟩
  rw [List.map_map, ExtendedBatch.batch, List.map_map]
  exact List.map_congr_left fun a _ => CosmWasm.offer_createPriceFeed a.1

/-- The feeds of NEAR. -/
theorem batchFeeds_extended (e : ExtendedBatch) :
    Near.batchFeeds e.payload = .ok (e.attestations.map fun a => Near.PriceFeed.ofAttestation a.1) := by
  refine Near.PricedPyth.batchFeeds_eq_ok.mpr ⟨_, PythnetSdk.Legacy.deserialize_extended e, ?_⟩
  rw [ExtendedBatch.batch, List.map_map]
  rfl

theorem offers_near_iff (e : ExtendedBatch) :
    (e.attestations.map fun a => Near.PriceFeed.ofAttestation a.1).map Near.PriceFeed.offer
        = (e.attestations.map fun a => a.1.offer) ↔
      ∀ a ∈ e.attestations, Near.IsCurrent a.1 := by
  rw [List.map_map, List.map_inj_left]
  exact forall₂_congr fun a _ => Near.offer_ofAttestation_iff a.1

/-- Which extended batches are offered alike. -/
theorem allOffer_iff (e : ExtendedBatch) (hrange : ∀ a ∈ e.attestations, a.1.InRange)
    (d : Delivery e.payload) :
    d.AllOffer (e.attestations.map fun a => a.1.offer) ↔
      e.attestations.length * e.attestationSize < 2 ^ 16 ∧
        ∀ a ∈ e.attestations, Known a.1 ∧ Near.IsCurrent a.1 := by
  constructor
  · rintro ⟨⟨b, hsui, -⟩, ⟨feeds, hfuel, -⟩, -, nearFeeds, transfers, hnear, -, hoffers⟩
    have hknown := (MovePackages.BatchPriceAttestation.readable_payload_iff e).mp
      (d.sui_isOk_iff.mp ⟨b, hsui⟩)
    obtain ⟨-, hfits, -⟩ := Fuel.BatchAttestationUpdate.priceFeeds_ok hfuel
    rw [e.countOf_payload, e.recordSize_payload] at hfits
    cases (batchFeeds_extended e).symm.trans hnear
    have hcurrent := (offers_near_iff e).mp hoffers
    exact ⟨hfits, fun a ha => ⟨hknown a ha, hcurrent a ha⟩⟩
  · rintro ⟨hfits, hall⟩
    have hfuel := Fuel.BatchAttestationUpdate.priceFeeds_payload e hrange hfits
    obtain ⟨transfers, hnear⟩ := d.near_run (batchFeeds_extended e)
    constructor
    · exact MovePackages.BatchPriceAttestation.deserialize_payload e
        (fun a ha => ⟨hrange a ha, (hall a ha).1⟩) d.suiNow
    · refine ⟨_, hfuel, ?_, ?_⟩
      · rw [d.fuel_eq, hfuel]
        rfl
      · rw [List.map_map]
        exact List.map_congr_left fun a ha =>
          Fuel.BatchAttestationUpdate.offer_feedOf (hrange a ha)
    · exact cosmWasm_offers e d
    · exact ⟨_, transfers, batchFeeds_extended e, hnear,
        (offers_near_iff e).mpr fun a ha => (hall a ha).2⟩

/-- Which payloads with another header are rejected. -/
theorem allReject_iff {payload : Bytes} (d : Delivery payload) (h : ¬Headed payload) :
    d.AllReject ↔ ¬Readable payload := by
  obtain ⟨hcosmWasm, hnear⟩ := d.rejects_of_not_deserialize fun batch hbatch =>
    h (PythnetSdk.Legacy.deserialize_headed hbatch)
  have hfuel := d.fuel_rejects fun hok => h hok.1
  rw [← d.sui_isOk_iff]
  constructor
  · rintro hreject ⟨b, hb⟩
    obtain ⟨e, he⟩ := hreject.sui
    cases hb.symm.trans he
  · intro hsui
    exact ⟨except_eq_error.mpr fun b hb => hsui ⟨b, hb⟩, hfuel, hcosmWasm, hnear⟩

/-- What is truncated is rejected. -/
theorem allReject_truncated (e : ExtendedBatch) {bytes more : Bytes}
    (h : e.payload = bytes ++ more) (hmore : more ≠ []) (d : Delivery bytes) : d.AllReject := by
  have hframed : ¬Framed bytes := by
    intro hcut
    have hwhole := e.framed
    rw [h] at hwhole
    exact hmore (hwhole.not_cut hcut)
  obtain ⟨err, herr⟩ := PythnetSdk.Legacy.deserialize_truncated e h hmore
  obtain ⟨hcosmWasm, hnear⟩ := d.rejects_of_not_deserialize fun batch hbatch => by
    cases herr.symm.trans hbatch
  refine ⟨except_eq_error.mpr fun b hb => ?_, d.fuel_rejects fun hok => hframed hok.2.2,
    hcosmWasm, hnear⟩
  exact hframed (d.sui_isOk_iff.mp ⟨b, hb⟩).length

/-- **Batch attestations** are offered alike where all contracts read them, and what is not one is
rejected where Sui rejects it. -/
theorem batch_attestations_agree (e : ExtendedBatch) (payload : Bytes) :
    ((∀ a ∈ e.attestations, a.1.InRange) → ∀ d : Delivery e.payload,
      (d.AllOffer (e.attestations.map fun a => a.1.offer) ↔
        e.attestations.length * e.attestationSize < 2 ^ 16 ∧
          ∀ a ∈ e.attestations, Known a.1 ∧ Near.IsCurrent a.1)) ∧
    (∀ d : Delivery payload, ¬Headed payload → (d.AllReject ↔ ¬Readable payload)) ∧
    ∀ more : Bytes, e.payload = payload ++ more → more ≠ [] →
      ∀ d : Delivery payload, d.AllReject :=
  ⟨allOffer_iff e, fun d => allReject_iff d, fun _ h hmore => allReject_truncated e h hmore⟩

/-! ### Batches with two prices -/

open PythnetSdk.Legacy (PriceStatus P2W_MAGIC IsTime)

/-- BTC/USD at 61000, and at 60800 before. -/
def exAttestation (status : PriceStatus) : PriceAttestation where
  productId := PythnetSdk.HashArray.ofNat 32 7
  priceId :=
    PythnetSdk.HashArray.ofNat 32 0xe62df6c8b4a85fe1a67db44dc12de5db330f7ac66b72dc658afedf0f4a415b43
  price := 6100000000000
  conf := 2500000000
  expo := -8
  emaPrice := 6090000000000
  emaConf := 2600000000
  status
  numPublishers := 20
  maxNumPublishers := 30
  attestationTime := 1700000003
  publishTime := 1700000002
  prevPublishTime := 1700000001
  prevPrice := 6080000000000
  prevConf := 2700000000
  lastAttestedPublishTime := 1700000002

/-- ETH/USD at 3100, and at 3080 before. -/
def exEther : PriceAttestation where
  productId := PythnetSdk.HashArray.ofNat 32 8
  priceId :=
    PythnetSdk.HashArray.ofNat 32 0xff61491a931112ddf1bd8147cd1b641375f79f5825126d665480874634fd0ace
  price := 310000000000
  conf := 150000000
  expo := -8
  emaPrice := 309000000000
  emaConf := 160000000
  status := .trading
  numPublishers := 20
  maxNumPublishers := 30
  attestationTime := 1700000003
  publishTime := 1700000002
  prevPublishTime := 1700000001
  prevPrice := 308000000000
  prevConf := 170000000
  lastAttestedPublishTime := 1700000002

/-- One byte more in the header, and two more in each attestation. -/
def exBatch (status : PriceStatus) : ExtendedBatch where
  headerExtra := [7]
  extraSize := 2
  attestations := [(exAttestation status, ⟨[8, 9], rfl⟩), (exEther, ⟨[10, 11], rfl⟩)]
  headerFits := by decide
  sizeFits := by decide
  countFits := by simp

/-- A batch, one without trading of BTC/USD, the first one without its last byte, and with
another magic number. -/
inductive ExUpdate where
  | trading
  | unknown
  | truncated
  | foreign

namespace ExUpdate

def payload : ExUpdate → Bytes
  | trading => (exBatch .trading).payload
  | unknown => (exBatch .unknown).payload
  | truncated => (exBatch .trading).payload.dropLast
  | foreign => [0x50, 0x32, 0x57, 0x59] ++ (exBatch .trading).payload.drop 4

def body (u : ExUpdate) : Bytes :=
  bytesBE 4 1700000004 ++ bytesBE 4 0 ++ bytesBE 2 26 ++ bytesBE 32 Fuel.exPriceEmitter.toNat
    ++ bytesBE 8 5 ++ [1] ++ u.payload

end ExUpdate

/-- The hash of a body, its hash, and the signature of the guardian. -/
structure ExSigned where
  digest : Bytes32
  hash : Bytes32
  r : Bytes32
  s : Bytes32

namespace ExUpdate

def signed : ExUpdate → ExSigned
  | trading => ⟨0x4da7d4935dfa3e5559b5d7ecd021a72de63868c156e4f7ee91945b2faa28a788,
      0xad505b77e0eade06f76816bfd22dd638e7c083fb20463faeb1298048dca15343,
      0x98e4ba0647385df8873846403c356bf6599b7ecc1b621dca8f3b7a22f452cf12,
      0x5690e783f3500dfff2979b3319ae0ba965103bebffbdb26fce316cecf9a71857⟩
  | unknown => ⟨0xfb50e7963c3e79c613cd3370088880cb628d2b8f08045cf63396019fef9b7192,
      0xd7de825b6658024c5ece15f09a0bc4e798f9a57d87c1874f97471dd2593f0522,
      0x4dcf63b157aade21a4a8fe6e0021fc9ac9e731759256191bb715039fc735ed2e,
      0x2d667a806de6c126055e576bdcae76144d397074b3f9efff27d57887f8c313b7⟩
  | truncated => ⟨0xecf982c7ff91fcacf2671dc58a697d05a983f17ea189ac9ceb838ddedae26cca,
      0xc26e44b2ec0cb8ff7ada5a43b5ded3caeccaf4a144d46f13fc2a73484a686781,
      0x4cf3feca477f74c0fbdaf9a0bb7d4963ad3c7e8b0e47b7ef18ec5f24c5994012,
      0x12d4a61f89fc6d6c99cd94b9b6b92e0d184d6df13c3182f469652e6c07aba85f⟩
  | foreign => ⟨0xf51283d292c42d79e73bf5d9a465af821344a02f787bcd65c85a5432d0d1fac6,
      0x25fa2fca85fa98bf2ee98788fdd95166dc34eba1189346b5151d8266358d3d37,
      0xff3591908d106d78ea65e1c1fc067f7308f4cd5af6af83dfe6c9ebb6c565a9e1,
      0x4f23dd119efc3f641cff1b95c7650d6e3b2b2e4ee938bad75495e200c93fafe8⟩

def vaa (u : ExUpdate) : Bytes :=
  [1] ++ bytesBE 4 0 ++ [1] ++ [0] ++ wordBytes u.signed.r ++ wordBytes u.signed.s ++ [0] ++ u.body

def all : List ExUpdate := [trading, unknown, truncated, foreign]

/-- Keccak-256 on the bodies and on their digests. -/
def keccak256 (bytes : Bytes) : Bytes32 :=
  (all.findSome? fun u =>
    if bytes = u.body then some u.signed.digest
    else if bytes = wordBytes u.signed.digest then some u.signed.hash
    else none).getD 0

def ecrecover (hash : Bytes32) (v : BitVec 8) (r s : Bytes32) : Address :=
  if v = 27 ∧ ∃ u ∈ all, (hash, r, s) = (u.signed.hash, u.signed.r, u.signed.s) then Fuel.exGuardian
  else 0

def cosmWasmVaa (u : ExUpdate) : CosmWasm.ParsedVAA :=
  ⟨26, wordBytes Fuel.exPriceEmitter, u.payload⟩

def verifyVaa (bytes : Bytes) : CosmWasm.StdResult CosmWasm.ParsedVAA :=
  match all.find? fun u => u.vaa = bytes with
  | some u => .ok u.cosmWasmVaa
  | none => .error (.genericErr "InvalidVAA")

def nearVaa (u : ExUpdate) : Near.Vaa where
  emitterChain := 26
  emitterAddress := ⟨wordBytes Fuel.exPriceEmitter, by decide⟩
  sequence := 5
  payload := u.payload

end ExUpdate

def exFuelStorage : Fuel.PythStorage where
  toStorage := Fuel.exStorage

def exDelivery (u : ExUpdate) : Delivery u.payload where
  suiNow := 1700000100
  fuelHost := Fuel.hostOf ExUpdate.keccak256 ExUpdate.ecrecover
  fuelTimestamp := 4611686018427387904 + 1700000100
  fuelStorage := exFuelStorage
  fuelUpdate := ⟨u.vaa⟩
  fuelVm := Fuel.wormholeVmOf ExUpdate.keccak256 u.vaa
  fuelVerified := by
    apply except_toOption_eq_some.mp
    cases u <;> decide +kernel
  fuelPayload := by
    cases u <;> decide +kernel
  cosmWasmEnv := { blockTime := 1700000100, verifyVAA := fun _ vaa _ => ExUpdate.verifyVaa vaa }
  cosmWasmStorage := {
    config := some {
      wormholeContract := "wormhole"
      dataSources := {⟨wordBytes Fuel.exPriceEmitter, 26⟩} } }
  cosmWasmData := u.vaa
  cosmWasmVaa := u.cosmWasmVaa
  cosmWasmVerified := by
    refine ⟨?_, _, rfl, if_pos (Finset.mem_singleton_self _)⟩
    show ExUpdate.verifyVaa u.vaa = _
    apply except_toOption_eq_some.mp
    cases u <;> decide +kernel
  cosmWasmPayload := rfl
  nearHost := Near.exHost
  nearState := { toPyth := Near.exContract, prices := fun _ => none }
  nearAccount := 1
  nearText := Hex.encode u.vaa
  nearBytes := u.vaa
  nearVaa := u.nearVaa
  nearHex := Hex.decode_encode u.vaa
  nearParsed := by
    show Near.exFromSlice u.vaa = _
    cases u <;> decide +kernel
  nearPayload := rfl
  nearBefore := 1000
  nearAfter := 1100
  nearDeposit := 2000000000000000000000
  nearCovered := by
    unfold Near.PricedPyth.Covered
    decide

theorem exAttestation_inRange (status : PriceStatus) : (exAttestation status).InRange := by
  constructor
  · exact (by decide : IsTime 1700000003)
  · exact (by decide : IsTime 1700000002)
  · exact (by decide : IsTime 1700000001)
  · exact (by decide : IsTime 1700000002)
  · show (0 : ℤ) ≤ BitVec.toInt 6100000000000#64
    decide
  · show (0 : ℤ) ≤ BitVec.toInt 6080000000000#64
    decide
  · show (0 : ℤ) ≤ BitVec.toInt 6090000000000#64
    decide
  · show -255 ≤ BitVec.toInt (-8 : BitVec 32) ∧ BitVec.toInt (-8 : BitVec 32) ≤ 0
    decide

theorem exEther_inRange : exEther.InRange := by
  constructor <;> decide

theorem exInRange (status : PriceStatus) :
    ∀ a ∈ (exBatch status).attestations, a.1.InRange :=
  List.forall_mem_cons.mpr
    ⟨exAttestation_inRange status, List.forall_mem_singleton.mpr exEther_inRange⟩

/-- Sui does not read the batch with another magic number. -/
theorem exForeign_not_readable : ¬Readable ExUpdate.foreign.payload := by
  intro hreadable
  obtain ⟨b, hb⟩ := (MovePackages.BatchPriceAttestation.deserialize_isOk_iff _ 0).mpr hreadable
  have hrejected : (MovePackages.BatchPriceAttestation.deserialize Sui.errors
      ExUpdate.foreign.payload 0).toBool = false := by
    decide +kernel
  rw [hb] at hrejected
  cases hrejected

/-- The prices are offered to all stores. The batch with another magic number, and the one without
its last byte, are rejected. -/
theorem batch_attestations_example :
    (exDelivery .trading).AllOffer [(exAttestation .trading).offer, exEther.offer] ∧
    (exDelivery .foreign).AllReject ∧ (exDelivery .truncated).AllReject := by
  obtain ⟨hoffer, hreject, -⟩ := batch_attestations_agree (exBatch .trading) ExUpdate.foreign.payload
  obtain ⟨-, -, htruncated⟩ :=
    batch_attestations_agree (exBatch .trading) ExUpdate.truncated.payload
  have hforeign : ¬Headed ExUpdate.foreign.payload := fun h =>
    absurd h.magic (by decide +kernel)
  refine ⟨(hoffer (exInRange _) (exDelivery .trading)).mpr ⟨by decide, ?_⟩,
    (hreject (exDelivery .foreign) hforeign).mpr exForeign_not_readable,
    htruncated [11] (by decide +kernel) (List.cons_ne_nil _ _) (exDelivery .truncated)⟩
  refine List.forall_mem_cons.mpr ⟨?_, List.forall_mem_singleton.mpr ?_⟩
  · exact ⟨.inr rfl, fun h => absurd rfl h⟩
  · exact ⟨.inr rfl, fun h => absurd rfl h⟩

/-- The batch with the major version 4. -/
def exOtherVersion : Bytes := P2W_MAGIC ++ bytesBE 2 4 ++ (exBatch .trading).payload.drop 6

/-- Without trading, NEAR offers the current price. Sui accepts another major version. -/
theorem batch_attestations_fail :
    ¬(exDelivery .unknown).AllOffer [(exAttestation .unknown).offer, exEther.offer] ∧
      ¬Headed exOtherVersion ∧
      ∃ b, MovePackages.BatchPriceAttestation.deserialize Sui.errors exOtherVersion 0 = .ok b := by
  refine ⟨fun h => ?_, fun h => absurd h.majorVersion (by decide +kernel), ?_⟩
  · obtain ⟨-, hall⟩ :=
      (allOffer_iff (exBatch .unknown) (exInRange _) (exDelivery .unknown)).mp h
    obtain ⟨-, hcurrent⟩ := hall _ List.mem_cons_self
    obtain ⟨hprice, -, -⟩ := hcurrent (by decide)
    exact absurd hprice (by decide)
  · have hok : (MovePackages.BatchPriceAttestation.deserialize Sui.errors exOtherVersion 0).toBool
        = true := by
      decide +kernel
    cases hrun : MovePackages.BatchPriceAttestation.deserialize Sui.errors exOtherVersion 0 with
    | error e =>
      rw [hrun] at hok
      cases hok
    | ok b => exact ⟨b, rfl⟩

end BatchAttestations

end PythCrosschain
