import PythCrosschain.CosmWasm.Contract
import PythCrosschain.Pyth.AccumulatorGrammar

/-!
# CosmWasm and EVM take the same accumulator updates

Both contracts accept an update exactly when the SDK reads one whose updates verify with the
payload of the VAA (`Pyth.accumulatorUpdate_run`, `parseAccumulator_eq_ok`), and take the same
messages of it. What is left is the difference of the two stores: an entry of the EVM contract
is there when its publish time is not zero, and publish times are compared without a sign.

The results are:

- `sameStore_update` and `sameStore_applyFeeds`: storing the same feeds keeps the stores equal;
- `accumulator_agreement`: what one contract accepts, the other accepts with the same feeds.
-/

namespace PythCrosschain.CosmWasm

open PythnetSdk
open Pyth (PriceInfo VM World priceIdOf priceInfoOf feedUpdateOf updateLatestPriceIfNecessary)

/-! ## The same entries -/

/-- A price of the EVM contract and a price feed have the same fields, with publish times
compared as numbers. -/
structure SameFields (update : Bytes32 × PriceInfo) (feed : PriceFeed) : Prop where
  id : update.1 = priceIdOf feed.id
  price : feed.price.price = update.2.price
  conf : feed.price.conf = update.2.conf
  expo : feed.price.expo = update.2.expo
  publishTime : feed.price.publishTime.toInt = update.2.publishTime.toNat
  emaPrice : feed.emaPrice.price = update.2.emaPrice
  emaConf : feed.emaPrice.conf = update.2.emaConf
  emaExpo : feed.emaPrice.expo = update.2.expo
  emaPublishTime : feed.emaPrice.publishTime.toInt = update.2.publishTime.toNat

/-- The entry of a feed in both stores: absent from both, or there with the same fields. -/
def SameEntry (id : PriceIdentifier) (info : PriceInfo) : Option PriceFeed → Prop
  | none => info.publishTime = 0
  | some feed => info.publishTime ≠ 0 ∧ SameFields (priceIdOf id, info) feed

def SameStore (latestPriceInfo : Bytes32 → PriceInfo)
    (priceFeedBucket : PriceIdentifier → Option PriceFeed) : Prop :=
  ∀ id, SameEntry id (latestPriceInfo (priceIdOf id)) (priceFeedBucket id)

/-- Both chains accept the VAA, with the same emitter and payload. -/
def SameVaa (parseAndVerifyPythVM : Bytes → Pyth.Result VM) (env : Env) (storage : Storage)
    (vaa : Bytes) : Prop :=
  ∃ vm parsedVaa, parseAndVerifyPythVM vaa = .ok vm ∧ AcceptsVaa env storage vaa parsedVaa ∧
    parsedVaa.emitterChain = vm.emitterChainId ∧
    parsedVaa.emitterAddress = wordBytes vm.emitterAddress ∧ parsedVaa.payload = vm.payload

/-- The messages of an update have the publish times of real prices. -/
def RealTime (update : Bytes32 × PriceInfo) : Prop :=
  1 ≤ update.2.publishTime.toNat ∧ update.2.publishTime.toNat < 2 ^ 63

instance (update : Bytes32 × PriceInfo) : Decidable (RealTime update) :=
  inferInstanceAs (Decidable (1 ≤ update.2.publishTime.toNat ∧ _))

/-! ## Storing the same feeds -/

theorem priceIdOf_injective : Function.Injective priceIdOf := by
  intro a b h
  have hlt (c : FeedId) : natBE c.val < 2 ^ 256 := by
    have hlt := natBE_lt c.val
    rw [c.property] at hlt
    exact hlt
  have hnat := congrArg BitVec.toNat h
  rw [priceIdOf, priceIdOf, BitVec.toNat_ofNat, BitVec.toNat_ofNat, Nat.mod_eq_of_lt (hlt a),
    Nat.mod_eq_of_lt (hlt b)] at hnat
  exact Subtype.ext (natBE_injective_of_length (a.property.trans b.property.symm) hnat)

theorem toInt_of_lt {x : BitVec 64} (h : x.toNat < 2 ^ 63) : x.toInt = x.toNat := by
  rw [BitVec.toInt_eq_toNat_cond, if_pos]
  omega

/-- One message gives the same entry on both chains. -/
theorem sameFields_message {msg : PriceFeedMessage} (h : RealTime (feedUpdateOf msg)) :
    SameFields (feedUpdateOf msg) (priceFeedOf msg) where
  id := rfl
  price := rfl
  conf := rfl
  expo := rfl
  publishTime := toInt_of_lt h.2
  emaPrice := rfl
  emaConf := rfl
  emaExpo := rfl
  emaPublishTime := toInt_of_lt h.2

variable {w : World} {storage : Storage} {update : Bytes32 × PriceInfo} {feed : PriceFeed}

theorem sameEntry_new {id : PriceIdentifier} {info : PriceInfo}
    (hreal : RealTime (priceIdOf id, info)) (hsame : SameFields (priceIdOf id, info) feed) :
    SameEntry id info (some feed) := by
  refine ⟨fun hzero => ?_, hsame⟩
  have hpos := hreal.1
  rw [hzero] at hpos
  exact absurd hpos (by decide)

/-- The price feed is stored: there is none yet, or an older one. -/
def IsNew (storage : Storage) (feed : PriceFeed) : Prop :=
  ∀ old, storage.priceFeedBucket feed.id = some old →
    old.price.publishTime.toInt < feed.price.publishTime.toInt

theorem updatePriceFeedIfNew_new (h : IsNew storage feed) :
    updatePriceFeedIfNew storage feed = ({ storage with
      priceFeedBucket := Function.update storage.priceFeedBucket feed.id (some feed) }, true) := by
  unfold updatePriceFeedIfNew
  cases hold : storage.priceFeedBucket feed.id with
  | none => rfl
  | some old =>
    have hslt : old.price.publishTime.slt feed.price.publishTime = true :=
      BitVec.slt_iff_toInt_lt.mpr (h old hold)
    exact if_pos hslt

theorem updatePriceFeedIfNew_old (h : ¬ IsNew storage feed) :
    updatePriceFeedIfNew storage feed = (storage, false) := by
  unfold updatePriceFeedIfNew
  cases hold : storage.priceFeedBucket feed.id with
  | none => exact absurd (fun old hsome => nomatch hold.symm.trans hsome) h
  | some old =>
    have hslt : ¬ old.price.publishTime.slt feed.price.publishTime = true := fun hslt =>
      h fun old' hold' => by
        cases hold.symm.trans hold'
        exact BitVec.slt_iff_toInt_lt.mp hslt
    have hsame : Function.update storage.priceFeedBucket feed.id (some old)
        = storage.priceFeedBucket := by
      rw [← hold, Function.update_eq_self]
    refine (if_neg hslt).trans ?_
    dsimp only
    rw [hsame]

/-- Both chains find the same message new. -/
theorem isNew_iff {info : PriceInfo} (hreal : RealTime (priceIdOf feed.id, info))
    (hsame : SameFields (priceIdOf feed.id, info) feed)
    (hentry : SameEntry feed.id (w.state.latestPriceInfo (priceIdOf feed.id))
      (storage.priceFeedBucket feed.id)) :
    info.publishTime > (w.state.latestPriceInfo (priceIdOf feed.id)).publishTime ↔
      IsNew storage feed := by
  rw [gt_iff_lt, BitVec.lt_def]
  unfold IsNew
  cases hold : storage.priceFeedBucket feed.id with
  | none =>
    rw [hold] at hentry
    rw [show (w.state.latestPriceInfo (priceIdOf feed.id)).publishTime = 0 from hentry]
    exact iff_of_true hreal.1 nofun
  | some old =>
    rw [hold] at hentry
    have hold_time := hentry.2.publishTime
    have hnew_time := hsame.publishTime
    constructor
    · rintro hlt _ ⟨⟩
      rw [hold_time, hnew_time]
      exact Int.ofNat_lt.mpr hlt
    · intro hlt
      have hlt' := hlt old rfl
      rw [hold_time, hnew_time] at hlt'
      exact Int.ofNat_lt.mp hlt'

/-- A newer price replaces the entry on both chains, an older one on neither. -/
theorem sameStore_update (hreal : RealTime update) (hsame : SameFields update feed)
    (hstore : SameStore w.state.latestPriceInfo storage.priceFeedBucket) :
    SameStore (updateLatestPriceIfNecessary w update.1 update.2).state.latestPriceInfo
      (updatePriceFeedIfNew storage feed).1.priceFeedBucket := by
  obtain ⟨priceId, info⟩ := update
  obtain rfl : priceId = priceIdOf feed.id := hsame.id
  have hnew := isNew_iff hreal hsame (hstore feed.id)
  rw [Pyth.latestPriceInfo_eq]
  by_cases h : IsNew storage feed
  · rw [updatePriceFeedIfNew_new h, if_pos (hnew.mpr h)]
    dsimp only
    intro id
    by_cases hid : id = feed.id
    · subst hid
      rw [Function.update_self, Function.update_self]
      exact sameEntry_new hreal hsame
    · rw [Function.update_of_ne hid, Function.update_of_ne (priceIdOf_injective.ne hid)]
      exact hstore id
  · rw [updatePriceFeedIfNew_old h, if_neg fun hgt => h (hnew.mp hgt)]
    exact hstore

theorem sameStore_applyFeeds {updates : List (Bytes32 × PriceInfo)} {feeds : List PriceFeed}
    (hreal : ∀ update ∈ updates, RealTime update) (hsame : List.Forall₂ SameFields updates feeds)
    (hstore : SameStore w.state.latestPriceInfo storage.priceFeedBucket) :
    SameStore (Pyth.applyUpdates w updates).state.latestPriceInfo
      (applyFeeds storage feeds).1.priceFeedBucket := by
  induction hsame generalizing w storage with
  | nil => exact hstore
  | cons hhead _ ih =>
    have hstep := sameStore_update (hreal _ List.mem_cons_self) hhead hstore
    exact ih (fun update hmem => hreal update (List.mem_cons_of_mem _ hmem)) hstep

/-! ## The agreement -/

section

variable {keccak256 : Bytes → Bytes32} {parseAndVerifyPythVM : Bytes → Pyth.Result VM}
  {deserializeBatch : Bytes → Option (List PriceAttestation)} {env : Env} {data : Bytes}

theorem parseUpdate_eq (hpnau : data.take 4 = PYTHNET_ACCUMULATOR_UPDATE_MAGIC.val)
    (H : Hasher 20) :
    parseUpdate H deserializeBatch env storage data = parseAccumulator H env storage data :=
  if_pos hpnau

theorem applyUpdates_single_eq_ok {H : Hasher 20} {storage' : Storage} {numAttestations : Nat}
    {newFeeds : List PriceFeed} :
    applyUpdates H deserializeBatch env storage [data] = .ok (storage', numAttestations, newFeeds) ↔
      ∃ feeds, parseUpdate H deserializeBatch env storage data = .ok feeds ∧
        (storage', newFeeds) = applyFeeds storage feeds ∧ numAttestations = feeds.length := by
  rw [applyUpdates, except_bind_eq_ok]
  refine exists_congr fun feeds => and_congr_right fun _ => ?_
  constructor
  · intro h
    cases h
    exact ⟨by simp, rfl⟩
  · rintro ⟨happly, rfl⟩
    show Except.ok _ = _
    rw [← happly]
    simp

/-- The EVM contract accepts the bytes of an update that verifies. -/
theorem evm_accepts {m : Machine} {b : CalldataBytes} {updateData : AccumulatorUpdateData}
    {vm : VM} {msgs : List PriceFeedMessage}
    (hdata : Grammar.accumulatorUpdateData (b.bytes m) = some (updateData, []))
    (hvm : parseAndVerifyPythVM updateData.proof.vaa = .ok vm)
    (hverifies : updateData.Verifies (Keccak160 keccak256) vm.payload msgs) :
    Pyth.updatePriceInfosFromAccumulatorUpdate keccak256 m parseAndVerifyPythVM b w
      = .ok (BitVec.ofNat 8 msgs.length, Pyth.applyUpdates w (msgs.map feedUpdateOf)) := by
  obtain ⟨root, -, hproves⟩ := hverifies.messages
  have hlength : msgs.length < 2 ^ 8 := by
    rw [← hproves.length_eq]
    exact length_updates_lt hdata
  refine Pyth.updatePriceInfosFromAccumulatorUpdate_ok.mpr ⟨msgs.map feedUpdateOf, ?_, rfl⟩
  refine Parser.parseAll_eq_some.mpr (Pyth.accumulatorUpdate_run.mpr ?_)
  exact ⟨updateData, vm, msgs, hdata, hvm, hverifies, Nat.mod_eq_of_lt hlength, rfl⟩

end

/-- **CosmWasm and EVM take the same accumulator updates.** For all data that start with the
magic and whose VAA both chains accept with the same emitter and payload, and for all stores
with the same entries:

- if the EVM contract accepts the data as a byte array anywhere in its calldata and all its
  messages have real publish times, then `apply_updates` succeeds, takes the same list of
  prices and leaves the same entries;
- if `apply_updates` accepts the data, then the EVM contract accepts them without the bytes
  that the SDK leaves unread behind the last update. -/
theorem accumulator_agreement (keccak256 : Bytes → Bytes32)
    (parseAndVerifyPythVM : Bytes → Pyth.Result VM)
    (deserializeBatch : Bytes → Option (List PriceAttestation)) (env : Env) (storage : Storage)
    (w : World) (data : Bytes)
    (hpnau : data.take 4 = PYTHNET_ACCUMULATOR_UPDATE_MAGIC.val)
    (hvaa : ∀ updateData rest,
      AccumulatorUpdateData.schema.fromSlice .BE data = .ok (updateData, rest) →
        SameVaa parseAndVerifyPythVM env storage updateData.proof.vaa)
    (hstore : SameStore w.state.latestPriceInfo storage.priceFeedBucket) :
    (∀ (m : Machine) (accumulatorUpdate : CalldataBytes) (numUpdates : Uint8) (w' : World),
      accumulatorUpdate.bytes m = data →
      Pyth.updatePriceInfosFromAccumulatorUpdate keccak256 m parseAndVerifyPythVM
        accumulatorUpdate w = .ok (numUpdates, w') →
      ∃ updates, w'.applied = w.applied ++ updates ∧ updates.length = numUpdates.toNat ∧
        ((∀ update ∈ updates, RealTime update) →
          ∃ feeds storage' newFeeds,
            parseUpdate (Keccak160 keccak256) deserializeBatch env storage data = .ok feeds ∧
            applyUpdates (Keccak160 keccak256) deserializeBatch env storage [data]
              = .ok (storage', feeds.length, newFeeds) ∧
            List.Forall₂ SameFields updates feeds ∧
            SameStore w'.state.latestPriceInfo storage'.priceFeedBucket)) ∧
    ∀ (storage' : Storage) (numAttestations : Nat) (newFeeds : List PriceFeed),
      applyUpdates (Keccak160 keccak256) deserializeBatch env storage [data]
        = .ok (storage', numAttestations, newFeeds) →
      ∃ updateData kept rest, data = kept ++ rest ∧
        AccumulatorUpdateData.schema.fromSlice .BE data = .ok (updateData, rest) ∧
        ∀ (m : Machine) (accumulatorUpdate : CalldataBytes), accumulatorUpdate.bytes m = kept →
          ∃ numUpdates w', Pyth.updatePriceInfosFromAccumulatorUpdate keccak256 m
            parseAndVerifyPythVM accumulatorUpdate w = .ok (numUpdates, w') ∧
            numUpdates.toNat = numAttestations := by
  refine ⟨?_, ?_⟩
  · rintro m b numUpdates w' rfl hevm
    obtain ⟨updates, hparse, rfl⟩ := Pyth.updatePriceInfosFromAccumulatorUpdate_ok.mp hevm
    obtain ⟨updateData, vm, msgs, hdata, hvm, hverifies, hnum, rfl⟩ :=
      Pyth.accumulatorUpdate_run.mp (Parser.parseAll_eq_some.mp hparse)
    refine ⟨msgs.map feedUpdateOf, Pyth.applyUpdates_applied _ _, by simp [hnum], fun hreal => ?_⟩
    obtain ⟨vm', parsedVaa, hvm', haccepts, -, -, hpayload⟩ :=
      hvaa updateData [] ((accumulatorUpdateData_reads _ _).mpr hdata)
    cases hvm.symm.trans hvm'
    rw [← hpayload] at hverifies
    have hfeeds : parseUpdate (Keccak160 keccak256) deserializeBatch env storage (b.bytes m)
        = .ok (msgs.map priceFeedOf) := by
      rw [parseUpdate_eq hpnau]
      exact parseAccumulator_eq_ok.mpr
        ⟨updateData, [], parsedVaa, msgs, hdata, haccepts, hverifies, rfl⟩
    have hsame : List.Forall₂ SameFields (msgs.map feedUpdateOf) (msgs.map priceFeedOf) := by
      rw [List.forall₂_map_left_iff, List.forall₂_map_right_iff, List.forall₂_same]
      exact fun msg hmsg => sameFields_message (hreal _ (List.mem_map_of_mem hmsg))
    exact ⟨_, _, _, hfeeds, applyUpdates_single_eq_ok.mpr ⟨_, hfeeds, rfl, rfl⟩, hsame,
      sameStore_applyFeeds hreal hsame hstore⟩
  · intro storage' numAttestations newFeeds happly
    obtain ⟨feeds, hfeeds, -, rfl⟩ := applyUpdates_single_eq_ok.mp happly
    rw [parseUpdate_eq hpnau] at hfeeds
    obtain ⟨updateData, rest, parsedVaa, msgs, hdata, haccepts, hverifies, rfl⟩ :=
      parseAccumulator_eq_ok.mp hfeeds
    have hslice := (accumulatorUpdateData_reads _ _).mpr hdata
    obtain ⟨vm, parsedVaa', hvm, haccepts', -, -, hpayload⟩ := hvaa updateData rest hslice
    cases haccepts.1.symm.trans haccepts'.1
    rw [hpayload] at hverifies
    obtain ⟨kept, hkept, hcut⟩ := Grammar.local_accumulatorUpdateData _ _ _ hdata
    refine ⟨updateData, kept, rest, hkept, hslice, ?_⟩
    rintro m b rfl
    have hcut' := hcut []
    rw [List.append_nil] at hcut'
    refine ⟨_, _, evm_accepts hcut' hvm hverifies, ?_⟩
    obtain ⟨root, -, hproves⟩ := hverifies.messages
    rw [List.length_map, ← hproves.length_eq]
    exact Nat.mod_eq_of_lt (length_updates_lt hdata)

/-! ### An update of two feeds

The VAA carries one signature of a guardian over the payload. -/

/-- The message of a feed with exponent -8. -/
def exMessage (id price conf time emaPrice emaConf : Nat) : Bytes :=
  [0] ++ bytesBE 32 id ++ bytesBE 8 price ++ bytesBE 8 conf ++ bytesBE 4 (2 ^ 32 - 8) ++
    bytesBE 8 time ++ bytesBE 8 (time - 1) ++ bytesBE 8 emaPrice ++ bytesBE 8 emaConf

def exBtcId : Nat := 0xe62df6c8b4a85fe1a67db44dc12de5db330f7ac66b72dc658afedf0f4a415b43
def exEthId : Nat := 0xff61491a931112ddf1bd8147cd1b641375f79f5825126d665480874634fd0ace

def exBtc : Bytes :=
  exMessage exBtcId 6000000000000 300000000 1700000000 6010000000000 310000000

def exEth : Bytes := exMessage exEthId 250000000000 20000000 1700000001 249000000000 21000000

def exBtcHash : Nat := 0x340ae4895219a6feb62fd8948b24f3bdc76c4cc77b06f0098777f42c4fb3cb48
def exEthHash : Nat := 0xd5788b3eee33e53108111db99e75a1512eb3a43556325e6f791cf813d6b92412
def exRootHash : Nat := 0x21b92cb77198761705779c4f8329351917797a6f69725c79d1ea913d3b19b135

/-- The first 20 bytes of a hash. -/
def exNode (hash : Nat) : Bytes := (bytesBE 32 hash).take 20

/-- Keccak-256 of the strings in the tree. -/
def exKeccak256 (s : Bytes) : Bytes32 :=
  if s = 0 :: exBtc then BitVec.ofNat 256 exBtcHash
  else if s = 0 :: exEth then BitVec.ofNat 256 exEthHash
  else if s = 1 :: exNode exBtcHash ++ exNode exEthHash then BitVec.ofNat 256 exRootHash
  else 0

def exEmitter : Bytes32 := 0xe101faedac5851e32b9b23b5f9411a8c2bac4aae3ed4dd7b811dd1a72ea4aa71

def exPayload : Bytes :=
  bytesBE 4 0x41555756 ++ [0] ++ bytesBE 8 100 ++ bytesBE 4 10000 ++ exNode exRootHash

def exVaa : Bytes :=
  [1] ++ bytesBE 4 0 ++ [1, 0] ++
    bytesBE 32 0x5bca0564101393bf7cb0e7915a26458c18feee0f2e5b25d321a56d24c73ebead ++
    bytesBE 32 0x06725af380d1b74ba7f205d3752b9fbad9aa9dd18064864e1e8462ac8d194f9a ++ [1] ++
    bytesBE 4 1700000001 ++ bytesBE 4 0 ++ bytesBE 2 26 ++ wordBytes exEmitter ++
    bytesBE 8 5000 ++ [1] ++ exPayload

def exData : Bytes :=
  bytesBE 4 0x504e4155 ++ [1, 0, 0, 0] ++ bytesBE 2 160 ++ exVaa ++ [2] ++
    (bytesBE 2 85 ++ exBtc ++ [1] ++ exNode exEthHash) ++
    (bytesBE 2 85 ++ exEth ++ [1] ++ exNode exBtcHash)

def exParseAndVerifyPythVM (encodedVm : Bytes) : Pyth.Result VM :=
  if encodedVm = exVaa then
    .ok { emitterChainId := 26, emitterAddress := exEmitter, sequence := 5000,
          payload := exPayload }
  else .error (.error .invalidWormholeVaa)

def exParsedVaa : ParsedVAA :=
  { emitterChain := 26, emitterAddress := wordBytes exEmitter, payload := exPayload }

def exEnv : Env where
  blockTime := 1700000002
  verifyVAA := fun _ vaa _ =>
    if vaa = exVaa then .ok exParsedVaa else .error (.genericErr "InvalidVAA")

def exConfig : ConfigInfo where
  wormholeContract := "wormhole"
  dataSources := {⟨wordBytes exEmitter, 26⟩}

def exStorage : Storage where
  config := some exConfig

def exUpdates : List (Bytes32 × PriceInfo) :=
  [(BitVec.ofNat 256 exBtcId,
    { publishTime := 1700000000, expo := -8, price := 6000000000000, conf := 300000000,
      emaPrice := 6010000000000, emaConf := 310000000 }),
   (BitVec.ofNat 256 exEthId,
    { publishTime := 1700000001, expo := -8, price := 250000000000, conf := 20000000,
      emaPrice := 249000000000, emaConf := 21000000 })]

/-- The data behind the selector of a call. -/
def exMachine : Machine where
  calldata := fun a => exData.getD (a - 4).toNat 0
  aroundCopy := fun _ _ => 0
  aroundReturned := fun _ => 0
  checksSlices := true

def exUpdate : CalldataBytes where
  offset := 4
  length := BitVec.ofNat 256 exData.length

theorem exSameVaa (updateData : AccumulatorUpdateData) (rest : Bytes)
    (h : AccumulatorUpdateData.schema.fromSlice .BE exData = .ok (updateData, rest)) :
    SameVaa exParseAndVerifyPythVM exEnv exStorage updateData.proof.vaa := by
  have hvaa : (Grammar.accumulatorUpdateData exData).map (fun r => r.1.proof.vaa)
      = some exVaa := by
    decide +kernel
  rw [(accumulatorUpdateData_reads _ _).mp h] at hvaa
  rw [show updateData.proof.vaa = exVaa from Option.some.inj hvaa]
  have hquery : ∀ contract time, exEnv.verifyVAA contract exVaa time = .ok exParsedVaa := by
    intro contract time
    simp only [exEnv, ↓reduceIte]
  have hconfig : exStorage.loadConfig = .ok exConfig := rfl
  have hvalid : parseAndVerifyVaa exEnv exStorage exVaa = .ok exParsedVaa := by
    rw [parseAndVerifyVaa, hconfig, except_ok_bind, hquery]
  have hsource : verifyVaaFromDataSource exConfig exParsedVaa = .ok () :=
    if_pos (Finset.mem_singleton_self _)
  have hevm : exParseAndVerifyPythVM exVaa = .ok
      { emitterChainId := 26, emitterAddress := exEmitter, sequence := 5000,
        payload := exPayload } := by
    simp only [exParseAndVerifyPythVM, ↓reduceIte]
  exact ⟨_, exParsedVaa, hevm, ⟨hvalid, exConfig, hconfig, hsource⟩, rfl, rfl, rfl⟩

theorem accumulator_agreement_ex :
    ∃ feeds storage' newFeeds,
      applyUpdates (Keccak160 exKeccak256) (fun _ => none) exEnv exStorage [exData]
        = .ok (storage', feeds.length, newFeeds) ∧
      List.Forall₂ SameFields exUpdates feeds ∧
      SameStore (Pyth.applyUpdates {} exUpdates).state.latestPriceInfo
        storage'.priceFeedBucket := by
  have hbytes : exUpdate.bytes exMachine = exData := by decide +kernel
  have hparse : (Pyth.Strict.accumulatorUpdate exKeccak256 exParseAndVerifyPythVM).parseAll
      (exUpdate.bytes exMachine) = some (2, exUpdates) := by
    decide +kernel
  obtain ⟨updates, happlied, -, hagree⟩ := (accumulator_agreement exKeccak256
    exParseAndVerifyPythVM (fun _ => none) exEnv exStorage {} exData (by decide +kernel) exSameVaa
    (fun _ => rfl)).1 exMachine exUpdate 2 _ hbytes
      (Pyth.updatePriceInfosFromAccumulatorUpdate_ok.mpr ⟨exUpdates, hparse, rfl⟩)
  obtain rfl : exUpdates = updates := by
    rw [Pyth.applyUpdates_applied] at happlied
    exact List.append_cancel_left happlied
  obtain ⟨feeds, storage', newFeeds, -, happly, hsame, hstore⟩ := hagree (by decide +kernel)
  exact ⟨feeds, storage', newFeeds, happly, hsame, hstore⟩

end PythCrosschain.CosmWasm
