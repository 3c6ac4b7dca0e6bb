import Mathlib.Data.List.Pairwise
import PythCrosschain.Aptos.Accumulator
import PythCrosschain.Fuel.AccumulatorAgreement
import PythCrosschain.Lib.LatestValue
import PythCrosschain.Sui.PriceFeeds

/-!
# Move packages: accumulator updates as on EVM chains

The same accumulator update on Sui, on Aptos and on an EVM chain, where the three accept the VAA
in it with the same emitter and payload. The grammar of the EVM contract uses the verifier of
VAAs at the VAA of the update only (`accumulatorUpdate_congr`), and it reads no further than the
last update (`local_accumulatorUpdate`).

Aptos drops what follows the last update, and it applies the updates from the last one on. The
order makes no difference to the publish times, nor to the prices if no two updates of a feed
have the same publish time.

The results are:

- `latestPriceInfo_updateCache`: the cache on Aptos is a register for each feed;
- `move_updates_agree`: both agree with the EVM contract.
-/

namespace PythCrosschain.MovePackages

open Move
open Decoder (ReadsAs)
open PythCrosschain.Parser
open Pyth (UpdateType VM World applyUpdates priceIdOf)

/-! ## The VAA of an update -/

/-- The VAA of an accumulator update, as the grammar finds it. -/
def embeddedVaa : Parser Bytes := do
  let updateType ← Pyth.Strict.header
  assert (guard (updateType = .wormholeMerkle))
  let whProofSize ← uint16
  take whProofSize.toNat

section

variable (keccak256 : Bytes → BitVec 256)

/-- What follows the VAA, given the payload of the VAA. -/
def afterVaa (payload : Option Bytes) : Parser (BitVec 8 × List (BitVec 256 × Pyth.PriceInfo)) := do
  let payload ← assert payload
  let digest ← assert (Pyth.Strict.payload.parsePrefix payload)
  let numUpdates ← uint8
  let list ← Pyth.Strict.updates keccak256 digest numUpdates.toNat
  return (numUpdates, list)

variable {keccak256}

theorem accumulatorUpdate_embedded (P : Bytes → Pyth.Result VM) :
    Pyth.Strict.accumulatorUpdate keccak256 P
      = embeddedVaa >>= fun vaa => afterVaa keccak256 ((P vaa).toOption.map VM.payload) := by
  have hafter (o : Option VM) : afterVaa keccak256 (o.map VM.payload)
      = assert o >>= fun vm => assert (Pyth.Strict.payload.parsePrefix vm.payload) >>= fun digest =>
        uint8 >>= fun numUpdates =>
        Pyth.Strict.updates keccak256 digest numUpdates.toNat >>= fun list =>
        pure (numUpdates, list) := by
    cases o <;> rfl
  simp only [Pyth.Strict.accumulatorUpdate, Pyth.Strict.wormholeMerkleUpdates,
    Pyth.Strict.wormholeMerkle, embeddedVaa, bind_assoc, pure_bind, hafter]

/-- The verifier is asked about the VAA of the update only. -/
theorem accumulatorUpdate_congr {P P' : Bytes → Pyth.Result VM} {data : Bytes}
    (h : ∀ vaa rest, embeddedVaa data = some (vaa, rest) →
      (P vaa).toOption.map VM.payload = (P' vaa).toOption.map VM.payload) :
    Pyth.Strict.accumulatorUpdate keccak256 P data
      = Pyth.Strict.accumulatorUpdate keccak256 P' data := by
  rw [accumulatorUpdate_embedded, accumulatorUpdate_embedded, bind_run, bind_run]
  cases hdata : embeddedVaa data with
  | none => rfl
  | some r => rw [Option.bind_some, Option.bind_some, h r.1 r.2 hdata]

/-! ## The grammar reads no further than the last update -/

theorem local_climb (digest : BitVec 160) (n : ℕ) :
    Local (Pyth.Strict.climb keccak256 digest n) := by
  induction n generalizing digest with
  | zero => exact local_pure digest
  | succ n ih => exact (local_uint 160 20).bind fun sibling => ih _

theorem local_update (digest : BitVec 160) : Local (Pyth.Strict.update keccak256 digest) := by
  refine (local_uint 16 2).bind fun messageSize => (local_take _).bind fun encodedMessage => ?_
  refine Local.bind ?_ fun valid => (local_assert _).bind fun _ => local_assert _
  refine (local_uint 8 1).bind fun proofSize => ?_
  exact (local_climb _ _).bind fun top => local_pure _

theorem local_updates (digest : BitVec 160) (n : ℕ) :
    Local (Pyth.Strict.updates keccak256 digest n) := by
  induction n with
  | zero => exact local_pure []
  | succ n ih => exact (local_update digest).bind fun r => ih.bind fun list => local_pure _

theorem local_header : Local Pyth.Strict.header := by
  refine (local_uint 32 4).bind fun magic => (local_assert _).bind fun _ => ?_
  refine (local_uint 8 1).bind fun majorVersion => (local_assert _).bind fun _ => ?_
  refine (local_uint 8 1).bind fun minorVersion => (local_assert _).bind fun _ => ?_
  refine (local_uint 8 1).bind fun trailingHeaderSize => (local_skip _).bind fun _ => ?_
  exact (local_uint 8 1).bind fun updateType => local_assert _

theorem local_embeddedVaa : Local embeddedVaa := by
  refine local_header.bind fun updateType => (local_assert _).bind fun _ => ?_
  exact (local_uint 16 2).bind fun whProofSize => local_take _

theorem local_accumulatorUpdate (P : Bytes → Pyth.Result VM) :
    Local (Pyth.Strict.accumulatorUpdate keccak256 P) := by
  rw [accumulatorUpdate_embedded]
  refine local_embeddedVaa.bind fun vaa => (local_assert _).bind fun payload => ?_
  refine (local_assert _).bind fun digest => (local_uint 8 1).bind fun numUpdates => ?_
  exact (local_updates _ _).bind fun list => local_pure _

end

/-! ## The cache on Aptos -/

open LatestValue

/-- The publish time as a number. -/
def PriceInfo.time (info : PriceInfo) : ℕ := info.timestamp.toNat

section

variable {s : Aptos.State}

/-- An update with a publish time above 0 is offered to the register of its feed. -/
theorem latestPriceInfo_cacheUpdate {update : PriceInfo} (hpositive : 0 < update.time) :
    (Aptos.cacheUpdate update s).latestPriceInfo
      = offerAt PriceInfo.identifier PriceInfo.time s.latestPriceInfo update := by
  unfold Aptos.cacheUpdate Aptos.isFreshUpdate offerAt keepNewer
  cases hstored : s.latestPriceInfo update.identifier with
  | none =>
    have hbottom : storedTime PriceInfo.time none < update.time := hpositive
    rw [if_pos rfl, if_pos hbottom]
    rfl
  | some cached =>
    by_cases hnewer : cached.time < update.time
    · rw [if_pos (decide_eq_true (BitVec.lt_def.mpr hnewer))]
      show _ = Function.update _ _ (if cached.time < update.time then _ else _)
      rw [if_pos hnewer]
      rfl
    · rw [if_neg fun h => hnewer (BitVec.lt_def.mp (of_decide_eq_true h))]
      show _ = Function.update _ _ (if cached.time < update.time then _ else _)
      rw [if_neg hnewer, ← hstored, Function.update_eq_self]

theorem latestPriceInfo_updateCache {updates : List PriceInfo}
    (hpositive : ∀ update ∈ updates, 0 < update.time) :
    (Aptos.updateCache updates s).latestPriceInfo
      = updates.reverse.foldl (offerAt PriceInfo.identifier PriceInfo.time) s.latestPriceInfo := by
  rw [List.foldl_reverse]
  induction updates with
  | nil => rfl
  | cons update updates ih =>
    obtain ⟨hfirst, hrest⟩ := List.forall_mem_cons.mp hpositive
    have hcache := ih hrest
    unfold Aptos.updateCache at hcache ⊢
    rw [List.foldr_cons, List.foldr_cons, latestPriceInfo_cacheUpdate hfirst, hcache]

end

/-! ## The same prices -/

/-- What is stored for an id on Aptos and on an EVM chain. -/
def SameStored (id : BitVec 256) (info : Pyth.PriceInfo) : Option PriceInfo → Prop
  | none => info = {}
  | some stored => SameInfo stored (id, info)

/-- The stores of Aptos and of an EVM chain. -/
def SameStore (latestPriceInfo : Aptos.PriceIdentifier → Option PriceInfo) (w : World) : Prop :=
  ∀ id, SameStored (priceIdOf id) (w.state.latestPriceInfo (priceIdOf id)) (latestPriceInfo id)

theorem storedTime_of_same {id : BitVec 256} {info : Pyth.PriceInfo} {stored : Option PriceInfo}
    (h : SameStored id info stored) : storedTime PriceInfo.time stored = info.publishTime.toNat := by
  cases stored with
  | none =>
    cases h
    rfl
  | some stored =>
    have htime : stored.timestamp = info.publishTime := h.publishTime
    exact congrArg BitVec.toNat htime

theorem priceIdOf_injective : Function.Injective priceIdOf := by
  intro a b h
  have hlt (a : PythnetSdk.HashArray 32) : natBE a.val < 2 ^ 256 := by
    have hbound := natBE_lt a.val
    rw [a.property] at hbound
    exact hbound
  have hnat := congrArg BitVec.toNat h
  unfold priceIdOf at hnat
  rw [BitVec.toNat_ofNat, BitVec.toNat_ofNat, Nat.mod_eq_of_lt (hlt a), Nat.mod_eq_of_lt (hlt b)]
    at hnat
  exact Subtype.ext (natBE_injective_of_length (a.property.trans b.property.symm) hnat)

/-- One update in both stores. -/
theorem SameStore.offerAt {registers : Aptos.PriceIdentifier → Option PriceInfo} {w : World}
    {info : PriceInfo} {update : BitVec 256 × Pyth.PriceInfo} (h : SameStore registers w)
    (hinfo : SameInfo info update) :
    SameStore (offerAt PriceInfo.identifier PriceInfo.time registers info)
      (Pyth.updateLatestPriceIfNecessary w update.1 update.2) := by
  intro id
  have htime : info.time = update.2.publishTime.toNat := congrArg BitVec.toNat hinfo.publishTime
  have hid : priceIdOf info.identifier = update.1 := hinfo.id
  rw [offerAt_eq, Pyth.latestPriceInfo_eq, ← hid]
  by_cases hsame : info.identifier = id
  · subst hsame
    have hkey : (priceIdOf info.identifier, update.2) = update := Prod.ext hid rfl
    have hstored := h info.identifier
    have hnewer : update.2.publishTime
          > (w.state.latestPriceInfo (priceIdOf info.identifier)).publishTime
        ↔ storedTime PriceInfo.time (registers info.identifier) < info.time := by
      rw [storedTime_of_same hstored, htime]
      exact BitVec.lt_def
    rw [if_pos rfl, keepNewer]
    by_cases hlt : storedTime PriceInfo.time (registers info.identifier) < info.time
    · rw [if_pos hlt, if_pos (hnewer.mpr hlt), Function.update_self]
      exact hkey ▸ hinfo
    · rw [if_neg hlt, if_neg (mt hnewer.mp hlt)]
      exact hstored
  · rw [if_neg hsame]
    split
    · rw [Function.update_of_ne fun heq => hsame (priceIdOf_injective heq).symm]
      exact h id
    · exact h id

theorem SameStore.foldl {registers : Aptos.PriceIdentifier → Option PriceInfo} {w : World}
    {infos : List PriceInfo} {updates : List (BitVec 256 × Pyth.PriceInfo)}
    (h : SameStore registers w) (hinfos : List.Forall₂ SameInfo infos updates) :
    SameStore (infos.foldl (LatestValue.offerAt PriceInfo.identifier PriceInfo.time) registers)
      (applyUpdates w updates) := by
  induction hinfos generalizing registers w with
  | nil => exact h
  | cons hinfo _ ih => exact ih (h.offerAt hinfo)

/-- No two updates of one feed have the same publish time. -/
def NoTies (updates : List (BitVec 256 × Pyth.PriceInfo)) : Prop :=
  updates.Pairwise fun a b => a.1 = b.1 → a.2.publishTime ≠ b.2.publishTime

theorem exists_update {infos : List PriceInfo} {updates : List (BitVec 256 × Pyth.PriceInfo)}
    (hinfos : List.Forall₂ SameInfo infos updates) {info : PriceInfo} (hmem : info ∈ infos) :
    ∃ update ∈ updates, SameInfo info update := by
  induction hinfos with
  | nil => cases hmem
  | cons hinfo _ ih =>
    rcases List.mem_cons.mp hmem with rfl | hmem
    · exact ⟨_, List.mem_cons_self, hinfo⟩
    · obtain ⟨update, hupdate, hsame⟩ := ih hmem
      exact ⟨update, List.mem_cons_of_mem _ hupdate, hsame⟩

theorem noTies_infos {infos : List PriceInfo} {updates : List (BitVec 256 × Pyth.PriceInfo)}
    (hinfos : List.Forall₂ SameInfo infos updates) (hties : NoTies updates) :
    infos.Pairwise fun a b => a.identifier = b.identifier → a.time ≠ b.time := by
  induction hinfos with
  | nil => exact .nil
  | @cons info update infos updates hinfo hinfos ih =>
    obtain ⟨hfirst, hrest⟩ := List.pairwise_cons.mp hties
    refine .cons (fun b hb hid htime => ?_) (ih hrest)
    obtain ⟨update', hmem, hb'⟩ := exists_update hinfos hb
    have hkey : update.1 = update'.1 := by
      rw [← hinfo.id, ← hb'.id]
      exact congrArg priceIdOf hid
    refine hfirst update' hmem hkey ?_
    rw [← hinfo.publishTime, ← hb'.publishTime]
    exact BitVec.eq_of_toNat_eq htime

/-- Among the updates of one feed, the publish time says which one it is. -/
theorem times_distinct {infos : List PriceInfo}
    (hties : infos.Pairwise fun a b => a.identifier = b.identifier → a.time ≠ b.time)
    (id : Aptos.PriceIdentifier) :
    ∀ a ∈ infos.filter (fun info => info.identifier = id),
      ∀ b ∈ infos.filter (fun info => info.identifier = id), a.time = b.time → a = b := by
  have hfilter : (infos.filter (fun info => info.identifier = id)).Pairwise
      fun a b => a.time ≠ b.time := by
    refine List.pairwise_filter.mpr (hties.imp fun hab ha hb => hab ?_)
    rw [of_decide_eq_true ha, of_decide_eq_true hb]
  have hsymm : Std.Symm fun a b : PriceInfo => a.time ≠ b.time := ⟨fun a b h => h.symm⟩
  intro a ha b hb htime
  by_contra hne
  exact hfilter.forall ha hb hne htime

/-! ## Agreement -/

section

variable {s : Aptos.State} {w : World} {infos : List PriceInfo}
  {updates : List (BitVec 256 × Pyth.PriceInfo)}

/-- The updates of a list, from the last one on. -/
theorem updateCache_same (hstore : SameStore s.latestPriceInfo w)
    (hinfos : List.Forall₂ SameInfo infos updates)
    (hpositive : ∀ update ∈ updates, 1 ≤ update.2.publishTime) (id : Aptos.PriceIdentifier) :
    storedTime PriceInfo.time ((Aptos.updateCache infos s).latestPriceInfo id)
        = ((applyUpdates w updates).state.latestPriceInfo (priceIdOf id)).publishTime.toNat ∧
    (NoTies updates → SameStored (priceIdOf id)
      ((applyUpdates w updates).state.latestPriceInfo (priceIdOf id))
      ((Aptos.updateCache infos s).latestPriceInfo id)) := by
  have hinfosPositive : ∀ info ∈ infos, 0 < info.time := by
    intro info hmem
    obtain ⟨update, hupdate, hsame⟩ := exists_update hinfos hmem
    have htime : info.time = update.2.publishTime.toNat := congrArg BitVec.toNat hsame.publishTime
    rw [htime]
    exact hpositive update hupdate
  have hinOrder := hstore.foldl hinfos id
  rw [foldl_offerAt] at hinOrder
  rw [latestPriceInfo_updateCache hinfosPositive, foldl_offerAt]
  have hperm : (infos.reverse.filter fun info => info.identifier = id).Perm
      (infos.filter fun info => info.identifier = id) :=
    (List.reverse_perm infos).filter _
  refine ⟨?_, fun hties => ?_⟩
  · rw [storedTime_foldl_perm hperm]
    exact storedTime_of_same hinOrder
  · have hdistinct := times_distinct (noTies_infos hinfos hties) id
    rw [← foldl_keepNewer_perm hperm.symm hdistinct]
    exact hinOrder

end

/-- "PNAU". -/
def accumulatorMagic : Bytes := [0x50, 0x4e, 0x41, 0x55]

/-- The first bytes of the calldata array. -/
def cut (b : CalldataBytes) (k : BitVec 256) : CalldataBytes := { b with length := k }

theorem bytes_cut {m : Machine} {b : CalldataBytes} {k : BitVec 256} (h : k ≤ b.length) :
    (cut b k).bytes m = (b.bytes m).take k.toNat := by
  have hbound : (0 : BitVec 256).toNat + k.toNat ≤ b.length.toNat := by
    simpa using BitVec.le_def.mp h
  have hread := CalldataBytes.drop_take_bytes (m := m) (b := b) hbound
  have hoffset : b.offset + 0 = b.offset := BitVec.add_zero _
  rw [hoffset] at hread
  exact hread

/-- The three chains accept the VAA of the update, with one emitter and payload. On Sui it is
the VAA that is passed in. -/
structure SameVaa (P : Bytes → Pyth.Result VM) (env : Aptos.Env) (aptos : Aptos.State)
    (sui : Sui.State) (verifiedVaa : Sui.VAA) (data : Bytes) : Prop where
  latest : sui.latest = true
  validSource : verifiedVaa.source ∈ sui.dataSources
  accepted : ∀ vaa rest, embeddedVaa data = some (vaa, rest) → ∃ vm msgVaa, P vaa = .ok vm ∧
    Aptos.acceptVaa env aptos vaa = .ok msgVaa ∧
    vm.emitterChainId = verifiedVaa.emitterChain ∧
    vm.emitterAddress = priceIdOf verifiedVaa.emitterAddress ∧
    vm.payload = verifiedVaa.payload ∧ msgVaa.emitterChain = verifiedVaa.emitterChain ∧
    msgVaa.emitterAddress = verifiedVaa.emitterAddress ∧ msgVaa.payload = verifiedVaa.payload

section

variable (env : Aptos.Env) (clock : U64) (m : Machine) (P : Bytes → Pyth.Result VM)
  (b : CalldataBytes) (aptos : Aptos.State) (sui : Sui.State) (verifiedVaa : Sui.VAA) (w : World)

/-- The update on an EVM chain. -/
abbrev evmUpdate (accumulatorUpdate : CalldataBytes) : Pyth.Result (BitVec 8 × World) :=
  Pyth.updatePriceInfosFromAccumulatorUpdate env.keccak256 m P accumulatorUpdate w

/-- Sui accepts what the EVM contract accepts, and returns what it applies. -/
structure SuiAgrees : Prop where
  succeeds : (∃ updates, Sui.createAuthenticatedPriceInfosUsingAccumulator env.keccak256 sui
      (b.bytes m) verifiedVaa clock = .ok updates) ↔
    ∃ numUpdates w', evmUpdate env m P w b = .ok (numUpdates, w')
  sameList : ∀ priceInfos numUpdates w',
    Sui.createAuthenticatedPriceInfosUsingAccumulator env.keccak256 sui (b.bytes m) verifiedVaa
      clock = .ok priceInfos →
    evmUpdate env m P w b = .ok (numUpdates, w') →
    ∃ updates, w' = applyUpdates w updates ∧ w'.applied = w.applied ++ updates ∧
      List.Forall₂ SameInfo priceInfos.contents updates

/-- The publish time of a cached price, 0 where there is none. -/
def publishTimeOf (cached : Option PriceInfo) : U64 := cached.elim 0 PriceInfo.timestamp

/-- Aptos accepts what the EVM contract accepts of a first part, counts the updates in it, and
stores what the EVM contract does. -/
structure AptosAgrees : Prop where
  succeeds : (∃ totalUpdates s', Aptos.updatePriceFeedFromSingleVaa env (b.bytes m) aptos
      = .ok (totalUpdates, s')) ↔
    ∃ k ≤ b.length, ∃ numUpdates w', evmUpdate env m P w (cut b k) = .ok (numUpdates, w')
  sameStore : ∀ totalUpdates s' k numUpdates w', k ≤ b.length →
    Aptos.updatePriceFeedFromSingleVaa env (b.bytes m) aptos = .ok (totalUpdates, s') →
    evmUpdate env m P w (cut b k) = .ok (numUpdates, w') →
    totalUpdates = numUpdates.toNat ∧
    ∀ updates, w'.applied = w.applied ++ updates → SameStore aptos.latestPriceInfo w →
      (∀ update ∈ updates, 1 ≤ update.2.publishTime) → ∀ id,
      publishTimeOf (s'.latestPriceInfo id)
          = (w'.state.latestPriceInfo (priceIdOf id)).publishTime ∧
        (NoTies updates → SameStored (priceIdOf id)
          (w'.state.latestPriceInfo (priceIdOf id)) (s'.latestPriceInfo id))

end

section

variable {env : Aptos.Env} {clock : U64} {m : Machine} {P : Bytes → Pyth.Result VM}
  {b : CalldataBytes} {aptos : Aptos.State} {sui : Sui.State} {verifiedVaa : Sui.VAA} {w : World}

theorem evmUpdate_eq_ok {accumulatorUpdate : CalldataBytes} {numUpdates : BitVec 8} {w' : World} :
    evmUpdate env m P w accumulatorUpdate = .ok (numUpdates, w') ↔
      ∃ updates, (Pyth.Strict.accumulatorUpdate env.keccak256 P).parseAll
          (accumulatorUpdate.bytes m) = some (numUpdates, updates) ∧
        w' = applyUpdates w updates :=
  Pyth.updatePriceInfosFromAccumulatorUpdate_ok

/-- A cursor that is destroyed at its end reads the whole input. -/
theorem agree_all {α β : Type} {φ : α → β → Prop} {d : Sui.Cursor α} {p : Parser β}
    (h : ReadsAs φ d p) (bs : Bytes) : Agree φ (Sui.Cursor.all d bs) (p.parseAll bs) := by
  have hparse : p.parseAll bs = (p bs).bind fun s => if s.2 = [] then some s.1 else none := by
    unfold Parser.parseAll
    rcases p bs with _ | ⟨b, _ | _⟩ <;> rfl
  rw [hparse]
  refine (h bs).bind fun r s hrs => ?_
  obtain ⟨a, rest⟩ := r
  obtain ⟨hφ, hrest⟩ := hrs
  subst hrest
  show Agree φ (if s.2 = [] then pure a else .error Abort.vectorError)
    (if s.2 = [] then some s.1 else none)
  by_cases hempty : s.2 = []
  · rw [if_pos hempty, if_pos hempty]
    exact hφ
  · rw [if_neg hempty, if_neg hempty]
    trivial

/-- What Sui returns is what the grammar finds in the update. -/
theorem sui_agree {data : Bytes} (h : SameVaa P env aptos sui verifiedVaa data) :
    Agree (fun (priceInfos : Sui.HotPotatoVector) r =>
        List.Forall₂ SameInfo priceInfos.contents r.2 ∧ r.1.toNat = priceInfos.contents.length)
      (Sui.createAuthenticatedPriceInfosUsingAccumulator env.keccak256 sui data verifiedVaa clock)
      ((Pyth.Strict.accumulatorUpdate env.keccak256 P).parseAll data) := by
  let vm : VM := { emitterChainId := 0, emitterAddress := 0, sequence := 0,
                   payload := verifiedVaa.payload }
  have hcongr : (Pyth.Strict.accumulatorUpdate env.keccak256 P).parseAll data
      = (Pyth.Strict.accumulatorUpdate env.keccak256 fun _ => .ok vm).parseAll data := by
    unfold Parser.parseAll
    rw [accumulatorUpdate_congr fun vaa rest hvaa => ?_]
    obtain ⟨vm', msgVaa, hP, -, -, -, hpayload, -⟩ := h.accepted vaa rest hvaa
    rw [hP]
    exact congrArg some hpayload
  have hreads := @Sui.Accumulator.reads_accumulatorMessage env.keccak256 vm
    verifiedVaa.payload rfl (Sui.seconds clock)
  have hlatest : Sui.assertLatestOnly sui = .ok () := assert_eq_ok.mpr h.latest
  have hsource : Sui.assertDataSource sui verifiedVaa = .ok () := assert_eq_ok.mpr h.validSource
  unfold Sui.createAuthenticatedPriceInfosUsingAccumulator
  rw [hcongr, hlatest, hsource]
  exact (agree_all hreads data).returnMap fun infos r hinfos => hinfos

/-- The VAAs that Aptos accepts, for the grammar of the EVM contract. -/
def acceptedBy (env : Aptos.Env) (aptos : Aptos.State) (vaa : Bytes) : Pyth.Result VM :=
  match Aptos.acceptVaa env aptos vaa with
  | .ok msgVaa => .ok { emitterChainId := msgVaa.emitterChain
                        emitterAddress := priceIdOf msgVaa.emitterAddress
                        sequence := msgVaa.sequence
                        payload := msgVaa.payload }
  | .error _ => .error (.error .invalidWormholeVaa)

theorem agree_acceptedBy (vaa : Bytes) : Agree (fun a b => a.payload = b.payload)
    (Aptos.acceptVaa env aptos vaa) (acceptedBy env aptos vaa).toOption := by
  unfold acceptedBy
  cases Aptos.acceptVaa env aptos vaa with
  | ok msgVaa => rfl
  | error e => trivial

/-- What Aptos reads is what the grammar finds in a first part of the update. -/
theorem aptos_agree {data : Bytes} (hmagic : data.take 4 = accumulatorMagic)
    (h : SameVaa P env aptos sui verifiedVaa data) :
    Agree (fun read r => List.Forall₂ SameInfo read.2 r.2 ∧ read.1 = r.1.toNat)
      (Aptos.readUpdates env aptos data)
      ((Pyth.Strict.accumulatorUpdate env.keccak256 P).parsePrefix data) := by
  obtain ⟨rest, rfl⟩ : ∃ rest, data = accumulatorMagic ++ rest :=
    ⟨data.drop 4, by rw [← hmagic, List.take_append_drop]⟩
  have hcongr : Pyth.Strict.accumulatorUpdate env.keccak256 P (accumulatorMagic ++ rest)
      = Pyth.Strict.accumulatorUpdate env.keccak256 (acceptedBy env aptos)
        (accumulatorMagic ++ rest) := by
    refine accumulatorUpdate_congr fun vaa rest' hvaa => ?_
    obtain ⟨vm, msgVaa, hP, haptos, -, -, hpayload, -, -, hpayload'⟩ := h.accepted vaa rest' hvaa
    rw [hP, acceptedBy, haptos]
    exact congrArg some (hpayload.trans hpayload'.symm)
  have hword : Parser.uint 32 4 (accumulatorMagic ++ rest)
      = some (PYTHNET_ACCUMULATOR_UPDATE_MAGIC, rest) :=
    uint_run.mpr ⟨⟨accumulatorMagic, rfl⟩, array_run.mpr rfl, by decide⟩
  have hmagicRead : deserializeU32 (accumulatorMagic ++ rest)
      = .ok (PYTHNET_ACCUMULATOR_UPDATE_MAGIC, rest) := by
    obtain ⟨⟨v, rest'⟩, hrun, hv, hrest⟩ := (reads_word 32 4 _).of_some hword
    obtain rfl : v = PYTHNET_ACCUMULATOR_UPDATE_MAGIC := hv
    obtain rfl : rest' = rest := hrest
    exact hrun
  have hafter : Pyth.Strict.accumulatorUpdate env.keccak256 P (accumulatorMagic ++ rest)
      = afterMagic env.keccak256 (acceptedBy env aptos) rest := by
    rw [hcongr, accumulatorUpdate_eq, bind_run, hword]
    have hmagic' : PYTHNET_ACCUMULATOR_UPDATE_MAGIC = Pyth.ACCUMULATOR_MAGIC := by decide
    exact congrFun (assert_guard_bind hmagic') rest
  have hreads := Aptos.reads_accumulatorMessage (@agree_acceptedBy env aptos)
  unfold Aptos.readUpdates
  rw [hmagicRead]
  show Agree _ (Aptos.parseAndVerifyAccumulatorMessage env aptos rest >>= fun r =>
    pure (r.1.length, r.1)) _
  unfold Parser.parsePrefix
  rw [hafter]
  exact ((hreads rest).returnMap fun r s hrs => ⟨hrs.1.1, hrs.1.2.symm⟩).map

theorem suiAgrees (h : SameVaa P env aptos sui verifiedVaa (b.bytes m)) :
    SuiAgrees env clock m P b sui verifiedVaa w where
  succeeds := by
    simp only [evmUpdate_eq_ok]
    constructor
    · rintro ⟨priceInfos, hsui⟩
      obtain ⟨r, hparse, -⟩ := (sui_agree h).of_ok hsui
      exact ⟨r.1, _, r.2, hparse, rfl⟩
    · rintro ⟨numUpdates, w', updates, hparse, -⟩
      obtain ⟨priceInfos, hsui, -⟩ := (sui_agree h).of_some hparse
      exact ⟨priceInfos, hsui⟩
  sameList := by
    intro priceInfos numUpdates w' hsui hevm
    obtain ⟨updates, hparse, rfl⟩ := evmUpdate_eq_ok.mp hevm
    obtain ⟨r, hparse', hsame, -⟩ := (sui_agree h).of_ok hsui
    obtain rfl : r = (numUpdates, updates) := Option.some.inj (hparse'.symm.trans hparse)
    exact ⟨updates, rfl, Pyth.applyUpdates_applied w updates, hsame⟩

/-- The grammar reads a first part of the calldata array. -/
theorem parsePrefix_iff_cut {r : BitVec 8 × List (BitVec 256 × Pyth.PriceInfo)} :
    (Pyth.Strict.accumulatorUpdate env.keccak256 P).parsePrefix (b.bytes m) = some r ↔
      ∃ k ≤ b.length,
        (Pyth.Strict.accumulatorUpdate env.keccak256 P).parseAll ((cut b k).bytes m) = some r := by
  rw [(local_accumulatorUpdate P).parsePrefix_iff_cut]
  constructor
  · rintro ⟨k, hk, hrun⟩
    rw [CalldataBytes.length_bytes] at hk
    have hnat : (BitVec.ofNat 256 k).toNat = k := by
      rw [BitVec.toNat_ofNat, Nat.mod_eq_of_lt (hk.trans_lt b.length.isLt)]
    have hle : BitVec.ofNat 256 k ≤ b.length := by
      rw [BitVec.le_def, hnat]
      exact hk
    exact ⟨BitVec.ofNat 256 k, hle, by rwa [bytes_cut hle, hnat]⟩
  · rintro ⟨k, hk, hrun⟩
    rw [bytes_cut hk] at hrun
    exact ⟨k.toNat, by simpa using BitVec.le_def.mp hk, hrun⟩

theorem aptosAgrees (hmagic : (b.bytes m).take 4 = accumulatorMagic)
    (h : SameVaa P env aptos sui verifiedVaa (b.bytes m)) :
    AptosAgrees env m P b aptos w where
  succeeds := by
    unfold Aptos.updatePriceFeedFromSingleVaa
    simp only [evmUpdate_eq_ok]
    constructor
    · rintro ⟨totalUpdates, s', haptos⟩
      obtain ⟨read, hread, -⟩ := except_bind_eq_ok.mp haptos
      obtain ⟨r, hparse, -⟩ := (aptos_agree hmagic h).of_ok hread
      obtain ⟨k, hk, hrun⟩ := parsePrefix_iff_cut.mp hparse
      exact ⟨k, hk, r.1, _, r.2, hrun, rfl⟩
    · rintro ⟨k, hk, numUpdates, w', updates, hrun, -⟩
      obtain ⟨read, hread, -⟩ :=
        (aptos_agree hmagic h).of_some (parsePrefix_iff_cut.mpr ⟨k, hk, hrun⟩)
      exact ⟨read.1, _, except_bind_eq_ok.mpr ⟨read, hread, rfl⟩⟩
  sameStore := by
    intro totalUpdates s' k numUpdates w' hk haptos hevm
    obtain ⟨updates, hrun, rfl⟩ := evmUpdate_eq_ok.mp hevm
    obtain ⟨read, hread, hs'⟩ := except_bind_eq_ok.mp haptos
    cases hs'
    obtain ⟨r, hparse, hsame, hcount⟩ := (aptos_agree hmagic h).of_ok hread
    obtain rfl : r = (numUpdates, updates) :=
      Option.some.inj (hparse.symm.trans (parsePrefix_iff_cut.mpr ⟨k, hk, hrun⟩))
    refine ⟨hcount, fun updates' happlied hstore hpositive id => ?_⟩
    rw [Pyth.applyUpdates_applied] at happlied
    obtain rfl := List.append_cancel_left happlied
    obtain ⟨htime, hprice⟩ := updateCache_same hstore hsame hpositive id
    refine ⟨BitVec.eq_of_toNat_eq ?_, hprice⟩
    rw [← htime]
    cases (Aptos.updateCache read.2 aptos).latestPriceInfo id <;> rfl

/-- The three contracts accept the same updates, and they store the same prices. -/
theorem move_updates_agree (env : Aptos.Env) (clock : U64) (m : Machine)
    (P : Bytes → Pyth.Result VM) (b : CalldataBytes) (aptos : Aptos.State) (sui : Sui.State)
    (verifiedVaa : Sui.VAA) (w : World) (hmagic : (b.bytes m).take 4 = accumulatorMagic)
    (hvaa : SameVaa P env aptos sui verifiedVaa (b.bytes m)) :
    SuiAgrees env clock m P b sui verifiedVaa w ∧ AptosAgrees env m P b aptos w :=
  ⟨suiAgrees hvaa, aptosAgrees hmagic hvaa⟩

end

/-! ### An update with two messages of one feed -/

open Fuel (exMessage exLeaf exPriceEmitter)

/-- A newer price of BTC/USD than that of `exMessage`. -/
def exNewerMessage : Bytes :=
  [0] ++ bytesBE 32 0xe62df6c8b4a85fe1a67db44dc12de5db330f7ac66b72dc658afedf0f4a415b43
    ++ bytesBE 8 6200000000000 ++ bytesBE 8 2500000000 ++ bytesBE 4 (2 ^ 32 - 8)
    ++ bytesBE 8 1700000005 ++ bytesBE 8 1700000002 ++ bytesBE 8 6090000000000
    ++ bytesBE 8 2600000000

def exNewerLeaf : Bytes32 := 0x51d64bf3f0cefacd612e53cb9f9d91dfbc17bb3cf82282c459b23d0d8415302e
def exTwoNode : Bytes32 := 0x888c389ba9864030d4c82ffd9d959e1ca32832a63826b01106f15531c67d227f

/-- Keccak-256 on the two leaves and the root. -/
def exTwoKeccak (bytes : Bytes) : Bytes32 :=
  if bytes = [0] ++ exMessage then exLeaf
  else if bytes = [0] ++ exNewerMessage then exNewerLeaf
  else if bytes = [1] ++ (wordBytes exLeaf).take 20 ++ (wordBytes exNewerLeaf).take 20 then
    exTwoNode
  else 0

def exTwoPayload : Bytes :=
  [0x41, 0x55, 0x57, 0x56, 0] ++ bytesBE 8 101 ++ bytesBE 4 10000 ++ (wordBytes exTwoNode).take 20

def exTwoVaa : Bytes :=
  [1] ++ bytesBE 4 0 ++ [1] ++ [0]
    ++ bytesBE 32 0x065eaba769cd491fb8dc5242c4d3bbbd48b09e4ff0f3aa56731a3d9365480550
    ++ bytesBE 32 0x47111fd663a78daf4c40c9865f625fb1b129c8a664d32003e9c52f824a067348 ++ [0]
    ++ (bytesBE 4 1700000005 ++ bytesBE 4 0 ++ bytesBE 2 26 ++ bytesBE 32 exPriceEmitter.toNat
      ++ bytesBE 8 6 ++ [1] ++ exTwoPayload)

/-- The update has the newer message first. -/
def exTwoData : Bytes :=
  accumulatorMagic ++ [1, 0, 0, 0] ++ [0, 160] ++ exTwoVaa ++ [2]
    ++ [0, 85] ++ exNewerMessage ++ [1] ++ (wordBytes exLeaf).take 20
    ++ [0, 85] ++ exMessage ++ [1] ++ (wordBytes exNewerLeaf).take 20

def exTwoMachine : Machine where
  calldata a := exTwoData.getD (a - 4).toNat 0
  aroundCopy _ _ := 0
  aroundReturned _ := 0
  checksSlices := true

def exTwoCalldata : CalldataBytes where
  offset := 4
  length := 387

/-- What the EVM contract accepts. -/
def exParseVaa (encodedVm : Bytes) : Pyth.Result VM :=
  if encodedVm = exTwoVaa then
    .ok { emitterChainId := 26, emitterAddress := exPriceEmitter, sequence := 6,
          payload := exTwoPayload }
  else .error (.error .invalidWormholeVaa)

def exEmitter : PythnetSdk.HashArray 32 :=
  PythnetSdk.HashArray.ofNat 32 exPriceEmitter.toNat

def exAptosVaa : Aptos.VAA where
  emitterChain := 26
  emitterAddress := exEmitter
  sequence := 6
  payload := exTwoPayload

def exEnv : Aptos.Env where
  keccak256 := exTwoKeccak
  parseAndVerify vaa := if vaa = exTwoVaa then .ok exAptosVaa else .error .external
  publishPackage _ _ := .ok ()
  now := 1700000100
  chainId := 22

def exAptos : Aptos.State where
  dataSources := [{ emitterChain := 26, emitterAddress := exEmitter }]
  stalePriceThreshold := 60
  baseUpdateFee := 1
  latestPriceInfo _ := none
  governanceDataSource := { emitterChain := 1, emitterAddress := exEmitter }
  lastExecutedGovernanceSequence := 0
  contractUpgradeAuthorized := none

def exSui : Sui.State where
  governanceDataSource := { emitterChain := 1, emitterAddress := exEmitter }
  stalePriceThreshold := 60
  baseUpdateFee := 1
  feeRecipientAddress := exEmitter
  lastExecutedGovernanceSequence := 0
  dataSources := [{ emitterChain := 26, emitterAddress := exEmitter }]
  latest := true
  authorizedDigest := exEmitter

def exSuiVaa : Sui.VAA where
  emitterChain := 26
  emitterAddress := exEmitter
  sequence := 6
  payload := exTwoPayload
  digest := exEmitter

theorem embeddedVaa_exTwoData :
    (embeddedVaa exTwoData).map Prod.fst = some exTwoVaa := by
  decide +kernel

theorem exSameVaa : SameVaa exParseVaa exEnv exAptos exSui exSuiVaa exTwoData where
  latest := rfl
  validSource := List.mem_singleton.mpr rfl
  accepted := by
    intro vaa rest hvaa
    have hfirst := embeddedVaa_exTwoData
    rw [hvaa] at hfirst
    obtain rfl : vaa = exTwoVaa := Option.some.inj hfirst
    refine ⟨_, exAptosVaa, if_pos rfl, ?_, rfl, ?_, rfl, rfl, rfl, rfl⟩
    · exact except_toOption_eq_some.mp (by decide +kernel)
    · decide +kernel

/-- The three contracts accept the update. Sui returns two prices, and Aptos holds the newer one,
which came first. -/
theorem move_updates_example :
    (SuiAgrees exEnv 1700000100000 exTwoMachine exParseVaa exTwoCalldata exSui exSuiVaa {}
      ∧ AptosAgrees exEnv exTwoMachine exParseVaa exTwoCalldata exAptos {}) ∧
    (Sui.createAuthenticatedPriceInfosUsingAccumulator exTwoKeccak exSui exTwoData exSuiVaa
      1700000100000).toOption.map (fun v => v.contents.length) = some 2 ∧
    (Aptos.updatePriceFeedFromSingleVaa exEnv exTwoData exAptos).toOption.map (fun r =>
      (r.1, publishTimeOf (r.2.latestPriceInfo (PythnetSdk.HashArray.ofNat 32
        0xe62df6c8b4a85fe1a67db44dc12de5db330f7ac66b72dc658afedf0f4a415b43))))
      = some (2, 1700000005) := by
  have hbytes : exTwoCalldata.bytes exTwoMachine = exTwoData := by decide +kernel
  refine ⟨move_updates_agree exEnv _ exTwoMachine exParseVaa exTwoCalldata exAptos exSui
    exSuiVaa {} ?_ ?_, ?_, ?_⟩
  · rw [hbytes]
    decide +kernel
  · rw [hbytes]
    exact exSameVaa
  · decide +kernel
  · decide +kernel

end PythCrosschain.MovePackages
