import PythCrosschain.PythnetSdk.WormholeAttester
import PythCrosschain.Sui.PriceFeeds
import PythCrosschain.Sui.Receipts

/-!
# Sui: price objects over whole runs

A programmable transaction reads VAAs into vectors that can neither be stored nor dropped, updates
price objects with them and destroys them. It makes and consumes receipts of governance VAAs in
between, which can change the data sources. A command that aborts undoes the whole transaction.

The public functions that only read, and `new_price_info`, whose values no other function takes,
are left out. `readings` are the VAAs that were read, with the data sources at that moment. The
results are:

- `createAndSharePriceFeeds_sound` and `updateSinglePriceFeed_ok`: what the functions do to the
  objects;
- `runCommand_sound`: what one command preserves;
- `price_objects_sound`: objects and registry in every run of transactions.
-/

namespace PythCrosschain.Sui.Prices

open Move MovePackages
open Sui (Command)

/-! ## Transactions -/

/-- A VAA that was read, with the data sources at this moment. Updates that are proven with it
come in an accumulator message. -/
structure Reading where
  vaa : VAA
  dataSources : List DataSource
  clock : U64
  accumulatorMessage : Option Bytes

structure Ledger where
  chain : Chain
  readings : List Reading := []

/-- A ledger within a transaction, with the receipts and the vectors that are not consumed. -/
structure Frame extends Ledger where
  receipts : List Held := []
  vectors : List HotPotatoVector := []

/-- A command about VAAs that Wormhole has verified, about the `i`-th vector, or about an object.
The clock is in milliseconds. -/
inductive PriceCommand where
  | governance (command : Command)
  | createPriceFeeds (verifiedVaas : List VAA) (clock : U64)
  | createPriceFeedsUsingAccumulator (accumulatorMessage : Bytes) (vaa : VAA) (clock : U64)
  | createPriceInfosHotPotato (verifiedVaas : List VAA) (clock : U64)
  | createAuthenticatedPriceInfosUsingAccumulator (accumulatorMessage : Bytes) (verifiedVaa : VAA)
      (clock : U64)
  | updateSinglePriceFeed (i : ℕ) (object : ObjectId) (fee : U64)
  | depositFeeCoins (object : ObjectId) (feeCoins : U64)
  | destroy (i : ℕ)

/-- What a command refers to. -/
def lookup {α : Type} (o : Option α) : Result α := orAbort .external o

def Frame.reading (f : Frame) (clock : U64) (accumulatorMessage : Option Bytes) (vaa : VAA) :
    Reading where
  vaa
  dataSources := f.chain.state.dataSources
  clock
  accumulatorMessage

/-- The chain with another value of an object. -/
def setObject (c : Chain) (object : ObjectId) (o : PriceInfoObject) : Chain :=
  { c with objects := Function.update c.objects object (some o) }

section

variable (chainId : U64) (keccak256 : Bytes → BitVec 256)

/-- An update gives the vector back. -/
def runCommand (f : Frame) : PriceCommand → Result Frame
  | .governance command => do
    let g ← Sui.runCommand chainId { state := f.chain.state, held := f.receipts } command
    return { f with chain := { f.chain with state := g.state }, receipts := g.held }
  | .createPriceFeeds verifiedVaas clock => do
    let chain ← createPriceFeeds verifiedVaas clock f.chain
    return { f with chain, readings := f.readings ++ verifiedVaas.map (f.reading clock none) }
  | .createPriceFeedsUsingAccumulator accumulatorMessage vaa clock => do
    let chain ← createPriceFeedsUsingAccumulator keccak256 accumulatorMessage vaa clock f.chain
    return { f with chain, readings := f.readings ++ [f.reading clock (some accumulatorMessage) vaa] }
  | .createPriceInfosHotPotato verifiedVaas clock => do
    let priceUpdates ← createPriceInfosHotPotato f.chain.state verifiedVaas clock
    return { f with
      readings := f.readings ++ verifiedVaas.map (f.reading clock none)
      vectors := f.vectors ++ [priceUpdates] }
  | .createAuthenticatedPriceInfosUsingAccumulator accumulatorMessage verifiedVaa clock => do
    let priceUpdates ← createAuthenticatedPriceInfosUsingAccumulator keccak256 f.chain.state
      accumulatorMessage verifiedVaa clock
    return { f with
      readings := f.readings ++ [f.reading clock (some accumulatorMessage) verifiedVaa]
      vectors := f.vectors ++ [priceUpdates] }
  | .updateSinglePriceFeed i object fee => do
    let priceUpdates ← lookup f.vectors[i]?
    let o ← lookup (f.chain.objects object)
    let o ← updateSinglePriceFeed f.chain.state priceUpdates o fee
    return { f with chain := setObject f.chain object o }
  | .depositFeeCoins object feeCoins => do
    let o ← lookup (f.chain.objects object)
    let o ← o.depositFeeCoins feeCoins
    return { f with chain := setObject f.chain object o }
  | .destroy i => do
    let _ ← lookup f.vectors[i]?
    return { f with vectors := f.vectors.eraseIdx i }

/-- The commands of a transaction, which all succeed or have no effect. -/
def runTransaction (commands : List PriceCommand) (l : Ledger) : Result Ledger := do
  let f ← commands.foldlM (runCommand chainId keccak256) { toLedger := l }
  if f.receipts.isEmpty ∧ f.vectors.isEmpty then return f.toLedger else .error .external

end

/-! ## Where price infos come from -/

section

variable (keccak256 : Bytes → BitVec 256)

/-- The price info is that of a message, which is proven for the root in a payload. -/
def Proven (vaaPayload : Bytes) (now : U64) (info : PriceInfo) : Prop :=
  ∃ root message proof rest,
    parseAccumulatorMerkleRootFromVaaPayload Accumulator.codes vaaPayload = .ok root ∧
      parseAccumulatorUpdateMessage errors Accumulator.codes now message = .ok info ∧
      MerkleTree.isProofValid keccak256 root message proof = .ok (true, rest)

/-- The price info comes from the VAA, whose emitter was a data source. -/
def Reading.Gives (r : Reading) (info : PriceInfo) : Prop :=
  r.vaa.source ∈ r.dataSources ∧
    match r.accumulatorMessage with
    | none => ∃ batch,
        BatchPriceAttestation.deserialize errors r.vaa.payload (seconds r.clock) = .ok batch ∧
          info ∈ batch.priceInfos
    | some message => (∃ infos rest,
        Accumulator.parseAndVerifyAccumulatorMessage keccak256 r.vaa.payload (seconds r.clock)
            message = .ok (infos, rest) ∧ info ∈ infos) ∧
          Proven keccak256 r.vaa.payload (seconds r.clock) info

/-- The price info comes from one of the VAAs that were read. -/
def Authentic (readings : List Reading) (info : PriceInfo) : Prop :=
  ∃ r ∈ readings, r.Gives keccak256 info

end

/-! ## Objects and registry -/

/-- The registry maps the ids of the objects to them, and their price infos are as `Q` says. -/
structure ChainSound (Q : PriceInfo → Prop) (c : Chain) : Prop where
  registered : ∀ id object,
    c.registry id = some object ↔ (c.objects object).map PriceInfoObject.identifier = some id
  unused : ∀ object, c.nextId ≤ object → c.objects object = none
  authentic : ∀ object o, c.objects object = some o → Q o.priceInfo

/-- Entries and objects stay, and their publish times and fees do not decrease. -/
structure Extends (c c' : Chain) : Prop where
  entry : ∀ id object, c.registry id = some object → c'.registry id = some object
  kept : ∀ object o, c.objects object = some o → ∃ o', c'.objects object = some o' ∧
    o'.identifier = o.identifier ∧ o.timestamp ≤ o'.timestamp ∧ o.balance ≤ o'.balance

theorem Extends.refl (c : Chain) : Extends c c where
  entry _ _ h := h
  kept _ o h := ⟨o, h, rfl, BitVec.le_refl _, BitVec.le_refl _⟩

theorem Extends.trans {c₁ c₂ c₃ : Chain} (h₁ : Extends c₁ c₂) (h₂ : Extends c₂ c₃) :
    Extends c₁ c₃ where
  entry id object h := h₂.entry id object (h₁.entry id object h)
  kept object o h := by
    obtain ⟨o₂, ho₂, hid₂, htime₂, hfee₂⟩ := h₁.kept object o h
    obtain ⟨o₃, ho₃, hid₃, htime₃, hfee₃⟩ := h₂.kept object o₂ ho₂
    exact ⟨o₃, ho₃, hid₃.trans hid₂, BitVec.le_trans htime₂ htime₃, BitVec.le_trans hfee₂ hfee₃⟩

section

variable {keccak256 : Bytes → BitVec 256} {Q : PriceInfo → Prop} {c c' : Chain}

theorem ChainSound.mono {Q' : PriceInfo → Prop} (h : ChainSound Q c) (hQ : ∀ info, Q info → Q' info) :
    ChainSound Q' c :=
  ⟨h.registered, h.unused, fun object o ho => hQ _ (h.authentic object o ho)⟩

/-- No two objects have the same id. -/
theorem ChainSound.unique (h : ChainSound Q c) {object object' : ObjectId} {o o' : PriceInfoObject}
    (ho : c.objects object = some o) (ho' : c.objects object' = some o')
    (hid : o.identifier = o'.identifier) : object = object' := by
  have hentry := (h.registered o.identifier object).mpr (by rw [ho, Option.map_some])
  have hentry' := (h.registered o.identifier object').mpr (by rw [ho', Option.map_some, hid])
  exact Option.some.inj (hentry.symm.trans hentry')

/-- A new object under a new id. -/
theorem ChainSound.share (h : ChainSound Q c) {info : PriceInfo} (hinfo : Q info)
    (hnew : c.registry info.identifier = none) (hok : c.shareNewObject info = .ok c') :
    ChainSound Q c' ∧ Extends c c' := by
  obtain ⟨registered, hregister, hok⟩ := except_bind_eq_ok.mp hok
  obtain ⟨_, -, hregister⟩ := except_bind_eq_ok.mp hregister
  cases hregister
  cases hok
  have hfree := h.unused c.nextId le_rfl
  refine ⟨⟨fun id object => ?_, fun object hobject => ?_, fun object o ho => ?_⟩,
    ⟨fun id object hentry => ?_, fun object o ho => ?_⟩⟩
  · show Function.update c.registry info.identifier (some c.nextId) id = some object ↔
      (Function.update c.objects c.nextId _ object).map _ = some id
    by_cases hid : id = info.identifier
    · subst hid
      rw [Function.update_self]
      by_cases hobject : object = c.nextId
      · subst hobject
        rw [Function.update_self]
        exact iff_of_true rfl rfl
      · rw [Function.update_of_ne hobject, ← h.registered, hnew]
        exact iff_of_false (fun heq => hobject (Option.some.inj heq).symm) nofun
    · rw [Function.update_of_ne hid]
      by_cases hobject : object = c.nextId
      · subst hobject
        rw [Function.update_self, h.registered, hfree]
        exact iff_of_false nofun fun heq => hid (Option.some.inj heq).symm
      · rw [Function.update_of_ne hobject, h.registered]
  · have hne : object ≠ c.nextId := Nat.ne_of_gt hobject
    show Function.update c.objects c.nextId _ object = none
    rw [Function.update_of_ne hne]
    exact h.unused object (Nat.le_of_succ_le hobject)
  · have ho : Function.update c.objects c.nextId (some ⟨info, none⟩) object = some o := ho
    by_cases hobject : object = c.nextId
    · subst hobject
      rw [Function.update_self] at ho
      cases ho
      exact hinfo
    · rw [Function.update_of_ne hobject] at ho
      exact h.authentic object o ho
  · have hne : id ≠ info.identifier := by
      rintro rfl
      cases hnew.symm.trans hentry
    show Function.update c.registry info.identifier _ id = some object
    rw [Function.update_of_ne hne, hentry]
  · have hne : object ≠ c.nextId := by
      rintro rfl
      cases hfree.symm.trans ho
    refine ⟨o, ?_, rfl, BitVec.le_refl _, BitVec.le_refl _⟩
    show Function.update c.objects c.nextId _ object = some o
    rw [Function.update_of_ne hne, ho]

/-- An object with another value for the same id. -/
theorem ChainSound.setObject (h : ChainSound Q c) {object : ObjectId} {o o' : PriceInfoObject}
    (ho : c.objects object = some o) (hid : o'.identifier = o.identifier) (hinfo : Q o'.priceInfo)
    (htime : o.timestamp ≤ o'.timestamp) (hfee : o.balance ≤ o'.balance) :
    ChainSound Q (setObject c object o') ∧ Extends c (setObject c object o') := by
  have hself : (Prices.setObject c object o').objects object = some o' := Function.update_self ..
  have hother : ∀ {other}, other ≠ object →
      (Prices.setObject c object o').objects other = c.objects other :=
    fun hne => Function.update_of_ne hne ..
  have hregistry : (Prices.setObject c object o').registry = c.registry := rfl
  refine ⟨⟨fun id other => ?_, fun other hunused => ?_, fun other p hp => ?_⟩,
    ⟨fun id other hentry => hentry, fun other p hp => ?_⟩⟩
  · rw [hregistry, h.registered]
    by_cases hobject : other = object
    · subst hobject
      rw [hself, ho, Option.map_some, Option.map_some, hid]
    · rw [hother hobject]
  · have hne : other ≠ object := by
      rintro rfl
      cases (h.unused other hunused).symm.trans ho
    rw [hother hne]
    exact h.unused other hunused
  · by_cases hobject : other = object
    · subst hobject
      rw [hself] at hp
      cases hp
      exact hinfo
    · rw [hother hobject] at hp
      exact h.authentic other p hp
  · by_cases hobject : other = object
    · subst hobject
      cases ho.symm.trans hp
      exact ⟨o', hself, hid, htime, hfee⟩
    · exact ⟨p, (hother hobject).trans hp, rfl, BitVec.le_refl _, BitVec.le_refl _⟩

/-! ## What the functions do -/

theorem createAndSharePriceFeeds_sound {infos : List PriceInfo} (h : ChainSound Q c)
    (hinfos : ∀ info ∈ infos, Q info)
    (hok : createAndSharePriceFeedsUsingVerifiedPriceInfos infos c = .ok c') :
    ChainSound Q c' ∧ Extends c c' ∧ c'.state = c.state := by
  have hall : ∀ info ∈ infos.reverse, Q info := fun info hmem => hinfos info (List.mem_reverse.mp hmem)
  unfold createAndSharePriceFeedsUsingVerifiedPriceInfos at hok
  generalize infos.reverse = priceInfos at hall hok
  induction priceInfos generalizing c with
  | nil =>
    cases hok
    exact ⟨h, .refl _, rfl⟩
  | cons info priceInfos ih =>
    obtain ⟨hinfo, hothers⟩ := List.forall_mem_cons.mp hall
    rw [List.foldlM_cons] at hok
    obtain ⟨c₁, hfirst, hok⟩ := except_bind_eq_ok.mp hok
    unfold createAndSharePriceFeed at hfirst
    by_cases hnew : c.registry info.identifier = none
    · rw [if_pos hnew] at hfirst
      obtain ⟨h₁, hextends⟩ := h.share hinfo hnew hfirst
      obtain ⟨h', hextends', hstate⟩ := ih h₁ hothers hok
      refine ⟨h', hextends.trans hextends', hstate.trans ?_⟩
      obtain ⟨_, hregister, hfirst⟩ := except_bind_eq_ok.mp hfirst
      obtain ⟨_, -, hregister⟩ := except_bind_eq_ok.mp hregister
      cases hregister
      cases hfirst
      rfl
    · rw [if_neg hnew] at hfirst
      cases hfirst
      exact ih h hothers hok

/-- A batch is read from a VAA of a data source. -/
theorem attestedPriceInfos_gives {s : State} {vaa : VAA} {clock : U64} {infos : List PriceInfo}
    (hok : attestedPriceInfos s vaa clock = .ok infos) :
    ∀ info ∈ infos, Reading.Gives keccak256 ⟨vaa, s.dataSources, clock, none⟩ info := by
  obtain ⟨_, hsource, hok⟩ := except_bind_eq_ok.mp hok
  obtain ⟨batch, hbatch, hok⟩ := except_bind_eq_ok.mp hok
  cases hok
  exact fun info hinfo => ⟨assert_eq_ok.mp hsource, batch, hbatch, hinfo⟩

/-- Updates are proven with the root of the VAA. -/
theorem proven_of_parseAndVerify {vaaPayload message : Bytes} {now : U64} {infos : List PriceInfo}
    {rest : Bytes}
    (hok : Accumulator.parseAndVerifyAccumulatorMessage keccak256 vaaPayload now message
      = .ok (infos, rest)) : ∀ info ∈ infos, Proven keccak256 vaaPayload now info := by
  unfold Accumulator.parseAndVerifyAccumulatorMessage at hok
  simp only [Decoder.bind_run_eq_ok, Decoder.lift_run_eq_ok] at hok
  -- the header, the trailing bytes, the type of the proof and the VAA come first
  obtain ⟨_, _, -, _, _, -, _, _, -, _, _, -, _, _, -, _, _, -, _, _, -, _, _, -, _, _, -, _, _, -,
    _, _, -, _, _, -, root, _, ⟨hroot, -⟩, hok⟩ := hok
  obtain ⟨size, _, -, hok⟩ := Decoder.bind_run_eq_ok.mp hok
  refine Decoder.forall_mem_elements (fun bytes info rest' hinfo => ?_) hok
  unfold Accumulator.takeUpdate at hinfo
  simp only [Decoder.bind_run_eq_ok, Decoder.lift_run_eq_ok] at hinfo
  obtain ⟨_, _, -, updateMessage, _, -, _, _, ⟨hparsed, rfl⟩, valid, _, hvalid, _, _, ⟨htrue, -⟩,
    hinfo⟩ := hinfo
  cases hinfo
  obtain rfl := assert_eq_ok.mp htrue
  exact ⟨root, updateMessage, _, _, hroot, hparsed, hvalid⟩

theorem depositFeeCoins_ok {o o' : PriceInfoObject} {feeCoins : U64}
    (hok : o.depositFeeCoins feeCoins = .ok o') :
    o'.priceInfo = o.priceInfo ∧ o'.balance.toNat = o.balance.toNat + feeCoins.toNat := by
  unfold PriceInfoObject.depositFeeCoins at hok
  cases hstored : o.feeStorage with
  | none =>
    rw [hstored] at hok
    cases hok
    refine ⟨rfl, ?_⟩
    simp [PriceInfoObject.balance, hstored]
  | some currentFee =>
    rw [hstored] at hok
    obtain ⟨joined, hjoined, hok⟩ := except_bind_eq_ok.mp hok
    cases hok
    refine ⟨rfl, ?_⟩
    simp only [PriceInfoObject.balance, hstored, Option.getD_some]
    exact ofNat_eq_ok.mp hjoined

/-- An object after an update with a vector. -/
structure Updated (s : State) (priceUpdates : HotPotatoVector) (o o' : PriceInfoObject) : Prop where
  fee : o.balance.toNat + s.baseUpdateFee.toNat ≤ o'.balance.toNat
  identifier : o'.identifier = o.identifier
  timestamp : ∃ update,
    priceUpdates.contents.find? (fun update => o.identifier = update.identifier) = some update ∧
      o'.timestamp.toNat = max o.timestamp.toNat update.timestamp.toNat
  priceInfo : o'.priceInfo = o.priceInfo ∨ o'.priceInfo ∈ priceUpdates.contents

theorem updateSinglePriceFeed_ok {s : State} {priceUpdates : HotPotatoVector}
    {o o' : PriceInfoObject} {fee : U64} (hok : updateSinglePriceFeed s priceUpdates o fee = .ok o') :
    Updated s priceUpdates o o' := by
  obtain ⟨_, -, hok⟩ := except_bind_eq_ok.mp hok
  obtain ⟨_, hfee, hok⟩ := except_bind_eq_ok.mp hok
  obtain ⟨o₁, hdeposit, hok⟩ := except_bind_eq_ok.mp hok
  have hfee := BitVec.le_def.mp (assert_eq_ok.mp hfee)
  obtain ⟨hinfo, hbalance⟩ := depositFeeCoins_ok hdeposit
  have hid : o₁.identifier = o.identifier := congrArg PriceInfo.identifier hinfo
  have htime : o₁.timestamp = o.timestamp := congrArg PriceInfo.timestamp hinfo
  rw [hid] at hok
  split at hok
  · next update hfind =>
    obtain ⟨_, hsame, hok⟩ := except_bind_eq_ok.mp hok
    have hsame := assert_eq_ok.mp hsame
    by_cases hfresh : isFreshUpdate update o₁ = true
    · rw [if_pos hfresh] at hok
      cases hok
      have hlater : o.timestamp.toNat < update.timestamp.toNat := by
        rw [← htime]
        exact BitVec.lt_def.mp (of_decide_eq_true hfresh)
      exact {
        fee := by
          show _ ≤ o₁.balance.toNat
          omega
        identifier := hsame.symm.trans hid
        timestamp := ⟨update, hfind, (max_eq_right hlater.le).symm⟩
        priceInfo := .inr (List.mem_of_find?_eq_some hfind) }
    · rw [if_neg hfresh] at hok
      cases hok
      have hearlier : update.timestamp.toNat ≤ o.timestamp.toNat := by
        rw [← htime]
        exact Nat.le_of_not_lt fun hlt => hfresh (decide_eq_true (BitVec.lt_def.mpr hlt))
      exact {
        fee := by omega
        identifier := hid
        timestamp := ⟨update, hfind, by rw [htime, max_eq_left hearlier]⟩
        priceInfo := .inl hinfo }
  · cases hok

/-- The price infos of the VAAs are shared. -/
theorem createPriceFeeds_sound {vaas : List VAA} {clock : U64} (h : ChainSound Q c)
    (hread : ∀ vaa ∈ vaas, ∀ info,
      Reading.Gives keccak256 ⟨vaa, c.state.dataSources, clock, none⟩ info → Q info)
    (hok : createPriceFeeds vaas clock c = .ok c') : ChainSound Q c' ∧ Extends c c' := by
  obtain ⟨_, -, hfold⟩ := except_bind_eq_ok.mp hok
  have hall : ∀ vaa ∈ vaas.reverse, ∀ info,
      Reading.Gives keccak256 ⟨vaa, c.state.dataSources, clock, none⟩ info → Q info :=
    fun vaa hmem => hread vaa (List.mem_reverse.mp hmem)
  clear hread hok
  generalize vaas.reverse = verifiedVaas at hall hfold
  induction verifiedVaas generalizing c with
  | nil =>
    cases hfold
    exact ⟨h, .refl _⟩
  | cons vaa verifiedVaas ih =>
    obtain ⟨hvaa, hothers⟩ := List.forall_mem_cons.mp hall
    rw [List.foldlM_cons] at hfold
    obtain ⟨c₁, hfirst, hrest⟩ := except_bind_eq_ok.mp hfold
    obtain ⟨infos, hinfos, hfirst⟩ := except_bind_eq_ok.mp hfirst
    obtain ⟨h₁, hextends, hstate⟩ := createAndSharePriceFeeds_sound h
      (fun info hinfo => hvaa info (attestedPriceInfos_gives hinfos info hinfo)) hfirst
    rw [← hstate] at hothers
    obtain ⟨h', hextends'⟩ := ih h₁ hothers hrest
    exact ⟨h', hextends.trans hextends'⟩

theorem createPriceInfosHotPotato_gives {s : State} {vaas : List VAA} {clock : U64}
    {priceUpdates : HotPotatoVector} (hok : createPriceInfosHotPotato s vaas clock = .ok priceUpdates) :
    ∀ info ∈ priceUpdates.contents, ∃ vaa ∈ vaas,
      Reading.Gives keccak256 ⟨vaa, s.dataSources, clock, none⟩ info := by
  obtain ⟨_, -, hok⟩ := except_bind_eq_ok.mp hok
  obtain ⟨updates, hupdates, hok⟩ := except_bind_eq_ok.mp hok
  cases hok
  intro info hinfo
  obtain ⟨infos, hinfos, hmem⟩ := List.mem_flatten.mp hinfo
  obtain ⟨vaa, hvaa, hread⟩ := exists_of_mem_mapM hupdates hinfos
  obtain ⟨attested, hattested, hread⟩ := except_bind_eq_ok.mp hread
  cases hread
  exact ⟨vaa, List.mem_reverse.mp hvaa,
    attestedPriceInfos_gives hattested info (List.mem_reverse.mp hmem)⟩

/-- A message of an accumulator is read with a VAA of a data source. -/
theorem accumulator_gives {s : State} {vaa : VAA} {clock : U64} {message rest : Bytes}
    {infos : List PriceInfo} (hsource : assertDataSource s vaa = .ok ())
    (hok : Accumulator.parseAndVerifyAccumulatorMessage keccak256 vaa.payload (seconds clock) message
      = .ok (infos, rest)) :
    ∀ info ∈ infos, Reading.Gives keccak256 ⟨vaa, s.dataSources, clock, some message⟩ info :=
  fun info hinfo => ⟨assert_eq_ok.mp hsource, ⟨infos, rest, hok, hinfo⟩,
    proven_of_parseAndVerify hok info hinfo⟩

end

/-! ## What a command preserves -/

/-- Objects and vectors hold what comes from VAAs. -/
structure Sound (keccak256 : Bytes → BitVec 256) (f : Frame) : Prop where
  chain : ChainSound (Authentic keccak256 f.readings) f.chain
  vectors : ∀ v ∈ f.vectors, ∀ info ∈ v.contents, Authentic keccak256 f.readings info

section

variable {chainId : U64} {keccak256 : Bytes → BitVec 256} {f f' : Frame}

theorem Authentic.append {readings : List Reading} (more : List Reading) {info : PriceInfo}
    (h : Authentic keccak256 readings info) : Authentic keccak256 (readings ++ more) info := by
  obtain ⟨r, hr, hgives⟩ := h
  exact ⟨r, List.mem_append_left _ hr, hgives⟩

theorem Authentic.new {readings more : List Reading} {r : Reading} {info : PriceInfo}
    (hr : r ∈ more) (hgives : r.Gives keccak256 info) :
    Authentic keccak256 (readings ++ more) info :=
  ⟨r, List.mem_append_right _ hr, hgives⟩

/-- With more VAAs that were read. -/
theorem Sound.readings (hf : Sound keccak256 f) (more : List Reading) :
    ChainSound (Authentic keccak256 (f.readings ++ more)) f.chain ∧
      ∀ v ∈ f.vectors, ∀ info ∈ v.contents, Authentic keccak256 (f.readings ++ more) info :=
  ⟨hf.chain.mono fun _ h => h.append more, fun v hv info hinfo => (hf.vectors v hv info hinfo).append more⟩

theorem lookup_eq_ok {α : Type} {o : Option α} {a : α} : lookup o = .ok a ↔ o = some a :=
  orAbort_eq_ok

/-- **What one command preserves.** -/
theorem runCommand_sound {command : PriceCommand} (hf : Sound keccak256 f)
    (hrun : runCommand chainId keccak256 f command = .ok f') :
    Sound keccak256 f' ∧ Extends f.chain f'.chain := by
  cases command with
  | governance command =>
    obtain ⟨g, -, hrun⟩ := except_bind_eq_ok.mp hrun
    cases hrun
    exact ⟨⟨⟨hf.chain.registered, hf.chain.unused, hf.chain.authentic⟩, hf.vectors⟩,
      ⟨(Extends.refl f.chain).entry, (Extends.refl f.chain).kept⟩⟩
  | createPriceFeeds vaas clock =>
    obtain ⟨chain, hchain, hrun⟩ := except_bind_eq_ok.mp hrun
    cases hrun
    obtain ⟨hold, hvectors⟩ := hf.readings (vaas.map (f.reading clock none))
    obtain ⟨hnew, hextends⟩ := createPriceFeeds_sound hold (fun vaa hvaa info hgives =>
      Authentic.new (List.mem_map_of_mem hvaa) hgives) hchain
    exact ⟨⟨hnew, hvectors⟩, hextends⟩
  | createPriceFeedsUsingAccumulator message vaa clock =>
    obtain ⟨chain, hchain, hrun⟩ := except_bind_eq_ok.mp hrun
    cases hrun
    obtain ⟨_, -, hchain⟩ := except_bind_eq_ok.mp hchain
    obtain ⟨_, hsource, hchain⟩ := except_bind_eq_ok.mp hchain
    obtain ⟨⟨infos, rest⟩, hinfos, hchain⟩ := except_bind_eq_ok.mp hchain
    obtain ⟨hold, hvectors⟩ := hf.readings [f.reading clock (some message) vaa]
    obtain ⟨hnew, hextends, -⟩ := createAndSharePriceFeeds_sound hold (fun info hinfo =>
      Authentic.new List.mem_cons_self (accumulator_gives hsource hinfos info hinfo)) hchain
    exact ⟨⟨hnew, hvectors⟩, hextends⟩
  | createPriceInfosHotPotato vaas clock =>
    obtain ⟨priceUpdates, hupdates, hrun⟩ := except_bind_eq_ok.mp hrun
    cases hrun
    obtain ⟨hold, hvectors⟩ := hf.readings (vaas.map (f.reading clock none))
    refine ⟨⟨hold, fun v hv info hinfo => ?_⟩, .refl _⟩
    rcases List.mem_append.mp hv with hv | hv
    · exact hvectors v hv info hinfo
    · obtain rfl := List.mem_singleton.mp hv
      obtain ⟨vaa, hvaa, hgives⟩ := createPriceInfosHotPotato_gives hupdates info hinfo
      exact Authentic.new (List.mem_map_of_mem hvaa) hgives
  | createAuthenticatedPriceInfosUsingAccumulator message vaa clock =>
    obtain ⟨priceUpdates, hupdates, hrun⟩ := except_bind_eq_ok.mp hrun
    cases hrun
    obtain ⟨_, -, hupdates⟩ := except_bind_eq_ok.mp hupdates
    obtain ⟨_, hsource, hupdates⟩ := except_bind_eq_ok.mp hupdates
    obtain ⟨infos, hinfos, hupdates⟩ := except_bind_eq_ok.mp hupdates
    obtain ⟨⟨_, rest⟩, hparsed, hinfos⟩ := except_bind_eq_ok.mp hinfos
    cases hupdates
    obtain ⟨hold, hvectors⟩ := hf.readings [f.reading clock (some message) vaa]
    refine ⟨⟨hold, fun v hv info hinfo => ?_⟩, .refl _⟩
    rcases List.mem_append.mp hv with hv | hv
    · exact hvectors v hv info hinfo
    · obtain rfl := List.mem_singleton.mp hv
      dsimp only at hinfos
      by_cases hrest : rest = []
      · rw [if_pos hrest] at hinfos
        cases hinfos
        exact Authentic.new List.mem_cons_self (accumulator_gives hsource hparsed info hinfo)
      · rw [if_neg hrest] at hinfos
        cases hinfos
  | updateSinglePriceFeed i object fee =>
    obtain ⟨priceUpdates, hv, hrun⟩ := except_bind_eq_ok.mp hrun
    obtain ⟨o, ho, hrun⟩ := except_bind_eq_ok.mp hrun
    obtain ⟨o', hupdate, hrun⟩ := except_bind_eq_ok.mp hrun
    cases hrun
    have hv := List.mem_of_getElem? (lookup_eq_ok.mp hv)
    have ho := lookup_eq_ok.mp ho
    obtain ⟨hfee, hid, ⟨update, -, htime⟩, hinfo⟩ := updateSinglePriceFeed_ok hupdate
    have hauthentic : Authentic keccak256 f.readings o'.priceInfo := by
      rcases hinfo with hinfo | hinfo
      · rw [hinfo]
        exact hf.chain.authentic object o ho
      · exact hf.vectors _ hv _ hinfo
    have hlater : o.timestamp ≤ o'.timestamp := by
      rw [BitVec.le_def, htime]
      exact Nat.le_max_left _ _
    have hmore : o.balance ≤ o'.balance := BitVec.le_def.mpr (Nat.le_of_add_right_le hfee)
    obtain ⟨hnew, hextends⟩ := hf.chain.setObject ho hid hauthentic hlater hmore
    exact ⟨⟨hnew, hf.vectors⟩, hextends⟩
  | depositFeeCoins object feeCoins =>
    obtain ⟨o, ho, hrun⟩ := except_bind_eq_ok.mp hrun
    obtain ⟨o', hdeposit, hrun⟩ := except_bind_eq_ok.mp hrun
    cases hrun
    have ho := lookup_eq_ok.mp ho
    obtain ⟨hinfo, hbalance⟩ := depositFeeCoins_ok hdeposit
    have hid : o'.identifier = o.identifier := congrArg PriceInfo.identifier hinfo
    have htime : o'.timestamp = o.timestamp := congrArg PriceInfo.timestamp hinfo
    have hmore : o.balance ≤ o'.balance := by
      rw [BitVec.le_def, hbalance]
      exact Nat.le_add_right _ _
    obtain ⟨hnew, hextends⟩ := hf.chain.setObject ho hid
      (hinfo ▸ hf.chain.authentic object o ho) (htime ▸ BitVec.le_refl _) hmore
    exact ⟨⟨hnew, hf.vectors⟩, hextends⟩
  | destroy i =>
    obtain ⟨_, -, hrun⟩ := except_bind_eq_ok.mp hrun
    cases hrun
    exact ⟨⟨hf.chain, fun v hv => hf.vectors v (List.mem_of_mem_eraseIdx hv)⟩, .refl _⟩

/-- What is new among the readings is read with the data sources of the state. -/
theorem readings_runCommand {command : PriceCommand}
    (hrun : runCommand chainId keccak256 f command = .ok f') :
    ∀ r ∈ f'.readings, r ∈ f.readings ∨ r.dataSources = f.chain.state.dataSources := by
  have happend : ∀ more : List Reading, (∀ r ∈ more, r.dataSources = f.chain.state.dataSources) →
      ∀ r ∈ f.readings ++ more, r ∈ f.readings ∨ r.dataSources = f.chain.state.dataSources :=
    fun more hmore r hr => (List.mem_append.mp hr).imp_right (hmore r)
  have hvaas : ∀ (vaas : List VAA) (clock : U64), ∀ r ∈ vaas.map (f.reading clock none),
      r.dataSources = f.chain.state.dataSources := by
    intro vaas clock r hr
    obtain ⟨vaa, -, rfl⟩ := List.mem_map.mp hr
    rfl
  have hvaa : ∀ (clock : U64) (message : Bytes) (vaa : VAA),
      ∀ r ∈ [f.reading clock (some message) vaa], r.dataSources = f.chain.state.dataSources := by
    intro clock message vaa r hr
    rw [List.mem_singleton.mp hr]
    rfl
  cases command with
  | createPriceFeeds vaas clock =>
    obtain ⟨_, -, hrun⟩ := except_bind_eq_ok.mp hrun
    cases hrun
    exact happend _ (hvaas vaas clock)
  | createPriceFeedsUsingAccumulator message vaa clock =>
    obtain ⟨_, -, hrun⟩ := except_bind_eq_ok.mp hrun
    cases hrun
    exact happend _ (hvaa clock message vaa)
  | createPriceInfosHotPotato vaas clock =>
    obtain ⟨_, -, hrun⟩ := except_bind_eq_ok.mp hrun
    cases hrun
    exact happend _ (hvaas vaas clock)
  | createAuthenticatedPriceInfosUsingAccumulator message vaa clock =>
    obtain ⟨_, -, hrun⟩ := except_bind_eq_ok.mp hrun
    cases hrun
    exact happend _ (hvaa clock message vaa)
  | governance command =>
    obtain ⟨_, -, hrun⟩ := except_bind_eq_ok.mp hrun
    cases hrun
    exact fun r hr => .inl hr
  | updateSinglePriceFeed i object fee =>
    obtain ⟨_, -, hrun⟩ := except_bind_eq_ok.mp hrun
    obtain ⟨_, -, hrun⟩ := except_bind_eq_ok.mp hrun
    obtain ⟨_, -, hrun⟩ := except_bind_eq_ok.mp hrun
    cases hrun
    exact fun r hr => .inl hr
  | depositFeeCoins object feeCoins =>
    obtain ⟨_, -, hrun⟩ := except_bind_eq_ok.mp hrun
    obtain ⟨_, -, hrun⟩ := except_bind_eq_ok.mp hrun
    cases hrun
    exact fun r hr => .inl hr
  | destroy i =>
    obtain ⟨_, -, hrun⟩ := except_bind_eq_ok.mp hrun
    cases hrun
    exact fun r hr => .inl hr

theorem runCommands_sound {commands : List PriceCommand} (hf : Sound keccak256 f)
    (hrun : commands.foldlM (runCommand chainId keccak256) f = .ok f') :
    Sound keccak256 f' ∧ Extends f.chain f'.chain := by
  induction commands generalizing f with
  | nil =>
    cases hrun
    exact ⟨hf, .refl _⟩
  | cons command commands ih =>
    rw [List.foldlM_cons] at hrun
    obtain ⟨f₁, hcommand, hrun⟩ := except_bind_eq_ok.mp hrun
    obtain ⟨hf₁, hextends⟩ := runCommand_sound hf hcommand
    obtain ⟨hf', hextends'⟩ := ih hf₁ hrun
    exact ⟨hf', hextends.trans hextends'⟩

theorem runTransaction_eq_ok {commands : List PriceCommand} {l l' : Ledger} :
    runTransaction chainId keccak256 commands l = .ok l' ↔
      ∃ f, commands.foldlM (runCommand chainId keccak256) { toLedger := l } = .ok f ∧
        f.receipts = [] ∧ f.vectors = [] ∧ f.toLedger = l' := by
  unfold runTransaction
  rw [except_bind_eq_ok]
  refine exists_congr fun f => and_congr_right fun _ => ?_
  by_cases hend : f.receipts.isEmpty ∧ f.vectors.isEmpty
  · rw [if_pos hend]
    constructor
    · intro h
      cases h
      exact ⟨List.isEmpty_iff.mp hend.1, List.isEmpty_iff.mp hend.2, rfl⟩
    · rintro ⟨-, -, rfl⟩
      rfl
  · rw [if_neg hend]
    exact iff_of_false nofun fun h => hend ⟨List.isEmpty_iff.mpr h.1, List.isEmpty_iff.mpr h.2.1⟩

/-- What a transaction preserves. -/
theorem runTransaction_sound {commands : List PriceCommand} {l l' : Ledger}
    (hl : Sound keccak256 { toLedger := l })
    (hrun : runTransaction chainId keccak256 commands l = .ok l') :
    Sound keccak256 { toLedger := l' } ∧ Extends l.chain l'.chain := by
  obtain ⟨f, hcommands, -, -, rfl⟩ := runTransaction_eq_ok.mp hrun
  obtain ⟨hf, hextends⟩ := runCommands_sound hl hcommands
  exact ⟨⟨hf.chain, nofun⟩, hextends⟩

end

/-! ## Runs -/

section

variable (chainId : U64) (keccak256 : Bytes → BitVec 256)

/-- The chain without price objects. -/
def start (state : State) (nextId : ObjectId) : Ledger where
  chain := { state, registry := fun _ => none, objects := fun _ => none, nextId }

/-- A frame of a run: after some transactions, and some commands of the next one. -/
def Reached (l : Ledger) (f : Frame) : Prop :=
  ∃ transactions commands, List.foldlM (runCommand chainId keccak256)
    { toLedger := runAll (runTransaction chainId keccak256) l transactions } commands = .ok f

/-- What holds of the objects of a frame. -/
structure PriceObjects (l : Ledger) (f : Frame) : Prop where
  unique : ∀ object object' o o', f.chain.objects object = some o →
    f.chain.objects object' = some o' → o.identifier = o'.identifier → object = object'
  registered : ∀ id object, f.chain.registry id = some object ↔
    ∃ o, f.chain.objects object = some o ∧ o.identifier = id
  authentic : ∀ object o, f.chain.objects object = some o →
    Authentic keccak256 f.readings o.priceInfo
  readings : ∀ r ∈ f.readings,
    ∃ g, Reached chainId keccak256 l g ∧ r.dataSources = g.chain.state.dataSources

end

section

variable {chainId : U64} {keccak256 : Bytes → BitVec 256} {l : Ledger}

theorem Reached.command {f f' : Frame} {command : PriceCommand} (h : Reached chainId keccak256 l f)
    (hrun : runCommand chainId keccak256 f command = .ok f') : Reached chainId keccak256 l f' := by
  obtain ⟨transactions, commands, hcommands⟩ := h
  refine ⟨transactions, commands ++ [command], ?_⟩
  rw [List.foldlM_append, hcommands]
  show (List.foldlM _ f [command] : Result Frame) = _
  rw [List.foldlM_cons, hrun]
  rfl

theorem Reached.commit {f : Frame} (h : Reached chainId keccak256 l f) (hreceipts : f.receipts = [])
    (hvectors : f.vectors = []) : Reached chainId keccak256 l { toLedger := f.toLedger } := by
  obtain ⟨transactions, commands, hcommands⟩ := h
  refine ⟨transactions ++ [commands], [], ?_⟩
  have hlast : runAll (runTransaction chainId keccak256) l (transactions ++ [commands])
      = f.toLedger := by
    rw [runAll, List.foldl_append]
    exact submit_of_ok (runTransaction_eq_ok.mpr ⟨f, hcommands, hreceipts, hvectors, rfl⟩)
  rw [hlast]
  rfl

/-- A run step by step. -/
theorem Reached.induction {p : Frame → Prop} (hstart : p { toLedger := l })
    (hcommand : ∀ f command f', Reached chainId keccak256 l f → p f →
      runCommand chainId keccak256 f command = .ok f' → p f')
    (hcommit : ∀ f, Reached chainId keccak256 l f → p f → p { toLedger := f.toLedger })
    {f : Frame} (h : Reached chainId keccak256 l f) : p f := by
  have hcommands : ∀ (commands : List PriceCommand) (f f' : Frame),
      Reached chainId keccak256 l f → p f →
        commands.foldlM (runCommand chainId keccak256) f = .ok f' →
          Reached chainId keccak256 l f' ∧ p f' := by
    intro commands
    induction commands with
    | nil =>
      intro f f' hf hp hrun
      cases hrun
      exact ⟨hf, hp⟩
    | cons command commands ih =>
      intro f f' hf hp hrun
      rw [List.foldlM_cons] at hrun
      obtain ⟨f₁, hfirst, hrun⟩ := except_bind_eq_ok.mp hrun
      exact ih f₁ f' (hf.command hfirst) (hcommand f command f₁ hf hp hfirst) hrun
  let holds (l' : Ledger) : Prop := Reached chainId keccak256 l { toLedger := l' } ∧
    p { toLedger := l' }
  have hledger : ∀ transactions, holds (runAll (runTransaction chainId keccak256) l transactions) := by
    have hfirst : holds l := ⟨⟨[], [], rfl⟩, hstart⟩
    refine runAll_invariant hfirst ?_
    rintro commands l₁ l₂ ⟨hreached, hp⟩ hrun
    obtain ⟨f, hf, hreceipts, hvectors, rfl⟩ := runTransaction_eq_ok.mp hrun
    obtain ⟨hreached', hp'⟩ := hcommands commands _ f hreached hp hf
    exact ⟨hreached'.commit hreceipts hvectors, hcommit f hreached' hp'⟩
  obtain ⟨transactions, commands, hrun⟩ := h
  obtain ⟨hreached, hp⟩ := hledger transactions
  exact (hcommands commands _ f hreached hp hrun).2

theorem sound_start (state : State) (nextId : ObjectId) :
    Sound keccak256 { toLedger := start state nextId } :=
  ⟨⟨fun _ _ => iff_of_false nofun nofun, fun _ _ => rfl, nofun⟩, nofun⟩

theorem Reached.sound {state : State} {nextId : ObjectId} {f : Frame}
    (h : Reached chainId keccak256 (start state nextId) f) : Sound keccak256 f :=
  h.induction (sound_start state nextId)
    (fun _ _ _ _ hf hrun => (runCommand_sound hf hrun).1) fun _ _ hf => ⟨hf.chain, nofun⟩

/-- The data sources of a reading are those of an earlier frame. -/
theorem Reached.readings {state : State} {nextId : ObjectId} {f : Frame}
    (h : Reached chainId keccak256 (start state nextId) f) :
    ∀ r ∈ f.readings, ∃ g, Reached chainId keccak256 (start state nextId) g ∧
      r.dataSources = g.chain.state.dataSources := by
  let current (f : Frame) : Prop := ∀ r ∈ f.readings,
    ∃ g, Reached chainId keccak256 (start state nextId) g ∧ r.dataSources = g.chain.state.dataSources
  have hstart : current { toLedger := start state nextId } := nofun
  refine h.induction (p := current) hstart (fun f command f' hf hold hrun r hr => ?_)
    fun f _ hold => hold
  rcases readings_runCommand hrun r hr with hr | hr
  · exact hold r hr
  · exact ⟨f, hf, hr⟩

theorem Reached.priceObjects {state : State} {nextId : ObjectId} {f : Frame}
    (h : Reached chainId keccak256 (start state nextId) f) :
    PriceObjects chainId keccak256 (start state nextId) f where
  unique _ _ _ _ ho ho' hid := h.sound.chain.unique ho ho' hid
  registered id object := by
    rw [h.sound.chain.registered, Option.map_eq_some_iff]
  authentic := h.sound.chain.authentic
  readings := h.readings

/-- A transaction with a command that aborts changes nothing. -/
theorem submit_of_abort {commands more : List PriceCommand} {command : PriceCommand} {f : Frame}
    {abort : Abort}
    (hcommands : commands.foldlM (runCommand chainId keccak256) { toLedger := l } = .ok f)
    (habort : runCommand chainId keccak256 f command = .error abort) :
    submit (runTransaction chainId keccak256) l (commands ++ command :: more) = l := by
  have hrun : (commands ++ command :: more).foldlM (runCommand chainId keccak256) { toLedger := l }
      = .error abort := by
    rw [List.foldlM_append, hcommands]
    show (List.foldlM _ f (command :: more) : Result Frame) = _
    rw [List.foldlM_cons, habort]
    rfl
  refine submit_of_error (e := abort) ?_
  rw [runTransaction, hrun]
  rfl

theorem runCommand_update {f f' : Frame} {i : ℕ} {object : ObjectId} {fee : U64}
    (hrun : runCommand chainId keccak256 f (.updateSinglePriceFeed i object fee) = .ok f') :
    ∃ priceUpdates o o', f.vectors[i]? = some priceUpdates ∧ f.chain.objects object = some o ∧
      f'.chain.objects object = some o' ∧ Updated f.chain.state priceUpdates o o' := by
  obtain ⟨priceUpdates, hv, hrun⟩ := except_bind_eq_ok.mp hrun
  obtain ⟨o, ho, hrun⟩ := except_bind_eq_ok.mp hrun
  obtain ⟨o', hupdate, hrun⟩ := except_bind_eq_ok.mp hrun
  cases hrun
  exact ⟨priceUpdates, o, o', lookup_eq_ok.mp hv, lookup_eq_ok.mp ho, Function.update_self ..,
    updateSinglePriceFeed_ok hupdate⟩

end

/-- **Price objects** in every frame of every run: one for each id, registered for good, with
what a VAA of a data source says. -/
theorem price_objects_sound (chainId : U64) (keccak256 : Bytes → BitVec 256) (state : State)
    (nextId : ObjectId) :
    (∀ f, Reached chainId keccak256 (start state nextId) f →
      PriceObjects chainId keccak256 (start state nextId) f ∧
      ∀ command f', runCommand chainId keccak256 f command = .ok f' →
        Extends f.chain f'.chain) ∧
    (∀ earlier later,
      Extends (runAll (runTransaction chainId keccak256) (start state nextId) earlier).chain
        (runAll (runTransaction chainId keccak256) (start state nextId) (earlier ++ later)).chain) ∧
    (∀ f f' i object fee,
      runCommand chainId keccak256 f (.updateSinglePriceFeed i object fee) = .ok f' →
        ∃ priceUpdates o o', f.vectors[i]? = some priceUpdates ∧ f.chain.objects object = some o ∧
          f'.chain.objects object = some o' ∧ Updated f.chain.state priceUpdates o o') ∧
    ∀ l commands f command abort more,
      List.foldlM (runCommand chainId keccak256) { toLedger := l } commands = .ok f →
        runCommand chainId keccak256 f command = .error abort →
          submit (runTransaction chainId keccak256) l (commands ++ command :: more) = l := by
  refine ⟨fun f hf => ⟨hf.priceObjects, fun command f' hrun => (runCommand_sound hf.sound hrun).2⟩,
    fun earlier later => ?_, fun f f' i object fee hrun => runCommand_update hrun,
    fun l commands f command abort more => submit_of_abort⟩
  have hearlier : Reached chainId keccak256 (start state nextId)
      { toLedger := runAll (runTransaction chainId keccak256) (start state nextId) earlier } :=
    ⟨earlier, [], rfl⟩
  have hsplit : runAll (runTransaction chainId keccak256) (start state nextId) (earlier ++ later)
      = runAll (runTransaction chainId keccak256)
          (runAll (runTransaction chainId keccak256) (start state nextId) earlier) later :=
    List.foldl_append
  rw [hsplit]
  exact runAll_extends (R := fun l l' : Ledger => Extends l.chain l'.chain) (fun l => .refl l.chain)
    Extends.trans hearlier.sound (fun commands l l' => runTransaction_sound) later

/-! ### An object that is created and updated -/

open PythnetSdk.Legacy (PriceAttestation ExtendedBatch)

def exAttestation (price publishTime : BitVec 64) : PriceAttestation where
  productId := PythnetSdk.HashArray.ofNat 32 7
  priceId :=
    PythnetSdk.HashArray.ofNat 32 0xe62df6c8b4a85fe1a67db44dc12de5db330f7ac66b72dc658afedf0f4a415b43
  price
  conf := 2500000000
  expo := -8
  emaPrice := 6090000000000
  emaConf := 2600000000
  status := .trading
  numPublishers := 20
  maxNumPublishers := 30
  attestationTime := publishTime
  publishTime
  prevPublishTime := 1700000000
  prevPrice := 6080000000000
  prevConf := 2700000000
  lastAttestedPublishTime := publishTime

def exBatch (price publishTime : BitVec 64) : ExtendedBatch where
  headerExtra := []
  extraSize := 0
  attestations := [(exAttestation price publishTime, ⟨[], rfl⟩)]
  headerFits := by decide
  sizeFits := by decide
  countFits := by simp

def exPriceSource : DataSource := ⟨26, ⟨List.replicate 32 0xc, rfl⟩⟩

def exPriceVaa (price publishTime : BitVec 64) : VAA where
  emitterChain := 26
  emitterAddress := exPriceSource.emitterAddress
  sequence := 5
  payload := (exBatch price publishTime).payload
  digest := PythnetSdk.HashArray.filled 32 0

/-- The object 7 is created, then updated for a fee of 3. -/
def exTransactions : List (List PriceCommand) :=
  [[.createPriceFeeds [exPriceVaa 6100000000000 1700000001] 1700000100000],
    [.createPriceInfosHotPotato [exPriceVaa 6120000000000 1700000002] 1700000200000,
      .updateSinglePriceFeed 0 7 3, .destroy 0]]

example :
    let l := runAll (runTransaction 21 fun _ => 0)
      (start { exState with dataSources := [exPriceSource] } 7) exTransactions
    l.chain.registry (exAttestation 0 0).priceId = some 7 ∧
      (l.chain.objects 7).map (fun o => (o.timestamp, o.balance)) = some (1700000002, 3) := by
  decide +kernel

end PythCrosschain.Sui.Prices
