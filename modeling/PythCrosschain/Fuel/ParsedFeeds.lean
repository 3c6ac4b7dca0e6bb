import PythCrosschain.Fuel.AccumulatorAgreement
import PythCrosschain.Fuel.BatchAttestation
import PythCrosschain.Lib.FirstMatch

/-!
# The Fuel contract: parsed price feeds

`parse_price_feed_updates` of `main.sw`, and `is_target` and `is_contained_within` of `price.sw`.
The price feeds that are returned are pushed in the order of the messages, and only their number is
compared with that of the target ids.

The results are:

- `parseAll_eq`: the loops keep the first price feed in range of each target id;
- `parsePriceFeedUpdates_eq_ok`: when a call succeeds, and with what;
- `parses_first_iff`: exactly when the price feeds come in the order of the target ids.
-/

namespace PythCrosschain.Fuel

open KeepFirst (keep keepFirst firstIdx)

/-! ## `price.sw` -/

def isTarget (priceFeedId : Bytes32) (targetPriceFeedIds : List Bytes32) : Bool :=
  targetPriceFeedIds.any fun target => target = priceFeedId

def isContainedWithin (priceFeedId : Bytes32) (outputPriceFeeds : List PriceFeed) : Bool :=
  outputPriceFeeds.any fun priceFeed => priceFeed.id = priceFeedId

/-! ## `main.sw` -/

/-- The arguments of a call, without the update data. -/
structure ParseRequest where
  maxPublishTime : BitVec 64
  minPublishTime : BitVec 64
  targetPriceFeedIds : List Bytes32

/-- What a round of both loops does with a price feed that is a target. -/
def ParseRequest.push (request : ParseRequest) (outputPriceFeeds : List PriceFeed)
    (priceFeed : PriceFeed) : List PriceFeed :=
  if priceFeed.price.publishTime ≥ request.minPublishTime ∧
      priceFeed.price.publishTime ≤ request.maxPublishTime then
    if isContainedWithin priceFeed.id outputPriceFeeds then outputPriceFeeds
    else outputPriceFeeds ++ [priceFeed]
  else outputPriceFeeds

section

variable (P : WormholeHost) (timestamp : BitVec 64) (s : PythStorage) (request : ParseRequest)

/-- The loop over the `n` updates that are left. -/
def parseUpdateLoop (digest encoded : Bytes) :
    (n offset : ℕ) → List PriceFeed → Result (ℕ × List PriceFeed)
  | 0, offset, outputPriceFeeds => return (offset, outputPriceFeeds)
  | n + 1, offset, outputPriceFeeds => do
    let (newOffset, priceFeed) ←
      PriceFeed.extractFromMerkleProof P.keccak256 digest encoded offset
    if isTarget priceFeed.id request.targetPriceFeedIds = false then
      parseUpdateLoop digest encoded n newOffset outputPriceFeeds
    else parseUpdateLoop digest encoded n newOffset (request.push outputPriceFeeds priceFeed)

/-- The loop over the `n` attestations that are left. -/
def parseAttestationLoop (attestationSize : BitVec 16) (payload : Bytes) :
    (n attestationIndex : ℕ) → List PriceFeed → Result (List PriceFeed)
  | 0, _, outputPriceFeeds => return outputPriceFeeds
  | n + 1, attestationIndex, outputPriceFeeds => do
    let (_, slice) ← splitAt payload (attestationIndex + 32)
    let (priceFeedId, _) ← splitAt slice 32
    let attestationIndex' := attestationIndex + attestationSize.toNat
    if isTarget (intoB256 priceFeedId) request.targetPriceFeedIds = false then
      parseAttestationLoop attestationSize payload n attestationIndex' outputPriceFeeds
    else do
      let priceFeed ← PriceFeed.parseAttestation attestationSize payload attestationIndex
      parseAttestationLoop attestationSize payload n attestationIndex'
        (request.push outputPriceFeeds priceFeed)

/-- One round of the outer loop. -/
def parseUpdate (data : Bytes) (outputPriceFeeds : List PriceFeed) : Result (List PriceFeed) := do
  match ← UpdateType.determineType data with
  | .accumulator accumulatorUpdate => do
    let (offset, digest, numberOfUpdates, encoded) ←
      accumulatorUpdate.verifyAndParse P timestamp s
    let (offset, outputPriceFeeds) ←
      parseUpdateLoop P request digest encoded numberOfUpdates.toNat offset outputPriceFeeds
    requirePyth (offset = encoded.length) .invalidUpdateDataLength
    return outputPriceFeeds
  | .batchAttestation data => do
    let vm ← ofWormhole
      (parseAndVerifyPythVm P s.toStorage timestamp s.wormholeGuardianSetIndex data)
    let (attestationIndex, numberOfAttestations, attestationSize) ←
      parseAndVerifyBatchAttestationHeader vm.payload
    parseAttestationLoop request attestationSize vm.payload numberOfAttestations.toNat
      attestationIndex outputPriceFeeds

/-- The outer loop. -/
def parseAll : List Bytes → List PriceFeed → Result (List PriceFeed)
  | [], outputPriceFeeds => return outputPriceFeeds
  | data :: updateData, outputPriceFeeds => do
    let outputPriceFeeds ← parseUpdate P timestamp s request data outputPriceFeeds
    parseAll updateData outputPriceFeeds

/-- The price feeds, and the storage, which is only read. -/
def parsePriceFeedUpdates (baseAsset : Bool) (msgAmount : BitVec 64) (updateData : List Bytes) :
    Result (List PriceFeed × PythStorage) := do
  requirePyth (baseAsset = true) .feesCanOnlyBePaidInTheBaseAsset
  let requiredFee ← updateFee s updateData
  requirePyth (msgAmount ≥ requiredFee) .insufficientFee
  let outputPriceFeeds ← parseAll P timestamp s request updateData []
  requirePyth (request.targetPriceFeedIds.length = outputPriceFeeds.length)
    .priceFeedNotFoundWithinRange
  return (outputPriceFeeds, s)

/-! ## The messages of the target ids -/

/-- The price feeds of the `n` updates that are left, for target ids. -/
def targetUpdates (digest encoded : Bytes) : (n offset : ℕ) → Result (ℕ × List PriceFeed)
  | 0, offset => return (offset, [])
  | n + 1, offset => do
    let (newOffset, priceFeed) ←
      PriceFeed.extractFromMerkleProof P.keccak256 digest encoded offset
    let (endOffset, priceFeeds) ← targetUpdates digest encoded n newOffset
    return (endOffset, if isTarget priceFeed.id request.targetPriceFeedIds then
      priceFeed :: priceFeeds else priceFeeds)

/-- The price feeds of the `n` attestations that are left, for target ids. Other attestations are
not read. -/
def targetAttestations (attestationSize : BitVec 16) (payload : Bytes) :
    (n attestationIndex : ℕ) → Result (List PriceFeed)
  | 0, _ => return []
  | n + 1, attestationIndex => do
    let (_, slice) ← splitAt payload (attestationIndex + 32)
    let (priceFeedId, _) ← splitAt slice 32
    let attestationIndex' := attestationIndex + attestationSize.toNat
    if isTarget (intoB256 priceFeedId) request.targetPriceFeedIds = false then
      targetAttestations attestationSize payload n attestationIndex'
    else do
      let priceFeed ← PriceFeed.parseAttestation attestationSize payload attestationIndex
      let priceFeeds ← targetAttestations attestationSize payload n attestationIndex'
      return priceFeed :: priceFeeds

/-- The messages for target ids of one update that verifies. -/
def targetsOf (data : Bytes) : Result (List PriceFeed) := do
  match ← UpdateType.determineType data with
  | .accumulator accumulatorUpdate => do
    let (offset, digest, numberOfUpdates, encoded) ←
      accumulatorUpdate.verifyAndParse P timestamp s
    let (offset, priceFeeds) ←
      targetUpdates P request digest encoded numberOfUpdates.toNat offset
    requirePyth (offset = encoded.length) .invalidUpdateDataLength
    return priceFeeds
  | .batchAttestation data => do
    let vm ← ofWormhole
      (parseAndVerifyPythVm P s.toStorage timestamp s.wormholeGuardianSetIndex data)
    let (attestationIndex, numberOfAttestations, attestationSize) ←
      parseAndVerifyBatchAttestationHeader vm.payload
    targetAttestations request attestationSize vm.payload numberOfAttestations.toNat
      attestationIndex

/-- The messages for target ids of updates that verify, in the order in which they appear. -/
def targetMessages : List Bytes → Result (List PriceFeed)
  | [] => return []
  | data :: updateData => do
    let priceFeeds ← targetsOf P timestamp s request data
    let more ← targetMessages updateData
    return priceFeeds ++ more

end

section

variable {P : WormholeHost} {timestamp : BitVec 64} {s : PythStorage} {request : ParseRequest}

theorem parseUpdateLoop_eq {digest encoded : Bytes} {n offset : ℕ} {out : List PriceFeed} :
    parseUpdateLoop P request digest encoded n offset out
      = (targetUpdates P request digest encoded n offset).map
        fun r => (r.1, r.2.foldl request.push out) := by
  induction n generalizing offset out with
  | zero => rfl
  | succ n ih =>
    rw [parseUpdateLoop, targetUpdates]
    cases PriceFeed.extractFromMerkleProof P.keccak256 digest encoded offset with
    | error e => rfl
    | ok read =>
      obtain ⟨newOffset, priceFeed⟩ := read
      show ite _ _ _ = Except.map _ (targetUpdates P request digest encoded n newOffset >>= _)
      rw [ih, ih]
      cases targetUpdates P request digest encoded n newOffset with
      | error e => exact ite_self _
      | ok r =>
        cases htarget : isTarget priceFeed.id request.targetPriceFeedIds with
        | false => rfl
        | true => rfl

theorem parseAttestationLoop_eq {attestationSize : BitVec 16} {payload : Bytes}
    {n attestationIndex : ℕ} {out : List PriceFeed} :
    parseAttestationLoop request attestationSize payload n attestationIndex out
      = (targetAttestations request attestationSize payload n attestationIndex).map
        fun priceFeeds => priceFeeds.foldl request.push out := by
  induction n generalizing attestationIndex out with
  | zero => rfl
  | succ n ih =>
    rw [parseAttestationLoop, targetAttestations]
    cases (splitAt payload (attestationIndex + 32) : Result (Bytes × Bytes)) with
    | error e => rfl
    | ok parts =>
      show (splitAt parts.2 32 >>= _) = Except.map _ (splitAt parts.2 32 >>= _)
      cases (splitAt parts.2 32 : Result (Bytes × Bytes)) with
      | error e => rfl
      | ok parts =>
        show ite _ _ _ = Except.map _ (ite _ _ _)
        cases htarget : isTarget (intoB256 parts.1) request.targetPriceFeedIds with
        | false => exact ih
        | true =>
          show (PriceFeed.parseAttestation attestationSize payload attestationIndex >>= _)
            = Except.map _ (PriceFeed.parseAttestation attestationSize payload attestationIndex
              >>= _)
          cases PriceFeed.parseAttestation attestationSize payload attestationIndex with
          | error e => rfl
          | ok priceFeed =>
            show parseAttestationLoop request attestationSize payload n _ _
              = Except.map _ (targetAttestations request attestationSize payload n _ >>= _)
            rw [ih]
            cases targetAttestations request attestationSize payload n
                (attestationIndex + attestationSize.toNat) <;> rfl

/-- A round of the outer loop pushes the messages for target ids. -/
theorem parseUpdate_eq {data : Bytes} {out : List PriceFeed} :
    parseUpdate P timestamp s request data out
      = (targetsOf P timestamp s request data).map fun messages =>
        messages.foldl request.push out := by
  unfold parseUpdate targetsOf
  cases UpdateType.determineType data with
  | error e => rfl
  | ok update =>
    cases update with
    | accumulator accumulatorUpdate =>
      show (accumulatorUpdate.verifyAndParse P timestamp s >>= _)
        = Except.map _ (accumulatorUpdate.verifyAndParse P timestamp s >>= _)
      cases accumulatorUpdate.verifyAndParse P timestamp s with
      | error e => rfl
      | ok parsed =>
        obtain ⟨offset, digest, numberOfUpdates, encoded⟩ := parsed
        show (parseUpdateLoop P request digest encoded numberOfUpdates.toNat offset out >>= _)
          = Except.map _ (targetUpdates P request digest encoded numberOfUpdates.toNat offset
            >>= _)
        rw [parseUpdateLoop_eq]
        cases targetUpdates P request digest encoded numberOfUpdates.toNat offset with
        | error e => rfl
        | ok r =>
          show (requirePyth (r.1 = encoded.length) _ >>= _)
            = Except.map _ (requirePyth (r.1 = encoded.length) _ >>= _)
          cases requirePyth (r.1 = encoded.length) .invalidUpdateDataLength <;> rfl
    | batchAttestation data =>
      show (ofWormhole _ >>= _) = Except.map _ (ofWormhole _ >>= _)
      cases ofWormhole
          (parseAndVerifyPythVm P s.toStorage timestamp s.wormholeGuardianSetIndex data) with
      | error e => rfl
      | ok vm =>
        show (parseAndVerifyBatchAttestationHeader vm.payload >>= _)
          = Except.map _ (parseAndVerifyBatchAttestationHeader vm.payload >>= _)
        cases parseAndVerifyBatchAttestationHeader vm.payload with
        | error e => rfl
        | ok header => exact parseAttestationLoop_eq

/-- The outer loop pushes all messages for target ids, in their order. -/
theorem parseAll_eq {updateData : List Bytes} {out : List PriceFeed} :
    parseAll P timestamp s request updateData out
      = (targetMessages P timestamp s request updateData).map fun messages =>
        messages.foldl request.push out := by
  induction updateData generalizing out with
  | nil => rfl
  | cons data updateData ih =>
    rw [parseAll, targetMessages, parseUpdate_eq]
    cases targetsOf P timestamp s request data with
    | error e => rfl
    | ok priceFeeds =>
      show parseAll P timestamp s request updateData _
        = Except.map _ (targetMessages P timestamp s request updateData >>= _)
      rw [ih]
      cases targetMessages P timestamp s request updateData with
      | error e => rfl
      | ok more => exact congrArg Except.ok List.foldl_append.symm

end

/-! ## What is returned -/

/-- The publish time is in the range of the request. -/
def ParseRequest.InRange (request : ParseRequest) (priceFeed : PriceFeed) : Prop :=
  request.minPublishTime ≤ priceFeed.price.publishTime ∧
    priceFeed.price.publishTime ≤ request.maxPublishTime

instance (request : ParseRequest) : DecidablePred request.InRange := fun _ =>
  inferInstanceAs (Decidable (_ ∧ _))

/-- The message is one of the id, in the range. -/
def ParseRequest.isRequested (request : ParseRequest) (id : Bytes32) (priceFeed : PriceFeed) :
    Bool := priceFeed.id = id ∧ request.InRange priceFeed

/-- The first messages of the target ids come in the order of the ids, among the messages in
range. -/
def InTargetOrder (request : ParseRequest) (messages : List PriceFeed) : Prop :=
  request.targetPriceFeedIds.Pairwise fun a b =>
    firstIdx PriceFeed.id (messages.filter request.InRange) a
      < firstIdx PriceFeed.id (messages.filter request.InRange) b

section

variable {P : WormholeHost} {timestamp : BitVec 64} {s : PythStorage} {request : ParseRequest}
  {messages : List PriceFeed}

theorem isContainedWithin_iff {id : Bytes32} {out : List PriceFeed} :
    isContainedWithin id out = true ↔ id ∈ out.map PriceFeed.id := by
  simp [isContainedWithin]

theorem isTarget_iff {id : Bytes32} {targets : List Bytes32} :
    isTarget id targets = true ↔ id ∈ targets := by
  simp [isTarget]

theorem push_eq (out : List PriceFeed) (priceFeed : PriceFeed) :
    request.push out priceFeed
      = if request.InRange priceFeed then keep PriceFeed.id out priceFeed else out := by
  unfold ParseRequest.push keep
  exact if_congr Iff.rfl (if_congr isContainedWithin_iff rfl rfl) rfl

/-- What is pushed are the first messages in range of each id. -/
theorem foldl_push (messages : List PriceFeed) :
    messages.foldl request.push [] = keepFirst PriceFeed.id (messages.filter request.InRange) := by
  rw [keepFirst, List.foldl_filter]
  refine congrArg (fun f => List.foldl f [] messages) (funext fun out => funext fun priceFeed => ?_)
  rw [push_eq]
  simp only [decide_eq_true_eq]

theorem find?_isRequested (id : Bytes32) :
    messages.find? (request.isRequested id)
      = (messages.filter request.InRange).find? fun priceFeed => priceFeed.id = id := by
  rw [List.find?_filter]
  refine congrArg (fun p => messages.find? p) (funext fun priceFeed => ?_)
  simp only [ParseRequest.isRequested, Bool.decide_and, Bool.and_comm, Bool.decide_eq_true]

theorem isSome_find?_iff {id : Bytes32} :
    (messages.find? (request.isRequested id)).isSome = true ↔
      id ∈ (messages.filter request.InRange).map PriceFeed.id := by
  rw [find?_isRequested, List.find?_isSome, List.mem_map]
  simp only [decide_eq_true_eq]

/-! ## Only target ids are read -/

theorem id_of_targetUpdates {digest encoded : Bytes} {n offset : ℕ} {r : ℕ × List PriceFeed}
    (h : targetUpdates P request digest encoded n offset = .ok r) :
    ∀ m ∈ r.2, m.id ∈ request.targetPriceFeedIds := by
  induction n generalizing offset r with
  | zero =>
    cases h
    intro m hm
    cases hm
  | succ n ih =>
    obtain ⟨⟨newOffset, priceFeed⟩, -, h⟩ := except_bind_eq_ok.mp h
    obtain ⟨⟨endOffset, priceFeeds⟩, hrest, h⟩ := except_bind_eq_ok.mp h
    cases h
    intro m hm
    dsimp only at hm
    split at hm
    · next htarget =>
      rcases List.mem_cons.mp hm with rfl | hm
      · exact isTarget_iff.mp htarget
      · exact ih hrest m hm
    · exact ih hrest m hm

/-- The id of an attestation is the one that the loop reads. -/
theorem id_of_parseAttestation {attestationSize : BitVec 16} {payload : Bytes}
    {attestationIndex : ℕ} {parts parts' : Bytes × Bytes} {priceFeed : PriceFeed}
    (hparts : splitAt payload (attestationIndex + 32) = (.ok parts : Result _))
    (hparts' : splitAt parts.2 32 = (.ok parts' : Result _))
    (h : PriceFeed.parseAttestation attestationSize payload attestationIndex = .ok priceFeed) :
    priceFeed.id = intoB256 parts'.1 := by
  simp only [PriceFeed.parseAttestation, hparts, hparts', except_bind_eq_ok, Except.ok.injEq,
    exists_eq_left'] at h
  obtain ⟨_, -, _, -, _, -, _, -, _, -, _, -, _, -, _, -, _, -, _, -, _, -, h⟩ := h
  cases h
  rfl

theorem id_of_targetAttestations {attestationSize : BitVec 16} {payload : Bytes}
    {n attestationIndex : ℕ} {priceFeeds : List PriceFeed}
    (h : targetAttestations request attestationSize payload n attestationIndex = .ok priceFeeds) :
    ∀ m ∈ priceFeeds, m.id ∈ request.targetPriceFeedIds := by
  induction n generalizing attestationIndex priceFeeds with
  | zero =>
    cases h
    intro m hm
    cases hm
  | succ n ih =>
    obtain ⟨parts, hparts, h⟩ := except_bind_eq_ok.mp h
    obtain ⟨parts', hparts', h⟩ := except_bind_eq_ok.mp h
    dsimp only at h
    split at h
    · exact ih h
    · next htarget =>
      obtain ⟨priceFeed, hparse, h⟩ := except_bind_eq_ok.mp h
      obtain ⟨rest, hrest, h⟩ := except_bind_eq_ok.mp h
      cases h
      intro m hm
      rcases List.mem_cons.mp hm with rfl | hm
      · rw [id_of_parseAttestation hparts hparts' hparse]
        exact isTarget_iff.mp (Bool.of_not_eq_false htarget)
      · exact ih hrest m hm

theorem id_of_targetsOf {data : Bytes} {priceFeeds : List PriceFeed}
    (h : targetsOf P timestamp s request data = .ok priceFeeds) :
    ∀ m ∈ priceFeeds, m.id ∈ request.targetPriceFeedIds := by
  obtain ⟨update, -, h⟩ := except_bind_eq_ok.mp h
  cases update with
  | accumulator accumulatorUpdate =>
    obtain ⟨_, -, h⟩ := except_bind_eq_ok.mp h
    obtain ⟨r, hr, h⟩ := except_bind_eq_ok.mp h
    obtain ⟨_, -, h⟩ := except_bind_eq_ok.mp h
    cases h
    exact id_of_targetUpdates hr
  | batchAttestation data =>
    obtain ⟨_, -, h⟩ := except_bind_eq_ok.mp h
    obtain ⟨_, -, h⟩ := except_bind_eq_ok.mp h
    exact id_of_targetAttestations h

theorem id_of_targetMessages {updateData : List Bytes}
    (h : targetMessages P timestamp s request updateData = .ok messages) :
    ∀ m ∈ messages, m.id ∈ request.targetPriceFeedIds := by
  induction updateData generalizing messages with
  | nil =>
    cases h
    intro m hm
    cases hm
  | cons data updateData ih =>
    obtain ⟨priceFeeds, hfeeds, h⟩ := except_bind_eq_ok.mp h
    obtain ⟨more, hmore, h⟩ := except_bind_eq_ok.mp h
    cases h
    intro m hm
    rcases List.mem_append.mp hm with hm | hm
    · exact id_of_targetsOf hfeeds m hm
    · exact ih hmore m hm

/-! ## When a call succeeds -/

variable {baseAsset : Bool} {msgAmount : BitVec 64} {updateData : List Bytes}

/-- The fee is paid in the base asset. -/
def FeePaid (s : PythStorage) (updateData : List Bytes) (baseAsset : Bool)
    (msgAmount : BitVec 64) : Prop :=
  baseAsset = true ∧ ∃ requiredFee, updateFee s updateData = .ok requiredFee ∧
    requiredFee ≤ msgAmount

theorem parsePriceFeedUpdates_eq_ok {feeds : List PriceFeed} {s' : PythStorage} :
    parsePriceFeedUpdates P timestamp s request baseAsset msgAmount updateData = .ok (feeds, s') ↔
      FeePaid s updateData baseAsset msgAmount ∧
      ∃ messages, targetMessages P timestamp s request updateData = .ok messages ∧
        feeds = keepFirst PriceFeed.id (messages.filter request.InRange) ∧
        request.targetPriceFeedIds.length = feeds.length ∧ s' = s := by
  simp only [parsePriceFeedUpdates, except_bind_eq_ok, requirePyth_eq_ok, parseAll_eq]
  constructor
  · rintro ⟨-, hasset, fee, hfee, -, hpaid, out, hout, -, hlength, h⟩
    cases h
    cases hmessages : targetMessages P timestamp s request updateData with
    | error e =>
      rw [hmessages] at hout
      cases hout
    | ok messages =>
      rw [hmessages] at hout
      cases hout
      exact ⟨⟨hasset, fee, hfee, hpaid⟩, messages, rfl, foldl_push messages, hlength, rfl⟩
  · rintro ⟨⟨hasset, fee, hfee, hpaid⟩, messages, hmessages, rfl, hlength, rfl⟩
    refine ⟨(), hasset, fee, hfee, (), hpaid, _, ?_, (), hlength, rfl⟩
    rw [hmessages, ← foldl_push]
    rfl

/-- As many price feeds are kept as there are target ids exactly when all of these have one. -/
theorem length_eq_iff (hnodup : request.targetPriceFeedIds.Nodup)
    (hmessages : targetMessages P timestamp s request updateData = .ok messages) :
    request.targetPriceFeedIds.length
        = (keepFirst PriceFeed.id (messages.filter request.InRange)).length ↔
      ∀ id ∈ request.targetPriceFeedIds,
        (messages.find? (request.isRequested id)).isSome = true := by
  have hall : ∀ id ∈ (messages.filter request.InRange).map PriceFeed.id,
      id ∈ request.targetPriceFeedIds := by
    intro id hid
    obtain ⟨m, hm, rfl⟩ := List.mem_map.mp hid
    exact id_of_targetMessages hmessages m (List.mem_of_mem_filter hm)
  simp only [isSome_find?_iff]
  exact eq_comm.trans (KeepFirst.length_eq_iff hnodup hall)

/-- With updates that verify and the fee, a call fails exactly when a target id has no message in
range. -/
theorem fails_iff (hnodup : request.targetPriceFeedIds.Nodup)
    (hpaid : FeePaid s updateData baseAsset msgAmount)
    (hmessages : targetMessages P timestamp s request updateData = .ok messages) :
    (∃ e, parsePriceFeedUpdates P timestamp s request baseAsset msgAmount updateData
        = .error e) ↔
      ∃ id ∈ request.targetPriceFeedIds, messages.find? (request.isRequested id) = none := by
  have hsucceeds : (∃ r, parsePriceFeedUpdates P timestamp s request baseAsset msgAmount
      updateData = .ok r) ↔
      ∀ id ∈ request.targetPriceFeedIds,
        (messages.find? (request.isRequested id)).isSome = true := by
    rw [← length_eq_iff hnodup hmessages]
    constructor
    · rintro ⟨⟨feeds, s'⟩, hrun⟩
      obtain ⟨-, messages', hmessages', rfl, hlength, -⟩ := parsePriceFeedUpdates_eq_ok.mp hrun
      cases hmessages.symm.trans hmessages'
      exact hlength
    · intro hlength
      exact ⟨(_, s), parsePriceFeedUpdates_eq_ok.mpr
        ⟨hpaid, messages, hmessages, rfl, hlength, rfl⟩⟩
  have hfails : (∃ e, parsePriceFeedUpdates P timestamp s request baseAsset msgAmount updateData
      = .error e) ↔ ¬∃ r, parsePriceFeedUpdates P timestamp s request baseAsset msgAmount
        updateData = .ok r := by
    cases parsePriceFeedUpdates P timestamp s request baseAsset msgAmount updateData with
    | ok r => simp
    | error e => simp
  rw [hfails, hsucceeds]
  simp

/-! ## The order of the target ids -/

/-- A call returns the first message in range of each target id, in the order of the ids, and it
fails only for want of one. It does not write. -/
structure ParsesFirst (P : WormholeHost) (timestamp : BitVec 64) (s : PythStorage)
    (request : ParseRequest) (baseAsset : Bool) (msgAmount : BitVec 64)
    (updateData : List Bytes) : Prop where
  first : ∀ feeds s',
    parsePriceFeedUpdates P timestamp s request baseAsset msgAmount updateData = .ok (feeds, s') →
    ∃ messages, targetMessages P timestamp s request updateData = .ok messages ∧
      feeds.length = request.targetPriceFeedIds.length ∧
      ∀ k (hk : k < request.targetPriceFeedIds.length),
        feeds[k]? = messages.find? (request.isRequested request.targetPriceFeedIds[k])
  fails : ∀ messages, targetMessages P timestamp s request updateData = .ok messages →
    FeePaid s updateData baseAsset msgAmount →
    ((∃ e, parsePriceFeedUpdates P timestamp s request baseAsset msgAmount updateData
        = .error e) ↔
      ∃ id ∈ request.targetPriceFeedIds, messages.find? (request.isRequested id) = none)
  unchanged : ∀ feeds s',
    parsePriceFeedUpdates P timestamp s request baseAsset msgAmount updateData = .ok (feeds, s') →
    s' = s

/-- What is kept are the first messages in the order of the ids exactly when it has these ids. -/
theorem kept_iff {ids : List Bytes32} :
    (∀ k (hk : k < ids.length), (keepFirst PriceFeed.id (messages.filter request.InRange))[k]?
        = messages.find? (request.isRequested ids[k])) ∧
      (keepFirst PriceFeed.id (messages.filter request.InRange)).length = ids.length ∧
      (∀ id ∈ ids, (messages.find? (request.isRequested id)).isSome = true) ↔
    (keepFirst PriceFeed.id (messages.filter request.InRange)).map PriceFeed.id = ids := by
  constructor
  · rintro ⟨hfirst, hlength, hfound⟩
    refine List.ext_getElem (by rw [List.length_map, hlength]) fun k hkept hk => ?_
    obtain ⟨m, hm⟩ := Option.isSome_iff_exists.mp (hfound _ (List.getElem_mem hk))
    have hid := List.find?_some hm
    rw [← hfirst k hk, List.getElem?_eq_some_iff] at hm
    obtain ⟨_, rfl⟩ := hm
    rw [List.getElem_map]
    exact (of_decide_eq_true hid).1
  · rintro rfl
    refine ⟨fun k hk => ?_, (List.length_map _).symm, fun id hid => ?_⟩
    · rw [List.length_map] at hk
      rw [List.getElem_map, find?_isRequested, KeepFirst.find?_of_mem (List.getElem_mem hk),
        List.getElem?_eq_getElem hk]
    · exact isSome_find?_iff.mpr (KeepFirst.mem_keys.mp hid)

/-- Exactly when the price feeds come in the order of the target ids. -/
theorem parses_first_iff (hnodup : request.targetPriceFeedIds.Nodup) :
    ParsesFirst P timestamp s request baseAsset msgAmount updateData ↔
      ∀ messages, targetMessages P timestamp s request updateData = .ok messages →
        FeePaid s updateData baseAsset msgAmount →
        (∀ id ∈ request.targetPriceFeedIds,
          (messages.find? (request.isRequested id)).isSome = true) →
        InTargetOrder request messages := by
  constructor
  · intro h messages hmessages hpaid hfound
    have hlength := (length_eq_iff hnodup hmessages).mpr hfound
    obtain ⟨messages', hmessages', -, hfirst⟩ := h.first _ s
      (parsePriceFeedUpdates_eq_ok.mpr ⟨hpaid, messages, hmessages, rfl, hlength, rfl⟩)
    cases hmessages.symm.trans hmessages'
    have hkept := kept_iff.mp ⟨hfirst, hlength.symm, hfound⟩
    exact ((KeepFirst.keys_eq_iff hnodup).mp hkept).2
  · intro h
    refine ⟨fun feeds s' hrun => ?_, fun messages hmessages hpaid =>
      fails_iff hnodup hpaid hmessages, fun feeds s' hrun => ?_⟩
    · obtain ⟨hpaid, messages, hmessages, rfl, hlength, -⟩ := parsePriceFeedUpdates_eq_ok.mp hrun
      have hfound := (length_eq_iff hnodup hmessages).mp hlength
      have hids : ∀ id, id ∈ request.targetPriceFeedIds ↔
          id ∈ (messages.filter request.InRange).map PriceFeed.id := by
        intro id
        refine ⟨fun hid => isSome_find?_iff.mp (hfound id hid), fun hid => ?_⟩
        obtain ⟨m, hm, rfl⟩ := List.mem_map.mp hid
        exact id_of_targetMessages hmessages m (List.mem_of_mem_filter hm)
      have hkept := (KeepFirst.keys_eq_iff hnodup).mpr
        ⟨hids, h messages hmessages hpaid hfound⟩
      obtain ⟨hfirst, hlength, -⟩ := kept_iff.mpr hkept
      exact ⟨messages, hmessages, hlength, hfirst⟩
    · obtain ⟨-, -, -, -, -, hs⟩ := parsePriceFeedUpdates_eq_ok.mp hrun
      exact hs

end

/-! ## Two messages in one update -/

def exBtcId : Bytes32 := 0xe62df6c8b4a85fe1a67db44dc12de5db330f7ac66b72dc658afedf0f4a415b43
def exEthId : Bytes32 := 0xff61491a931112ddf1bd8147cd1b641375f79f5825126d665480874634fd0ace

/-- The price of ETH/USD at 3100 with the exponent -8. -/
def exEthMessage : Bytes :=
  [0] ++ bytesBE 32 exEthId.toNat ++ bytesBE 8 310000000000 ++ bytesBE 8 150000000
    ++ bytesBE 4 (2 ^ 32 - 8) ++ bytesBE 8 1700000002 ++ bytesBE 8 1700000001
    ++ bytesBE 8 309000000000 ++ bytesBE 8 160000000

def exEthLeaf : Bytes32 := 0x3c3cc7e60989a3e9f6287d4881f684a263cae54aa918398928beb454c07aabc4
def exPairNode : Bytes32 := 0x5de0026b594b6a362d658cf0b92fbdc716e2ff5c82432d9ca6a0b356b790546e

def exPairBody : Bytes :=
  bytesBE 4 1700000001 ++ bytesBE 4 0 ++ bytesBE 2 26 ++ bytesBE 32 exPriceEmitter.toNat
    ++ bytesBE 8 6 ++ [1] ++ [0x41, 0x55, 0x57, 0x56, 0] ++ bytesBE 8 100 ++ bytesBE 4 10000
    ++ (wordBytes exPairNode).take 20

def exPairDigest : Bytes32 := 0x853f688b31e23fa8c6a5e3b8af50788075ac57b3d4034689f1379781974396c3
def exPairHash : Bytes32 := 0x24432d1ae002e882420c2ee91cadf843b3a9e8db63e271718913f44a49076466
def exPairR : Bytes32 := 0xbfa2d147f7784065933beb1d5804cbcb650a951dd7d38684e5162e8b816893c1
def exPairS : Bytes32 := 0x740ab589a5738ecbe9a77ba89f68823f3c314018b5fb945ba7c1bd1f21508eed

/-- Keccak-256 on the body, its digest, the two leaves and the root. -/
def exPairKeccak (bytes : Bytes) : Bytes32 :=
  if bytes = exPairBody then exPairDigest
  else if bytes = wordBytes exPairDigest then exPairHash
  else if bytes = [0] ++ exMessage then exLeaf
  else if bytes = [0] ++ exEthMessage then exEthLeaf
  else if bytes = [1] ++ (wordBytes exLeaf).take 20 ++ (wordBytes exEthLeaf).take 20 then exPairNode
  else 0

def exPairEcrecover (hash : Bytes32) (v : BitVec 8) (r s : Bytes32) : Address :=
  if v = 27 ∧ (hash, r, s) = (exPairHash, exPairR, exPairS) then exGuardian else 0

def exPairHost : WormholeHost := hostOf exPairKeccak exPairEcrecover

/-- BTC/USD, and then ETH/USD. -/
def exPairData : Bytes :=
  accumulatorMagicBytes ++ [1, 0, 0, 0] ++ [0, 160] ++ [1] ++ bytesBE 4 0 ++ [1] ++ [0]
    ++ bytesBE 32 exPairR.toNat ++ bytesBE 32 exPairS.toNat ++ [0] ++ exPairBody ++ [2]
    ++ [0, 85] ++ exMessage ++ [1] ++ (wordBytes exEthLeaf).take 20
    ++ [0, 85] ++ exEthMessage ++ [1] ++ (wordBytes exLeaf).take 20

def exRequest (targetPriceFeedIds : List Bytes32) : ParseRequest where
  maxPublishTime := exNow
  minPublishTime := exNow - 1000
  targetPriceFeedIds

def exBtcFeed : PriceFeed where
  emaPrice := ⟨2600000000, 8, 6090000000000, TAI64_DIFFERENCE + 1700000002⟩
  id := exBtcId
  price := ⟨2500000000, 8, 6100000000000, TAI64_DIFFERENCE + 1700000002⟩

def exEthFeed : PriceFeed where
  emaPrice := ⟨160000000, 8, 309000000000, TAI64_DIFFERENCE + 1700000002⟩
  id := exEthId
  price := ⟨150000000, 8, 310000000000, TAI64_DIFFERENCE + 1700000002⟩

/-- With the ids in the order of the messages, the price feeds come in the order of the ids. -/
theorem parses_first_pair :
    [exBtcId, exEthId].Nodup ∧
      ParsesFirst exPairHost exNow exPythStorage (exRequest [exBtcId, exEthId]) true 2
        [exPairData] := by
  refine ⟨by decide, (parses_first_iff (by decide)).mpr fun messages hmessages _ _ => ?_⟩
  have hpair : targetMessages exPairHost exNow exPythStorage (exRequest [exBtcId, exEthId])
      [exPairData] = .ok [exBtcFeed, exEthFeed] :=
    except_toOption_eq_some.mp (by decide +kernel)
  cases hmessages.symm.trans hpair
  unfold InTargetOrder
  decide +kernel

/-- With the ids in the other order, the price of BTC/USD is returned in the place of ETH/USD. -/
theorem parses_first_fail :
    [exEthId, exBtcId].Nodup ∧
      (parsePriceFeedUpdates exPairHost exNow exPythStorage (exRequest [exEthId, exBtcId]) true 2
        [exPairData]).map Prod.fst = .ok [exBtcFeed, exEthFeed] ∧
      ¬ParsesFirst exPairHost exNow exPythStorage (exRequest [exEthId, exBtcId]) true 2
        [exPairData] := by
  have hrun : (parsePriceFeedUpdates exPairHost exNow exPythStorage (exRequest [exEthId, exBtcId])
      true 2 [exPairData]).map Prod.fst = .ok [exBtcFeed, exEthFeed] :=
    except_toOption_eq_some.mp (by decide +kernel)
  refine ⟨by decide, hrun, fun h => ?_⟩
  cases hcall : parsePriceFeedUpdates exPairHost exNow exPythStorage
      (exRequest [exEthId, exBtcId]) true 2 [exPairData] with
  | error e =>
    rw [hcall] at hrun
    cases hrun
  | ok r =>
    rw [hcall] at hrun
    obtain ⟨feeds, s'⟩ := r
    cases hrun
    obtain ⟨messages, -, -, hfirst⟩ := h.first _ _ hcall
    -- the first price feed does not have the first id
    have hid := List.find?_some (hfirst 0 (by decide)).symm
    exact absurd hid (by decide)

end PythCrosschain.Fuel
