import PythCrosschain.Pyth.Accumulator

/-!
# Accumulator updates: the unchecked parser against a strict one

`Strict.accumulatorUpdate` is the grammar of accumulator updates as a strict parser. Each
function of `PythAccumulator` tracks its part of it, from whatever offset it is called
with: the loops over the siblings of a proof and over the updates by induction, the
messages and the payload of the VAA through their own checks of the last offset.

The results are:

- `update_tracks`, `updates_tracks` and `body_tracks`: the three nested parsers track
  theirs;
- `updatePriceInfosFromAccumulatorUpdate_strict`: an update is accepted exactly when the
  strict parser consumes it, and it has the effect of the list that this parser returns.
-/

namespace PythCrosschain.Pyth

/-! ## The strict parser -/

namespace Strict

open PythCrosschain.Parser

variable (keccak256 : Bytes → Bytes32) (parseAndVerifyPythVM : Bytes → Result VM)

def header : Parser UpdateType := do
  let magic ← uint32
  assert (guard (magic = ACCUMULATOR_MAGIC))
  let majorVersion ← uint8
  assert (guard (majorVersion = MAJOR_VERSION))
  let minorVersion ← uint8
  assert (guard (minorVersion ≥ MINIMUM_ALLOWED_MINOR_VERSION))
  let trailingHeaderSize ← uint8
  skip trailingHeaderSize.toNat
  let updateType ← uint8
  let updateType ← assert (UpdateType.ofUint8 updateType).toOption
  return updateType

/-- The payload of the VAA, which may be longer. -/
def payload : Parser Bytes20 := do
  let magic ← uint32
  assert (guard (magic = ACCUMULATOR_WORMHOLE_MAGIC))
  let updateType ← uint8
  let updateType ← assert (UpdateType.ofUint8 updateType).toOption
  assert (guard (updateType = .wormholeMerkle))
  skip 8
  skip 4
  let digest ← address
  return digest

/-- The size of the VAA, the VAA and the number of updates. -/
def wormholeMerkle : Parser (Bytes20 × Uint8) := do
  let whProofSize ← uint16
  let encodedVm ← take whProofSize.toNat
  let vm ← assert (parseAndVerifyPythVM encodedVm).toOption
  let digest ← assert (payload.parsePrefix vm.payload)
  let numUpdates ← uint8
  return (digest, numUpdates)

/-- The message of a price feed, which may be longer. -/
def priceFeedMessage : Parser (PriceInfo × Bytes32 × Uint64) := do
  let priceId ← bytes32
  let price ← uint64
  let conf ← uint64
  let expo ← uint32
  let publishTime ← uint64
  let prevPublishTime ← uint64
  let emaPrice ← uint64
  let emaConf ← uint64
  return ({ publishTime, expo, price, conf, emaPrice, emaConf }, priceId, prevPublishTime)

def message : Parser (PriceInfo × Bytes32 × Uint64) := do
  let messageType ← uint8
  let messageType ← assert (MessageType.ofUint8 messageType).toOption
  assert (guard (messageType = .priceFeed))
  priceFeedMessage

/-- The digest that `proofSize` siblings lead to. -/
def climb : Bytes20 → Nat → Parser Bytes20
  | digest, 0 => pure digest
  | digest, proofSize + 1 => do
    let sibling ← address
    climb (MerkleTree.nodeHash keccak256 digest sibling) proofSize

/-- Whether the siblings lead to the root. -/
def proof (root leaf : Bytes20) : Parser Bool := do
  let proofSize ← uint8
  let digest ← climb keccak256 leaf proofSize.toNat
  return digest = root

/-- A message and its proof. -/
def update (digest : Bytes20) : Parser (PriceInfo × Bytes32 × Uint64) := do
  let messageSize ← uint16
  let encodedMessage ← take messageSize.toNat
  let valid ← proof keccak256 digest (MerkleTree.leafHash keccak256 encodedMessage)
  assert (guard (valid = true))
  let result ← assert (message.parsePrefix encodedMessage)
  return result

def updates (digest : Bytes20) : Nat → Parser (List (Bytes32 × PriceInfo))
  | 0 => pure []
  | numUpdates + 1 => do
    let (priceInfo, priceId, _) ← update keccak256 digest
    let rest ← updates digest numUpdates
    return (priceId, priceInfo) :: rest

/-- The number of updates and the updates, after the header. -/
def wormholeMerkleUpdates : Parser (Uint8 × List (Bytes32 × PriceInfo)) := do
  let (digest, numUpdates) ← wormholeMerkle parseAndVerifyPythVM
  let list ← updates keccak256 digest numUpdates.toNat
  return (numUpdates, list)

def accumulatorUpdate : Parser (Uint8 × List (Bytes32 × PriceInfo)) := do
  let updateType ← header
  assert (guard (updateType = .wormholeMerkle))
  wormholeMerkleUpdates keccak256 parseAndVerifyPythVM

end Strict

/-! ## Each function tracks its strict parser -/

section

open UnsafeCalldataBytesLib

variable {keccak256 : Bytes → Bytes32} {m : Machine} {parseAndVerifyPythVM : Bytes → Result VM}

theorem toOption_iff {α : Type} {x : Result α} (a : α) : x = .ok a ↔ x.toOption = some a :=
  toOption_eq_some.symm

theorem le_of_toNat_le {b : CalldataBytes} {offset : Uint256}
    (h : offset.toNat ≤ (b.bytes m).length) : offset ≤ b.length := by
  rwa [BitVec.le_def, ← CalldataBytes.length_bytes m b]

theorem header_tracks (b : CalldataBytes) :
    TracksAt (b.bytes m) 0 263 (extractUpdateTypeFromAccumulatorHeader m b)
      (fun r => (r.2, r.1)) Strict.header := by
  unfold extractUpdateTypeFromAccumulatorHeader Strict.header
  dsimp only
  refine TracksAt.calldataUint32 (TracksAt.require fun _ => ?_)
  refine TracksAt.calldataUint8 (TracksAt.require fun _ => ?_)
  refine TracksAt.calldataUint8 (TracksAt.require fun _ => ?_)
  refine TracksAt.calldataUint8 (TracksAt.skipUint8 ?_)
  refine TracksAt.calldataUint8 (TracksAt.last (TracksAt.check toOption_iff fun updateType _ => ?_))
  exact TracksAt.retWithin (fun hle => le_of_toNat_le hle) rfl

/-- The digest is read from the first 37 bytes of the payload. -/
theorem payload_tracks (b : MemoryBytes) :
    TracksAt b.content 0 37 (extractDigestFromPayload b) (fun digest => (digest, 37))
      Strict.payload := by
  unfold extractDigestFromPayload Strict.payload
  dsimp only
  refine TracksAt.memoryUint32 (TracksAt.require fun _ => ?_)
  refine TracksAt.memoryUint8 (TracksAt.check toOption_iff fun updateType _ => ?_)
  refine TracksAt.require fun _ => ?_
  refine TracksAt.skip (n := 8) rfl (Nat.le_refl 8) ?_
  refine TracksAt.skip (n := 4) rfl (Nat.le_refl 4) ?_
  exact TracksAt.last (TracksAt.memoryAddress (TracksAt.retWithin id rfl))

theorem priceFeedMessage_tracks (b : CalldataBytes) :
    TracksAt (b.bytes m) 1 84 (parsePriceFeedMessage m b 1) (fun r => (r, 85))
      Strict.priceFeedMessage := by
  unfold parsePriceFeedMessage Strict.priceFeedMessage
  dsimp only
  refine TracksAt.calldataBytes32 (TracksAt.calldataUint64 (TracksAt.calldataUint64 ?_))
  refine TracksAt.calldataUint32 (TracksAt.calldataUint64 ?_)
  refine TracksAt.memoryUint64 (b := b.toMemory m) ?_
  refine TracksAt.calldataUint64 (TracksAt.calldataUint64 ?_)
  exact TracksAt.retWithin (fun hle => le_of_toNat_le hle) rfl

theorem climb_tracks (b : CalldataBytes) (digest : Bytes20) (start : Uint256) (proofSize : Nat) :
    TracksAt (b.bytes m) start (proofSize * 20)
      (.ok (MerkleTree.climb keccak256 m b digest start proofSize) : Result _) id
      (Strict.climb keccak256 digest proofSize) := by
  induction proofSize generalizing digest start with
  | zero => exact TracksAt.ret rfl
  | succ proofSize ih =>
    rw [Nat.succ_mul]
    exact TracksAt.calldataAddress (ih _ _)

/-- The digest that a reader arrives at is compared with the root. -/
theorem compare_tracks {bs : Bytes} {start : Uint256} {bound : Nat} {top : Bytes20 × Uint256}
    {p : Parser Bytes20} (root : Bytes20)
    (h : TracksAt bs start bound (.ok top : Result _) id p) :
    TracksAt bs start bound (.ok (decide (top.1 = root), top.2) : Result _) id
      (p >>= fun digest => pure (decide (digest = root))) := by
  rw [← Nat.zero_add bound]
  exact h.value (TracksAt.ret rfl)

theorem proof_tracks (b leafData : CalldataBytes) (root : Bytes20) (start : Uint256) :
    TracksAt (b.bytes m) start 5101
      (.ok (MerkleTree.isProofValid keccak256 m b start root leafData) : Result _) id
      (Strict.proof keccak256 root (MerkleTree.leafHash keccak256 (leafData.bytes m))) := by
  unfold MerkleTree.isProofValid Strict.proof
  dsimp only
  have hsize : (toUint8 m b start).toNat ≤ 255 := Nat.le_of_lt_succ (toUint8 m b start).isLt
  exact TracksAt.calldataUint8
    (compare_tracks root ((climb_tracks b _ _ _).mono (Nat.mul_le_mul_right 20 hsize)))

/-! ## The checked ends -/

theorem payload_ok {b : MemoryBytes} {digest : Bytes20} :
    extractDigestFromPayload b = .ok digest ↔
      Strict.payload.parsePrefix b.content = some digest := by
  refine (payload_tracks b).parsePrefix_eq_some (by decide) (Nat.zero_le _) fun h => ?_
  simp only [extractDigestFromPayload, bind_eq_ok, require_eq_ok] at h
  obtain ⟨-, -, -, -, -, -, -, hend, -⟩ := h
  exact hend

/-- The message of `extractPriceInfoFromMerkleProof`. -/
def extractMessage (m : Machine) (encodedMessage : CalldataBytes) :
    Result (PriceInfo × Bytes32 × Uint64) := do
  let messageType ← MessageType.ofUint8 (toUint8 m encodedMessage 0)
  require (messageType = .priceFeed) (.error .invalidUpdateData)
  parsePriceFeedMessage m encodedMessage 1

theorem message_tracks (b : CalldataBytes) :
    TracksAt (b.bytes m) 0 85 (extractMessage m b) (fun r => (r, 85)) Strict.message := by
  unfold extractMessage Strict.message
  refine TracksAt.calldataUint8 (TracksAt.check toOption_iff fun messageType _ => ?_)
  exact TracksAt.require fun _ => priceFeedMessage_tracks b

theorem message_ok {b : CalldataBytes} {result : PriceInfo × Bytes32 × Uint64} :
    extractMessage m b = .ok result ↔ Strict.message.parsePrefix (b.bytes m) = some result := by
  refine (message_tracks b).parsePrefix_eq_some (by decide) (Nat.zero_le _) fun h => ?_
  simp only [extractMessage, parsePriceFeedMessage, bind_eq_ok, require_eq_ok] at h
  obtain ⟨-, -, -, -, -, hend, -⟩ := h
  rw [CalldataBytes.length_bytes]
  exact hend

theorem bind_extractMessage {α : Type} (b : CalldataBytes)
    (f : PriceInfo × Bytes32 × Uint64 → Result α) :
    (extractMessage m b >>= f) = (do
      let messageType ← MessageType.ofUint8 (toUint8 m b 0)
      require (messageType = .priceFeed) (.error .invalidUpdateData)
      let result ← parsePriceFeedMessage m b 1
      f result) := by
  simp only [extractMessage, bind_assoc]

/-- What `extractPriceInfoFromMerkleProof` does after the proof. -/
theorem proven_tracks {bs : Bytes} {start : Uint256} {bound : Nat} {proof : Bool × Uint256}
    {p : Parser Bool} (encodedMessage : CalldataBytes)
    (h : TracksAt bs start bound (.ok proof : Result _) id p) :
    TracksAt bs start bound (do
        require (proof.1 = true) (.error .invalidUpdateData)
        let messageType ← MessageType.ofUint8 (toUint8 m encodedMessage 0)
        require (messageType = .priceFeed) (.error .invalidUpdateData)
        let result ← parsePriceFeedMessage m encodedMessage 1
        return (proof.2, result.1, result.2.1, result.2.2) : Result _)
      (fun r => (r.2, r.1))
      (p >>= fun valid => Parser.assert (guard (valid = true)) >>= fun _ =>
        Parser.assert (Strict.message.parsePrefix (encodedMessage.bytes m))) := by
  have hmessage : TracksAt bs proof.2 0
      (extractMessage m encodedMessage >>= fun result => .ok (proof.2, result))
      (fun r => (r.2, r.1)) (Parser.assert (Strict.message.parsePrefix (encodedMessage.bytes m))) :=
    TracksAt.last (TracksAt.check (fun _ => message_ok) fun _ _ => TracksAt.ret rfl)
  rw [bind_extractMessage] at hmessage
  rw [← Nat.zero_add bound]
  exact h.value (TracksAt.require fun _ => hmessage)

theorem update_tracks (digest : Bytes20) (b : CalldataBytes) (start : Uint256) :
    TracksAt (b.bytes m) start 70638 (extractPriceInfoFromMerkleProof keccak256 m digest b start)
      (fun r => (r.2, r.1)) (Strict.update keccak256 digest) := by
  unfold extractPriceInfoFromMerkleProof Strict.update
  dsimp only
  refine TracksAt.calldataUint16 (TracksAt.calldataSliceUint16 fun encodedMessage => ?_)
  exact proven_tracks encodedMessage (proof_tracks b encodedMessage digest _)

/-! ## The loop and the whole update -/

theorem updates_tracks (digest : Bytes20) (b : CalldataBytes) (w : World) (start : Uint256)
    (numUpdates : Nat) :
    TracksAt (b.bytes m) start (numUpdates * 70638)
      (updatePriceInfos keccak256 m digest b w start numUpdates) id
      (applyUpdates w <$> Strict.updates keccak256 digest numUpdates) := by
  induction numUpdates generalizing w start with
  | zero => exact TracksAt.ret rfl
  | succ numUpdates ih =>
    have hparser : applyUpdates w <$> Strict.updates keccak256 digest (numUpdates + 1)
        = Strict.update keccak256 digest >>= fun r =>
          applyUpdates (updateLatestPriceIfNecessary w r.2.1 r.1)
            <$> Strict.updates keccak256 digest numUpdates := by
      simp only [Strict.updates, map_eq_pure_bind, bind_assoc, pure_bind]
      rfl
    rw [hparser, Nat.succ_mul]
    exact (update_tracks digest b start).seq fun r _ => ih _ _

/-- What `extractWormholeMerkleHeaderDigestAndNumUpdatesAndEncodedFromAccumulatorUpdate`
reads of the encoded part. -/
def extractWormholeMerkle (m : Machine) (parseAndVerifyPythVM : Bytes → Result VM)
    (encoded : CalldataBytes) : Result (Uint256 × Bytes20 × Uint8) := do
  let whProofSize := toUint16 m encoded 0
  let encodedVm ← slice m encoded 2 (whProofSize.setWidth 256)
  let vm ← parseAndVerifyPythVM (encodedVm.bytes m)
  let digest ← extractDigestFromPayload (m.returned vm.payload)
  return (2 + whProofSize.setWidth 256 + 1, digest,
    toUint8 m encoded (2 + whProofSize.setWidth 256))

theorem wormholeMerkle_tracks (encoded : CalldataBytes) :
    TracksAt (encoded.bytes m) 0 65538 (extractWormholeMerkle m parseAndVerifyPythVM encoded)
      (fun r => (r.2, r.1)) (Strict.wormholeMerkle parseAndVerifyPythVM) := by
  unfold extractWormholeMerkle Strict.wormholeMerkle
  refine TracksAt.calldataUint16 (TracksAt.calldataSliceUint16 fun encodedVm => ?_)
  refine TracksAt.check toOption_iff fun vm _ => ?_
  refine TracksAt.check (fun _ => payload_ok) fun digest _ => ?_
  exact TracksAt.calldataUint8 (TracksAt.ret rfl)

/-- The parser after the header, with the updates applied to a world. -/
theorem body_tracks (encoded : CalldataBytes) (w : World) :
    TracksAt (encoded.bytes m) 0 (255 * 70638 + 65538) (do
        let r ← extractWormholeMerkle m parseAndVerifyPythVM encoded
        let s ← updatePriceInfos keccak256 m r.2.1 encoded w r.1 r.2.2.toNat
        return (r.2.2, s) : Result _)
      (fun r => ((r.1, r.2.1), r.2.2))
      ((fun u => (u.1, applyUpdates w u.2))
        <$> Strict.wormholeMerkleUpdates keccak256 parseAndVerifyPythVM) := by
  have hparser : (fun u => (u.1, applyUpdates w u.2))
        <$> Strict.wormholeMerkleUpdates keccak256 parseAndVerifyPythVM
      = Strict.wormholeMerkle parseAndVerifyPythVM >>= fun r =>
        (applyUpdates w <$> Strict.updates keccak256 r.1 r.2.toNat) >>=
          fun w' => pure (r.2, w') := by
    simp only [Strict.wormholeMerkleUpdates, map_eq_pure_bind, bind_assoc, pure_bind]
  rw [hparser]
  refine (wormholeMerkle_tracks encoded).seq fun r _ => ?_
  have hcount : r.2.2.toNat ≤ 255 := Nat.le_of_lt_succ r.2.2.isLt
  have hloop := (@updates_tracks keccak256 m r.2.1 encoded w r.1 r.2.2.toNat).mono
    (Nat.mul_le_mul_right 70638 hcount)
  rw [← Nat.zero_add (255 * 70638)]
  exact hloop.seq fun s _ => TracksAt.ret rfl

theorem header_ok {b : CalldataBytes} {updateType : UpdateType} {rest : Bytes} :
    (∃ offset, extractUpdateTypeFromAccumulatorHeader m b = .ok (offset, updateType) ∧
      offset.toNat ≤ b.length.toNat ∧ (b.bytes m).drop offset.toNat = rest) ↔
    Strict.header (b.bytes m) = some (updateType, rest) := by
  have h := (header_tracks (m := m) b (by decide)).ends_within (Nat.zero_le _) updateType rest
  rw [CalldataBytes.length_bytes] at h
  refine Iff.trans ⟨?_, ?_⟩ h
  · rintro ⟨offset, hrun, hend, hrest⟩
    exact ⟨(offset, updateType), hrun, rfl, hend, hrest⟩
  · rintro ⟨⟨offset, _⟩, hrun, rfl, hend, hrest⟩
    exact ⟨offset, hrun, hend, hrest⟩

theorem header_end {b : CalldataBytes} {offset : Uint256} {updateType : UpdateType}
    (h : extractUpdateTypeFromAccumulatorHeader m b = .ok (offset, updateType)) :
    offset.toNat ≤ b.length.toNat := by
  simp only [extractUpdateTypeFromAccumulatorHeader, bind_eq_ok, require_eq_ok, pure_eq_ok] at h
  obtain ⟨-, -, -, -, -, -, _, -, -, hend, h⟩ := h
  obtain ⟨rfl, -⟩ := Prod.mk.inj h
  exact BitVec.le_def.mp hend

/-- The slice behind the header is the rest of the update. -/
theorem slice_behind {b : CalldataBytes} {offset : Uint256} (h : offset.toNat ≤ b.length.toNat) :
    ∃ encoded : CalldataBytes, (slice m b offset (b.length - offset) : Result _) = .ok encoded ∧
      encoded.bytes m = (b.bytes m).drop offset.toNat := by
  have hlength : (b.length - offset).toNat = b.length.toNat - offset.toNat :=
    BitVec.toNat_sub_of_le h
  have hsum : offset.toNat + (b.length - offset).toNat = b.length.toNat := by omega
  refine ⟨_, (slice_eq_ok ..).mpr ⟨hsum ▸ b.length.isLt, fun _ => hsum.le, rfl⟩, ?_⟩
  have hbytes := CalldataBytes.drop_take_bytes (m := m) hsum.le
  rw [List.take_of_length_le (by simp [hlength])] at hbytes
  exact hbytes

/-- Everything behind the header. -/
theorem updatePriceInfosFromAccumulatorUpdate_eq (b : CalldataBytes) (w : World) :
    updatePriceInfosFromAccumulatorUpdate keccak256 m parseAndVerifyPythVM b w = (do
      let header ← extractUpdateTypeFromAccumulatorHeader m b
      require (header.2 = .wormholeMerkle) (.error .invalidUpdateData)
      let encoded ← slice m b header.1 (b.length - header.1)
      let r ← (do
        let r ← extractWormholeMerkle m parseAndVerifyPythVM encoded
        let s ← updatePriceInfos keccak256 m r.2.1 encoded w r.1 r.2.2.toNat
        return (r.2.2, s))
      require (r.2.2 = encoded.length) (.error .invalidUpdateData)
      return (r.1, r.2.1)) := by
  simp only [updatePriceInfosFromAccumulatorUpdate,
    extractWormholeMerkleHeaderDigestAndNumUpdatesAndEncodedFromAccumulatorUpdate,
    extractWormholeMerkle, bind_assoc, pure_bind]
  rfl

/-- Where the bytes of the encoded part are `bs`, its reader ends at its length exactly
when the parser consumes `bs`. -/
theorem body_ok {encoded : CalldataBytes} {w w' : World} {numUpdates : Uint8} :
    (∃ r, (do
        let r ← extractWormholeMerkle m parseAndVerifyPythVM encoded
        let s ← updatePriceInfos keccak256 m r.2.1 encoded w r.1 r.2.2.toNat
        return (r.2.2, s) : Result (Uint8 × World × Uint256)) = .ok r ∧
      r.2.2 = encoded.length ∧ (r.1, r.2.1) = (numUpdates, w')) ↔
    ∃ updates, (Strict.wormholeMerkleUpdates keccak256 parseAndVerifyPythVM).parseAll
      (encoded.bytes m) = some (numUpdates, updates) ∧ w' = applyUpdates w updates := by
  have h := (@body_tracks keccak256 m parseAndVerifyPythVM encoded w (by decide)).ends_at
    (Nat.zero_le _) (numUpdates, w')
  rw [Parser.parseAll_map_eq_some, CalldataBytes.length_bytes] at h
  refine Iff.trans (exists_congr fun r => and_congr_right fun _ => ?_) (h.trans ?_)
  · rw [BitVec.toNat_eq, and_comm]
  · simp only [Prod.exists, Prod.mk.injEq]
    constructor
    · rintro ⟨_, updates, hparse, rfl, rfl⟩
      exact ⟨updates, hparse, rfl⟩
    · rintro ⟨updates, hparse, rfl⟩
      exact ⟨_, updates, hparse, rfl, rfl⟩

theorem updatePriceInfosFromAccumulatorUpdate_ok {b : CalldataBytes} {w w' : World}
    {numUpdates : Uint8} :
    updatePriceInfosFromAccumulatorUpdate keccak256 m parseAndVerifyPythVM b w
        = .ok (numUpdates, w') ↔
      ∃ updates, (Strict.accumulatorUpdate keccak256 parseAndVerifyPythVM).parseAll (b.bytes m)
        = some (numUpdates, updates) ∧ w' = applyUpdates w updates := by
  rw [updatePriceInfosFromAccumulatorUpdate_eq]
  constructor
  · intro h
    obtain ⟨⟨offset, updateType⟩, hheader, h⟩ := bind_eq_ok.mp h
    obtain ⟨_, -, h⟩ := bind_eq_ok.mp h
    obtain ⟨encoded, hslice, h⟩ := bind_eq_ok.mp h
    obtain ⟨r, hbody, h⟩ := bind_eq_ok.mp h
    obtain ⟨_, hend, hret⟩ := bind_eq_ok.mp h
    have hle := header_end hheader
    obtain ⟨encoded', hslice', hbytes⟩ := slice_behind (m := m) hle
    obtain rfl : encoded' = encoded := Except.ok.inj (hslice'.symm.trans hslice)
    obtain ⟨updates, hparse, hw⟩ :=
      body_ok.mp ⟨r, hbody, require_eq_ok.mp hend, pure_eq_ok.mp hret⟩
    refine ⟨updates, Parser.parseAll_bind_eq_some.mpr ⟨updateType, _,
      header_ok.mp ⟨offset, hheader, hle, rfl⟩, ?_⟩, hw⟩
    refine Parser.parseAll_bind_eq_some.mpr ⟨(), _, ?_, hbytes ▸ hparse⟩
    exact Parser.assert_run_eq_some.mpr ⟨by simp [guard], rfl⟩
  · rintro ⟨updates, hparse, hw⟩
    obtain ⟨updateType, rest, hheader, hparse⟩ := Parser.parseAll_bind_eq_some.mp hparse
    obtain ⟨_, rest', hguard, hparse⟩ := Parser.parseAll_bind_eq_some.mp hparse
    obtain ⟨-, rfl⟩ := Parser.assert_run_eq_some.mp hguard
    obtain ⟨offset, hrun, hle, rfl⟩ := header_ok.mpr hheader
    obtain ⟨encoded, hslice, hbytes⟩ := slice_behind (m := m) hle
    obtain ⟨r, hbody, hend, hr⟩ := body_ok.mpr ⟨updates, hbytes ▸ hparse, hw⟩
    refine bind_eq_ok.mpr ⟨_, hrun, bind_eq_ok.mpr ⟨(), require_eq_ok.mpr ?_, ?_⟩⟩
    · cases updateType
      rfl
    · exact bind_eq_ok.mpr ⟨encoded, hslice, bind_eq_ok.mpr ⟨r, hbody,
        bind_eq_ok.mpr ⟨(), require_eq_ok.mpr hend, pure_eq_ok.mpr hr⟩⟩⟩

/-- **The unchecked parser agrees with the strict one.** For every update and every
content of the calldata and of the memory around it, with or without bounds checks of
calldata slices, `updatePriceInfosFromAccumulatorUpdate` succeeds exactly when the strict
parser consumes the bytes of the update, and then it applies the updates of the strict
parser and returns their number. So a successful call depends on these bytes only. -/
theorem updatePriceInfosFromAccumulatorUpdate_strict (keccak256 : Bytes → Bytes32)
    (parseAndVerifyPythVM : Bytes → Result VM) (m : Machine) (accumulatorUpdate : CalldataBytes)
    (w w' : World) (numUpdates : Uint8) :
    (updatePriceInfosFromAccumulatorUpdate keccak256 m parseAndVerifyPythVM accumulatorUpdate w
        = .ok (numUpdates, w') ↔
      ∃ updates, (Strict.accumulatorUpdate keccak256 parseAndVerifyPythVM).parseAll
          (accumulatorUpdate.bytes m) = some (numUpdates, updates) ∧
        w' = applyUpdates w updates ∧ w'.applied = w.applied ++ updates) ∧
    ∀ (m' : Machine) (accumulatorUpdate' : CalldataBytes),
      accumulatorUpdate'.bytes m' = accumulatorUpdate.bytes m →
      (updatePriceInfosFromAccumulatorUpdate keccak256 m' parseAndVerifyPythVM accumulatorUpdate' w
          = .ok (numUpdates, w') ↔
        updatePriceInfosFromAccumulatorUpdate keccak256 m parseAndVerifyPythVM accumulatorUpdate w
          = .ok (numUpdates, w')) := by
  refine ⟨?_, fun m' b' hbytes => ?_⟩
  · rw [updatePriceInfosFromAccumulatorUpdate_ok]
    refine exists_congr fun updates => and_congr_right fun _ => ?_
    exact ⟨fun hw => ⟨hw, hw ▸ applyUpdates_applied w updates⟩, And.left⟩
  · rw [updatePriceInfosFromAccumulatorUpdate_ok, updatePriceInfosFromAccumulatorUpdate_ok, hbytes]

end

/-! ### An update with one message -/

/-- Price feed 7 at 100 ± 2 with exponent -3, published at 9. -/
def exPriceInfo : PriceInfo :=
  { publishTime := 9, expo := -3, price := 100, conf := 2, emaPrice := 101, emaConf := 3 }

def exPriceMessage : Bytes :=
  [0] ++ bytesBE 32 7 ++ bytesBE 8 100 ++ bytesBE 8 2 ++ bytesBE 4 (2 ^ 32 - 3) ++ bytesBE 8 9
    ++ bytesBE 8 8 ++ bytesBE 8 101 ++ bytesBE 8 3

/-- One sibling leads from the message to the root. -/
def exRoot : Bytes20 :=
  MerkleTree.nodeHash exKeccak (MerkleTree.leafHash exKeccak exPriceMessage) 5

/-- Accepts one VAA, whose payload carries the root. -/
def exParseAndVerify (encodedVm : Bytes) : Result VM :=
  if encodedVm = [0xaa, 0xbb] then
    .ok { emitterChainId := 26, emitterAddress := 1, sequence := 3,
          payload := bytesBE 4 0x41555756 ++ [0] ++ bytesBE 8 11 ++ bytesBE 4 12
            ++ packed 20 exRoot }
  else .error (.error .invalidWormholeVaa)

def exUpdateBytes : Bytes :=
  bytesBE 4 0x504e4155 ++ [1, 0, 1, 0xff, 0] ++ [0, 2, 0xaa, 0xbb] ++ [1] ++ [0, 85]
    ++ exPriceMessage ++ [1] ++ bytesBE 20 5

/-- The update at an offset in the calldata, between bytes with the value `other`. -/
def exMachine (offset : Uint256) (other : UInt8) (checksSlices : Bool) : Machine where
  calldata := fun a => exUpdateBytes.getD (a - offset).toNat other
  aroundCopy := fun _ _ => other
  aroundReturned := fun _ => other
  checksSlices := checksSlices

def exUpdate (offset : Uint256) : CalldataBytes where
  offset := offset
  length := BitVec.ofNat 256 exUpdateBytes.length

theorem updatePriceInfosFromAccumulatorUpdate_strict_example :
    updatePriceInfosFromAccumulatorUpdate exKeccak (exMachine 4 0xff false) exParseAndVerify
        (exUpdate 4) {} = .ok (1, applyUpdates {} [(7, exPriceInfo)]) ∧
    updatePriceInfosFromAccumulatorUpdate exKeccak (exMachine 68 0 true) exParseAndVerify
        (exUpdate 68) {} = .ok (1, applyUpdates {} [(7, exPriceInfo)]) := by
  have hparse : (Strict.accumulatorUpdate exKeccak exParseAndVerify).parseAll
      ((exUpdate 4).bytes (exMachine 4 0xff false)) = some (1, [(7, exPriceInfo)]) := by
    decide +kernel
  have hbytes : (exUpdate 68).bytes (exMachine 68 0 true)
      = (exUpdate 4).bytes (exMachine 4 0xff false) := by
    decide +kernel
  obtain ⟨hstrict, hother⟩ := updatePriceInfosFromAccumulatorUpdate_strict exKeccak
    exParseAndVerify (exMachine 4 0xff false) (exUpdate 4) {}
    (applyUpdates {} [(7, exPriceInfo)]) 1
  have hok := hstrict.mpr ⟨[(7, exPriceInfo)], hparse, rfl, applyUpdates_applied {} _⟩
  exact ⟨hok, (hother (exMachine 68 0 true) (exUpdate 68) hbytes).mpr hok⟩

end PythCrosschain.Pyth
