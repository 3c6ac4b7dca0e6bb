import PythCrosschain.MovePackages.Prices
import PythCrosschain.Pyth.AccumulatorGrammar
import PythCrosschain.Sui.MerkleTree

/-!
# Move packages: accumulator messages

What the Sui package took over from the Aptos package to read accumulator updates: the payload
of the VAA and the message of a price feed. Both read what the grammar of the EVM contract
reads (`reads_merkleRoot`, `reads_updateMessage`), where a number with a sign is the number of a
word (`SameInfo`).
-/

namespace PythCrosschain.MovePackages

open Move
open Sui (Cursor)
open Decoder (ReadsAs)

def PYTHNET_ACCUMULATOR_UPDATE_MAGIC : BitVec 32 := 1347305813
def ACCUMULATOR_UPDATE_WORMHOLE_VERIFICATION_MAGIC : BitVec 32 := 1096111958

/-- The codes with which the accumulator functions abort. -/
structure AccumulatorErrors where
  invalidAccumulatorPayload : ℕ
  invalidAccumulatorMessage : ℕ
  invalidWormholeMessage : ℕ
  invalidProof : ℕ

section

variable (errors : Errors) (codes : AccumulatorErrors)

/-- The reads of `parse_accumulator_merkle_root_from_vaa_payload`. -/
def takeMerkleRoot : Cursor Sui.MerkleTree.Bytes20 := do
  let payloadType ← deserializeU32
  assert (payloadType = ACCUMULATOR_UPDATE_WORMHOLE_VERIFICATION_MAGIC)
    codes.invalidWormholeMessage
  let whMessagePayloadType ← deserializeU8
  assert (whMessagePayloadType = 0) codes.invalidWormholeMessage
  let _merkleRootSlot ← deserializeU64
  let _merkleRootRingSize ← deserializeU32
  Sui.MerkleTree.takeBytes20

def parseAccumulatorMerkleRootFromVaaPayload (message : Bytes) :
    Result Sui.MerkleTree.Bytes20 := do
  let (merkleRootHash, _) ← takeMerkleRoot codes message
  return merkleRootHash

/-- The reads of `parse_accumulator_update_message`, at the time `now`. -/
def takeUpdateMessage (now : U64) : Cursor PriceInfo := do
  let messageType ← deserializeU8
  assert (messageType = 0) codes.invalidAccumulatorMessage
  let priceIdentifier ← takePriceIdentifier
  let price ← deserializeI64 errors
  let conf ← deserializeU64
  let expo ← deserializeI32 errors
  let publishTime ← deserializeU64
  let _prevPublishTime ← deserializeI64 errors
  let emaPrice ← deserializeI64 errors
  let emaConf ← deserializeU64
  return {
    attestationTime := now
    arrivalTime := now
    priceFeed := {
      priceIdentifier
      price := { price, conf, expo, timestamp := publishTime }
      emaPrice := { price := emaPrice, conf := emaConf, expo, timestamp := publishTime } } }

def parseAccumulatorUpdateMessage (now : U64) (message : Bytes) : Result PriceInfo := do
  let (priceInfo, _) ← takeUpdateMessage errors codes now message
  return priceInfo

end

/-! ## What is read -/

open Pyth (priceIdOf siblingDigest)

/-- The price that a Move package holds is the price of an update of the EVM contract. -/
structure SameInfo (info : PriceInfo) (update : BitVec 256 × Pyth.PriceInfo) : Prop where
  id : priceIdOf info.priceFeed.priceIdentifier = update.1
  price : info.priceFeed.price.price.toInt = update.2.price.toInt
  conf : info.priceFeed.price.conf = update.2.conf
  expo : info.priceFeed.price.expo.toInt = update.2.expo.toInt
  publishTime : info.priceFeed.price.timestamp = update.2.publishTime
  emaPrice : info.priceFeed.emaPrice.price.toInt = update.2.emaPrice.toInt
  emaConf : info.priceFeed.emaPrice.conf = update.2.emaConf
  emaExpo : info.priceFeed.emaPrice.expo.toInt = update.2.expo.toInt
  emaPublishTime : info.priceFeed.emaPrice.timestamp = update.2.publishTime

theorem toInt_of_bits {i : I64} {v : BitVec 64} (h : i.bits = v) : i.toInt = v.toInt := by
  rw [← I64.toInt_bits, h]

theorem toInt_of_signExtend {i : I64} {v : BitVec 32} (h : i.bits = v.signExtend 64) :
    i.toInt = v.toInt := by
  rw [← I64.toInt_bits, h, BitVec.toInt_signExtend_of_le (by decide)]

/-- An assertion against one of the grammar. -/
theorem reads_assert {p q : Prop} [Decidable p] [Decidable q] {code : ℕ} (h : p ↔ q) :
    ReadsAs (fun _ _ => True) (liftM (Move.assert p code) : Cursor Unit)
      (Parser.assert (guard q)) := by
  refine .lift ?_
  unfold Move.assert guard
  by_cases hp : p
  · rw [if_pos hp, if_pos (h.mp hp)]
    trivial
  · rw [if_neg hp, if_neg (mt h.mpr hp)]
    trivial

theorem assert_guard_bind {p : Prop} [Decidable p] {α : Type} {q : Unit → Parser α} (hp : p) :
    (Parser.assert (guard p) >>= q) = q () := by
  unfold guard
  rw [if_pos hp]
  exact Parser.assert_some_bind

/-- A tag of a message, which the grammar converts to the first member of an enumeration. -/
theorem reads_tag {τ : Type} {first : τ} {ofUint8 : BitVec 8 → Pyth.Result τ} {tag : UInt8}
    {v : BitVec 8} {code : ℕ}
    (h : ∀ n, ofUint8 n = if n = 0 then .ok first else .error (.panic 0x21))
    (htag : tag.toBitVec = v) :
    ReadsAs (fun _ t => t = first) (liftM (Move.assert (tag = 0) code) : Cursor Unit)
      (Parser.assert (ofUint8 v).toOption) := by
  refine .lift ?_
  have hzero : v = 0 ↔ tag = 0 := by
    rw [← htag]
    exact UInt8.toBitVec_inj
  rw [h, if_congr hzero rfl rfl]
  unfold Move.assert
  by_cases hp : tag = 0
  · rw [if_pos hp, if_pos hp]
    exact rfl
  · rw [if_neg hp, if_neg hp]
    trivial

/-- `n` bytes are the word that the grammar reads. -/
theorem reads_hashArray {n w : ℕ} {d : Cursor (PythnetSdk.HashArray n)}
    (h : ∀ bs, d bs = if h : n ≤ bs.length then
      .ok (⟨bs.take n, List.length_take_of_le h⟩, bs.drop n) else .error .vectorError) :
    ReadsAs (fun a v => BitVec.ofNat w (natBE a.val) = v) d (Parser.uint w n) := by
  have harray : Decoder.Reads d (Parser.array n) := by
    intro bs r
    rw [h, Parser.array]
    split
    · exact ⟨fun h => congrArg some (Except.ok.inj h), fun h => congrArg _ (Option.some.inj h)⟩
    · exact ⟨nofun, nofun⟩
  have hparser : Parser.uint w n
      = Parser.array n >>= fun a => pure (BitVec.ofNat w (natBE a.val)) := by
    funext bs
    rw [Parser.uint, Parser.bind_run, Parser.bind_run, Parser.take, Parser.array]
    split <;> rfl
  rw [hparser]
  exact (ReadsAs.of_reads harray).parsePure fun a b hab => by rw [hab]

theorem reads_bytes20 :
    ReadsAs (fun a v => siblingDigest a = v) Sui.MerkleTree.takeBytes20 (Parser.uint 160 20) :=
  reads_hashArray fun _ => rfl

theorem reads_priceIdentifier :
    ReadsAs (fun a v => priceIdOf a = v) takePriceIdentifier (Parser.uint 256 32) :=
  reads_hashArray fun _ => rfl

/-- A word that is not used. -/
theorem reads_skip (w k : ℕ) :
    ReadsAs (fun _ _ => True) (deserializeWord w k) (Parser.skip k) := by
  have hparser : Parser.skip k = Parser.uint w k >>= fun _ => pure () := by
    simp only [Parser.skip, Parser.uint, bind_assoc, pure_bind]
  rw [hparser]
  exact (reads_word w k).parsePure fun _ _ _ => trivial

/-- Bytes that are not used. -/
theorem reads_skipVector (n : ℕ) :
    ReadsAs (fun _ _ => True) (deserializeVector n) (Parser.skip n) :=
  (reads_vector n).parsePure fun _ _ _ => trivial

variable {errors : Errors} {codes : AccumulatorErrors}

theorem reads_merkleRoot :
    ReadsAs (fun a v => siblingDigest a = v) (takeMerkleRoot codes) Pyth.Strict.payload := by
  unfold takeMerkleRoot Pyth.Strict.payload
  refine (reads_word 32 4).bind fun payloadType magic hmagic => ?_
  refine (reads_assert (by rw [hmagic]; exact Iff.rfl)).bind fun _ _ _ => ?_
  refine reads_u8.bind fun tag v htag => ?_
  refine (reads_tag (fun _ => rfl) htag).bind fun _ updateType hfirst => ?_
  rw [assert_guard_bind hfirst]
  refine (reads_skip 64 8).bind fun _ _ _ => ?_
  refine (reads_skip 32 4).bind fun _ _ _ => ?_
  exact reads_bytes20

theorem reads_updateMessage (now : U64) :
    ReadsAs (fun info r => SameInfo info (r.2.1, r.1)) (takeUpdateMessage errors codes now)
      Pyth.Strict.message := by
  unfold takeUpdateMessage Pyth.Strict.message Pyth.Strict.priceFeedMessage
  refine reads_u8.bind fun tag v htag => ?_
  refine (reads_tag (fun _ => rfl) htag).bind fun _ messageType hfirst => ?_
  rw [assert_guard_bind hfirst]
  refine reads_priceIdentifier.bind fun priceIdentifier priceId hid => ?_
  refine reads_i64.bind fun price price' hprice => ?_
  refine (reads_word 64 8).bind fun conf conf' hconf => ?_
  refine reads_i32.bind fun expo expo' hexpo => ?_
  refine (reads_word 64 8).bind fun publishTime publishTime' htime => ?_
  refine reads_i64.bind fun _ prevPublishTime _ => ?_
  refine reads_i64.bind fun emaPrice emaPrice' hema => ?_
  refine (reads_word 64 8).bind fun emaConf emaConf' hemaConf => ?_
  exact .ret ⟨hid, toInt_of_bits hprice, hconf, toInt_of_signExtend hexpo, htime,
    toInt_of_bits hema, hemaConf, toInt_of_signExtend hexpo, htime⟩

/-- The EVM contract checks the proof before it reads the message, the Move packages after. -/
theorem strictUpdate_eq (keccak256 : Bytes → BitVec 256) (digest : BitVec 160) :
    Pyth.Strict.update keccak256 digest = Parser.uint 16 2 >>= fun messageSize =>
      Parser.take messageSize.toNat >>= fun encodedMessage =>
      Parser.assert (Pyth.Strict.message.parsePrefix encodedMessage) >>= fun result =>
      Pyth.Strict.proof keccak256 digest (Pyth.MerkleTree.leafHash keccak256 encodedMessage)
        >>= fun valid =>
      Parser.assert (guard (valid = true)) >>= fun _ => pure result := by
  unfold Pyth.Strict.update
  refine bind_congr fun messageSize => bind_congr fun encodedMessage => ?_
  rw [Parser.assert_bind_comm]
  refine bind_congr fun valid => ?_
  rw [Parser.assert_bind_comm]
  simp only [bind_pure]

/-! ## The grammar behind the magic number -/

section

variable (keccak256 : Bytes → BitVec 256) (parseAndVerifyPythVM : Bytes → Pyth.Result Pyth.VM)

/-- The grammar of an accumulator update, behind its magic number. -/
def afterMagic : Parser (BitVec 8 × List (BitVec 256 × Pyth.PriceInfo)) := do
  let majorVersion ← Parser.uint 8 1
  Parser.assert (guard (majorVersion = Pyth.MAJOR_VERSION))
  let minorVersion ← Parser.uint 8 1
  Parser.assert (guard (minorVersion ≥ Pyth.MINIMUM_ALLOWED_MINOR_VERSION))
  let trailingHeaderSize ← Parser.uint 8 1
  Parser.skip trailingHeaderSize.toNat
  let updateType ← Parser.uint 8 1
  let updateType ← Parser.assert (Pyth.UpdateType.ofUint8 updateType).toOption
  Parser.assert (guard (updateType = .wormholeMerkle))
  Pyth.Strict.wormholeMerkleUpdates keccak256 parseAndVerifyPythVM

theorem accumulatorUpdate_eq : Pyth.Strict.accumulatorUpdate keccak256 parseAndVerifyPythVM
    = Parser.uint 32 4 >>= fun magic =>
      Parser.assert (guard (magic = Pyth.ACCUMULATOR_MAGIC)) >>= fun _ =>
      afterMagic keccak256 parseAndVerifyPythVM := by
  simp only [Pyth.Strict.accumulatorUpdate, Pyth.Strict.header, afterMagic, bind_assoc]

end

end PythCrosschain.MovePackages
