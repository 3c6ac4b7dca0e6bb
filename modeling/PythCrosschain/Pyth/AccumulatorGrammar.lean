import PythCrosschain.Pyth.MerkleAgreement
import PythCrosschain.PythnetSdk.VerifiedUpdate

/-!
# The strict parser and the grammar of the SDK

The strict parser of accumulator updates checks what it reads as it goes. Reading all of
the update first, as the deserializer of the SDK does, and checking it afterwards comes to
the same: every `_run` lemma says so for one part of the parser.

The result is `accumulatorUpdate_run`: the contract accepts the bytes of an update exactly
when they are read as one whose updates verify, and it applies their messages.
-/

namespace PythCrosschain.Pyth

open PythnetSdk (HashArray MerklePath MerklePriceUpdate PriceFeedMessage FeedId
  AccumulatorUpdateData WormholeMessage Keccak160)
open PythCrosschain.Parser (bind_run_eq_some pure_run assert_run_eq_some)

/-! ## Fields -/

section Fields

variable {α : Type} {bs rest : Bytes} {r : α}

theorem guard_bind_run {p : Prop} [Decidable p] {q : Unit → Parser α} :
    (Parser.assert (guard p) >>= q) bs = some (r, rest) ↔ p ∧ q () bs = some (r, rest) := by
  rw [bind_run_eq_some]
  simp only [assert_run_eq_some]
  constructor
  · rintro ⟨_, _, ⟨hp, rfl⟩, hq⟩
    by_cases h : p
    · exact ⟨h, hq⟩
    · simp [guard, h] at hp
  · rintro ⟨hp, hq⟩
    exact ⟨(), bs, ⟨if_pos hp, rfl⟩, hq⟩

theorem uint8_bind_run {q : Uint8 → Parser α} :
    (Parser.uint8 >>= q) bs = some (r, rest) ↔
      ∃ b mid, Parser.byte bs = some (b, mid) ∧ q b.toBitVec mid = some (r, rest) := by
  simp only [bind_run_eq_some, Parser.uint8_run]
  constructor
  · rintro ⟨_, mid, ⟨b, hb, rfl⟩, hq⟩
    exact ⟨b, mid, hb, hq⟩
  · rintro ⟨b, mid, hb, hq⟩
    exact ⟨b.toBitVec, mid, ⟨b, hb, rfl⟩, hq⟩

theorem uint_bind_run {w k : Nat} {q : BitVec w → Parser α} :
    (Parser.uint w k >>= q) bs = some (r, rest) ↔
      ∃ (a : HashArray k) (mid : Bytes), Parser.array k bs = some (a, mid) ∧
        q (BitVec.ofNat w (natBE a.val)) mid = some (r, rest) := by
  simp only [bind_run_eq_some, Parser.uint_run]
  constructor
  · rintro ⟨_, mid, ⟨a, ha, rfl⟩, hq⟩
    exact ⟨a, mid, ha, hq⟩
  · rintro ⟨a, mid, ha, hq⟩
    exact ⟨_, mid, ⟨a, ha, rfl⟩, hq⟩

/-- Bytes whose content is not used. -/
theorem trailing_bind_run {q : Unit → Parser α} :
    (Parser.uint8 >>= fun n => Parser.skip n.toNat >>= q) bs = some (r, rest) ↔
      ∃ trailing mid, PythnetSdk.Grammar.seq Parser.byte bs = some (trailing, mid) ∧
        q () mid = some (r, rest) := by
  rw [uint8_bind_run]
  simp only [PythnetSdk.Grammar.seq, Parser.skip, bind_assoc, pure_bind, bind_run_eq_some,
    Parser.elements_byte]
  constructor
  · rintro ⟨b, mid, hb, field, mid', hfield, hq⟩
    exact ⟨field, mid', ⟨b, mid, hb, hfield⟩, hq⟩
  · rintro ⟨field, mid', ⟨b, mid, hb, hfield⟩, hq⟩
    exact ⟨b, mid, hb, field, mid', hfield, hq⟩

/-- Magic numbers of one size are compared as their bytes are. -/
theorem magic_iff {n : Nat} {a magic : HashArray n} :
    BitVec.ofNat (8 * n) (natBE a.val) = BitVec.ofNat (8 * n) (natBE magic.val) ↔ a = magic := by
  have hlt (b : HashArray n) : natBE b.val < 2 ^ (8 * n) := by
    have hlt := natBE_lt b.val
    rwa [b.property, show 256 = 2 ^ 8 from rfl, ← Nat.pow_mul] at hlt
  constructor
  · intro h
    have hnat := congrArg BitVec.toNat h
    rw [BitVec.toNat_ofNat, BitVec.toNat_ofNat, Nat.mod_eq_of_lt (hlt a),
      Nat.mod_eq_of_lt (hlt magic)] at hnat
    exact Subtype.ext (natBE_injective_of_length (a.property.trans magic.property.symm) hnat)
  · rintro rfl
    rfl

/-- A magic number is read and compared. -/
theorem magic_bind_run {magic : HashArray 4} {word : Uint32} {q : Unit → Parser α}
    (hword : word = BitVec.ofNat 32 (natBE magic.val)) :
    (Parser.uint32 >>= fun v => Parser.assert (guard (v = word)) >>= q) bs = some (r, rest) ↔
      ∃ mid, Parser.array 4 bs = some (magic, mid) ∧ q () mid = some (r, rest) := by
  subst hword
  rw [uint_bind_run]
  simp only [guard_bind_run]
  constructor
  · rintro ⟨a, mid, ha, hmagic, hq⟩
    obtain rfl := (@magic_iff 4 a magic).mp hmagic
    exact ⟨mid, ha, hq⟩
  · rintro ⟨mid, ha, hq⟩
    exact ⟨magic, mid, ha, rfl, hq⟩

theorem accumulatorMagic_bind_run {q : Unit → Parser α} :
    (Parser.uint32 >>= fun v => Parser.assert (guard (v = ACCUMULATOR_MAGIC)) >>= q) bs
        = some (r, rest) ↔
      ∃ mid, Parser.array 4 bs = some (PythnetSdk.PYTHNET_ACCUMULATOR_UPDATE_MAGIC, mid) ∧
        q () mid = some (r, rest) :=
  magic_bind_run rfl

theorem wormholeMagic_bind_run {q : Unit → Parser α} :
    (Parser.uint32 >>= fun v => Parser.assert (guard (v = ACCUMULATOR_WORMHOLE_MAGIC)) >>= q) bs
        = some (r, rest) ↔
      ∃ mid, Parser.array 4 bs
          = some (PythnetSdk.ACCUMULATOR_UPDATE_WORMHOLE_VERIFICATION_MAGIC, mid) ∧
        q () mid = some (r, rest) :=
  magic_bind_run rfl

/-- A tag is converted to the first member of an enumeration. -/
theorem tag_bind_run {τ : Type} {first : τ} {ofUint8 : Uint8 → Result τ} {q : τ → Parser α}
    (h : ∀ n, ofUint8 n = if n = 0 then .ok first else .error (.panic 0x21)) :
    (Parser.uint8 >>= fun v => Parser.assert (ofUint8 v).toOption >>= q) bs = some (r, rest) ↔
      ∃ mid, PythnetSdk.Grammar.firstVariant bs = some ((), mid) ∧
        q first mid = some (r, rest) := by
  have htag (b : UInt8) : (ofUint8 b.toBitVec).toOption = if b = 0 then some first else none := by
    have hzero : b.toBitVec = 0 ↔ b = 0 := UInt8.toBitVec_inj
    rw [h, if_congr hzero rfl rfl]
    split <;> rfl
  rw [uint8_bind_run]
  simp only [bind_run_eq_some, assert_run_eq_some, htag, Parser.byte_run,
    PythnetSdk.Grammar.firstVariant_run]
  constructor
  · rintro ⟨b, mid, rfl, t, mid', ⟨ht, rfl⟩, hq⟩
    split at ht
    · next hb =>
      cases ht
      exact ⟨mid', hb ▸ rfl, hq⟩
    · cases ht
  · rintro ⟨mid, rfl, hq⟩
    exact ⟨0, mid, rfl, first, mid, ⟨if_pos rfl, rfl⟩, hq⟩

theorem updateType_bind_run {q : UpdateType → Parser α} :
    (Parser.uint8 >>= fun v => Parser.assert (UpdateType.ofUint8 v).toOption >>= q) bs
        = some (r, rest) ↔
      ∃ mid, PythnetSdk.Grammar.firstVariant bs = some ((), mid) ∧
        q .wormholeMerkle mid = some (r, rest) :=
  tag_bind_run fun _ => rfl

theorem messageType_bind_run {q : MessageType → Parser α} :
    (Parser.uint8 >>= fun v => Parser.assert (MessageType.ofUint8 v).toOption >>= q) bs
        = some (r, rest) ↔
      ∃ mid, PythnetSdk.Grammar.firstVariant bs = some ((), mid) ∧
        q .priceFeed mid = some (r, rest) :=
  tag_bind_run fun _ => rfl

end Fields

/-! ## The header and the payload of the VAA -/

section

variable {α : Type} {bs rest : Bytes} {r : α}

/-- The header, whose minor version and trailing bytes are not used. -/
theorem header_bind_run {q : UpdateType → Parser α} :
    (Strict.header >>= q) bs = some (r, rest) ↔
      ∃ minorVersion trailing m₁ m₂ m₃ m₄ mid,
        Parser.array 4 bs = some (PythnetSdk.PYTHNET_ACCUMULATOR_UPDATE_MAGIC, m₁) ∧
        Parser.byte m₁ = some (1, m₂) ∧ Parser.byte m₂ = some (minorVersion, m₃) ∧
        PythnetSdk.Grammar.seq Parser.byte m₃ = some (trailing, m₄) ∧
        PythnetSdk.Grammar.firstVariant m₄ = some ((), mid) ∧
        q .wormholeMerkle mid = some (r, rest) := by
  simp only [Strict.header, bind_assoc]
  constructor
  · intro h
    obtain ⟨m₁, hmagic, h⟩ := accumulatorMagic_bind_run.mp h
    obtain ⟨majorVersion, m₂, hmajor, h⟩ := uint8_bind_run.mp h
    obtain ⟨hone, h⟩ := guard_bind_run.mp h
    rw [UInt8.toBitVec_inj.mp (hone : majorVersion.toBitVec = (1 : UInt8).toBitVec)] at hmajor
    obtain ⟨minorVersion, m₃, hminor, h⟩ := uint8_bind_run.mp h
    obtain ⟨-, h⟩ := guard_bind_run.mp h
    obtain ⟨trailing, m₄, htrailing, h⟩ := trailing_bind_run.mp h
    obtain ⟨mid, htag, h⟩ := updateType_bind_run.mp h
    exact ⟨minorVersion, trailing, m₁, m₂, m₃, m₄, mid, hmagic, hmajor, hminor, htrailing, htag,
      h⟩
  · rintro ⟨minorVersion, trailing, m₁, m₂, m₃, m₄, mid, hmagic, hmajor, hminor, htrailing, htag,
      h⟩
    refine accumulatorMagic_bind_run.mpr ⟨m₁, hmagic, ?_⟩
    refine uint8_bind_run.mpr ⟨1, m₂, hmajor, guard_bind_run.mpr ⟨rfl, ?_⟩⟩
    refine uint8_bind_run.mpr ⟨minorVersion, m₃, hminor, ?_⟩
    refine guard_bind_run.mpr ⟨BitVec.le_def.mpr (Nat.zero_le _), ?_⟩
    refine trailing_bind_run.mpr ⟨trailing, m₄, htrailing, ?_⟩
    exact updateType_bind_run.mpr ⟨mid, htag, h⟩

theorem skip_bind_run {w k : Nat} {q : Unit → Parser α} :
    (Parser.skip k >>= q) bs = some (r, rest) ↔
      ∃ (v : BitVec w) (mid : Bytes), Parser.uint w k bs = some (v, mid) ∧
        q () mid = some (r, rest) := by
  simp only [Parser.skip, Parser.uint, bind_assoc, pure_bind, bind_run_eq_some, pure_run,
    Option.some.injEq, Prod.mk.injEq]
  constructor
  · rintro ⟨field, mid, hfield, hq⟩
    exact ⟨_, mid, ⟨field, mid, hfield, rfl, rfl⟩, hq⟩
  · rintro ⟨_, _, ⟨field, mid, hfield, rfl, rfl⟩, hq⟩
    exact ⟨field, mid, hfield, hq⟩

end

theorem payload_run {bs rest : Bytes} {digest : Bytes20} :
    Strict.payload bs = some (digest, rest) ↔
      ∃ message : WormholeMessage, PythnetSdk.Grammar.wormholeMessage bs = some (message, rest) ∧
        message.magic = PythnetSdk.ACCUMULATOR_UPDATE_WORMHOLE_VERIFICATION_MAGIC ∧
        digest = siblingDigest message.payload.root := by
  simp only [Strict.payload, PythnetSdk.Grammar.wormholeMessage,
    PythnetSdk.Grammar.wormholePayload, PythnetSdk.Grammar.wormholeMerkleRoot, bind_assoc,
    pure_bind]
  constructor
  · intro h
    obtain ⟨m₁, hmagic, h⟩ := wormholeMagic_bind_run.mp h
    obtain ⟨m₂, htag, h⟩ := updateType_bind_run.mp h
    obtain ⟨-, h⟩ := guard_bind_run.mp h
    obtain ⟨slot, m₃, hslot, h⟩ := (skip_bind_run (w := 64)).mp h
    obtain ⟨ringSize, m₄, hring, h⟩ := (skip_bind_run (w := 32)).mp h
    obtain ⟨root, hroot, rfl⟩ := Parser.uint_run.mp h
    refine ⟨⟨_, .merkle ⟨slot, ringSize, root⟩⟩, ?_, rfl, rfl⟩
    simp only [bind_run_eq_some]
    exact ⟨_, m₁, hmagic, (), m₂, htag, slot, m₃, hslot, ringSize, m₄, hring, root, _, hroot, rfl⟩
  · rintro ⟨message, hmessage, hmagic, rfl⟩
    simp only [bind_run_eq_some] at hmessage
    obtain ⟨_, m₁, hmagic', _, m₂, htag, slot, m₃, hslot, ringSize, m₄, hring, root, m₅, hroot,
      hpure⟩ := hmessage
    cases hpure
    cases hmagic
    refine wormholeMagic_bind_run.mpr ⟨m₁, hmagic', ?_⟩
    refine updateType_bind_run.mpr ⟨m₂, htag, guard_bind_run.mpr ⟨trivial, ?_⟩⟩
    refine skip_bind_run.mpr ⟨slot, m₃, hslot, skip_bind_run.mpr ⟨ringSize, m₄, hring, ?_⟩⟩
    exact Parser.uint_run.mpr ⟨root, hroot, rfl⟩

/-! ## The messages -/

def priceIdOf (feedId : FeedId) : Bytes32 := BitVec.ofNat 256 (natBE feedId.val)

def priceInfoOf (msg : PriceFeedMessage) : PriceInfo where
  publishTime := msg.publishTime
  expo := msg.exponent
  price := msg.price
  conf := msg.conf
  emaPrice := msg.emaPrice
  emaConf := msg.emaConf

theorem message_run {bs rest : Bytes} {r : PriceInfo × Bytes32 × Uint64} :
    Strict.message bs = some (r, rest) ↔
      ∃ msg, PythnetSdk.Grammar.message bs = some (msg, rest) ∧
        r = (priceInfoOf msg, priceIdOf msg.feedId, msg.prevPublishTime) := by
  simp only [Strict.message, Strict.priceFeedMessage, PythnetSdk.Grammar.message,
    PythnetSdk.Grammar.priceFeedMessage]
  constructor
  · intro h
    obtain ⟨m₁, htag, h⟩ := messageType_bind_run.mp h
    obtain ⟨-, h⟩ := guard_bind_run.mp h
    obtain ⟨feedId, m₂, hfeedId, h⟩ := uint_bind_run.mp h
    simp only [bind_run_eq_some] at h ⊢
    obtain ⟨price, m₃, hprice, conf, m₄, hconf, expo, m₅, hexpo, publishTime, m₆, hpublish,
      prevPublishTime, m₇, hprev, emaPrice, m₈, hema, emaConf, m₉, hemaConf, hpure⟩ := h
    cases hpure
    exact ⟨⟨feedId, price, conf, expo, publishTime, prevPublishTime, emaPrice, emaConf⟩,
      ⟨(), m₁, htag, feedId, m₂, hfeedId, price, m₃, hprice, conf, m₄, hconf, expo, m₅, hexpo,
        publishTime, m₆, hpublish, prevPublishTime, m₇, hprev, emaPrice, m₈, hema, emaConf, _,
        hemaConf, rfl⟩, rfl⟩
  · rintro ⟨msg, hmsg, rfl⟩
    simp only [bind_run_eq_some] at hmsg
    obtain ⟨_, m₁, htag, feedId, m₂, hfeedId, price, m₃, hprice, conf, m₄, hconf, expo, m₅, hexpo,
      publishTime, m₆, hpublish, prevPublishTime, m₇, hprev, emaPrice, m₈, hema, emaConf, m₉,
      hemaConf, hpure⟩ := hmsg
    cases hpure
    refine messageType_bind_run.mpr ⟨m₁, htag, guard_bind_run.mpr ⟨trivial, ?_⟩⟩
    refine uint_bind_run.mpr ⟨feedId, m₂, hfeedId, ?_⟩
    simp only [bind_run_eq_some]
    exact ⟨price, m₃, hprice, conf, m₄, hconf, expo, m₅, hexpo, publishTime, m₆, hpublish,
      prevPublishTime, m₇, hprev, emaPrice, m₈, hema, emaConf, _, hemaConf, rfl⟩

/-! ## The updates -/

variable {keccak256 : Bytes → Bytes32}

theorem climb_run {proofSize : Nat} {bs rest : Bytes} {leaf digest : Bytes20} :
    Strict.climb keccak256 leaf proofSize bs = some (digest, rest) ↔
      ∃ path, Parser.elements (Parser.array 20) proofSize bs = some (path, rest) ∧
        digest = climbPath keccak256 leaf path := by
  induction proofSize generalizing bs leaf with
  | zero =>
    constructor
    · rintro ⟨⟩
      exact ⟨[], rfl, rfl⟩
    · rintro ⟨_, ⟨⟩, rfl⟩
      rfl
  | succ proofSize ih =>
    rw [Strict.climb, uint_bind_run]
    simp only [ih, Parser.elements_succ_run]
    constructor
    · rintro ⟨sibling, mid, hsibling, path, hpath, rfl⟩
      exact ⟨sibling :: path, ⟨sibling, path, mid, hsibling, hpath, rfl⟩, rfl⟩
    · rintro ⟨_, ⟨sibling, path, mid, hsibling, hpath, rfl⟩, rfl⟩
      exact ⟨sibling, mid, hsibling, path, hpath, rfl⟩

/-- A proof is read to its end before the digest is compared. -/
theorem proof_bind_run {α : Type} {root leaf : Bytes20} {q : Unit → Parser α} {bs rest : Bytes}
    {r : α} :
    (Strict.proof keccak256 root leaf >>= fun valid =>
        Parser.assert (guard (valid = true)) >>= q) bs = some (r, rest) ↔
      ∃ path mid, PythnetSdk.Grammar.seq (Parser.array 20) bs = some (path, mid) ∧
        climbPath keccak256 leaf path = root ∧ q () mid = some (r, rest) := by
  simp only [Strict.proof, bind_assoc, pure_bind]
  rw [uint8_bind_run]
  simp only [PythnetSdk.Grammar.seq, bind_run_eq_some (p := Strict.climb _ _ _), climb_run,
    guard_bind_run, decide_eq_true_eq, bind_run_eq_some (p := Parser.byte)]
  constructor
  · rintro ⟨n, mid, hn, _, mid', ⟨path, hpath, rfl⟩, hroot, hq⟩
    exact ⟨path, mid', ⟨n, mid, hn, hpath⟩, hroot, hq⟩
  · rintro ⟨path, mid', ⟨n, mid, hn, hpath⟩, hroot, hq⟩
    exact ⟨n, mid, hn, _, mid', ⟨path, hpath, rfl⟩, hroot, hq⟩

theorem prefixed_bind_run {α : Type} {q : Bytes → Parser α} {bs rest : Bytes} {r : α} :
    (Parser.uint16 >>= fun n => Parser.take n.toNat >>= q) bs = some (r, rest) ↔
      ∃ field mid, PythnetSdk.Grammar.prefixed bs = some (field, mid) ∧
        q field mid = some (r, rest) := by
  simp only [PythnetSdk.Grammar.prefixed, bind_run_eq_some]
  constructor
  · rintro ⟨n, mid, hn, field, mid', hfield, hq⟩
    exact ⟨field, mid', ⟨n, mid, hn, hfield⟩, hq⟩
  · rintro ⟨field, mid', ⟨n, mid, hn, hfield⟩, hq⟩
    exact ⟨n, mid, hn, field, mid', hfield, hq⟩

theorem update_run {root : HashArray 20} {bs rest : Bytes} {r : PriceInfo × Bytes32 × Uint64} :
    Strict.update keccak256 (siblingDigest root) bs = some (r, rest) ↔
      ∃ update msg, PythnetSdk.Grammar.merklePriceUpdate bs = some (update, rest) ∧
        MerklePriceUpdate.Proves (Keccak160 keccak256) root update msg ∧
        r = (priceInfoOf msg, priceIdOf msg.feedId, msg.prevPublishTime) := by
  have hmessage {message : Bytes} : Strict.message.parsePrefix message = some r ↔
      ∃ msg, (∃ rest, PythnetSdk.Message.schema.fromSlice .BE message
          = .ok (.priceFeedMessage msg, rest)) ∧
        r = (priceInfoOf msg, priceIdOf msg.feedId, msg.prevPublishTime) := by
    simp only [Parser.parsePrefix_eq_some, message_run, PythnetSdk.message_reads]
    constructor
    · rintro ⟨rest', msg, hmsg, hr⟩
      exact ⟨msg, ⟨rest', hmsg⟩, hr⟩
    · rintro ⟨msg, ⟨rest', hmsg⟩, hr⟩
      exact ⟨rest', msg, hmsg, hr⟩
  simp only [Strict.update, PythnetSdk.Grammar.merklePriceUpdate]
  constructor
  · intro h
    obtain ⟨message, m₁, hfield, h⟩ := prefixed_bind_run.mp h
    obtain ⟨path, m₂, hpath, hroot, h⟩ := proof_bind_run.mp h
    obtain ⟨hparse, rfl⟩ := assert_run_eq_some.mp h
    obtain ⟨msg, hmsg, hr⟩ := hmessage.mp hparse
    refine ⟨⟨message, path⟩, msg, ?_, ⟨(climbPath_eq_iff_check root path message).mp hroot, hmsg⟩,
      hr⟩
    simp only [bind_run_eq_some]
    exact ⟨message, m₁, hfield, path, _, hpath, rfl⟩
  · rintro ⟨update, msg, hupdate, ⟨hproof, hmsg⟩, hr⟩
    simp only [bind_run_eq_some] at hupdate
    obtain ⟨message, m₁, hfield, path, m₂, hpath, hpure⟩ := hupdate
    cases hpure
    refine prefixed_bind_run.mpr ⟨message, m₁, hfield, ?_⟩
    refine proof_bind_run.mpr ⟨path, _, hpath,
      (climbPath_eq_iff_check root path message).mpr hproof, ?_⟩
    exact assert_run_eq_some.mpr ⟨hmessage.mpr ⟨msg, hmsg, hr⟩, rfl⟩

/-- What is applied for a message. -/
def feedUpdateOf (msg : PriceFeedMessage) : Bytes32 × PriceInfo :=
  (priceIdOf msg.feedId, priceInfoOf msg)

theorem updates_run {root : HashArray 20} {numUpdates : Nat} {bs rest : Bytes}
    {list : List (Bytes32 × PriceInfo)} :
    Strict.updates keccak256 (siblingDigest root) numUpdates bs = some (list, rest) ↔
      ∃ updates msgs,
        Parser.elements PythnetSdk.Grammar.merklePriceUpdate numUpdates bs
          = some (updates, rest) ∧
        List.Forall₂ (MerklePriceUpdate.Proves (Keccak160 keccak256) root) updates msgs ∧
        list = msgs.map feedUpdateOf := by
  induction numUpdates generalizing bs rest list with
  | zero =>
    constructor
    · rintro ⟨⟩
      exact ⟨[], [], rfl, .nil, rfl⟩
    · rintro ⟨_, _, ⟨⟩, hproves, rfl⟩
      cases hproves
      rfl
  | succ numUpdates ih =>
    simp only [Strict.updates, bind_run_eq_some, update_run, Parser.elements_succ_run]
    constructor
    · rintro ⟨_, mid, ⟨update, msg, hupdate, hproves, rfl⟩, tail, rest', htail, hpure⟩
      obtain ⟨updates, msgs, hupdates, hall, rfl⟩ := ih.mp htail
      cases hpure
      exact ⟨update :: updates, msg :: msgs, ⟨update, updates, mid, hupdate, hupdates, rfl⟩,
        .cons hproves hall, rfl⟩
    · rintro ⟨_, _, ⟨update, updates, mid, hupdate, hupdates, rfl⟩, hall, rfl⟩
      cases hall with
      | cons hproves hall =>
        exact ⟨_, mid, ⟨update, _, hupdate, hproves, rfl⟩, _, rest,
          ih.mpr ⟨updates, _, hupdates, hall, rfl⟩, rfl⟩

/-! ## The whole update -/

/-- The payload of a VAA as the contract reads it. -/
theorem payload_parsePrefix {payload : Bytes} {digest : Bytes20} :
    Strict.payload.parsePrefix payload = some digest ↔
      ∃ root, PythnetSdk.CarriesRoot payload root ∧ digest = siblingDigest root := by
  simp only [Parser.parsePrefix_eq_some, payload_run, PythnetSdk.CarriesRoot,
    WormholeMessage.tryFromBytes_eq_ok]
  constructor
  · rintro ⟨rest, message, hmessage, hmagic, hdigest⟩
    exact ⟨message.payload.root, ⟨message, ⟨⟨rest, hmessage⟩, hmagic⟩, rfl⟩, hdigest⟩
  · rintro ⟨_, ⟨message, ⟨⟨rest, hmessage⟩, hmagic⟩, rfl⟩, hdigest⟩
    exact ⟨rest, message, hmessage, hmagic, hdigest⟩

/-- The contract reads an update exactly when the SDK reads one that verifies with the
payload of the VAA, and it takes the messages that are proven. -/
theorem accumulatorUpdate_run {parseAndVerifyPythVM : Bytes → Result VM} {bs rest : Bytes}
    {numUpdates : Uint8} {list : List (Bytes32 × PriceInfo)} :
    Strict.accumulatorUpdate keccak256 parseAndVerifyPythVM bs = some ((numUpdates, list), rest) ↔
      ∃ data vm msgs, PythnetSdk.Grammar.accumulatorUpdateData bs = some (data, rest) ∧
        parseAndVerifyPythVM data.proof.vaa = .ok vm ∧
        AccumulatorUpdateData.Verifies (Keccak160 keccak256) vm.payload data msgs ∧
        numUpdates.toNat = msgs.length ∧ list = msgs.map feedUpdateOf := by
  simp only [Strict.accumulatorUpdate, Strict.wormholeMerkleUpdates, Strict.wormholeMerkle,
    PythnetSdk.Grammar.accumulatorUpdateData, PythnetSdk.Grammar.proof, bind_assoc, pure_bind]
  constructor
  · intro h
    obtain ⟨minorVersion, trailing, m₁, m₂, m₃, m₄, m₅, hmagic, hmajor, hminor, htrailing, htag,
      h⟩ := header_bind_run.mp h
    obtain ⟨-, h⟩ := guard_bind_run.mp h
    obtain ⟨vaa, m₆, hvaa, h⟩ := prefixed_bind_run.mp h
    simp only [bind_run_eq_some, assert_run_eq_some] at h ⊢
    obtain ⟨vm, _, ⟨hvm, rfl⟩, digest, _, ⟨hpayload, rfl⟩, n, m₇, hn, list', m₈, hlist, hpure⟩ := h
    obtain ⟨root, hroot, rfl⟩ := payload_parsePrefix.mp hpayload
    obtain ⟨b, hb, rfl⟩ := Parser.uint8_run.mp hn
    obtain ⟨updates, msgs, hupdates, hproves, rfl⟩ := updates_run.mp hlist
    cases hpure
    refine ⟨⟨_, 1, minorVersion, trailing, .wormholeMerkle vaa updates⟩, vm, msgs,
      ⟨_, m₁, hmagic, 1, m₂, hmajor, minorVersion, m₃, hminor, trailing, m₄, htrailing, (), m₅,
        htag, vaa, _, hvaa, updates, _, ?_, rfl⟩,
      (toOption_iff vm).mpr hvm, ⟨rfl, rfl, root, hroot, hproves⟩, ?_, rfl⟩
    · exact bind_run_eq_some.mpr ⟨b, m₇, hb, hupdates⟩
    · rw [← hproves.length_eq, Parser.length_elements hupdates]
  · rintro ⟨data, vm, msgs, hdata, hvm, ⟨hmagic, hmajor, root, hroot, hproves⟩, hnum, rfl⟩
    simp only [bind_run_eq_some] at hdata
    obtain ⟨magic, m₁, hmagic', majorVersion, m₂, hmajor', minorVersion, m₃, hminor, trailing, m₄,
      htrailing, _, m₅, htag, vaa, m₆, hvaa, updates, m₇, hupdates, hpure⟩ := hdata
    cases hpure
    cases hmagic
    cases hmajor
    obtain ⟨b, m₈, hb, hupdates⟩ := bind_run_eq_some.mp hupdates
    refine header_bind_run.mpr ⟨minorVersion, trailing, m₁, m₂, m₃, m₄, m₅, hmagic', hmajor',
      hminor, htrailing, htag, guard_bind_run.mpr ⟨trivial, ?_⟩⟩
    refine prefixed_bind_run.mpr ⟨vaa, m₆, hvaa, ?_⟩
    simp only [bind_run_eq_some, assert_run_eq_some]
    have hcount : numUpdates = b.toBitVec := by
      apply BitVec.eq_of_toNat_eq
      rw [hnum, ← hproves.length_eq]
      exact Parser.length_elements hupdates
    exact ⟨vm, m₆, ⟨(toOption_iff vm).mp hvm, rfl⟩, siblingDigest root, m₆,
      ⟨payload_parsePrefix.mpr ⟨root, hroot, rfl⟩, rfl⟩, numUpdates, m₈,
      Parser.uint8_run.mpr ⟨b, hb, hcount⟩, _, rest,
      updates_run.mpr ⟨updates, msgs, hcount ▸ hupdates, hproves, rfl⟩, rfl⟩

end PythCrosschain.Pyth
