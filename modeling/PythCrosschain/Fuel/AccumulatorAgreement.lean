import PythCrosschain.Fuel.AccumulatorUpdate
import PythCrosschain.Fuel.GuardianSets
import PythCrosschain.Pyth.AccumulatorGrammar

/-!
# Fuel and EVM accumulator updates

The Fuel contract reads an update with checked reads at offsets. Each of its functions succeeds
exactly when the strict parser of EVM updates reads the same bytes (`Strict`), as long as the
header and the payload of the VAA are left out, which the Fuel contract checks in part. The
results are:

- `extractFromMerkleProof_eq_ok` and `updateLoop_eq_ok`: the messages and their proofs;
- `updatePriceFeeds_eq_ok`: when an update is accepted, and what is stored;
- `foldl_storeFeed_same`: the feeds that both hold stay the same;
- `accumulator_updates_agree`: when the two contracts agree on an update;
- `accumulator_updates_agree_fail`: an update of another type, which Fuel accepts.
-/

namespace PythCrosschain.Fuel

open BytesLib (field)
open Pyth (PriceInfo World Strict.climb Strict.proof Strict.update Strict.updates Strict.message
  Strict.priceFeedMessage Strict.header Strict.payload guard_bind_run)
open PythCrosschain.Parser (bind_run_eq_some assert_run_eq_some take_run_eq_some pure_run)

/-! ## Fields at offsets -/

section

variable {α : Type} {bytes rest : Bytes} {r : α}

theorem take_bind_at {start k : ℕ} {q : Bytes → Parser α} :
    (Parser.take k >>= q) (bytes.drop start) = some (r, rest) ↔
      k ≤ bytes.length - start ∧
        q ((bytes.drop start).take k) (bytes.drop (start + k)) = some (r, rest) := by
  simp only [bind_run_eq_some, take_run_eq_some, List.length_drop, List.drop_drop]
  constructor
  · rintro ⟨_, _, ⟨hk, rfl, rfl⟩, hq⟩
    exact ⟨hk, hq⟩
  · rintro ⟨hk, hq⟩
    exact ⟨_, _, ⟨hk, rfl, rfl⟩, hq⟩

theorem uint_bind_at {w start k : ℕ} {q : BitVec w → Parser α} :
    (Parser.uint w k >>= q) (bytes.drop start) = some (r, rest) ↔
      k ≤ bytes.length - start ∧
        q (field bytes start w k) (bytes.drop (start + k)) = some (r, rest) := by
  simp only [Parser.uint, bind_assoc, pure_bind, take_bind_at]
  rfl

theorem uint_at {w start k : ℕ} {v : BitVec w} :
    Parser.uint w k (bytes.drop start) = some (v, rest) ↔
      k ≤ bytes.length - start ∧ v = field bytes start w k ∧ rest = bytes.drop (start + k) := by
  have h := @uint_bind_at (BitVec w) bytes rest v w start k pure
  rw [bind_pure] at h
  rw [h, pure_run, Option.some.injEq, Prod.mk.injEq]
  exact and_congr_right fun _ => and_congr eq_comm eq_comm

theorem assert_bind_at {β : Type} {o : Option β} {q : β → Parser α} :
    (Parser.assert o >>= q) bytes = some (r, rest) ↔
      ∃ b, o = some b ∧ q b bytes = some (r, rest) := by
  simp only [bind_run_eq_some, assert_run_eq_some]
  constructor
  · rintro ⟨b, _, ⟨hb, rfl⟩, hq⟩
    exact ⟨b, hb, hq⟩
  · rintro ⟨b, hb, hq⟩
    exact ⟨b, bytes, ⟨hb, rfl⟩, hq⟩

end

/-! ## Messages -/

/-- The price of the message of a price feed. -/
def infoAt (message : Bytes) : PriceInfo where
  publishTime := field message 53 64 8
  expo := field message 49 32 4
  price := field message 33 64 8
  conf := field message 41 64 8
  emaPrice := field message 69 64 8
  emaConf := field message 77 64 8

theorem message_parsePrefix {message : Bytes} {r : PriceInfo × Bytes32 × Uint64} :
    Strict.message.parsePrefix message = some r ↔
      85 ≤ message.length ∧ (field message 0 8 1 : BitVec 8) = 0 ∧
      r = (infoAt message, field message 1 256 32, field message 61 64 8) := by
  have htype (n : BitVec 8) (t : Pyth.MessageType) :
      (Pyth.MessageType.ofUint8 n).toOption = some t ↔ n = 0 := by
    unfold Pyth.MessageType.ofUint8
    cases t
    split
    · next h => exact iff_of_true rfl h
    · next h => exact iff_of_false nofun h
  have hstart : Strict.message message = Strict.message (message.drop 0) := by
    rw [List.drop_zero]
  rw [Parser.parsePrefix_eq_some, hstart]
  simp only [Strict.message, Strict.priceFeedMessage, uint_bind_at, assert_bind_at, htype,
    Nat.zero_add, Nat.reduceAdd, pure_run, Option.some.injEq, Prod.mk.injEq]
  constructor
  · rintro ⟨_, -, _, hzero, _, -, -, -, -, -, -, -, -, hend, rfl, -⟩
    exact ⟨by omega, hzero, rfl⟩
  · rintro ⟨hlength, hzero, rfl⟩
    exact ⟨_, by omega, .priceFeed, hzero, (), rfl, by omega, by omega, by omega, by omega,
      by omega, by omega, by omega, by omega, rfl, rfl⟩

/-- The price feed that is stored for a message. -/
def feedOf (id : Bytes32) (info : PriceInfo) : PriceFeed where
  emaPrice := {
    confidence := info.emaConf
    exponent := absoluteOfExponent info.expo
    price := info.emaPrice
    publishTime := info.publishTime + TAI64_DIFFERENCE }
  id
  price := {
    confidence := info.conf
    exponent := absoluteOfExponent info.expo
    price := info.price
    publishTime := info.publishTime + TAI64_DIFFERENCE }

/-- The exponent is from -255 to 0, and the time of TAI64 is below `2 ^ 64`. -/
def Storable (info : PriceInfo) : Prop :=
  absoluteOfExponent info.expo < 256 ∧
    info.publishTime.toNat + TAI64_DIFFERENCE.toNat < 2 ^ 64

instance : DecidablePred Storable := fun _ => inferInstanceAs (Decidable (_ ∧ _))

theorem okOrPyth_eq_ok {α : Type} {e : PythError} {o : Option α} {a : α} :
    okOrPyth e o = .ok a ↔ o = some a := okOr_eq_ok

theorem parseMessage_eq_ok {message : Bytes} {feed : PriceFeed} :
    PriceFeed.parseMessage message = .ok feed ↔
      85 ≤ message.length ∧ Storable (infoAt message) ∧
      feed = feedOf (field message 1 256 32) (infoAt message) := by
  simp only [PriceFeed.parseMessage, except_bind_eq_ok, splitAt_eq_ok, getUint_eq_ok,
    requirePyth_eq_ok, checkedAdd_eq_ok, Nat.reduceAdd]
  constructor
  · rintro ⟨_, ⟨hstart, rfl⟩, _, ⟨hid, rfl⟩, _, ⟨-, rfl⟩, _, ⟨-, rfl⟩, _, ⟨-, rfl⟩, _, hexponent,
      _, ⟨-, rfl⟩, _, ⟨-, rfl⟩, _, ⟨-, rfl⟩, _, hlength, _, ⟨htime, rfl⟩, hfeed⟩
    rw [intoB256_eq_field (by omega)] at hfeed
    exact ⟨hlength, ⟨hexponent, htime⟩, (Except.ok.inj hfeed).symm⟩
  · rintro ⟨hlength, ⟨hexponent, htime⟩, rfl⟩
    refine ⟨_, ⟨by omega, rfl⟩, _, ⟨by rw [List.length_drop]; omega, rfl⟩, _, ⟨by omega, rfl⟩, _,
      ⟨by omega, rfl⟩, _, ⟨by omega, rfl⟩, (), hexponent, _, ⟨by omega, rfl⟩, _,
      ⟨by omega, rfl⟩, _, ⟨by omega, rfl⟩, (), hlength, _, ⟨htime, rfl⟩, ?_⟩
    rw [intoB256_eq_field (by omega)]
    rfl

/-! ## Proofs -/

section

variable {keccak256 : Bytes → Bytes32} {bytes : Bytes}

theorem natBE_packed (digest : Bytes20) : natBE (packed 20 digest) = digest.toNat := by
  rw [packed, natBE_bytesBE, Nat.mod_eq_of_lt (show digest.toNat < 256 ^ 20 from digest.isLt)]

/-- The first 20 bytes of a hash. -/
theorem take_wordBytes (hash : Bytes32) :
    (wordBytes hash).take 20 = packed 20 ((hash >>> 96).setWidth 160) := by
  have hlt : hash.toNat / 2 ^ 96 < 2 ^ 160 := by
    have := hash.isLt
    omega
  have hword : natBE (wordBytes hash) = hash.toNat := by
    rw [wordBytes, packed, natBE_bytesBE,
      Nat.mod_eq_of_lt (show hash.toNat < 256 ^ 32 from hash.isLt)]
  refine natBE_injective_of_length (by simp) ?_
  have hpow : 256 ^ (32 - 20) = 2 ^ 96 := by decide
  rw [natBE_take, length_packed, hword, natBE_packed, BitVec.toNat_setWidth,
    BitVec.toNat_ushiftRight, Nat.shiftRight_eq_div_pow, Nat.mod_eq_of_lt hlt, hpow]

theorem leafHash_eq (data : Bytes) :
    leafHash keccak256 data = packed 20 (Pyth.MerkleTree.leafHash keccak256 data) :=
  take_wordBytes _

/-- A digest stands in the high bytes of its word. -/
theorem toNat_intoB256_packed (digest : Bytes20) :
    (intoB256 (packed 20 digest)).toNat = digest.toNat * 2 ^ 96 := by
  have hzero : natBE (List.replicate (32 - 20) (0 : UInt8)) = 0 := by decide
  have hpow : 256 ^ (32 - 20) = 2 ^ 96 := by decide
  have hlt : digest.toNat * 2 ^ 96 < 2 ^ 256 := by
    have := digest.isLt
    omega
  rw [intoB256, List.take_of_length_le (by simp), length_packed, natBE_append, natBE_packed, hzero,
    List.length_replicate, Nat.add_zero, hpow, BitVec.toNat_ofNat, Nat.mod_eq_of_lt hlt]

theorem intoB256_packed_inj {a b : Bytes20} :
    intoB256 (packed 20 a) = intoB256 (packed 20 b) ↔ a = b := by
  refine ⟨fun h => ?_, fun h => h ▸ rfl⟩
  have hnat := congrArg BitVec.toNat h
  rw [toNat_intoB256_packed, toNat_intoB256_packed] at hnat
  exact BitVec.eq_of_toNat_eq (Nat.eq_of_mul_eq_mul_right (by decide) hnat)

theorem intoB256_packed_lt {a b : Bytes20} :
    intoB256 (packed 20 a) < intoB256 (packed 20 b) ↔ a < b := by
  rw [BitVec.lt_def, BitVec.lt_def, toNat_intoB256_packed, toNat_intoB256_packed]
  exact Nat.mul_lt_mul_right (by decide)

theorem nodeHash_eq (a b : Bytes20) :
    nodeHash keccak256 (packed 20 a) (packed 20 b)
      = packed 20 (Pyth.MerkleTree.nodeHash keccak256 a b) := by
  unfold nodeHash Pyth.MerkleTree.nodeHash
  by_cases h : b < a
  · rw [if_pos (show a > b from h)]
    simp only [gt_iff_lt, intoB256_packed_lt, if_pos h]
    exact take_wordBytes _
  · rw [if_neg (show ¬a > b from h)]
    simp only [gt_iff_lt, intoB256_packed_lt, if_neg h]
    exact take_wordBytes _

/-- The bytes of a digest. -/
theorem take_eq_packed {start : ℕ} (h : start + 20 ≤ bytes.length) :
    (bytes.drop start).take 20 = packed 20 (field bytes start 160 20) := by
  have hlength : ((bytes.drop start).take 20).length = 20 := by
    rw [List.length_take, List.length_drop]
    omega
  have hlt : natBE ((bytes.drop start).take 20) < 2 ^ 160 := by
    have := natBE_lt ((bytes.drop start).take 20)
    rwa [hlength] at this
  refine natBE_injective_of_length (hlength.trans (length_packed 20 _).symm) ?_
  rw [natBE_packed, field, BitVec.toNat_ofNat, Nat.mod_eq_of_lt hlt]

theorem climb_eq_ok {digest : Bytes20} {start n stop : ℕ} {top : Bytes}
    (hstart : start ≤ bytes.length) :
    climb keccak256 bytes (packed 20 digest) start n = .ok (top, stop) ↔
      stop = start + 20 * n ∧ stop ≤ bytes.length ∧ ∃ digest', top = packed 20 digest' ∧
        Strict.climb keccak256 digest n (bytes.drop start)
          = some (digest', bytes.drop (start + 20 * n)) := by
  induction n generalizing digest start with
  | zero =>
    simp only [climb, Strict.climb, pure_run, Option.some.injEq, Prod.mk.injEq]
    constructor
    · intro h
      cases Except.ok.inj h
      exact ⟨rfl, hstart, digest, rfl, rfl, rfl⟩
    · rintro ⟨rfl, -, _, rfl, rfl, -⟩
      rfl
  | succ n ih =>
    refine (slice_bind_eq_ok (f := fun sibling =>
      climb keccak256 bytes (nodeHash keccak256 (packed 20 digest) sibling) (start + 20)
        n)).trans ?_
    have hnext : start + 20 * (n + 1) = start + 20 + 20 * n := by omega
    simp only [Strict.climb, uint_bind_at, hnext]
    constructor
    · rintro ⟨hend, h⟩
      rw [take_eq_packed hend, nodeHash_eq] at h
      obtain ⟨rfl, hstop, digest', rfl, hclimb⟩ := (ih hend).mp h
      exact ⟨rfl, hstop, digest', rfl, by omega, hclimb⟩
    · rintro ⟨rfl, hstop, digest', rfl, hfirst, hclimb⟩
      have hend : start + 20 ≤ bytes.length := by omega
      refine ⟨hend, ?_⟩
      rw [take_eq_packed hend, nodeHash_eq]
      exact (ih hend).mpr ⟨rfl, hstop, digest', rfl, hclimb⟩

/-- What the strict parser of a proof reads, at an offset. -/
theorem proof_at {root leaf : Bytes20} {start : ℕ} {rest : Bytes} {valid : Bool} :
    Strict.proof keccak256 root leaf (bytes.drop start) = some (valid, rest) ↔
      1 ≤ bytes.length - start ∧ ∃ digest,
        Strict.climb keccak256 leaf (field bytes start 8 1 : BitVec 8).toNat
          (bytes.drop (start + 1)) = some (digest, rest) ∧ valid = decide (digest = root) := by
  simp only [Strict.proof, uint_bind_at]
  refine and_congr_right fun _ => ?_
  simp only [bind_run_eq_some, pure_run, Option.some.injEq, Prod.mk.injEq]
  constructor
  · rintro ⟨digest, _, hclimb, rfl, rfl⟩
    exact ⟨digest, hclimb, rfl⟩
  · rintro ⟨digest, hclimb, rfl⟩
    exact ⟨digest, rest, hclimb, rfl, rfl⟩

theorem climb_rest {digest digest' : Bytes20} {start n : ℕ} {rest : Bytes}
    (h : Strict.climb keccak256 digest n (bytes.drop start) = some (digest', rest)) :
    rest = bytes.drop (start + 20 * n) ∧ 20 * n ≤ bytes.length - start := by
  induction n generalizing digest start with
  | zero =>
    simp only [Strict.climb, pure_run, Option.some.injEq, Prod.mk.injEq] at h
    exact ⟨h.2.symm, Nat.zero_le _⟩
  | succ n ih =>
    simp only [Strict.climb, uint_bind_at] at h
    obtain ⟨hrest, hlength⟩ := ih h.2
    have hnext : start + 20 * (n + 1) = start + 20 + 20 * n := by omega
    exact ⟨hnext ▸ hrest, by omega⟩

theorem validateProof_eq_ok {root : Bytes20} {start stop : ℕ} {message : Bytes} :
    validateProof keccak256 bytes start (packed 20 root) message = .ok stop ↔
      stop ≤ bytes.length ∧ stop = start + 1 + 20 * (field bytes start 8 1 : BitVec 8).toNat ∧
        Strict.proof keccak256 root (Pyth.MerkleTree.leafHash keccak256 message)
          (bytes.drop start) = some (true, bytes.drop stop) := by
  simp only [validateProof, except_bind_eq_ok, unwrap_eq_ok, get_eq_some, leafHash_eq,
    requirePyth_eq_ok, proof_at]
  constructor
  · rintro ⟨_, ⟨hsize, rfl⟩, ⟨top, stop'⟩, hrun, _, hroot, hstop⟩
    obtain rfl : stop' = stop := Except.ok.inj hstop
    obtain ⟨rfl, hend, digest, rfl, hclimb⟩ := (climb_eq_ok hsize).mp hrun
    refine ⟨hend, rfl, by omega, digest, hclimb, ?_⟩
    exact (decide_eq_true (intoB256_packed_inj.mp hroot)).symm
  · rintro ⟨hend, rfl, hsize, digest, hclimb, hvalid⟩
    have hsize' : start < bytes.length := by omega
    refine ⟨_, ⟨hsize', rfl⟩, (packed 20 digest, _),
      (climb_eq_ok hsize').mpr ⟨rfl, hend, digest, rfl, hclimb⟩, (), ?_, rfl⟩
    exact intoB256_packed_inj.mpr (of_decide_eq_true hvalid.symm)

/-- The size of the message at an offset, and the message. -/
def messageSizeAt (bytes : Bytes) (start : ℕ) : ℕ := (field bytes start 16 2 : BitVec 16).toNat

def messageAt (bytes : Bytes) (start : ℕ) : Bytes :=
  (bytes.drop (start + 2)).take (messageSizeAt bytes start)

/-- What the strict parser of an update reads, at an offset. -/
theorem update_at {root : Bytes20} {start : ℕ} {rest : Bytes} {r : PriceInfo × Bytes32 × Uint64} :
    Strict.update keccak256 root (bytes.drop start) = some (r, rest) ↔
      2 ≤ bytes.length - start ∧ messageSizeAt bytes start ≤ bytes.length - (start + 2) ∧
      Strict.proof keccak256 root (Pyth.MerkleTree.leafHash keccak256 (messageAt bytes start))
        (bytes.drop (start + 2 + messageSizeAt bytes start)) = some (true, rest) ∧
      Strict.message.parsePrefix (messageAt bytes start) = some r := by
  simp only [Strict.update, uint_bind_at, take_bind_at]
  refine and_congr_right fun _ => and_congr_right fun _ => ?_
  simp only [bind_run_eq_some, assert_run_eq_some]
  constructor
  · rintro ⟨valid, _, hproof, _, _, ⟨hvalid, rfl⟩, hmessage, rfl⟩
    have htrue : valid = true := by
      by_contra hfalse
      simp [guard, hfalse] at hvalid
    exact ⟨htrue ▸ hproof, hmessage⟩
  · rintro ⟨hproof, hmessage⟩
    exact ⟨true, rest, hproof, (), rest, ⟨rfl, rfl⟩, hmessage, rfl⟩

/-- A message and its proof: the strict parser reads them, and the price can be stored. -/
theorem extractFromMerkleProof_eq_ok {root : Bytes20} {start stop : ℕ} {feed : PriceFeed} :
    PriceFeed.extractFromMerkleProof keccak256 (packed 20 root) bytes start = .ok (stop, feed) ↔
      start ≤ stop ∧ stop ≤ bytes.length ∧ ∃ info id prevPublishTime,
        Strict.update keccak256 root (bytes.drop start)
          = some ((info, id, prevPublishTime), bytes.drop stop) ∧
        Storable info ∧ feed = feedOf id info := by
  refine Iff.trans (b := start + 2 ≤ bytes.length ∧
      messageSizeAt bytes start ≤ bytes.length - (start + 2) ∧
      validateProof keccak256 bytes (start + 2 + messageSizeAt bytes start) (packed 20 root)
        (messageAt bytes start) = .ok stop ∧
      (field (messageAt bytes start) 0 8 1 : BitVec 8) = 0 ∧
      85 ≤ (messageAt bytes start).length ∧ Storable (infoAt (messageAt bytes start)) ∧
      feed = feedOf (field (messageAt bytes start) 1 256 32) (infoAt (messageAt bytes start)))
    ?_ ?_
  · simp only [PriceFeed.extractFromMerkleProof, except_bind_eq_ok, getUint_eq_ok, splitAt_eq_ok,
      unwrap_eq_ok, get_eq_some, requirePyth_eq_ok, parseMessage_eq_ok]
    constructor
    · rintro ⟨_, ⟨hsize, rfl⟩, _, ⟨-, rfl⟩, _, ⟨hmessage, rfl⟩, _, hproof, _, ⟨-, rfl⟩, _, htype, _,
        ⟨hlength, hstorable, rfl⟩, hreturn⟩
      rw [List.length_drop] at hmessage
      obtain ⟨rfl, rfl⟩ := Prod.mk.inj (Except.ok.inj hreturn)
      exact ⟨hsize, hmessage, hproof, htype, hlength, hstorable, rfl⟩
    · rintro ⟨hsize, hmessage, hproof, htype, hlength, hstorable, rfl⟩
      refine ⟨_, ⟨hsize, rfl⟩, _, ⟨hsize, rfl⟩, _, ⟨?_, rfl⟩, stop, hproof, _, ⟨?_, rfl⟩, (), htype,
        _, ⟨hlength, hstorable, rfl⟩, rfl⟩
      · rw [List.length_drop]
        exact hmessage
      · exact Nat.lt_of_lt_of_le (by decide) hlength
  · simp only [validateProof_eq_ok, update_at, message_parsePrefix]
    constructor
    · rintro ⟨hsize, hmessage, ⟨hstop, hend, hproof⟩, htype, hlength, hstorable, rfl⟩
      exact ⟨by omega, hstop, _, _, _, ⟨by omega, hmessage, hproof, hlength, htype, rfl⟩, hstorable,
        rfl⟩
    · rintro ⟨hle, hstop, info, id, prevPublishTime, ⟨hsize, hmessage, hproof, hlength, htype, hr⟩,
        hstorable, rfl⟩
      cases hr
      refine ⟨by omega, hmessage, ⟨hstop, ?_, hproof⟩, htype, hlength, hstorable, rfl⟩
      obtain ⟨hproofSize, digest, hclimb, -⟩ := proof_at.mp hproof
      obtain ⟨hrest, hlong⟩ := climb_rest hclimb
      have hdrop := congrArg List.length hrest
      rw [List.length_drop, List.length_drop] at hdrop
      omega

end

/-! ## The loop -/

section

variable {P : WormholeHost} {bytes : Bytes}

/-- The price feeds of a list of updates. -/
def feedsOf (updates : List (Bytes32 × PriceInfo)) : List PriceFeed :=
  updates.map fun update => feedOf update.1 update.2

theorem foldl_feedsOf_cons (id : Bytes32) (info : PriceInfo)
    (updates : List (Bytes32 × PriceInfo))
    (stored : (Bytes32 → Option PriceFeed) × List Bytes32) :
    (feedsOf ((id, info) :: updates)).foldl AccumulatorUpdate.storeFeed stored
      = (feedsOf updates).foldl AccumulatorUpdate.storeFeed
        (AccumulatorUpdate.storeFeed stored (feedOf id info)) := by
  rw [feedsOf, List.map_cons, List.foldl_cons, feedsOf]

theorem updates_cons_run {keccak256 : Bytes → Bytes32} {root : Bytes20} {n : ℕ} {rest : Bytes}
    {updates : List (Bytes32 × PriceInfo)} :
    Strict.updates keccak256 root (n + 1) bytes = some (updates, rest) ↔
      ∃ info id prevPublishTime mid more,
        Strict.update keccak256 root bytes = some ((info, id, prevPublishTime), mid) ∧
        Strict.updates keccak256 root n mid = some (more, rest) ∧ updates = (id, info) :: more := by
  simp only [Strict.updates, bind_run_eq_some, pure_run, Option.some.injEq, Prod.mk.injEq,
    Prod.exists]
  constructor
  · rintro ⟨info, id, prevPublishTime, mid, hupdate, more, _, hmore, rfl, rfl⟩
    exact ⟨info, id, prevPublishTime, mid, more, hupdate, hmore, rfl⟩
  · rintro ⟨info, id, prevPublishTime, mid, more, hupdate, hmore, rfl⟩
    exact ⟨info, id, prevPublishTime, mid, hupdate, more, rest, hmore, rfl, rfl⟩

/-- An update is read from the bytes at its offset, which it ends behind. -/
theorem update_rest {keccak256 : Bytes → Bytes32} {root : Bytes20} {start : ℕ} {rest : Bytes}
    {r : PriceInfo × Bytes32 × Uint64}
    (h : Strict.update keccak256 root (bytes.drop start) = some (r, rest)) :
    ∃ stop, start ≤ stop ∧ stop ≤ bytes.length ∧ rest = bytes.drop stop := by
  obtain ⟨hsize, hmessage, hproof, -⟩ := update_at.mp h
  obtain ⟨hproofSize, digest, hclimb, -⟩ := proof_at.mp hproof
  obtain ⟨hrest, hlong⟩ := climb_rest hclimb
  exact ⟨_, by omega, by omega, hrest⟩

theorem updateLoop_eq_ok {root : Bytes20} {n start stop : ℕ}
    {stored stored' : (Bytes32 → Option PriceFeed) × List Bytes32} (hstart : start ≤ bytes.length) :
    AccumulatorUpdate.updateLoop P (packed 20 root) bytes n start stored = .ok (stop, stored') ↔
      stop ≤ bytes.length ∧ ∃ updates,
        Strict.updates P.keccak256 root n (bytes.drop start) = some (updates, bytes.drop stop) ∧
        (∀ update ∈ updates, Storable update.2) ∧
        stored' = (feedsOf updates).foldl AccumulatorUpdate.storeFeed stored := by
  induction n generalizing start stored with
  | zero =>
    simp only [AccumulatorUpdate.updateLoop, Strict.updates, pure_run, Option.some.injEq,
      Prod.mk.injEq]
    constructor
    · intro h
      obtain ⟨rfl, rfl⟩ := Prod.mk.inj (Except.ok.inj h)
      exact ⟨hstart, [], ⟨rfl, rfl⟩, fun _ h => absurd h List.not_mem_nil, rfl⟩
    · rintro ⟨hstop, _, ⟨rfl, hrest⟩, -, rfl⟩
      have hlength := congrArg List.length hrest
      rw [List.length_drop, List.length_drop] at hlength
      obtain rfl : start = stop := by omega
      rfl
  | succ n ih =>
    simp only [AccumulatorUpdate.updateLoop, except_bind_eq_ok, updates_cons_run]
    constructor
    · rintro ⟨⟨mid, feed⟩, hextract, hrest⟩
      obtain ⟨-, hmid, info, id, prevPublishTime, hupdate, hstorable, rfl⟩ :=
        extractFromMerkleProof_eq_ok.mp hextract
      obtain ⟨hstop, updates, hupdates, hall, rfl⟩ := (ih hmid).mp hrest
      exact ⟨hstop, _, ⟨info, id, prevPublishTime, _, updates, hupdate, hupdates, rfl⟩,
        List.forall_mem_cons.mpr ⟨hstorable, hall⟩, (foldl_feedsOf_cons ..).symm⟩
    · rintro ⟨hstop, _, ⟨info, id, prevPublishTime, _, updates, hupdate, hupdates, rfl⟩, hall,
        hstored⟩
      obtain ⟨hstorable, hall⟩ := List.forall_mem_cons.mp hall
      obtain ⟨mid, hle, hmid, rfl⟩ := update_rest hupdate
      exact ⟨(mid, feedOf id info), extractFromMerkleProof_eq_ok.mpr ⟨hle, hmid, info, id,
        prevPublishTime, hupdate, hstorable, rfl⟩, (ih hmid).mpr ⟨hstop, updates, hupdates, hall,
        hstored.trans (foldl_feedsOf_cons ..)⟩⟩

end

/-! ## The layout of an update -/

section

variable (data : Bytes)

def trailingHeaderSizeOf : ℕ := (field data 6 8 1 : BitVec 8).toNat

/-- The VAA follows the trailing header, the update type and its own size. -/
def vaaSizeOf : ℕ := (field data (8 + trailingHeaderSizeOf data) 16 2 : BitVec 16).toNat

def vaaOf : Bytes := (data.drop (10 + trailingHeaderSizeOf data)).take (vaaSizeOf data)

def updateTypeOf : BitVec 8 := field data (7 + trailingHeaderSizeOf data) 8 1

def numUpdatesOf : BitVec 8 := field data (10 + trailingHeaderSizeOf data + vaaSizeOf data) 8 1

/-- The messages and their proofs. -/
def messagesOf : Bytes := data.drop (11 + trailingHeaderSizeOf data + vaaSizeOf data)

/-- The major version is 1, and the number of updates is in the data. -/
structure Framed : Prop where
  majorVersion : (field data 4 8 1 : BitVec 8) = 1
  length : 11 + trailingHeaderSizeOf data + vaaSizeOf data ≤ data.length

end

section

variable {data : Bytes}

theorem field_drop_add {w n start index : ℕ} :
    field (data.drop start) index w n = field data (start + index) w n := by
  unfold BytesLib.field
  rw [List.drop_drop]

theorem updateType_iff {n : BitVec 8} {updateType : Pyth.UpdateType} :
    (Pyth.UpdateType.ofUint8 n).toOption = some updateType ↔ n = 0 := by
  unfold Pyth.UpdateType.ofUint8
  cases updateType
  split
  · next h => exact iff_of_true rfl h
  · next h => exact iff_of_false nofun h

theorem payload_parsePrefix {payload : Bytes} {digest : Bytes20} :
    Strict.payload.parsePrefix payload = some digest ↔
      37 ≤ payload.length ∧
      (field payload 0 32 4 : BitVec 32) = Pyth.ACCUMULATOR_WORMHOLE_MAGIC ∧
      (field payload 4 8 1 : BitVec 8) = 0 ∧ digest = field payload 17 160 20 := by
  have hstart : Strict.payload payload = Strict.payload (payload.drop 0) := by
    rw [List.drop_zero]
  rw [Parser.parsePrefix_eq_some, hstart]
  simp only [Strict.payload, Parser.skip, bind_assoc, pure_bind, uint_bind_at, take_bind_at,
    assert_bind_at, updateType_iff, uint_at, Option.guard_eq_some', Nat.zero_add, Nat.reduceAdd]
  constructor
  · rintro ⟨_, -, _, hmagic, -, _, hzero, _, -, -, -, hend, rfl, -⟩
    exact ⟨by omega, hmagic, hzero, rfl⟩
  · rintro ⟨hlength, hmagic, hzero, rfl⟩
    exact ⟨_, by omega, (), hmagic, by omega, .wormholeMerkle, hzero, (), trivial, by omega,
      by omega, by omega, rfl, rfl⟩

theorem strict_parseAll {keccak256 : Bytes → Bytes32}
    {parseAndVerifyPythVM : Bytes → Pyth.Result Pyth.VM} {numUpdates : BitVec 8}
    {updates : List (Bytes32 × PriceInfo)} :
    (Pyth.Strict.accumulatorUpdate keccak256 parseAndVerifyPythVM).parseAll data
        = some (numUpdates, updates) ↔
      (field data 0 32 4 : BitVec 32) = Pyth.ACCUMULATOR_MAGIC ∧ Framed data ∧
      updateTypeOf data = 0 ∧ ∃ vm digest, parseAndVerifyPythVM (vaaOf data) = .ok vm ∧
        Strict.payload.parsePrefix vm.payload = some digest ∧
        (Strict.updates keccak256 digest (numUpdatesOf data).toNat).parseAll (messagesOf data)
          = some updates ∧ numUpdates = numUpdatesOf data := by
  have h8 (n : ℕ) : 7 + n + 1 = 8 + n := by omega
  have h10 (n : ℕ) : 8 + n + 2 = 10 + n := by omega
  have h11 (n k : ℕ) : 10 + n + k + 1 = 11 + n + k := by omega
  have hstart : (Pyth.Strict.accumulatorUpdate keccak256 parseAndVerifyPythVM).parseAll data
      = (Pyth.Strict.accumulatorUpdate keccak256 parseAndVerifyPythVM).parseAll
        (data.drop 0) := by
    rw [List.drop_zero]
  rw [hstart]
  simp only [Parser.parseAll_eq_some, Pyth.Strict.accumulatorUpdate, Strict.header,
    Pyth.Strict.wormholeMerkleUpdates, Pyth.Strict.wormholeMerkle, Parser.skip, bind_assoc,
    pure_bind, uint_bind_at, take_bind_at, assert_bind_at, Option.guard_eq_some', updateType_iff,
    Nat.zero_add, Nat.reduceAdd, h8, h10, h11]
  constructor
  · rintro ⟨-, _, hmagic, -, _, hmajor, -, _, -, -, -, -, updateType, htype, _, -, -, hvaa, vm, hvm,
      digest, hdigest, hcount, h⟩
    obtain ⟨list, _, hlist, hreturn⟩ := bind_run_eq_some.mp h
    rw [pure_run] at hreturn
    obtain ⟨hpair, rfl⟩ := Prod.mk.inj (Option.some.inj hreturn)
    obtain ⟨rfl, rfl⟩ := Prod.mk.inj hpair
    have hsize : 11 + trailingHeaderSizeOf data + vaaSizeOf data ≤ data.length := by
      unfold vaaSizeOf trailingHeaderSizeOf
      omega
    exact ⟨hmagic, ⟨hmajor, hsize⟩, htype, vm, digest, toOption_eq_some.mp hvm, hdigest, hlist,
      rfl⟩
  · rintro ⟨hmagic, ⟨hmajor, hlength⟩, htype, vm, digest, hvm, hdigest, hlist, rfl⟩
    unfold vaaSizeOf trailingHeaderSizeOf at hlength
    refine ⟨by omega, (), hmagic, by omega, (), hmajor, by omega, (), Nat.zero_le _, by omega,
      by omega, by omega, .wormholeMerkle, htype, (), trivial, by omega, by omega, vm,
      toOption_eq_some.mpr hvm, digest, hdigest, by omega, ?_⟩
    exact bind_run_eq_some.mpr ⟨updates, [], hlist, rfl⟩

theorem verifyHeader_eq_ok {offset : ℕ} :
    (AccumulatorUpdate.mk data).verify = .ok offset ↔
      (field data 4 8 1 : BitVec 8) = 1 ∧ 8 + trailingHeaderSizeOf data ≤ data.length ∧
      offset = 8 + trailingHeaderSizeOf data := by
  simp only [AccumulatorUpdate.verify, except_bind_eq_ok, requirePyth_eq_ok, okOrPyth_eq_ok,
    get_eq_some]
  constructor
  · rintro ⟨_, ⟨-, hmajor⟩, _, ⟨-, rfl⟩, _, -, _, ⟨-, rfl⟩, _, hlength, h⟩
    exact ⟨hmajor.symm, hlength, (Except.ok.inj h).symm⟩
  · rintro ⟨hmajor, hlength, rfl⟩
    exact ⟨(), ⟨by omega, hmajor.symm⟩, _, ⟨by omega, rfl⟩, (), Nat.zero_le _, _,
      ⟨by omega, rfl⟩, (), hlength, rfl⟩

theorem ofWormhole_eq_ok {α : Type} {x : WormholeResult α} {a : α} :
    ofWormhole x = .ok a ↔ x = .ok a := by
  unfold ofWormhole
  cases x with
  | ok b => rw [Except.ok.injEq, Except.ok.injEq]
  | error e => cases e <;> exact iff_of_false nofun nofun

variable {P : WormholeHost} {s : PythStorage} {timestamp : BitVec 64}

/-- The parts that `verify_and_parse` cuts out of the data. -/
def parsedOf (data : Bytes) (vm : WormholeVM) : ℕ × Bytes × BitVec 8 × Bytes :=
  (3 + vaaSizeOf data, packed 20 (field vm.payload 17 160 20), numUpdatesOf data,
    data.drop (8 + trailingHeaderSizeOf data))

theorem verifyAndParse_eq_ok {parsed : ℕ × Bytes × BitVec 8 × Bytes} :
    (AccumulatorUpdate.mk data).verifyAndParse P timestamp s = .ok parsed ↔
      Framed data ∧ ∃ vm, parseAndVerifyPythVm P s.toStorage timestamp s.wormholeGuardianSetIndex
        (vaaOf data) = .ok vm ∧ 37 ≤ vm.payload.length ∧ parsed = parsedOf data vm := by
  have hsize : (field data (8 + trailingHeaderSizeOf data) 16 2 : BitVec 16).toNat
    = vaaSizeOf data := rfl
  have hvaa : 8 + trailingHeaderSizeOf data + 2 = 10 + trailingHeaderSizeOf data := by omega
  have hnum : 8 + trailingHeaderSizeOf data + (2 + vaaSizeOf data)
    = 10 + trailingHeaderSizeOf data + vaaSizeOf data := by omega
  have hnext : 2 + vaaSizeOf data + 1 = 3 + vaaSizeOf data := by omega
  have hslice : (data.drop (8 + trailingHeaderSizeOf data)).take
      (data.length - (8 + trailingHeaderSizeOf data))
      = data.drop (8 + trailingHeaderSizeOf data) := by
    rw [List.take_of_length_le]
    rw [List.length_drop]
  simp only [AccumulatorUpdate.verifyAndParse, except_bind_eq_ok, verifyHeader_eq_ok,
    splitAt_eq_ok, getUint_eq_ok, ofWormhole_eq_ok, requirePyth_eq_ok, okOrPyth_eq_ok,
    get_eq_some, and_assoc, exists_and_left, exists_eq_left, hslice, field_drop_add, hsize,
    List.drop_drop, hvaa, Nat.zero_add, Nat.add_zero, hnum, hnext, List.length_drop,
    Nat.reduceAdd]
  constructor
  · rintro ⟨hmajor, -, -, -, hheader, -, hvm, vm, hok, -, -, hpayload, hend, -, hreturn⟩
    rw [take_eq_packed hpayload] at hreturn
    exact ⟨⟨hmajor, by omega⟩, vm, hok, hpayload, (Except.ok.inj hreturn).symm⟩
  · rintro ⟨⟨hmajor, hlength⟩, vm, hok, hpayload, rfl⟩
    refine ⟨hmajor, by omega, by omega, le_refl _, by omega, by omega, by omega, vm, hok, by omega,
      by omega, hpayload, by omega, (), ?_⟩
    rw [take_eq_packed hpayload]
    rfl

/-- The strict parser of the messages and their proofs. -/
def updatesOf (keccak256 : Bytes → Bytes32) (payload data : Bytes) :
    Option (List (Bytes32 × PriceInfo)) :=
  (Strict.updates keccak256 (field payload 17 160 20) (numUpdatesOf data).toNat).parseAll
    (messagesOf data)

theorem updatePriceFeeds_eq_ok {numUpdates : BitVec 8} {ids : List Bytes32} {s' : PythStorage} :
    (AccumulatorUpdate.mk data).updatePriceFeeds P timestamp s = .ok (numUpdates, ids, s') ↔
      Framed data ∧ ∃ vm, parseAndVerifyPythVm P s.toStorage timestamp s.wormholeGuardianSetIndex
        (vaaOf data) = .ok vm ∧ 37 ≤ vm.payload.length ∧
      ∃ updates, updatesOf P.keccak256 vm.payload data = some updates ∧
        (∀ update ∈ updates, Storable update.2) ∧ numUpdates = numUpdatesOf data ∧
        ∃ latestPriceFeed, (latestPriceFeed, ids)
          = (feedsOf updates).foldl AccumulatorUpdate.storeFeed (s.latestPriceFeed, []) ∧
        s' = { s with latestPriceFeed } := by
  have hmessages : (data.drop (8 + trailingHeaderSizeOf data)).drop (3 + vaaSizeOf data)
      = messagesOf data := by
    rw [List.drop_drop, messagesOf]
    congr 1
    omega
  simp only [AccumulatorUpdate.updatePriceFeeds, except_bind_eq_ok, verifyAndParse_eq_ok]
  constructor
  · rintro ⟨_, ⟨hframed, vm, hvm, hpayload, rfl⟩, ⟨offset, latestPriceFeed, ids'⟩, hloop, _, hend,
      hreturn⟩
    have hlength := hframed.length
    have hstart : 3 + vaaSizeOf data ≤ (data.drop (8 + trailingHeaderSizeOf data)).length := by
      rw [List.length_drop]
      omega
    obtain ⟨-, updates, hupdates, hstorable, hstored⟩ := (updateLoop_eq_ok hstart).mp hloop
    have hend : offset = (data.drop (8 + trailingHeaderSizeOf data)).length :=
      requirePyth_eq_ok.mp hend
    rw [hend, List.drop_length, hmessages] at hupdates
    obtain ⟨rfl, rfl, rfl⟩ : numUpdatesOf data = numUpdates ∧ ids' = ids ∧
        { s with latestPriceFeed } = s' := by
      cases Except.ok.inj hreturn
      exact ⟨rfl, rfl, rfl⟩
    exact ⟨hframed, vm, hvm, hpayload, updates, Parser.parseAll_eq_some.mpr hupdates, hstorable,
      rfl, latestPriceFeed, hstored, rfl⟩
  · rintro ⟨hframed, vm, hvm, hpayload, updates, hupdates, hstorable, rfl, latestPriceFeed, hstored,
      rfl⟩
    have hlength := hframed.length
    have hstart : 3 + vaaSizeOf data ≤ (data.drop (8 + trailingHeaderSizeOf data)).length := by
      rw [List.length_drop]
      omega
    refine ⟨_, ⟨hframed, vm, hvm, hpayload, rfl⟩,
      ((data.drop (8 + trailingHeaderSizeOf data)).length, latestPriceFeed, ids),
      (updateLoop_eq_ok hstart).mpr ⟨le_refl _, updates, ?_, hstorable, hstored⟩, (),
      requirePyth_eq_ok.mpr rfl, rfl⟩
    rw [List.drop_length, hmessages]
    exact Parser.parseAll_eq_some.mp hupdates

theorem determineType_accumulator (hmagic : data.take 4 = accumulatorMagicBytes)
    (hframed : Framed data) :
    UpdateType.determineType data = .ok (.accumulator ⟨data⟩) := by
  have hlength := hframed.length
  have hfour : 4 < data.length := by omega
  unfold UpdateType.determineType splitAt
  rw [if_pos hfour.le]
  show Except.ok (if data.length > 4 ∧ data.take 4 = accumulatorMagicBytes then
    UpdateType.accumulator ⟨data⟩ else _) = _
  rw [if_pos ⟨hfour, hmagic⟩]

theorem totalUpdates_eq (hframed : Framed data) :
    (AccumulatorUpdate.mk data).totalUpdates (8 + trailingHeaderSizeOf data)
      = .ok (numUpdatesOf data) := by
  have hlength := hframed.length
  have hsize : (field data (8 + trailingHeaderSizeOf data) 16 2 : BitVec 16).toNat
    = vaaSizeOf data := rfl
  simp only [AccumulatorUpdate.totalUpdates, except_bind_eq_ok, getUint_eq_ok, unwrap_eq_ok,
    get_eq_some]
  refine ⟨_, ⟨by omega, rfl⟩, ?_⟩
  rw [hsize, numUpdatesOf]
  refine ⟨by omega, ?_⟩
  congr 1
  omega

/-- The fee of an update is that for the number of its messages. -/
theorem updateFee_singleton (hmagic : data.take 4 = accumulatorMagicBytes)
    (hframed : Framed data) :
    updateFee s [data] = totalFee (numUpdatesOf data).toNat s.singleUpdateFee := by
  have hlength := hframed.length
  have hverify : (AccumulatorUpdate.mk data).verify = .ok (8 + trailingHeaderSizeOf data) :=
    verifyHeader_eq_ok.mpr ⟨hframed.majorVersion, by omega, rfl⟩
  have hcount : countUpdates 0 [data] = .ok (numUpdatesOf data).toNat := by
    simp only [countUpdates, determineType_accumulator hmagic hframed, except_ok_bind, hverify,
      totalUpdates_eq hframed, Nat.zero_add]
    rfl
  rw [updateFee, hcount, except_ok_bind]

/-- The contract charges this fee for the update. -/
theorem updatePriceFeeds_singleton {batchAttestation : Bytes → PythStorage → Result PythStorage}
    {msgAmount : BitVec 64} {numUpdates : BitVec 8} {ids : List Bytes32} {s' s'' : PythStorage}
    (hmagic : data.take 4 = accumulatorMagicBytes)
    (hupdate : (AccumulatorUpdate.mk data).updatePriceFeeds P timestamp s
      = .ok (numUpdates, ids, s')) :
    updatePriceFeeds P batchAttestation true msgAmount timestamp [data] s = .ok s'' ↔
      ∃ fee, updateFee s [data] = .ok fee ∧ fee ≤ msgAmount ∧ s'' = s' := by
  obtain ⟨hframed, vm, -, -, updates, -, -, rfl, latestPriceFeed, -, rfl⟩ :=
    updatePriceFeeds_eq_ok.mp hupdate
  rw [updateFee_singleton hmagic hframed]
  simp only [updatePriceFeeds, updateAll, determineType_accumulator hmagic hframed,
    except_ok_bind, hupdate, Nat.zero_add, except_bind_eq_ok, requirePyth_eq_ok]
  constructor
  · rintro ⟨_, -, _, hall, fee, hfee, _, hamount, hreturn⟩
    cases Except.ok.inj hall
    exact ⟨fee, hfee, hamount, (Except.ok.inj hreturn).symm⟩
  · rintro ⟨fee, hfee, hamount, rfl⟩
    exact ⟨(), trivial, _, rfl, fee, hfee, (), hamount, rfl⟩

end

/-! ## The prices that are stored -/

/-- A message with a time from 1 to `2 ^ 62`, prices that are not negative, and an exponent from
-255 to 0. -/
structure InRange (info : PriceInfo) : Prop where
  published : 1 ≤ info.publishTime.toNat
  publishTime : info.publishTime.toNat ≤ 2 ^ 62
  price : 0 ≤ info.price.toInt
  emaPrice : 0 ≤ info.emaPrice.toInt
  expo : -255 ≤ info.expo.toInt ∧ info.expo.toInt ≤ 0

/-- The same numbers: the exponent without its sign, the time shifted by `2 ^ 62`. -/
structure SamePrice (stored : Price) (price : Int64Bits) (conf : Uint64) (expo : Int32Bits)
    (publishTime : Uint64) : Prop where
  price : (stored.price.toNat : ℤ) = price.toInt
  confidence : stored.confidence = conf
  exponent : (stored.exponent.toNat : ℤ) = -expo.toInt
  publishTime : stored.publishTime.toNat = publishTime.toNat + 2 ^ 62

/-- A feed that Fuel holds and the one that EVM holds. -/
structure SameFeed (id : Bytes32) (feed : PriceFeed) (info : PriceInfo) : Prop where
  id : feed.id = id
  published : 1 ≤ info.publishTime.toNat
  price : SamePrice feed.price info.price info.conf info.expo info.publishTime
  emaPrice : SamePrice feed.emaPrice info.emaPrice info.emaConf info.expo info.publishTime

/-- Both hold the same feeds. On EVM a feed with the time 0 does not exist. -/
def SameFeeds (feeds : Bytes32 → Option PriceFeed) (infos : Bytes32 → PriceInfo) : Prop :=
  ∀ id, match feeds id with
    | none => (infos id).publishTime = 0
    | some feed => SameFeed id feed (infos id)

section

variable {info : PriceInfo} {id : Bytes32}

theorem storable_of_inRange (h : InRange info) : Storable info := by
  have htime := h.publishTime
  have hshift : TAI64_DIFFERENCE.toNat = 2 ^ 62 := by decide
  exact ⟨absoluteOfExponent_lt h.expo, by omega⟩

theorem publishTime_feedOf (h : InRange info) :
    (info.publishTime + TAI64_DIFFERENCE).toNat = info.publishTime.toNat + 2 ^ 62 := by
  have htime := h.publishTime
  have hshift : TAI64_DIFFERENCE.toNat = 2 ^ 62 := by decide
  rw [BitVec.toNat_add, hshift, Nat.mod_eq_of_lt (by omega)]

theorem sameFeed_feedOf (h : InRange info) : SameFeed id (feedOf id info) info where
  id := rfl
  published := h.published
  price := ⟨toNat_of_toInt_nonneg h.price, rfl, absoluteOfExponent_toNat h.expo,
    publishTime_feedOf h⟩
  emaPrice := ⟨toNat_of_toInt_nonneg h.emaPrice, rfl, absoluteOfExponent_toNat h.expo,
    publishTime_feedOf h⟩

/-- Both contracts replace the feed for the same messages. -/
theorem latestPublishTime_lt_iff {feeds : Bytes32 → Option PriceFeed} {infos : Bytes32 → PriceInfo}
    {feed : PriceFeed} (hsame : SameFeeds feeds infos) (hfeed : SameFeed id feed info) :
    feed.price.publishTime > AccumulatorUpdate.latestPublishTime feeds id ↔
      info.publishTime > (infos id).publishTime := by
  have hheld := hsame id
  have hpublished := hfeed.published
  unfold AccumulatorUpdate.latestPublishTime
  rw [gt_iff_lt, gt_iff_lt, BitVec.lt_def, BitVec.lt_def, hfeed.price.publishTime]
  cases hstored : feeds id with
  | none =>
    rw [hstored] at hheld
    have hzero : (infos id).publishTime = 0 := hheld
    rw [hzero]
    exact iff_of_true (Nat.add_pos_left hpublished _) hpublished
  | some held =>
    rw [hstored] at hheld
    have hheld : SameFeed id held (infos id) := hheld
    rw [hheld.price.publishTime]
    exact Nat.add_lt_add_iff_right

theorem storeFeed_same {stored : (Bytes32 → Option PriceFeed) × List Bytes32} {w : World}
    {feed : PriceFeed} (hsame : SameFeeds stored.1 w.state.latestPriceInfo)
    (hfeed : SameFeed id feed info) :
    SameFeeds (AccumulatorUpdate.storeFeed stored feed).1
      (Pyth.updateLatestPriceIfNecessary w id info).state.latestPriceInfo := by
  have hnewer := latestPublishTime_lt_iff hsame hfeed
  rw [Pyth.latestPriceInfo_eq]
  unfold AccumulatorUpdate.storeFeed
  rw [hfeed.id]
  by_cases hlater : info.publishTime > (w.state.latestPriceInfo id).publishTime
  · rw [if_pos hlater, if_pos (hnewer.mpr hlater)]
    intro other
    by_cases hid : other = id
    · subst hid
      simp only [Function.update_self]
      exact hfeed
    · simp only [Function.update_of_ne hid]
      exact hsame other
  · rw [if_neg hlater, if_neg (mt hnewer.mp hlater)]
    exact hsame

theorem foldl_storeFeed_same {updates : List (Bytes32 × PriceInfo)}
    (hrange : ∀ update ∈ updates, InRange update.2)
    {stored : (Bytes32 → Option PriceFeed) × List Bytes32} {w : World}
    (hsame : SameFeeds stored.1 w.state.latestPriceInfo) :
    SameFeeds ((feedsOf updates).foldl AccumulatorUpdate.storeFeed stored).1
      (Pyth.applyUpdates w updates).state.latestPriceInfo := by
  induction updates generalizing stored w with
  | nil => exact hsame
  | cons update updates ih =>
    obtain ⟨hupdate, hrest⟩ := List.forall_mem_cons.mp hrange
    rw [foldl_feedsOf_cons]
    have hfeed : SameFeed update.1 (feedOf update.1 update.2) update.2 := sameFeed_feedOf hupdate
    generalize feedOf update.1 update.2 = feed at hfeed ⊢
    exact ih hrest (storeFeed_same hsame hfeed)

end

/-! ## Agreement -/

/-- What the EVM contract checks and the Fuel contract does not: the type of the update, the magic
of the payload and its type. -/
def Typed (payload data : Bytes) : Prop :=
  updateTypeOf data = 0 ∧
  (field payload 0 32 4 : BitVec 32) = Pyth.ACCUMULATOR_WORMHOLE_MAGIC ∧
  (field payload 4 8 1 : BitVec 8) = 0

instance (payload data : Bytes) : Decidable (Typed payload data) :=
  inferInstanceAs (Decidable (_ ∧ _ ∧ _))

/-- The rest of an update: the frame, the size of the payload, and messages with valid proofs to
the end of the data. -/
def WellFormed (keccak256 : Bytes → Bytes32) (payload data : Bytes) : Prop :=
  Framed data ∧ 37 ≤ payload.length ∧ (updatesOf keccak256 payload data).isSome

/-- Both contracts accept the VAA of the data, from one emitter and with one payload. -/
structure SameVaa (P : WormholeHost) (timestamp : BitVec 64)
    (parseAndVerifyPythVM : Bytes → Pyth.Result Pyth.VM) (s : PythStorage) (data : Bytes)
    (payload : Bytes) : Prop where
  accepted : ∃ (vm : WormholeVM) (vm' : Pyth.VM),
    parseAndVerifyPythVm P s.toStorage timestamp s.wormholeGuardianSetIndex (vaaOf data) = .ok vm ∧
    parseAndVerifyPythVM (vaaOf data) = .ok vm' ∧
    vm.emitterChainId = vm'.emitterChainId ∧ vm.emitterAddress = vm'.emitterAddress ∧
    vm.payload = payload ∧ vm'.payload = payload

/-- The two contracts agree on an update. -/
structure Agrees (P : WormholeHost) (timestamp : BitVec 64) (m : Machine)
    (parseAndVerifyPythVM : Bytes → Pyth.Result Pyth.VM) (update : CalldataBytes)
    (s : PythStorage) (w : World) : Prop where
  succeeds : (∃ numUpdates ids s', AccumulatorUpdate.updatePriceFeeds ⟨update.bytes m⟩ P timestamp s
      = .ok (numUpdates, ids, s')) ↔
    ∃ numUpdates w', Pyth.updatePriceInfosFromAccumulatorUpdate P.keccak256 m parseAndVerifyPythVM
      update w = .ok (numUpdates, w')
  effects {numUpdates numUpdates' : BitVec 8} {ids : List Bytes32} {s' : PythStorage} {w' : World} :
    AccumulatorUpdate.updatePriceFeeds ⟨update.bytes m⟩ P timestamp s
      = .ok (numUpdates, ids, s') →
    Pyth.updatePriceInfosFromAccumulatorUpdate P.keccak256 m parseAndVerifyPythVM update w
      = .ok (numUpdates', w') →
    numUpdates = numUpdates' ∧
    -- the same messages in the same order
    (∃ updates, w'.applied = w.applied ++ updates ∧ (s'.latestPriceFeed, ids)
      = (feedsOf updates).foldl AccumulatorUpdate.storeFeed (s.latestPriceFeed, [])) ∧
    SameFeeds s'.latestPriceFeed w'.state.latestPriceInfo ∧
    -- the fee that is charged
    ∀ (batchAttestation : Bytes → PythStorage → Result PythStorage) (msgAmount : BitVec 64)
      (s'' : PythStorage), updatePriceFeeds P batchAttestation true msgAmount timestamp
        [update.bytes m] s = .ok s'' ↔
      ∃ fee, updateFee s [update.bytes m] = .ok fee ∧ fee ≤ msgAmount ∧ s'' = s'

section

variable {keccak256 : Bytes → Bytes32} {m : Machine}
  {parseAndVerifyPythVM : Bytes → Pyth.Result Pyth.VM} {update : CalldataBytes} {w w' : World}
  {numUpdates : BitVec 8}

theorem field_magic {data : Bytes} (h : data.take 4 = accumulatorMagicBytes) :
    (field data 0 32 4 : BitVec 32) = Pyth.ACCUMULATOR_MAGIC := by
  rw [BytesLib.field, List.drop_zero, h]
  decide

theorem evm_eq_ok {vm : Pyth.VM} (hmagic : (update.bytes m).take 4 = accumulatorMagicBytes)
    (hvm : parseAndVerifyPythVM (vaaOf (update.bytes m)) = .ok vm) :
    Pyth.updatePriceInfosFromAccumulatorUpdate keccak256 m parseAndVerifyPythVM update w
        = .ok (numUpdates, w') ↔
      Typed vm.payload (update.bytes m) ∧ Framed (update.bytes m) ∧ 37 ≤ vm.payload.length ∧
      ∃ updates, updatesOf keccak256 vm.payload (update.bytes m) = some updates ∧
        numUpdates = numUpdatesOf (update.bytes m) ∧ w' = Pyth.applyUpdates w updates := by
  rw [Pyth.updatePriceInfosFromAccumulatorUpdate_ok]
  simp only [strict_parseAll, payload_parsePrefix]
  constructor
  · rintro ⟨updates, ⟨-, hframed, htype, vm', digest, hvm', ⟨hlength, hmagic', hzero, rfl⟩,
      hupdates, hnum⟩, hw⟩
    cases hvm.symm.trans hvm'
    exact ⟨⟨htype, hmagic', hzero⟩, hframed, hlength, updates, hupdates, hnum, hw⟩
  · rintro ⟨⟨htype, hmagic', hzero⟩, hframed, hlength, updates, hupdates, hnum, hw⟩
    exact ⟨updates, ⟨field_magic hmagic, hframed, htype, vm, _, hvm, ⟨hlength, hmagic', hzero, rfl⟩,
      hupdates, hnum⟩, hw⟩

end

/-- **Fuel and EVM accumulator updates.** Let both contracts hold the same feeds and accept the
VAA of an update, and let its messages be in range. Then they agree on the update exactly when it
is not well formed, or has the type and the kind of payload that only the EVM contract checks. -/
theorem accumulator_updates_agree (P : WormholeHost) (timestamp : BitVec 64) (m : Machine)
    (parseAndVerifyPythVM : Bytes → Pyth.Result Pyth.VM) (update : CalldataBytes)
    (s : PythStorage) (w : World) (payload : Bytes)
    (hmagic : (update.bytes m).take 4 = accumulatorMagicBytes)
    (hvaa : SameVaa P timestamp parseAndVerifyPythVM s (update.bytes m) payload)
    (hsame : SameFeeds s.latestPriceFeed w.state.latestPriceInfo)
    (hrange : ∀ updates, updatesOf P.keccak256 payload (update.bytes m) = some updates →
      ∀ update ∈ updates, InRange update.2) :
    Agrees P timestamp m parseAndVerifyPythVM update s w ↔
      Typed payload (update.bytes m) ∨ ¬WellFormed P.keccak256 payload (update.bytes m) := by
  obtain ⟨vm, vm', hvm, hvm', -, -, rfl, hpayload⟩ := hvaa.accepted
  -- the Fuel contract accepts what is well formed
  have hfuel : (∃ numUpdates ids s', AccumulatorUpdate.updatePriceFeeds ⟨update.bytes m⟩ P
      timestamp s = .ok (numUpdates, ids, s')) ↔
      WellFormed P.keccak256 vm.payload (update.bytes m) := by
    constructor
    · rintro ⟨numUpdates, ids, s', h⟩
      obtain ⟨hframed, vm₁, hvm₁, hlength, updates, hupdates, -⟩ := updatePriceFeeds_eq_ok.mp h
      cases hvm.symm.trans hvm₁
      exact ⟨hframed, hlength, Option.isSome_iff_exists.mpr ⟨updates, hupdates⟩⟩
    · rintro ⟨hframed, hlength, hsome⟩
      obtain ⟨updates, hupdates⟩ := Option.isSome_iff_exists.mp hsome
      exact ⟨_, _, _, updatePriceFeeds_eq_ok.mpr ⟨hframed, vm, hvm, hlength, updates, hupdates,
        fun u hu => storable_of_inRange (hrange updates hupdates u hu), rfl, _, rfl, rfl⟩⟩
  -- and the EVM contract what is typed too
  have hevm : (∃ numUpdates w', Pyth.updatePriceInfosFromAccumulatorUpdate P.keccak256 m
      parseAndVerifyPythVM update w = .ok (numUpdates, w')) ↔
      Typed vm.payload (update.bytes m) ∧ WellFormed P.keccak256 vm.payload (update.bytes m) := by
    simp only [evm_eq_ok hmagic hvm', hpayload]
    constructor
    · rintro ⟨numUpdates, w', htyped, hframed, hlength, updates, hupdates, -⟩
      exact ⟨htyped, hframed, hlength, Option.isSome_iff_exists.mpr ⟨updates, hupdates⟩⟩
    · rintro ⟨htyped, hframed, hlength, hsome⟩
      obtain ⟨updates, hupdates⟩ := Option.isSome_iff_exists.mp hsome
      exact ⟨_, _, htyped, hframed, hlength, updates, hupdates, rfl, rfl⟩
  constructor
  · intro hagrees
    by_cases hformed : WellFormed P.keccak256 vm.payload (update.bytes m)
    · exact .inl (hevm.mp (hagrees.succeeds.mp (hfuel.mpr hformed))).1
    · exact .inr hformed
  · intro hcondition
    refine ⟨?_, fun {numUpdates numUpdates' ids s' w'} hrun hrun' => ?_⟩
    · rw [hfuel, hevm]
      rcases hcondition with htyped | hformed
      · exact ⟨fun hformed => ⟨htyped, hformed⟩, And.right⟩
      · exact ⟨fun h => absurd h hformed, fun h => absurd h.2 hformed⟩
    · obtain ⟨-, -, -, updates', hupdates', rfl, rfl⟩ := (evm_eq_ok hmagic hvm').mp hrun'
      obtain ⟨hframed, vm₁, hvm₁, -, updates, hupdates, -, rfl, latestPriceFeed, hstored, rfl⟩ :=
        updatePriceFeeds_eq_ok.mp hrun
      cases hvm.symm.trans hvm₁
      rw [hpayload] at hupdates'
      obtain rfl : updates' = updates := Option.some.inj (hupdates'.symm.trans hupdates)
      refine ⟨rfl, ⟨updates', Pyth.applyUpdates_applied w updates', hstored⟩, ?_,
        fun batchAttestation msgAmount s'' => updatePriceFeeds_singleton hmagic hrun⟩
      have hfold := @foldl_storeFeed_same updates' (hrange updates' hupdates)
        (s.latestPriceFeed, []) w hsame
      rw [← hstored] at hfold
      exact hfold

/-! ## An update of another type -/

/-- The price of BTC/USD at 61000 with the exponent -8. -/
def exMessage : Bytes :=
  [0] ++ bytesBE 32 0xe62df6c8b4a85fe1a67db44dc12de5db330f7ac66b72dc658afedf0f4a415b43
    ++ bytesBE 8 6100000000000 ++ bytesBE 8 2500000000 ++ bytesBE 4 (2 ^ 32 - 8)
    ++ bytesBE 8 1700000002 ++ bytesBE 8 1700000001 ++ bytesBE 8 6090000000000
    ++ bytesBE 8 2600000000

def exSibling : Bytes := (List.range 20).map UInt8.ofNat

def exLeaf : Bytes32 := 0x34098f100ef2477c95985bb0314af34e399191a4dcac31feb013b86cdc2cbf3d
def exNode : Bytes32 := 0x9ae376607c60fa5d2277be4507ce3e3c9ceab20430ce51549aa710c49b9d5a8f

def exFeedPayload : Bytes :=
  [0x41, 0x55, 0x57, 0x56, 0] ++ bytesBE 8 100 ++ bytesBE 4 10000 ++ (wordBytes exNode).take 20

def exFeedBody : Bytes :=
  bytesBE 4 1700000001 ++ bytesBE 4 0 ++ bytesBE 2 26 ++ bytesBE 32 exPriceEmitter.toNat
    ++ bytesBE 8 5 ++ [1] ++ exFeedPayload

def exFeedDigest : Bytes32 := 0xdcb58fec0cd06bb3c02d3c00384f0bd3cbd534aeaa7042430baa443b8356f2ce
def exFeedHash : Bytes32 := 0x1d44a1926123ffb53eaca8a7b34dc75b90f4dd6b304c9681b1ee39ec34e3cde7
def exFeedR : Bytes32 := 0x54db53c193a3cb0aa7797e610d0d4e0f618d54751f994980a6d81808de56b0bc
def exFeedS : Bytes32 := 0x5ed3bf210e2030bfbea96e3a49e98a425c2314fa4bcaae72a76e104c58abd2d8

/-- Keccak-256 on the body, its digest, the leaf and the node. -/
def exFeedKeccak (bytes : Bytes) : Bytes32 :=
  if bytes = exFeedBody then exFeedDigest
  else if bytes = wordBytes exFeedDigest then exFeedHash
  else if bytes = [0] ++ exMessage then exLeaf
  else if bytes = [1] ++ exSibling ++ (wordBytes exLeaf).take 20 then exNode
  else 0

def exFeedEcrecover (hash : Bytes32) (v : BitVec 8) (r s : Bytes32) : Address :=
  if v = 27 ∧ (hash, r, s) = (exFeedHash, exFeedR, exFeedS) then exGuardian else 0

def exFeedHost : WormholeHost := hostOf exFeedKeccak exFeedEcrecover

def exFeedVaa : Bytes :=
  [1] ++ bytesBE 4 0 ++ [1] ++ [0] ++ bytesBE 32 exFeedR.toNat ++ bytesBE 32 exFeedS.toNat
    ++ [0] ++ exFeedBody

/-- The update with the type `updateType` in its header. -/
def exData (updateType : UInt8) : Bytes :=
  accumulatorMagicBytes ++ [1, 0, 0, updateType] ++ [0, 160] ++ exFeedVaa ++ [1] ++ [0, 85]
    ++ exMessage ++ [1] ++ exSibling

def exMachine (updateType : UInt8) : Machine where
  calldata a := (exData updateType).getD (a - 4).toNat 0
  aroundCopy _ _ := 0
  aroundReturned _ := 0
  checksSlices := true

def exCalldata : CalldataBytes where
  offset := 4
  length := 279

/-- What the EVM contract accepts. -/
def exParseAndVerifyPythVM (encodedVm : Bytes) : Pyth.Result Pyth.VM :=
  if encodedVm = exFeedVaa then
    .ok { emitterChainId := 26, emitterAddress := exPriceEmitter, sequence := 5,
          payload := exFeedPayload }
  else .error (.error .invalidWormholeVaa)

def exPythStorage : PythStorage where
  toStorage := exStorage
  singleUpdateFee := 1

def exInfo : PriceInfo where
  publishTime := 1700000002
  expo := -8
  price := 6100000000000
  conf := 2500000000
  emaPrice := 6090000000000
  emaConf := 2600000000

/-- The block has a time of TAI64. -/
def exNow : BitVec 64 := 4611686018427387904 + 1700000100

theorem exCalldata_bytes :
    exCalldata.bytes (exMachine 0) = exData 0 ∧ exCalldata.bytes (exMachine 1) = exData 1 := by
  decide +kernel

theorem exSameVaa {data : Bytes} (hdata : vaaOf data = exFeedVaa) :
    SameVaa exFeedHost exNow exParseAndVerifyPythVM exPythStorage data exFeedPayload where
  accepted := by
    have hvm : parseAndVerifyPythVm exFeedHost exStorage exNow exStorage.wormholeGuardianSetIndex
        exFeedVaa = .ok (wormholeVmOf exFeedKeccak exFeedVaa) :=
      except_toOption_eq_some.mp (by decide +kernel)
    rw [hdata]
    refine ⟨_, _, hvm, if_pos rfl, ?_⟩
    decide +kernel

theorem exSameFeeds : SameFeeds exPythStorage.latestPriceFeed ({} : World).state.latestPriceInfo :=
  fun _ => rfl

/-- The message of both updates is in range. -/
theorem exInRange {data : Bytes} (hdata : updatesOf exFeedKeccak exFeedPayload data
      = some [(0xe62df6c8b4a85fe1a67db44dc12de5db330f7ac66b72dc658afedf0f4a415b43, exInfo)])
    (updates : List (Bytes32 × PriceInfo))
    (hupdates : updatesOf exFeedKeccak exFeedPayload data = some updates) :
    ∀ update ∈ updates, InRange update.2 := by
  cases hdata.symm.trans hupdates
  refine List.forall_mem_singleton.mpr ?_
  constructor <;> decide

/-- Both accept the update and hold the price, and Fuel charges 1 for it. -/
theorem accumulator_updates_example :
    Agrees exFeedHost exNow (exMachine 0) exParseAndVerifyPythVM exCalldata exPythStorage {} ∧
    (AccumulatorUpdate.updatePriceFeeds ⟨exData 0⟩ exFeedHost exNow exPythStorage).toBool = true ∧
    updateFee exPythStorage [exData 0] = .ok 1 := by
  have hbytes := exCalldata_bytes.1
  refine ⟨(accumulator_updates_agree exFeedHost exNow (exMachine 0) exParseAndVerifyPythVM
    exCalldata exPythStorage {} exFeedPayload ?_ ?_ exSameFeeds ?_).mpr (.inl ?_),
    by decide +kernel, by decide +kernel⟩ <;> rw [hbytes]
  · decide +kernel
  · exact exSameVaa (by decide +kernel)
  · exact exInRange (by decide +kernel)
  · decide +kernel

/-- An update whose header says another type, which the EVM contract does not know: the Fuel
contract stores its price. -/
theorem accumulator_updates_agree_fail :
    (exData 1).take 4 = accumulatorMagicBytes ∧ updateTypeOf (exData 1) = 1 ∧
    SameVaa exFeedHost exNow exParseAndVerifyPythVM exPythStorage (exData 1) exFeedPayload ∧
    SameFeeds exPythStorage.latestPriceFeed ({} : World).state.latestPriceInfo ∧
    (∀ updates, updatesOf exFeedKeccak exFeedPayload (exData 1) = some updates →
      ∀ update ∈ updates, InRange update.2) ∧
    (AccumulatorUpdate.updatePriceFeeds ⟨exData 1⟩ exFeedHost exNow exPythStorage).toBool = true ∧
    exCalldata.bytes (exMachine 1) = exData 1 ∧
    (Pyth.updatePriceInfosFromAccumulatorUpdate exFeedKeccak (exMachine 1) exParseAndVerifyPythVM
      exCalldata {}).toBool = false ∧
    ¬Agrees exFeedHost exNow (exMachine 1) exParseAndVerifyPythVM exCalldata exPythStorage {} := by
  have hfuel : (AccumulatorUpdate.updatePriceFeeds ⟨exData 1⟩ exFeedHost exNow
      exPythStorage).toBool = true := by
    decide +kernel
  have hevm : (Pyth.updatePriceInfosFromAccumulatorUpdate exFeedKeccak (exMachine 1)
      exParseAndVerifyPythVM exCalldata {}).toBool = false := by
    decide +kernel
  refine ⟨by decide +kernel, by decide +kernel, exSameVaa (by decide +kernel), exSameFeeds,
    exInRange (by decide +kernel), hfuel, exCalldata_bytes.2, hevm, fun hagrees => ?_⟩
  have haccepts : ∃ numUpdates ids s', AccumulatorUpdate.updatePriceFeeds
      ⟨exCalldata.bytes (exMachine 1)⟩ exFeedHost exNow exPythStorage
      = .ok (numUpdates, ids, s') := by
    rw [exCalldata_bytes.2]
    cases hrun : AccumulatorUpdate.updatePriceFeeds ⟨exData 1⟩ exFeedHost exNow exPythStorage with
    | ok r => exact ⟨_, _, _, rfl⟩
    | error e =>
      rw [hrun] at hfuel
      cases hfuel
  obtain ⟨numUpdates, w', hrun⟩ := hagrees.succeeds.mp haccepts
  have hrefused : (Pyth.updatePriceInfosFromAccumulatorUpdate exFeedHost.keccak256 (exMachine 1)
      exParseAndVerifyPythVM exCalldata {}).toBool = false := hevm
  rw [hrun] at hrefused
  cases hrefused

end PythCrosschain.Fuel
