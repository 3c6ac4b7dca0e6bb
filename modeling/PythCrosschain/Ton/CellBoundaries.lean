import PythCrosschain.Pyth.StrictAccumulator
import PythCrosschain.Ton.CellChain
import PythCrosschain.Ton.Pyth

/-!
# TON: updates and cell boundaries

An update arrives in a chain of cells with 127 bytes each. `grammar` is the grammar of EVM
updates, for a VAA that carries a given root. The contract reads the siblings of a proof, the
messages and the VAA through the cells, but the size of a message with one load. So an update
of the grammar is refused where this field does not lie in the cell that the slice is in: it
crosses a boundary, or it is behind a boundary that a load of one byte came to. `Readable`
says that no field does, and `readAndVerifyMessage_agree` and `parseUpdates_agree` carry the
agreement through an update and through the loop.
-/

namespace PythCrosschain.Ton

open Tvm
open Pyth (PriceInfo Strict.header Strict.climb Strict.proof Strict.update Strict.message
  Strict.priceFeedMessage)

/-- The message that the EVM grammar reads. -/
def PriceFeedMessage.of (r : PriceInfo × Bytes32 × BitVec 64) : PriceFeedMessage where
  priceId := r.2.1
  price := r.1.price
  conf := r.1.conf
  expo := r.1.expo
  publishTime := r.1.publishTime
  prevPublishTime := r.2.2
  emaPrice := r.1.emaPrice
  emaConf := r.1.emaConf

section

open PythCrosschain.Parser

/-- The header, the VAA and the number of updates. -/
def updateHeader : Parser (BitVec 8) := do
  let updateType ← Strict.header
  assert (guard (updateType = .wormholeMerkle))
  let whProofSize ← uint16
  skip whProofSize.toNat
  uint8

/-- The grammar of EVM updates with the root of the VAA. -/
def grammar (keccak256 : Bytes → Bytes32) (root : BitVec 160) : Parser (List PriceFeedMessage) := do
  let numUpdates ← updateHeader
  let list ← elements (Strict.update keccak256 root) numUpdates.toNat
  return list.map .of

end

/-- The loop of the strict parser keeps the ids and the prices of its updates. -/
theorem strictUpdates_eq (keccak256 : Bytes → Bytes32) (root : BitVec 160) (n : ℕ) :
    Pyth.Strict.updates keccak256 root n = (do
      let list ← Parser.elements (Strict.update keccak256 root) n
      return list.map fun r => (r.2.1, r.1)) := by
  induction n with
  | zero => simp only [Pyth.Strict.updates, Parser.elements, pure_bind, List.map_nil]
  | succ n ih =>
    simp only [Pyth.Strict.updates, Parser.elements, ih, bind_assoc, pure_bind, List.map_cons]

/-- Where every VAA carries the root, `grammar` reads what the strict parser of EVM updates
reads. -/
theorem accumulatorUpdate_eq (keccak256 : Bytes → Bytes32) (root : BitVec 160)
    (parseAndVerifyPythVM : Bytes → Pyth.Result Pyth.VM)
    (h : ∀ vaa, ∃ vm, parseAndVerifyPythVM vaa = .ok vm ∧
      Pyth.Strict.payload.parsePrefix vm.payload = some root) :
    Pyth.Strict.accumulatorUpdate keccak256 parseAndVerifyPythVM = (do
      let numUpdates ← updateHeader
      let list ← Parser.elements (Strict.update keccak256 root) numUpdates.toNat
      return (numUpdates, list.map fun r => (r.2.1, r.1))) := by
  have hvaa (vaa : Bytes) {α : Type} (q : BitVec 160 → Parser α) :
      (Parser.assert (parseAndVerifyPythVM vaa).toOption >>= fun vm =>
        Parser.assert (Pyth.Strict.payload.parsePrefix vm.payload) >>= q) = q root := by
    obtain ⟨vm, hvm, hroot⟩ := h vaa
    funext bytes
    rw [Parser.bind_run, hvm]
    show (Parser.assert (Pyth.Strict.payload.parsePrefix vm.payload) >>= q) bytes = _
    rw [Parser.bind_run, hroot]
    rfl
  unfold Pyth.Strict.accumulatorUpdate Pyth.Strict.wormholeMerkleUpdates Pyth.Strict.wormholeMerkle
    updateHeader
  simp only [bind_assoc, pure_bind, hvaa, strictUpdates_eq, Parser.skip]

/-- The sizes of the next message and of its proof. -/
def sizeOf (bytes : Bytes) : ℕ := natBE (bytes.take 2)
def proofSizeOf (bytes : Bytes) : ℕ := natBE ((bytes.drop (2 + sizeOf bytes)).take 1)

/-- The length of the next update. -/
def updateLength (bytes : Bytes) : ℕ := 3 + sizeOf bytes + 20 * proofSizeOf bytes

/-- The size field at `p` lies in the cell of the slice. `afterByte` says that one byte was
loaded before it. -/
def FieldInCell (p : ℕ) (afterByte : Bool) : Prop :=
  p % 127 ≠ 126 ∧ ¬(afterByte = true ∧ p % 127 = 0)

instance (p : ℕ) (afterByte : Bool) : Decidable (FieldInCell p afterByte) :=
  inferInstanceAs (Decidable (_ ∧ _))

/-- The next `n` updates, from `p` on, have messages of at most 126 bytes, and their size fields
lie in the cells of the slice. -/
def Readable : ℕ → ℕ → Bool → Bytes → Prop
  | 0, _, _, _ => True
  | n + 1, p, afterByte, bytes =>
    sizeOf bytes ≤ 126 ∧ FieldInCell p afterByte ∧
      Readable n (p + updateLength bytes) (proofSizeOf bytes = 0) (bytes.drop (updateLength bytes))

def decidableReadable : ∀ (n p : ℕ) (afterByte : Bool) (bytes : Bytes),
    Decidable (Readable n p afterByte bytes)
  | 0, _, _, _ => .isTrue trivial
  | n + 1, p, _, bytes =>
    have := decidableReadable n (p + updateLength bytes) (proofSizeOf bytes = 0)
      (bytes.drop (updateLength bytes))
    inferInstanceAs (Decidable (_ ∧ _ ∧ _))

instance (n p : ℕ) (afterByte : Bool) (bytes : Bytes) : Decidable (Readable n p afterByte bytes) :=
  decidableReadable n p afterByte bytes

/-- The room in the cell of a slice at `p`. -/
def roomAt (p : ℕ) (afterByte : Bool) : ℕ :=
  if afterByte = true ∧ p % 127 = 0 then 0 else 127 - p % 127

theorem roomAt_false (p : ℕ) : roomAt p false = 127 - p % 127 := if_neg fun h => nomatch h.1

theorem roomAt_true (p : ℕ) : roomAt p true = if p % 127 = 0 then 0 else 127 - p % 127 := by
  simp only [roomAt, true_and]

theorem roomAt_le (p : ℕ) (afterByte : Bool) : roomAt p afterByte ≤ 127 := by
  unfold roomAt
  split <;> omega

theorem two_le_roomAt {p : ℕ} {afterByte : Bool} :
    2 ≤ roomAt p afterByte ↔ FieldInCell p afterByte := by
  unfold roomAt FieldInCell
  split
  · next h => exact iff_of_false (by omega) fun h' => h'.2 h
  · next h =>
    rw [and_iff_left h]
    omega

theorem roomAfter_roomAt (p m : ℕ) (afterByte : Bool) :
    roomAfter (roomAt p afterByte) m = roomAt (p + m) false := by
  rw [roomAt_false]
  unfold roomAt roomAfter
  split <;> omega

/-- A byte that is loaded from the cell. -/
theorem roomAt_sub_one (p : ℕ) : roomAt p false - 1 = roomAt (p + 1) true := by
  rw [roomAt_false, roomAt_true]
  split <;> omega

/-- Two bytes that are loaded from the cell. -/
theorem roomAt_sub_two {p : ℕ} {afterByte : Bool} (h : FieldInCell p afterByte) :
    roomAt p afterByte - 2 = roomAt (p + 2) true := by
  obtain ⟨hne, hnot⟩ := h
  rw [roomAt_true, roomAt, if_neg hnot]
  split <;> omega

/-! ## Steps -/

theorem agree_throwUnless {code : ℕ} {p p' : Prop} [Decidable p] [Decidable p'] (h : p ↔ p') :
    Agree (fun _ _ => p) (throwUnless code p) (guard p' : Option Unit) := by
  unfold throwUnless guard
  by_cases hp : p
  · rw [if_pos hp, if_pos (h.mp hp)]
    exact hp
  · rw [if_neg hp, if_neg fun hp' => hp (h.mpr hp')]
    trivial

theorem skip_bind_run {β : Type} {k : ℕ} {q : Unit → Parser β} {bytes : Bytes} :
    (Parser.skip k >>= q) bytes = if k ≤ bytes.length then q () (bytes.drop k) else none := by
  have hassoc : (Parser.skip k >>= q) = Parser.take k >>= fun _ => q () := by
    simp only [Parser.skip, bind_assoc, pure_bind]
  rw [hassoc, Parser.bind_run, Parser.take]
  split <;> rfl

/-! ## A message -/

variable {keccak256 : Bytes → Bytes32}

theorem parseMessage_agree {s : Slice} {bytes : Bytes} (h : Laid s bytes 127) :
    Agree (fun m r => m = .of r) (parseMessage s) (Strict.message.parsePrefix bytes) := by
  have hread : Agree (fun m r => m = PriceFeedMessage.of r.1) (parseMessage s)
      (Strict.message bytes) := by
    unfold parseMessage Strict.message
    refine h.step (k := 1) rfl (by decide) fun messageType s bytes h => ?_
    have htype : Agree (fun _ t => t = Pyth.MessageType.priceFeed)
        (throwUnless ERROR_INVALID_MESSAGE_TYPE (messageType = PRICE_FEED_MESSAGE_TYPE))
        (Pyth.MessageType.ofUint8 messageType).toOption := by
      unfold throwUnless Pyth.MessageType.ofUint8
      by_cases hzero : messageType = 0
      · rw [if_pos hzero, if_pos (show messageType = PRICE_FEED_MESSAGE_TYPE from hzero)]
        rfl
      · rw [if_neg hzero, if_neg (show ¬messageType = PRICE_FEED_MESSAGE_TYPE from hzero)]
        trivial
    refine htype.check ?_
    rintro _ _ rfl
    show Agree _ _ (Strict.priceFeedMessage bytes)
    unfold Strict.priceFeedMessage
    refine h.step (k := 32) rfl (by decide) fun priceId s bytes h => ?_
    refine h.step (k := 8) rfl (by decide) fun price s bytes h => ?_
    refine h.step (k := 8) rfl (by decide) fun conf s bytes h => ?_
    refine h.step (k := 4) rfl (by decide) fun expo s bytes h => ?_
    refine h.step (k := 8) rfl (by decide) fun publishTime s bytes h => ?_
    refine h.step (k := 8) rfl (by decide) fun prevPublishTime s bytes h => ?_
    refine h.step (k := 8) rfl (by decide) fun emaPrice s bytes h => ?_
    refine h.step (k := 8) rfl (by decide) fun emaConf s bytes h => ?_
    exact .returns rfl
  have hfst : Agree (fun m r => m = PriceFeedMessage.of r) (parseMessage s)
      ((Strict.message bytes).map Prod.fst) := Agree.map hread
  exact hfst

/-! ## A proof -/

theorem climb_agree {cs : Slice} {bytes : Bytes} {c n : ℕ} (current : BitVec 160)
    (h : Laid cs bytes c) (hc : c ≤ 127) :
    Agree (fun r s => r.1 = s.1 ∧ s.2 = bytes.drop (20 * n) ∧
        Laid r.2 s.2 (if n = 0 then c else roomAfter c (20 * n)))
      (climb keccak256 n current cs) (Strict.climb keccak256 current n bytes) := by
  induction n generalizing cs bytes c current with
  | zero => exact ⟨rfl, rfl, h⟩
  | succ n ih =>
    have hrun : Strict.climb keccak256 current (n + 1) bytes
        = (Parser.take 20 bytes).bind fun r => Strict.climb keccak256
          (Pyth.MerkleTree.nodeHash keccak256 current (BitVec.ofNat 160 (natBE r.1))) n r.2 := by
      show (Parser.uint 160 20 >>= _) bytes = _
      simp only [Parser.uint, bind_assoc, pure_bind]
      rfl
    rw [climb_succ h.all, hrun]
    by_cases hle : 20 ≤ bytes.length
    · have hnext := (h.large hc (m := 20) (by decide) hle).2
      rw [Parser.take, if_pos hle, if_pos hle]
      refine (ih _ hnext (roomAfter_le c 20)).mono ?_
      rintro r s ⟨hdigest, hrest, hlaid⟩
      refine ⟨hdigest, ?_, ?_⟩
      · rw [hrest, List.drop_drop]
        congr 1
        ring
      · have hroom : (if n = 0 then roomAfter c 20 else roomAfter (roomAfter c 20) (20 * n))
            = roomAfter c (20 * (n + 1)) := by
          rw [roomAfter_roomAfter]
          split
          · next hzero => rw [hzero]
          · congr 1
            ring
        rw [hroom] at hlaid
        rw [if_neg (Nat.succ_ne_zero n)]
        exact hlaid
    · rw [Parser.take, if_neg hle, if_neg hle]
      exact .fails rfl

/-- The check of a proof as a step. -/
theorem proof_step {α β : Type} {ψ : α → β × Bytes → Prop} {cs : Slice} {message bytes : Bytes}
    {c : ℕ} (root : BitVec 160) (hmessage : message.length ≤ 126) (h : Laid cs bytes c)
    (hpos : 1 ≤ c) (hc : c ≤ 127) {f : Slice → Result α} {q : Unit → Parser β}
    (hnext : ∀ cs',
      Laid cs' (bytes.drop (1 + 20 * natBE (bytes.take 1)))
        (if natBE (bytes.take 1) = 0 then c - 1
          else roomAfter (c - 1) (20 * natBE (bytes.take 1))) →
      Agree ψ (f cs') (q () (bytes.drop (1 + 20 * natBE (bytes.take 1))))) :
    Agree ψ (readAndVerifyProof keccak256 root ⟨bitsOf message, []⟩ cs >>= f)
      ((Strict.proof keccak256 root (Pyth.MerkleTree.leafHash keccak256 message) >>= fun valid =>
        Parser.assert (guard (valid = true)) >>= q) bytes) := by
  have hsize : (BitVec.ofNat 8 (natBE (bytes.take 1))).toNat = natBE (bytes.take 1) := by
    have hlt := natBE_lt (bytes.take 1)
    have hle : 256 ^ (bytes.take 1).length ≤ 256 ^ 1 :=
      Nat.pow_le_pow_right (by decide) (List.length_take_le 1 bytes)
    rw [BitVec.toNat_ofNat, Nat.mod_eq_of_lt (by omega)]
  rw [readAndVerifyProof, leafHash_eq hmessage, except_ok_bind]
  simp only [Strict.proof, bind_assoc, pure_bind]
  refine h.stepAt (k := 1) rfl hpos fun _ s hs => ?_
  dsimp only
  rw [hsize]
  refine (climb_agree _ hs (by omega)).parse ?_
  rintro ⟨digest, cs'⟩ _ rest ⟨rfl, hrest, hlaid⟩
  obtain rfl : rest = (bytes.drop 1).drop (20 * natBE (bytes.take 1)) := hrest
  dsimp only at hlaid ⊢
  rw [List.drop_drop] at hlaid ⊢
  have hverdict : root = digest ↔ decide (digest = root) = true := by
    rw [decide_eq_true_iff]
    exact eq_comm
  exact (agree_throwUnless hverdict).check fun _ _ _ => hnext cs' hlaid

/-! ## An update -/

theorem natBE_take_lt (k : ℕ) (bytes : Bytes) : natBE (bytes.take k) < 256 ^ k :=
  lt_of_lt_of_le (natBE_lt _) (Nat.pow_le_pow_right (by decide) (List.length_take_le k bytes))

theorem toNat_sizeOf (bytes : Bytes) :
    (BitVec.ofNat 16 (natBE (bytes.take 2))).toNat = sizeOf bytes := by
  rw [BitVec.toNat_ofNat]
  exact Nat.mod_eq_of_lt (natBE_take_lt 2 bytes)

/-- The grammar has no empty message. -/
theorem update_empty {root : BitVec 160} {bytes : Bytes} :
    (Parser.take 0 >>= fun encodedMessage => do
      let valid ← Strict.proof keccak256 root
        (Pyth.MerkleTree.leafHash keccak256 encodedMessage)
      Parser.assert (guard (valid = true))
      let result ← Parser.assert (Strict.message.parsePrefix encodedMessage)
      return result : Parser _) bytes = none := by
  refine Option.eq_none_iff_forall_not_mem.mpr fun r hr => ?_
  obtain ⟨r, rest⟩ := r
  obtain ⟨message, mid, htake, hrest⟩ := Parser.bind_run_eq_some.mp hr
  obtain ⟨-, rfl, -⟩ := Parser.take_run_eq_some.mp htake
  obtain ⟨_, _, _, hrest⟩ := Parser.bind_run_eq_some.mp hrest
  obtain ⟨_, _, _, hassert⟩ := Parser.bind_run_eq_some.mp hrest
  exact absurd (Parser.assert_run_eq_some.mp hassert).1 nofun

/-- **A readable update** is read as in the grammar. -/
theorem readAndVerifyMessage_agree (keccak256 : Bytes → Bytes32) {cs : Slice} {bytes : Bytes}
    {p : ℕ} {afterByte : Bool} (root : BitVec 160) (h : Laid cs bytes (roomAt p afterByte))
    (hsize : sizeOf bytes ≤ 126)
    (hcell : FieldInCell p afterByte) :
    Agree (fun r s => r.1 = .of s.1 ∧ s.2 = bytes.drop (updateLength bytes) ∧
        Laid r.2 s.2 (roomAt (p + updateLength bytes) (proofSizeOf bytes = 0)))
      (readAndVerifyMessage keccak256 cs root) (Strict.update keccak256 root bytes) := by
  unfold readAndVerifyMessage Strict.update
  refine h.stepAt (k := 2) rfl (two_le_roomAt.mpr hcell) fun hlen s hs => ?_
  rw [roomAt_sub_two hcell] at hs
  dsimp only
  rw [toNat_sizeOf, Nat.mul_comm]
  rcases Nat.eq_zero_or_pos (sizeOf bytes) with hzero | hpos
  · -- the cell of an empty message is `null`
    rw [hzero, readAndStoreLargeData_zero, update_empty]
    exact .fails rfl
  · by_cases hle : sizeOf bytes ≤ (bytes.drop 2).length
    · obtain ⟨hcopy, hs'⟩ := hs.large (roomAt_le _ _) hpos hle
      have hmessage : ((bytes.drop 2).take (sizeOf bytes)).length = sizeOf bytes :=
        List.length_take_of_le hle
      have hsingle : createCellChain ((bytes.drop 2).take (sizeOf bytes))
          = [bitsOf ((bytes.drop 2).take (sizeOf bytes))] := by
        refine (createCellChain_packed _).single ?_ ?_
        · refine List.ne_nil_of_length_pos ?_
          rw [length_bitsOf, hmessage]
          omega
        · rw [length_bitsOf, hmessage, MAX_BITS]
          omega
      rw [hsingle] at hcopy
      rw [roomAfter_roomAt, List.drop_drop] at hs'
      generalize hread : readAndStoreLargeData s (8 * sizeOf bytes) = read at hcopy hs'
      obtain ⟨cell, s'⟩ := read
      obtain rfl : cell = [bitsOf ((bytes.drop 2).take (sizeOf bytes))] := hcopy
      rw [Parser.bind_run, Parser.take, if_pos hle, List.drop_drop]
      show Agree _ (readAndVerifyProof keccak256 root
        ⟨bitsOf ((bytes.drop 2).take (sizeOf bytes)), []⟩ s' >>= _) _
      have hroom : 1 ≤ roomAt (p + 2 + sizeOf bytes) false := by
        rw [roomAt_false]
        omega
      refine proof_step root (by omega) hs' hroom (roomAt_le _ _) fun cs' hcs' => ?_
      have hproof : natBE ((bytes.drop (2 + sizeOf bytes)).take 1) = proofSizeOf bytes := rfl
      rw [hproof, List.drop_drop] at hcs'
      rw [hproof, List.drop_drop]
      have hdrop : 2 + sizeOf bytes + (1 + 20 * proofSizeOf bytes) = updateLength bytes := by
        unfold updateLength
        omega
      rw [hdrop] at hcs' ⊢
      have hfields := parseMessage_agree (laid_single (c := 127)
        (show ((bytes.drop 2).take (sizeOf bytes)).length ≤ 127 by omega))
      dsimp only
      rw [← bind_pure (Parser.assert _)]
      refine hfields.check ?_
      rintro _ result rfl
      refine .returns ⟨rfl, rfl, ?_⟩
      have hnext : (if proofSizeOf bytes = 0 then roomAt (p + 2 + sizeOf bytes) false - 1
          else roomAfter (roomAt (p + 2 + sizeOf bytes) false - 1) (20 * proofSizeOf bytes))
          = roomAt (p + updateLength bytes) (proofSizeOf bytes = 0) := by
        rw [roomAt_sub_one, roomAfter_roomAt, updateLength]
        split
        · next hnone =>
          rw [hnone, decide_eq_true rfl]
          congr 1
          omega
        · next hsome =>
          rw [decide_eq_false hsome]
          congr 1
          omega
      rw [hnext] at hcs'
      exact hcs'
    · have hcell : (readAndStoreLargeData s (8 * sizeOf bytes)).1 = [] := by
        refine readAndStoreLargeData_short ?_ ?_
        · rw [hs.all, length_bitsOf]
          omega
        · rw [hs.all, length_bitsOf, MAX_BITS]
          omega
      generalize hread : readAndStoreLargeData s (8 * sizeOf bytes) = read at hcell
      obtain ⟨cell, s'⟩ := read
      obtain rfl : cell = [] := hcell
      rw [Parser.bind_run, Parser.take, if_neg hle]
      exact .fails rfl

/-- The size field of another update cannot be loaded, or its message does not fit into a cell
behind the prefix. -/
theorem readAndVerifyMessage_unreadable (keccak256 : Bytes → Bytes32) {cs : Slice}
    {bytes : Bytes} {p : ℕ} {afterByte : Bool} (root : BitVec 160)
    (h : Laid cs bytes (roomAt p afterByte))
    (hnot : ¬(sizeOf bytes ≤ 126 ∧ FieldInCell p afterByte)) :
    ∃ e, readAndVerifyMessage keccak256 cs root = .error e := by
  unfold readAndVerifyMessage
  by_cases hcell : FieldInCell p afterByte
  · have hload := h.load (w := 16) (k := 2) rfl (two_le_roomAt.mpr hcell)
    have hsize : 126 < sizeOf bytes := by
      by_contra hle
      exact hnot ⟨Nat.not_lt.mp hle, hcell⟩
    by_cases hlen : 2 ≤ bytes.length
    · have hrun : Parser.uint 16 2 bytes
          = some (BitVec.ofNat 16 (natBE (bytes.take 2)), bytes.drop 2) := by
        show (Parser.take 2 bytes).bind _ = _
        rw [Parser.take, if_pos hlen]
        rfl
      obtain ⟨⟨v, s⟩, hread, hv, -⟩ := hload.of_some hrun
      obtain rfl : v = BitVec.ofNat 16 (natBE (bytes.take 2)) := hv
      rw [hread, except_ok_bind]
      dsimp only
      rw [toNat_sizeOf]
      generalize hcopy : readAndStoreLargeData s (sizeOf bytes * 8) = copy
      obtain ⟨cell, s'⟩ := copy
      cases cell with
      | nil => exact ⟨_, rfl⟩
      | cons first rest =>
        have hfull : first.length = MAX_BITS :=
          readAndStoreLargeData_first (show MAX_BITS ≤ sizeOf bytes * 8 by rw [MAX_BITS]; omega)
            (congrArg Prod.fst hcopy)
        have hoverflow : leafHash keccak256 ⟨first, rest⟩ = .error .cellOverflow :=
          leafHash_overflow hfull
        refine ⟨.cellOverflow, ?_⟩
        show (readAndVerifyProof keccak256 root ⟨first, rest⟩ s' >>= _) = _
        rw [readAndVerifyProof, hoverflow]
        rfl
    · have hrun : Parser.uint 16 2 bytes = none := by
        show (Parser.take 2 bytes).bind _ = _
        rw [Parser.take, if_neg hlen]
        rfl
      obtain ⟨e, hread⟩ := hload.of_none hrun
      exact ⟨e, by rw [hread]; rfl⟩
  · have hroom : roomAt p afterByte < 2 := by
      by_contra hle
      exact hcell (two_le_roomAt.mp (Nat.not_lt.mp hle))
    exact ⟨_, by rw [h.load_short (w := 16) (k := 2) rfl hroom]; rfl⟩

/-! ## All updates -/

/-- **The loop**, where all updates are readable. -/
theorem parseUpdates_agree {q : Query} {root : BitVec 160} {n p : ℕ} {afterByte : Bool}
    {bytes : Bytes} {s : ParseState} (h : Laid s.cs bytes (roomAt p afterByte))
    (hread : Readable n p afterByte bytes) :
    Agree (fun s' r => s'.read = s.read ++ r.1.map .of ∧ ∃ c, Laid s'.cs r.2 c)
      (parseUpdates keccak256 q root n s)
      (Parser.elements (Strict.update keccak256 root) n bytes) := by
  induction n generalizing p afterByte bytes s with
  | zero => exact ⟨(List.append_nil _).symm, _, h⟩
  | succ n ih =>
    obtain ⟨hsize, hcell, hrest⟩ := hread
    refine (readAndVerifyMessage_agree keccak256 root h hsize hcell).parse ?_
    rintro ⟨m, cs⟩ r _ ⟨rfl, rfl, hlaid⟩
    have htail := @ih _ _ _ { s.process q (.of r) with cs, read := s.read ++ [.of r] } hlaid hrest
    refine htail.parsePure ?_
    rintro s' list rest ⟨hlist, hcs⟩
    refine ⟨?_, hcs⟩
    rw [hlist, List.append_assoc, List.singleton_append]
    rfl

/-- The loop fails where one is not. -/
theorem parseUpdates_unreadable {q : Query} {root : BitVec 160} {n p : ℕ} {afterByte : Bool}
    {bytes : Bytes} {s : ParseState} (h : Laid s.cs bytes (roomAt p afterByte))
    (hnot : ¬Readable n p afterByte bytes) :
    ∃ e, parseUpdates keccak256 q root n s = .error e := by
  induction n generalizing p afterByte bytes s with
  | zero => exact absurd trivial hnot
  | succ n ih =>
    rw [parseUpdates]
    by_cases hfirst : sizeOf bytes ≤ 126 ∧ FieldInCell p afterByte
    · have hagree := readAndVerifyMessage_agree keccak256 root h hfirst.1 hfirst.2
      cases hread : readAndVerifyMessage keccak256 s.cs root with
      | error e => exact ⟨e, rfl⟩
      | ok r =>
        obtain ⟨m, cs⟩ := r
        obtain ⟨⟨r, rest⟩, -, -, hrest, hlaid⟩ := hagree.of_ok hread
        obtain rfl : rest = bytes.drop (updateLength bytes) := hrest
        exact @ih _ _ _ { s.process q m with cs, read := s.read ++ [m] } hlaid
          fun hreadable => hnot ⟨hfirst.1, hfirst.2, hreadable⟩
    · obtain ⟨e, herror⟩ := readAndVerifyMessage_unreadable keccak256 root h hfirst
      exact ⟨e, by rw [herror]; rfl⟩

/-! ## An update -/

def trailingHeaderSizeOf (data : Bytes) : ℕ := natBE ((data.drop 6).take 1)

/-- The VAA in an update without a trailing header. -/
def vaaSizeOf (data : Bytes) : ℕ := natBE ((data.drop 8).take 2)
def vaaOf (data : Bytes) : Bytes := (data.drop 10).take (vaaSizeOf data)

def numUpdatesOf (data : Bytes) : ℕ := natBE ((data.drop (10 + vaaSizeOf data)).take 1)

/-- All size fields of an update lie in the cells of the slice. -/
def ReadableUpdate (data : Bytes) : Prop :=
  Readable (numUpdatesOf data) (11 + vaaSizeOf data) true (data.drop (11 + vaaSizeOf data))

instance (data : Bytes) : Decidable (ReadableUpdate data) :=
  inferInstanceAs (Decidable (Readable _ _ _ _))

theorem agree_updateType (updateType : BitVec 8) :
    Agree (fun _ t => t = Pyth.UpdateType.wormholeMerkle)
      (throwUnless ERROR_INVALID_UPDATE_DATA_TYPE (updateType = WORMHOLE_MERKLE_UPDATE_TYPE))
      (Pyth.UpdateType.ofUint8 updateType).toOption := by
  unfold throwUnless Pyth.UpdateType.ofUint8
  by_cases hzero : updateType = 0
  · rw [if_pos hzero, if_pos (show updateType = WORMHOLE_MERKLE_UPDATE_TYPE from hzero)]
    rfl
  · rw [if_neg hzero, if_neg (show ¬updateType = WORMHOLE_MERKLE_UPDATE_TYPE from hzero)]
    trivial

/-- A header without a trailing one, as a step. -/
theorem header_step {α β : Type} {ψ : α → β × Bytes → Prop} {cs : Slice} {data : Bytes}
    (h : Laid cs data 127) (htrailing : trailingHeaderSizeOf data = 0) {f : Slice → Result α}
    {q : Unit → Parser β}
    (hnext : ∀ s, Laid s (data.drop 8) 119 → Agree ψ (f s) (q () (data.drop 8))) :
    Agree ψ (readAndVerifyHeader cs >>= f)
      ((Strict.header >>= fun updateType =>
        Parser.assert (guard (updateType = .wormholeMerkle)) >>= q) data) := by
  simp only [readAndVerifyHeader, Strict.header, bind_assoc, pure_bind]
  refine h.stepAt (k := 4) rfl (by decide) fun _ s h => ?_
  refine (agree_throwUnless Iff.rfl).check fun _ _ _ => ?_
  refine h.stepAt (k := 1) rfl (by decide) fun _ s h => ?_
  refine (agree_throwUnless Iff.rfl).check fun _ _ _ => ?_
  refine h.stepAt (k := 1) rfl (by decide) fun _ s h => ?_
  refine (agree_throwUnless ?_).check fun _ _ _ => ?_
  · exact iff_of_true (Nat.not_lt_zero _) (Nat.zero_le _)
  refine h.stepAt (k := 1) rfl (by decide) fun _ s h => ?_
  have hzero : (BitVec.ofNat 8 (natBE ((((data.drop 4).drop 1).drop 1).take 1))).toNat = 0 := by
    rw [List.drop_drop, List.drop_drop]
    show (BitVec.ofNat 8 (trailingHeaderSizeOf data)).toNat = 0
    rw [htrailing]
    rfl
  dsimp only
  rw [hzero]
  rw [show skipBits (0 * 8) s = .ok ((), s) from if_pos (Nat.zero_le _), except_ok_bind,
    skip_bind_run, if_pos (Nat.zero_le _), List.drop_zero]
  dsimp only
  refine h.stepAt (k := 1) rfl (by decide) fun _ s h => ?_
  rw [List.drop_drop, List.drop_drop, List.drop_drop, List.drop_drop] at h ⊢
  refine (agree_updateType _).check ?_
  rintro _ _ rfl
  exact hnext s h

section

variable {keccak256 : Bytes → Bytes32}
  {checkSig : Bytes32 → BitVec 8 → Bytes32 → Bytes32 → Option (Bytes32 × Bytes32)}
  {cellHash : Bits → Bytes32} {getComputeFee : ℕ → ℕ → ℕ} {storage : PythStorage}
  {now : BitVec 32} {msgValue : ℕ} {data : Bytes} {cs : Slice} {root : BitVec 160}

/-- The VAA of the update is accepted, it carries this root, and the fee is paid. -/
structure Accepted (keccak256 : Bytes → Bytes32)
    (checkSig : Bytes32 → BitVec 8 → Bytes32 → Bytes32 → Option (Bytes32 × Bytes32))
    (cellHash : Bits → Bytes32) (getComputeFee : ℕ → ℕ → ℕ) (storage : PythStorage)
    (now : BitVec 32) (msgValue : ℕ) (data : Bytes) (root : BitVec 160) : Prop where
  trailing : trailingHeaderSizeOf data = 0
  root : verifiedRoot keccak256 checkSig cellHash storage now (createCellChain (vaaOf data))
    = .ok root
  fees : calculateAndValidateFees getComputeFee storage msgValue (numUpdatesOf data) = .ok ()

/-- Up to the loop, the contract and the grammar read the same. -/
theorem parseUpdateData_step {β : Type} {ψ : ParseState → β × Bytes → Prop}
    (h : Accepted keccak256 checkSig cellHash getComputeFee storage now msgValue data root)
    (hcs : Laid cs data 127) {query : Query} {q : BitVec 8 → Parser β}
    (hnext : ∀ s,
      Laid s (data.drop (11 + vaaSizeOf data)) (roomAt (11 + vaaSizeOf data) true) →
      Agree ψ (do
          let s ← parseUpdates keccak256 query root (numUpdatesOf data) { cs := s }
          throwIf ERROR_INVALID_UPDATE_DATA_LENGTH (¬s.cs.IsEmpty)
          return s)
        (q (BitVec.ofNat 8 (numUpdatesOf data)) (data.drop (11 + vaaSizeOf data)))) :
    Agree ψ (parseUpdateData keccak256 checkSig cellHash getComputeFee storage now msgValue cs query)
      ((updateHeader >>= q) data) := by
  have hcount : (BitVec.ofNat 8 (numUpdatesOf data)).toNat = numUpdatesOf data := by
    rw [BitVec.toNat_ofNat]
    exact Nat.mod_eq_of_lt (natBE_take_lt 1 _)
  have hvaa : 0 < vaaSizeOf data := by
    refine Nat.pos_of_ne_zero fun hzero => ?_
    have hroot := h.root
    rw [vaaOf, hzero, List.take_zero] at hroot
    cases hroot
  unfold parseUpdateData updateHeader
  simp only [bind_assoc]
  refine header_step hcs h.trailing fun s hs => ?_
  refine hs.stepAt (k := 2) rfl (by decide) fun _ s hs => ?_
  have hsize : (BitVec.ofNat 16 (natBE ((data.drop 8).take 2))).toNat = vaaSizeOf data :=
    toNat_sizeOf _
  rw [List.drop_drop] at hs ⊢
  dsimp only
  rw [hsize, Nat.mul_comm, skip_bind_run]
  by_cases hle : vaaSizeOf data ≤ (data.drop 10).length
  · obtain ⟨hcopy, hs'⟩ := hs.large (by decide) hvaa hle
    generalize readAndStoreLargeData s (8 * vaaSizeOf data) = read at hcopy hs'
    obtain ⟨cell, s'⟩ := read
    obtain rfl : cell = createCellChain (vaaOf data) := hcopy
    have hroom : roomAfter (119 - 2) (vaaSizeOf data) = roomAt (10 + vaaSizeOf data) false :=
      roomAfter_roomAt 10 (vaaSizeOf data) false
    have hpos : 1 ≤ roomAt (10 + vaaSizeOf data) false := by
      rw [roomAt_false]
      omega
    have hoffset : 10 + vaaSizeOf data + 1 = 11 + vaaSizeOf data := by omega
    rw [hroom, List.drop_drop] at hs'
    rw [if_pos hle, List.drop_drop]
    refine hs'.stepAt (k := 1) rfl hpos fun _ s'' hs'' => ?_
    rw [roomAt_sub_one, List.drop_drop, hoffset] at hs''
    rw [List.drop_drop, hoffset]
    dsimp only
    rw [show (BitVec.ofNat (8 * 1) (natBE ((data.drop (8 + 2 + vaaSizeOf data)).take 1))).toNat
      = numUpdatesOf data from hcount, h.fees, except_ok_bind, h.root, except_ok_bind]
    exact hnext s'' hs''
  · -- nothing is left for the number of updates
    rw [if_neg hle]
    have hrest : (readAndStoreLargeData s (8 * vaaSizeOf data)).2.all = [] := by
      have hlen : (data.drop (8 + 2)).length < vaaSizeOf data := Nat.not_le.mp hle
      rw [all_readAndStoreLargeData, hs.all, List.drop_eq_nil_iff, length_bitsOf]
      omega
    generalize readAndStoreLargeData s (8 * vaaSizeOf data) = read at hrest
    obtain ⟨cell, s'⟩ := read
    have hload : loadInt 8 s' = .error .cellUnderflow := by
      have hbits : s'.bits = [] := (Slice.all_eq_nil.mp hrest).1
      rw [loadInt, hbits]
      rfl
    dsimp only
    rw [hload]
    exact .fails rfl

/-- The updates, behind which the data ends. -/
def updatesAtEnd (keccak256 : Bytes → Bytes32) (root : BitVec 160) (numUpdates : BitVec 8) :
    Parser (List PriceFeedMessage) := fun bytes =>
  (Parser.elements (Strict.update keccak256 root) numUpdates.toNat bytes).bind fun r =>
    if r.2 = [] then some (r.1.map .of, []) else none

theorem grammar_parseAll {messages : List PriceFeedMessage} :
    (grammar keccak256 root).parseAll data = some messages ↔
      (updateHeader >>= updatesAtEnd keccak256 root) data = some (messages, []) := by
  rw [Parser.parseAll_eq_some, grammar, Parser.bind_run_eq_some, Parser.bind_run_eq_some]
  refine exists_congr fun numUpdates => exists_congr fun mid => and_congr_right fun _ => ?_
  rw [updatesAtEnd, Parser.bind_run]
  cases Parser.elements (Strict.update keccak256 root) numUpdates.toNat mid with
  | none => exact iff_of_false nofun nofun
  | some r =>
    obtain ⟨list, rest⟩ := r
    show some (list.map PriceFeedMessage.of, rest) = _ ↔
      (if rest = [] then some (list.map PriceFeedMessage.of, []) else none) = _
    split
    · next hend => rw [hend]
    · next hmore => exact iff_of_false (fun h => hmore (congrArg Prod.snd (Option.some.inj h))) nofun

theorem parseUpdateData_agree
    (h : Accepted keccak256 checkSig cellHash getComputeFee storage now msgValue data root)
    (hcs : Laid cs data 127) (query : Query) (hreadable : ReadableUpdate data) :
    Agree (fun s r => s.read = r.1 ∧ r.2 = [])
      (parseUpdateData keccak256 checkSig cellHash getComputeFee storage now msgValue cs query)
      ((updateHeader >>= updatesAtEnd keccak256 root) data) := by
  have hcount : (BitVec.ofNat 8 (numUpdatesOf data)).toNat = numUpdatesOf data := by
    rw [BitVec.toNat_ofNat]
    exact Nat.mod_eq_of_lt (natBE_take_lt 1 _)
  refine parseUpdateData_step h hcs fun s hs => ?_
  rw [updatesAtEnd, hcount]
  refine (parseUpdates_agree (s := { cs := s }) hs hreadable).bind ?_
  rintro s' ⟨list, rest⟩ ⟨hlist, c, hlaid⟩
  dsimp only at hlaid ⊢
  rw [throwIf, throwUnless]
  by_cases hend : rest = []
  · rw [if_pos (not_not.mpr (hlaid.isEmpty_iff.mpr hend)), if_pos hend]
    exact .returns ⟨hlist, rfl⟩
  · rw [if_neg (not_not.mpr fun hempty => hend (hlaid.isEmpty_iff.mp hempty)), if_neg hend]
    exact .fails rfl

/-- An update that is not readable is refused. -/
theorem parseUpdateData_unreadable
    (h : Accepted keccak256 checkSig cellHash getComputeFee storage now msgValue data root)
    (hcs : Laid cs data 127) (query : Query) (hnot : ¬ReadableUpdate data) :
    ∃ e, parseUpdateData keccak256 checkSig cellHash getComputeFee storage now msgValue cs query
      = .error e := by
  have hagree : Agree (fun _ _ => True)
      (parseUpdateData keccak256 checkSig cellHash getComputeFee storage now msgValue cs query)
      ((updateHeader >>= fun _ => (Parser.assert none : Parser Unit)) data) := by
    refine parseUpdateData_step h hcs fun s hs => ?_
    obtain ⟨e, herror⟩ := parseUpdates_unreadable (s := { cs := s }) hs hnot
    rw [herror]
    exact .fails rfl
  refine hagree.of_none (Option.eq_none_iff_forall_ne_some.mpr fun r hr => ?_)
  obtain ⟨_, _, _, hfail⟩ := Parser.bind_run_eq_some.mp hr
  cases hfail

/-! ## The result -/

/-- The call returns, and these are the messages that it has read. -/
def ReadsMessages (keccak256 : Bytes → Bytes32)
    (checkSig : Bytes32 → BitVec 8 → Bytes32 → Bytes32 → Option (Bytes32 × Bytes32))
    (cellHash : Bits → Bytes32) (getComputeFee : ℕ → ℕ → ℕ) (storage : PythStorage)
    (now : BitVec 32) (msgValue : ℕ) (cs : Slice) (query : Query)
    (messages : List PriceFeedMessage) : Prop :=
  ∃ s feeds,
    parseUpdateData keccak256 checkSig cellHash getComputeFee storage now msgValue cs query = .ok s ∧
    s.read = messages ∧
    parsePriceFeedsFromData keccak256 checkSig cellHash getComputeFee storage now msgValue cs query
      = .ok feeds

theorem readsMessages_iff (query : Query) (hquery : query.priceIds = [])
    {messages : List PriceFeedMessage} :
    ReadsMessages keccak256 checkSig cellHash getComputeFee storage now msgValue cs query messages ↔
      ∃ s, parseUpdateData keccak256 checkSig cellHash getComputeFee storage now msgValue cs query
        = .ok s ∧ s.read = messages := by
  constructor
  · rintro ⟨s, _, hs, hread, _⟩
    exact ⟨s, hs, hread⟩
  · rintro ⟨s, hs, hread⟩
    refine ⟨s, s.priceFeeds, hs, hread, ?_⟩
    have hfound : ∀ id ∈ query.priceIds, id ∈ s.foundPriceIds := by
      rw [hquery]
      exact fun _ => nofun
    rw [parsePriceFeedsFromData, hs, except_ok_bind, throwUnless, if_pos hfound]
    rfl

/-- **Updates in cells.** The contract reads the messages of the EVM grammar, and throws where the
grammar rejects the update, exactly when the grammar rejects it or it is readable. -/
theorem update_cells_agree (keccak256 : Bytes → Bytes32)
    (checkSig : Bytes32 → BitVec 8 → Bytes32 → Bytes32 → Option (Bytes32 × Bytes32))
    (cellHash : Bits → Bytes32) (getComputeFee : ℕ → ℕ → ℕ) (storage : PythStorage)
    (now : BitVec 32) (msgValue : ℕ) (data : Bytes) (root : BitVec 160) (cs : Slice)
    (hcs : beginParse (createCellChain data) = .ok cs)
    (h : Accepted keccak256 checkSig cellHash getComputeFee storage now msgValue data root)
    (minPublishTime maxPublishTime : ℕ) (unique : Bool) :
    (∀ messages,
      ReadsMessages keccak256 checkSig cellHash getComputeFee storage now msgValue cs
          (allFeeds minPublishTime maxPublishTime unique) messages ↔
        (grammar keccak256 root).parseAll data = some messages) ↔
      (grammar keccak256 root).parseAll data = none ∨ ReadableUpdate data := by
  have hlaid : Laid cs data 127 := laid_beginParse (createCellChain_packed data) hcs
  simp only [readsMessages_iff (allFeeds minPublishTime maxPublishTime unique) rfl]
  constructor
  · intro hagree
    cases hparse : (grammar keccak256 root).parseAll data with
    | none => exact .inl rfl
    | some messages =>
      refine .inr (by_contra fun hnot => ?_)
      obtain ⟨s, hs, -⟩ := (hagree messages).mpr hparse
      obtain ⟨e, herror⟩ := parseUpdateData_unreadable h hlaid
        (allFeeds minPublishTime maxPublishTime unique) hnot
      rw [herror] at hs
      cases hs
  · intro hcase messages
    by_cases hreadable : ReadableUpdate data
    · have hagree := parseUpdateData_agree h hlaid
        (allFeeds minPublishTime maxPublishTime unique) hreadable
      rw [grammar_parseAll]
      constructor
      · rintro ⟨s, hs, rfl⟩
        obtain ⟨⟨list, rest⟩, hparse, rfl, rfl⟩ := hagree.of_ok hs
        exact hparse
      · intro hparse
        obtain ⟨s, hs, hread, -⟩ := hagree.of_some hparse
        exact ⟨s, hs, hread⟩
    · obtain ⟨e, herror⟩ := parseUpdateData_unreadable h hlaid
        (allFeeds minPublishTime maxPublishTime unique) hreadable
      rw [hcase.resolve_right hreadable]
      refine iff_of_false ?_ nofun
      rintro ⟨s, hs, -⟩
      rw [herror] at hs
      cases hs

end

/-! ### Two updates with one message -/

def exEmitter : Bytes32 := 0xe101faedac5851e32b9b23b5f9411a8c2bac4aae3ed4dd7b811dd1a72ea4aa71

def exFields : PriceFeedMessage where
  priceId := 0xe62df6c8b4a85fe1a67db44dc12de5db330f7ac66b72dc658afedf0f4a415b43
  price := 6500000000000
  conf := 3000000000
  expo := -8
  publishTime := 1700000001
  prevPublishTime := 1700000000
  emaPrice := 6490000000000
  emaConf := 2500000000

def exMessage : Bytes :=
  [0] ++ packed 32 exFields.priceId ++ packed 8 exFields.price ++ packed 8 exFields.conf
    ++ packed 4 exFields.expo ++ packed 8 exFields.publishTime ++ packed 8 exFields.prevPublishTime
    ++ packed 8 exFields.emaPrice ++ packed 8 exFields.emaConf

/-- Keccak-256 of the leaf. The root is the leaf hash. -/
def exLeafHash : Bytes32 := 0x3eee56eaec473aa1cbddeb7af64b114eab977f7fca849eb12a2f39ac7858b27e
def exRoot : BitVec 160 := 0x3eee56eaec473aa1cbddeb7af64b114eab977f7f

/-- The body of a VAA whose payload goes on for `pad` bytes. -/
def exBody (pad : ℕ) : Bytes :=
  bytesBE 4 1700000001 ++ bytesBE 4 0 ++ bytesBE 2 26 ++ wordBytes exEmitter ++ bytesBE 8 5 ++ [1]
    ++ bytesBE 4 0x41555756 ++ [0] ++ bytesBE 8 100 ++ bytesBE 4 10000 ++ packed 20 exRoot
    ++ List.replicate pad 0

/-- The hash that a guardian signs, and its hash. -/
def exHashes (pad : ℕ) : Bytes32 × Bytes32 :=
  if pad = 0 then
    (0xee3a19b28e8440c91fb840ce46b943a550c8c01ad50e8741eabee9b39670a0d3,
      0xa05f302cdb7951cbce545241695889a1b3284fe440239c0cf00f682916b8b1b3)
  else
    (0x2fdcd15ee7f169121b52913c8810971f6933910d168f610a1874600e3cd83338,
      0x06bc19a3068546dec5fe3f484103d4884aba92f40cff33a589d630c9321c726e)

/-- The two halves of the signature. -/
def exSignature (pad : ℕ) : Bytes32 × Bytes32 :=
  if pad = 0 then
    (0x688b6d4fcfdc97512ca3668934bbdabdbe33530898c65a801ecfe130386d06ce,
      0x4005f7abc093ae7c795473ea900d783860908c3e1df0f177e688fb996578e5bf)
  else
    (0x7a96811919590ac4f74b09698a35cc168244c1aaa354d5d6fe61c5c532b6bb4f,
      0x1391f17452fdb2fb29000535ae882b9b4e16edecb3dd48cffb97b8775c6277f0)

/-- The public key of the guardian. -/
def exPubkey : Bytes32 × Bytes32 :=
  (0xbb50e2d89a4ed70663d080659fe0ad4b9bc3e06c17a227433966cb59ceee020d,
    0xecddbf6e00192011648d13b1c00af770c0c1bb609d4d3a5c98a43772e0e18ef4)

/-- Keccak-256 of the strings of the two updates. -/
def exUpdateKeccak (s : Bytes) : Bytes32 :=
  if s = 0 :: exMessage then exLeafHash
  else if s = exBody 0 then (exHashes 0).1
  else if s = exBody 82 then (exHashes 82).1
  else if s = wordBytes (exHashes 0).1 then (exHashes 0).2
  else if s = wordBytes (exHashes 82).1 then (exHashes 82).2
  else if s = wordBytes exPubkey.1 ++ wordBytes exPubkey.2 then
    0xb7a54dc78a45f25cc8f54a981be31a94361a391bbafb2a4ccd704f57dc04d4bb
  else 0

/-- The key is recovered from the two signatures. -/
def exUpdateCheckSig (hash : Bytes32) (v : BitVec 8) (r s : Bytes32) : Option (Bytes32 × Bytes32) :=
  if v = 1 ∧ (hash = (exHashes 0).2 ∧ (r, s) = exSignature 0 ∨
      hash = (exHashes 82).2 ∧ (r, s) = exSignature 82) then some exPubkey
  else none

/-- The hash of the cell of the data source. -/
def exCellHash (_ : Bits) : Bytes32 := 0x445be6d729bc5514130b8e1612dc502e7d231b92292c3ab323188c5fd121226c

def exComputeFee (_ gas : ℕ) : ℕ := 400 * gas

def exPythStorage : PythStorage where
  wormhole := {
    currentGuardianSetIndex := 0
    guardianSets i :=
      if i = 0 then some ⟨0, [0x1be31a94361a391bbafb2a4ccd704f57dc04d4bb], by decide⟩ else none
    chainId := 1
    governanceChainId := 1
    governanceContract := 4
    consumedGovernanceActions _ := false }
  singleUpdateFee := 1
  isValidDataSource hash := if hash = exCellHash [] then some true else none
  latestPriceFeeds _ := none

/-- An update with one message and no siblings. -/
def exUpdate (pad : ℕ) : Bytes :=
  bytesBE 4 0x504e4155 ++ [1, 0, 0, 0] ++ bytesBE 2 (160 + pad)
    ++ ([1] ++ bytesBE 4 0 ++ [1] ++ [0] ++ wordBytes (exSignature pad).1
      ++ wordBytes (exSignature pad).2 ++ [1] ++ exBody pad)
    ++ [1] ++ bytesBE 2 85 ++ exMessage ++ [0]

abbrev ExAccepted (pad : ℕ) : Prop :=
  Accepted exUpdateKeccak exUpdateCheckSig exCellHash exComputeFee exPythStorage 1700000002
    1000000000 (exUpdate pad) exRoot

theorem exUpdate_accepted : ExAccepted 0 :=
  ⟨by decide +kernel, except_toOption_eq_some.mp (by decide +kernel), by decide +kernel⟩

theorem exUpdate_padded_accepted : ExAccepted 82 :=
  ⟨by decide +kernel, except_toOption_eq_some.mp (by decide +kernel), by decide +kernel⟩

/-- The slice of an update. -/
def exUpdateSlice (pad : ℕ) : Slice :=
  ⟨bitsOf ((exUpdate pad).take 127), createCellChain ((exUpdate pad).drop 127)⟩

theorem update_cells_agree_example :
    ReadsMessages exUpdateKeccak exUpdateCheckSig exCellHash exComputeFee exPythStorage 1700000002
      1000000000 (exUpdateSlice 0) (allFeeds 0 0 false) [exFields] :=
  ((update_cells_agree exUpdateKeccak exUpdateCheckSig exCellHash exComputeFee exPythStorage
    1700000002 1000000000 (exUpdate 0) exRoot (exUpdateSlice 0) (by decide +kernel)
    exUpdate_accepted 0 0 false).mpr (.inr (by decide +kernel)) [exFields]).mpr (by decide +kernel)

/-- With 82 bytes more in the VAA, the size of the message lies in two cells. -/
theorem update_cells_agree_fail :
    ExAccepted 82 ∧ beginParse (createCellChain (exUpdate 82)) = .ok (exUpdateSlice 82) ∧
    (grammar exUpdateKeccak exRoot).parseAll (exUpdate 82) = some [exFields] ∧
    ∀ messages, ¬ReadsMessages exUpdateKeccak exUpdateCheckSig exCellHash exComputeFee exPythStorage
      1700000002 1000000000 (exUpdateSlice 82) (allFeeds 0 0 false) messages := by
  have hslice : beginParse (createCellChain (exUpdate 82)) = .ok (exUpdateSlice 82) := by
    decide +kernel
  refine ⟨exUpdate_padded_accepted, hslice, by decide +kernel, fun messages h => ?_⟩
  obtain ⟨s, hs, -⟩ := (readsMessages_iff _ rfl).mp h
  obtain ⟨e, herror⟩ := parseUpdateData_unreadable exUpdate_padded_accepted
    (laid_beginParse (createCellChain_packed _) hslice) (allFeeds 0 0 false)
    (show ¬ReadableUpdate (exUpdate 82) by decide +kernel)
  rw [herror] at hs
  cases hs

end PythCrosschain.Ton
