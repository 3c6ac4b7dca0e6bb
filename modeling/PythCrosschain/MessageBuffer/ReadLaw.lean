import PythCrosschain.MessageBuffer.Buffer
import Mathlib.Order.Bounds.Basic
import Mathlib.Tactic.Linarith

/-!
# Message buffer: writing and reading back

The reader of the format takes the end offsets up to the first that is zero and slices the
body between them (`read`). What `put_all` writes is the longest prefix of the messages
that fits (`Fits`, `putAllFrom_spec`).

Zero also is the end offset of an empty message with nothing before it. So the reader finds
the messages exactly when the first of them is not empty:

- `Call.exec_wellFormed`: the end offsets of every buffer are sorted up to the last used one,
  zero after it, and inside the account;
- `readsBack_iff`: the law of one write to a buffer.
-/

set_option linter.dupNamespace false

namespace PythCrosschain.MessageBuffer

open Solana

/-! ## The header in the data of an account -/

section Header

open MessageBuffer

/-- A field of two bytes between others. -/
theorem u16At_append (front back : Bytes) (x : U16) :
    u16At (front ++ (bytesLE 2 x.toNat ++ back)) front.length = x := by
  have hx : x.toNat < 256 ^ 2 := x.isLt
  rw [u16At, List.drop_left, List.take_left' (length_bytesLE 2 _), natLE_bytesLE,
    Nat.mod_eq_of_lt hx, BitVec.ofNat_toNat, BitVec.setWidth_eq]

theorem length_u16s (xs : List U16) :
    (xs.flatMap fun x => bytesLE 2 x.toNat).length = 2 * xs.length := by
  induction xs with
  | nil => rfl
  | cons x xs ih =>
    rw [List.flatMap_cons, List.length_append, ih, length_bytesLE, List.length_cons]
    ring

/-- One of a list of fields of two bytes. -/
theorem u16At_u16s (front back : Bytes) {xs : List U16} {i : Nat} (hi : i < xs.length) :
    u16At (front ++ ((xs.flatMap fun x => bytesLE 2 x.toNat) ++ back)) (front.length + 2 * i) =
      xs[i] := by
  have hlen : (front ++ (xs.take i).flatMap fun x => bytesLE 2 x.toNat).length =
      front.length + 2 * i := by
    rw [List.length_append, length_u16s, List.length_take, Nat.min_eq_left hi.le]
  have hsplit : front ++ ((xs.flatMap fun x => bytesLE 2 x.toNat) ++ back) =
      (front ++ (xs.take i).flatMap fun x => bytesLE 2 x.toNat) ++ (bytesLE 2 xs[i].toNat ++
        (((xs.drop (i + 1)).flatMap fun x => bytesLE 2 x.toNat) ++ back)) := by
    conv_lhs => rw [← List.take_append_drop i xs, List.drop_eq_getElem_cons hi]
    simp only [List.flatMap_append, List.flatMap_cons, List.append_assoc]
  rw [hsplit, ← hlen]
  exact u16At_append _ _ _

theorem MessageBuffer.length_toBytes (self : MessageBuffer) : self.toBytes.length = 514 := by
  rw [toBytes, List.length_append, List.length_cons, List.length_cons, length_bytesLE,
    length_u16s, Vector.length_toList]

/-- What `bytemuck` reads is what was written. -/
theorem ofBytes_data (account : BufferAccount) : ofBytes account.data = account.header := by
  obtain ⟨⟨bump, version, headerLen, endOffsets⟩, body⟩ := account
  have hdata : BufferAccount.data ⟨⟨bump, version, headerLen, endOffsets⟩, body⟩ =
      (DISCRIMINATOR ++ [bump, version]) ++ (bytesLE 2 headerLen.toNat ++
        ((endOffsets.toList.flatMap fun offset => bytesLE 2 offset.toNat) ++ body)) := by
    simp only [BufferAccount.data, toBytes, List.append_assoc, List.cons_append, List.nil_append]
  have hlen : u16At (BufferAccount.data ⟨⟨bump, version, headerLen, endOffsets⟩, body⟩) 10 =
      headerLen := by
    rw [hdata]
    exact u16At_append _ _ _
  have hoffset (i : Fin 255) :
      u16At (BufferAccount.data ⟨⟨bump, version, headerLen, endOffsets⟩, body⟩) (12 + 2 * i) =
        endOffsets[i] := by
    have hi : (i : Nat) < endOffsets.toList.length := by
      rw [Vector.length_toList]
      exact i.isLt
    have hfront : (DISCRIMINATOR ++ [bump, version] ++ bytesLE 2 headerLen.toNat).length = 12 := by
      rw [List.length_append, length_bytesLE]
      rfl
    rw [hdata, ← List.append_assoc, ← hfront, u16At_u16s _ _ hi, Vector.getElem_toList]
    rfl
  have hoffsets : (Vector.ofFn fun i : Fin 255 =>
      u16At (BufferAccount.data ⟨⟨bump, version, headerLen, endOffsets⟩, body⟩) (12 + 2 * i)) =
        endOffsets :=
    Vector.ext fun i hi => by
      rw [Vector.getElem_ofFn, hoffset ⟨i, hi⟩]
      rfl
  rw [ofBytes, hlen, hoffsets]
  rfl

/-- The body starts at `HEADER_LEN`. -/
theorem length_header (header : MessageBuffer) :
    (DISCRIMINATOR ++ header.toBytes).length = HEADER_LEN := by
  rw [List.length_append, header.length_toBytes]
  rfl

end Header

/-! ## What fits -/

/-- With `i` messages of `offset` bytes before them, the first `k` messages can be written to
a body of `size` bytes. -/
structure FitsFrom (i offset size : Nat) (messages : List Bytes) (k : Nat) : Prop where
  count : i + k ≤ 255
  length : k ≤ messages.length
  u16 : ∀ m ∈ messages.take k, m.length < 2 ^ 16
  room : offset + (messages.take k).flatten.length ≤ size
  total : offset + (messages.take k).flatten.length < 2 ^ 16

/-- The first `k` messages can be written to a body of `size` bytes. -/
abbrev Fits (size : Nat) (messages : List Bytes) (k : Nat) : Prop := FitsFrom 0 0 size messages k

section Fits

variable {i offset size k : Nat} {m : Bytes} {messages : List Bytes}

theorem fitsFrom_zero :
    FitsFrom i offset size messages 0 ↔ i ≤ 255 ∧ offset ≤ size ∧ offset < 2 ^ 16 := by
  constructor
  · rintro ⟨hcount, -, -, hroom, htotal⟩
    exact ⟨hcount, hroom, htotal⟩
  · rintro ⟨hi, hroom, htotal⟩
    exact ⟨hi, Nat.zero_le _, by simp, hroom, htotal⟩

theorem fitsFrom_succ :
    FitsFrom i offset size (m :: messages) (k + 1) ↔
      m.length < 2 ^ 16 ∧ FitsFrom (i + 1) (offset + m.length) size messages k := by
  constructor
  · rintro ⟨hcount, hlen, hu16, hroom, htotal⟩
    rw [List.take_succ_cons] at hu16 hroom htotal
    rw [List.flatten_cons, List.length_append, ← Nat.add_assoc] at hroom htotal
    refine ⟨hu16 m List.mem_cons_self, ⟨by omega, Nat.le_of_succ_le_succ hlen, ?_, hroom, htotal⟩⟩
    exact fun m' hm' => hu16 m' (List.mem_cons_of_mem m hm')
  · rintro ⟨hm, hcount, hlen, hu16, hroom, htotal⟩
    have hsum : offset + ((m :: messages).take (k + 1)).flatten.length =
        offset + m.length + (messages.take k).flatten.length := by
      rw [List.take_succ_cons, List.flatten_cons, List.length_append, Nat.add_assoc]
    refine ⟨by omega, Nat.succ_le_succ hlen, ?_, hsum ▸ hroom, hsum ▸ htotal⟩
    rw [List.take_succ_cons]
    exact List.forall_mem_cons.mpr ⟨hm, hu16⟩

/-- Where more messages fit, fewer do. -/
theorem FitsFrom.start (h : FitsFrom i offset size messages k) :
    FitsFrom i offset size messages 0 :=
  fitsFrom_zero.mpr ⟨by have := h.count; omega, by have := h.room; omega,
    by have := h.total; omega⟩

/-- Where the first message does not fit, none does. -/
theorem isGreatest_zero (hstart : FitsFrom i offset size (m :: messages) 0)
    (hstop : ¬(i < 255 ∧ m.length < 2 ^ 16 ∧ offset + m.length < 2 ^ 16 ∧
      offset + m.length ≤ size)) :
    IsGreatest {k | FitsFrom i offset size (m :: messages) k} 0 := by
  refine ⟨hstart, fun k hk => ?_⟩
  cases k with
  | zero => exact Nat.le_refl 0
  | succ k =>
    obtain ⟨hm, hrest⟩ := fitsFrom_succ.mp hk
    obtain ⟨hi, hroom, htotal⟩ := fitsFrom_zero.mp hrest.start
    exact absurd ⟨hi, hm, htotal, hroom⟩ hstop

/-- One message more than what fits after it. -/
theorem isGreatest_succ (hm : m.length < 2 ^ 16)
    (h : IsGreatest {k | FitsFrom (i + 1) (offset + m.length) size messages k} k) :
    IsGreatest {k | FitsFrom i offset size (m :: messages) k} (k + 1) := by
  refine ⟨fitsFrom_succ.mpr ⟨hm, h.1⟩, fun k' hk' => ?_⟩
  cases k' with
  | zero => exact Nat.zero_le _
  | succ k' => exact Nat.succ_le_succ (h.2 (fitsFrom_succ.mp hk').2)

end Fits

/-! ## The loop -/

/-- The end offsets of messages, the first of which starts at `offset`. -/
def endsFrom (offset : Nat) : List Bytes → List Nat
  | [] => []
  | m :: messages => (offset + m.length) :: endsFrom (offset + m.length) messages

@[simp] theorem length_endsFrom (offset : Nat) (messages : List Bytes) :
    (endsFrom offset messages).length = messages.length := by
  induction messages generalizing offset with
  | nil => rfl
  | cons m messages ih => rw [endsFrom, List.length_cons, List.length_cons, ih]

theorem le_of_mem_endsFrom {offset e : Nat} {messages : List Bytes}
    (h : e ∈ endsFrom offset messages) :
    offset ≤ e ∧ e ≤ offset + messages.flatten.length := by
  induction messages generalizing offset with
  | nil => exact absurd h List.not_mem_nil
  | cons m messages ih =>
    rw [List.flatten_cons, List.length_append]
    cases List.mem_cons.mp h with
    | inl heq => omega
    | inr hmem =>
      obtain ⟨hge, hle⟩ := ih hmem
      omega

theorem sorted_endsFrom (offset : Nat) (messages : List Bytes) :
    (endsFrom offset messages).Pairwise (· ≤ ·) := by
  induction messages generalizing offset with
  | nil => exact List.Pairwise.nil
  | cons m messages ih => exact List.pairwise_cons.mpr ⟨fun _ h => (le_of_mem_endsFrom h).1, ih _⟩

theorem length_copyFromSlice {destination v : Bytes} {start : Nat}
    (h : start + v.length ≤ destination.length) :
    (MessageBuffer.copyFromSlice destination start v).length = destination.length := by
  simp only [MessageBuffer.copyFromSlice, List.length_append, List.length_take, List.length_drop]
  omega

/-- The next end offset. -/
theorem set_offset {pre : List U16} {endOffsets : Vector U16 255} {i : Nat} (hi : i < 255)
    (hlen : pre.length = i) (h : endOffsets.toList = pre ++ List.replicate (255 - i) 0) (x : U16) :
    (endOffsets.set i x).toList = (pre ++ [x]) ++ List.replicate (255 - (i + 1)) 0 := by
  subst hlen
  have hzeros : 255 - pre.length = 255 - (pre.length + 1) + 1 := by omega
  rw [Vector.toList_set, h, hzeros, List.replicate_succ, List.set_append_right _ _ (Nat.le_refl _),
    Nat.sub_self, List.set_cons_zero, List.append_assoc]
  rfl

/-- What the loop wrote, `k` messages after the first `i`. -/
structure Wrote (header : MessageBuffer) (pre : List U16) (destination : Bytes) (i offset : Nat)
    (messages : List Bytes) (k : Nat) (result : MessageBuffer × Bytes × Nat × Nat) : Prop where
  greatest : IsGreatest {k | FitsFrom i offset destination.length messages k} k
  headerLen : result.1.headerLen = header.headerLen
  endOffsets : result.1.endOffsets.toList =
    pre ++ (endsFrom offset (messages.take k)).map (BitVec.ofNat 16) ++
      List.replicate (255 - (i + k)) 0
  body : result.2.1 = destination.take offset ++ (messages.take k).flatten ++
    destination.drop (offset + (messages.take k).flatten.length)
  numMsgs : result.2.2.1 = i + k
  numBytes : result.2.2.2 = offset + (messages.take k).flatten.length

section Loop

variable {self : MessageBuffer} {pre : List U16} {destination : Bytes} {i offset k : Nat}
  {m : Bytes} {messages : List Bytes}

theorem wrote_none (hself : self.endOffsets.toList = pre ++ List.replicate (255 - i) 0)
    (h : IsGreatest {k | FitsFrom i offset destination.length messages k} 0) :
    Wrote self pre destination i offset messages 0 (self, destination, i, offset) where
  greatest := h
  headerLen := rfl
  endOffsets := by simpa [endsFrom] using hself
  body := by simp
  numMsgs := rfl
  numBytes := by simp

/-- Copying a message that starts at `offset`, and what then follows it. -/
theorem copyFromSlice_take (hroom : offset + m.length ≤ destination.length) :
    (MessageBuffer.copyFromSlice destination offset m).take (offset + m.length) =
      destination.take offset ++ m := by
  refine List.take_left' ?_
  rw [List.length_append, List.length_take, Nat.min_eq_left (by omega)]

theorem copyFromSlice_drop (hroom : offset + m.length ≤ destination.length) (n : Nat) :
    (MessageBuffer.copyFromSlice destination offset m).drop (offset + m.length + n) =
      destination.drop (offset + m.length + n) := by
  have hlen : (destination.take offset ++ m).length = offset + m.length := by
    rw [List.length_append, List.length_take, Nat.min_eq_left (by omega)]
  rw [MessageBuffer.copyFromSlice, ← List.drop_drop, ← hlen, List.drop_left, hlen,
    List.drop_drop]

theorem wrote_succ (hm : m.length < 2 ^ 16) (hi : i < 255)
    (hroom : offset + m.length ≤ destination.length)
    {result : MessageBuffer × Bytes × Nat × Nat}
    (h : Wrote { self with
        endOffsets := self.endOffsets.set i (BitVec.ofNat 16 (offset + m.length)) }
      (pre ++ [BitVec.ofNat 16 (offset + m.length)])
      (MessageBuffer.copyFromSlice destination offset m) (i + 1) (offset + m.length) messages k
      result) :
    Wrote self pre destination i offset (m :: messages) (k + 1) result where
  greatest := isGreatest_succ hm (length_copyFromSlice hroom ▸ h.greatest)
  headerLen := h.headerLen
  endOffsets := by
    rw [h.endOffsets, List.take_succ_cons, endsFrom, List.map_cons, Nat.add_right_comm i 1 k,
      ← Nat.add_assoc i k 1]
    simp only [List.append_assoc, List.cons_append, List.nil_append]
  body := by
    rw [h.body, List.take_succ_cons, List.flatten_cons, List.length_append,
      copyFromSlice_take hroom, copyFromSlice_drop hroom, ← Nat.add_assoc, List.append_assoc _ m]
  numMsgs := by
    rw [h.numMsgs]
    omega
  numBytes := by
    rw [h.numBytes, List.take_succ_cons, List.flatten_cons, List.length_append, Nat.add_assoc]

theorem putAllFrom_cons (hi : i < 255) (hm : m.length < 2 ^ 16)
    (htotal : offset + m.length < 2 ^ 16) (hroom : offset + m.length ≤ destination.length) :
    self.putAllFrom destination i offset (m :: messages) =
      MessageBuffer.putAllFrom { self with
          endOffsets := self.endOffsets.set i (BitVec.ofNat 16 (offset + m.length)) }
        (MessageBuffer.copyFromSlice destination offset m) (i + 1) (offset + m.length)
        messages := by
  rw [MessageBuffer.putAllFrom, dif_pos hi, if_pos hm, if_pos htotal, if_pos hroom]

theorem putAllFrom_stop (hstop : ¬(i < 255 ∧ m.length < 2 ^ 16 ∧ offset + m.length < 2 ^ 16 ∧
      offset + m.length ≤ destination.length)) :
    self.putAllFrom destination i offset (m :: messages) = (self, destination, i, offset) := by
  rw [MessageBuffer.putAllFrom]
  split
  · next hi =>
    split
    · next hm =>
      dsimp only
      split
      · next htotal =>
        split
        · next hroom => exact absurd ⟨hi, hm, htotal, hroom⟩ hstop
        · rfl
      · rfl
    · rfl
  · rfl

/-- The loop writes the longest prefix of the messages that fits. -/
theorem putAllFrom_spec (hpre : pre.length = i)
    (hself : self.endOffsets.toList = pre ++ List.replicate (255 - i) 0)
    (hstart : FitsFrom i offset destination.length messages 0) :
    ∃ k, Wrote self pre destination i offset messages k
      (self.putAllFrom destination i offset messages) := by
  induction messages generalizing self pre destination i offset with
  | nil => exact ⟨0, wrote_none hself ⟨hstart, fun _ hk => hk.length⟩⟩
  | cons m messages ih =>
    by_cases hfit : i < 255 ∧ m.length < 2 ^ 16 ∧ offset + m.length < 2 ^ 16 ∧
        offset + m.length ≤ destination.length
    · obtain ⟨hi, hm, htotal, hroom⟩ := hfit
      have hrest : FitsFrom (i + 1) (offset + m.length)
          (MessageBuffer.copyFromSlice destination offset m).length messages 0 :=
        fitsFrom_zero.mpr ⟨hi, (length_copyFromSlice hroom).symm ▸ hroom, htotal⟩
      have hpre' : (pre ++ [BitVec.ofNat 16 (offset + m.length)]).length = i + 1 := by
        rw [List.length_append, hpre]
        rfl
      obtain ⟨k, hk⟩ := @ih
        { self with endOffsets := self.endOffsets.set i (BitVec.ofNat 16 (offset + m.length)) }
        _ _ _ _ hpre' (set_offset hi hpre hself _) hrest
      refine ⟨k + 1, ?_⟩
      rw [putAllFrom_cons hi hm htotal hroom]
      exact wrote_succ hm hi hroom hk
    · refine ⟨0, ?_⟩
      rw [putAllFrom_stop hfit]
      exact wrote_none hself (isGreatest_zero hstart hfit)

end Loop

/-- What a write leaves in the account, `k` messages. -/
structure BufferAccount.Written (account : BufferAccount) (messages : List Bytes) (k : Nat)
    (account' : BufferAccount) : Prop where
  greatest : IsGreatest {k | Fits account.body.length messages k} k
  headerLen : account'.header.headerLen.toNat = HEADER_LEN
  endOffsets : account'.header.endOffsets.toList =
    (endsFrom 0 (messages.take k)).map (BitVec.ofNat 16) ++ List.replicate (255 - k) 0
  body : account'.body = (messages.take k).flatten ++
    account.body.drop (messages.take k).flatten.length

theorem BufferAccount.putAll_spec (account : BufferAccount) (messages : List Bytes) :
    account.Written messages (account.putAll messages).2 (account.putAll messages).1 := by
  have hzero : account.header.refreshHeader.endOffsets.toList =
      [] ++ List.replicate (255 - 0) 0 := Vector.toList_replicate
  have hstart : FitsFrom 0 0 account.body.length messages 0 :=
    fitsFrom_zero.mpr ⟨by decide, Nat.zero_le _, by decide⟩
  obtain ⟨k, h⟩ := putAllFrom_spec rfl hzero hstart
  have hk : (account.putAll messages).2 = k := h.numMsgs.trans (Nat.zero_add k)
  rw [hk]
  refine ⟨h.greatest, ?_, ?_, ?_⟩
  · exact congrArg BitVec.toNat h.headerLen
  · refine h.endOffsets.trans ?_
    rw [List.nil_append, List.length_nil, Nat.zero_add]
  · refine h.body.trans ?_
    rw [List.take_zero, List.nil_append, Nat.zero_add]

/-! ## The reader -/

/-- The slices of the data from `start` to the end offsets, up to the first of these that is
zero. -/
def readFrom (data : Bytes) (headerLen start : Nat) : List U16 → Option (List Bytes)
  | [] => some []
  | offset :: offsets =>
    if offset = 0 then some []
    else do
      let stop := headerLen + offset.toNat
      let message ← Rust.slice data start stop
      let messages ← readFrom data headerLen stop offsets
      return message :: messages

/-- The reader of `test_cursor_read`, for the 255 end offsets. -/
def read (data : Bytes) : Option (List Bytes) :=
  let header := MessageBuffer.ofBytes data
  readFrom data header.headerLen.toNat header.headerLen.toNat header.endOffsets.toList

/-- What `put_all` writes is what the reader finds: the first messages, as many as fit. -/
def BufferAccount.ReadsBack (account : BufferAccount) (messages : List Bytes) : Prop :=
  ∃ numMsgs, IsGreatest {k | Fits account.body.length messages k} numMsgs ∧
    read (account.putAll messages).1.data = some (messages.take numMsgs)

theorem readFrom_zeros (data : Bytes) (headerLen start n : Nat) :
    readFrom data headerLen start (List.replicate n 0) = some [] := by
  cases n with
  | zero => rfl
  | succ n => rw [List.replicate_succ, readFrom, if_pos rfl]

/-- Where no end offset is zero the reader finds the messages. -/
theorem readFrom_endsFrom {front rest : Bytes} {headerLen offset : Nat} {messages : List Bytes}
    (hfront : front.length = headerLen + offset)
    (htotal : offset + messages.flatten.length < 2 ^ 16)
    (hpos : 0 < offset ∨ messages.head? ≠ some []) (n : Nat) :
    readFrom (front ++ (messages.flatten ++ rest)) headerLen (headerLen + offset)
      ((endsFrom offset messages).map (BitVec.ofNat 16) ++ List.replicate n 0) =
        some messages := by
  induction messages generalizing front offset with
  | nil => exact readFrom_zeros _ _ _ n
  | cons m messages ih =>
    rw [List.flatten_cons, List.length_append, ← Nat.add_assoc] at htotal
    have hstop : 0 < offset + m.length := by
      cases hpos with
      | inl hoffset => exact Nat.add_pos_left hoffset _
      | inr hm =>
        have hne : m ≠ [] := fun h => hm (congrArg some h)
        exact Nat.add_pos_right _ (List.length_pos_of_ne_nil hne)
    have hnat : (BitVec.ofNat 16 (offset + m.length)).toNat = offset + m.length := by
      rw [BitVec.toNat_ofNat, Nat.mod_eq_of_lt (by omega)]
    have hne : BitVec.ofNat 16 (offset + m.length) ≠ 0 := fun h => by
      rw [h] at hnat
      exact absurd hnat.symm hstop.ne'
    have hslice : Rust.slice (front ++ (m ++ messages.flatten ++ rest)) (headerLen + offset)
        (headerLen + (offset + m.length)) = some m := by
      rw [List.append_assoc, ← List.append_assoc, ← hfront, ← Nat.add_assoc, ← hfront]
      exact Rust.slice_append front m _
    have hdata : front ++ (m ++ messages.flatten ++ rest) =
        (front ++ m) ++ (messages.flatten ++ rest) := by
      simp only [List.append_assoc]
    have hfront' : (front ++ m).length = headerLen + (offset + m.length) := by
      rw [List.length_append, hfront, Nat.add_assoc]
    rw [endsFrom, List.map_cons, List.cons_append, List.flatten_cons, readFrom, if_neg hne, hnat]
    dsimp only
    rw [hslice, hdata, ih hfront' htotal (.inl hstop)]
    rfl

theorem read_data (account : BufferAccount) :
    read account.data = readFrom account.data account.header.headerLen.toNat
      account.header.headerLen.toNat account.header.endOffsets.toList := by
  rw [read, ofBytes_data]

theorem BufferAccount.Written.read {account account' : BufferAccount} {messages : List Bytes}
    {k : Nat} (h : account.Written messages k account') (hm : messages.head? ≠ some []) :
    read account'.data = some (messages.take k) := by
  have hhead : (messages.take k).head? ≠ some [] := by
    cases k with
    | zero => simp
    | succ k => simpa [List.head?_take] using hm
  have htotal : 0 + (messages.take k).flatten.length < 2 ^ 16 := h.greatest.1.total
  rw [read_data, h.headerLen, h.endOffsets, BufferAccount.data, h.body]
  exact readFrom_endsFrom (length_header _) htotal (.inr hhead) _

/-- An empty message that comes first has the end offset zero. -/
theorem BufferAccount.Written.read_nil {account account' : BufferAccount} {messages : List Bytes}
    {k : Nat} (h : account.Written ([] :: messages) k account') :
    MessageBuffer.read account'.data = some [] := by
  rw [read_data, h.endOffsets]
  cases k with
  | zero => exact readFrom_zeros _ _ _ _
  | succ k =>
    have hzero : BitVec.ofNat 16 (0 + ([] : Bytes).length) = 0 := rfl
    rw [List.take_succ_cons, endsFrom, List.map_cons, List.cons_append, readFrom, if_pos hzero]

/-- An empty message fits in every body. -/
theorem fits_nil (size : Nat) (messages : List Bytes) : Fits size ([] :: messages) 1 :=
  fitsFrom_succ.mpr ⟨by decide, fitsFrom_zero.mpr ⟨by decide, Nat.zero_le _, by decide⟩⟩

/-- The law of one write. -/
theorem readsBack_iff (account : BufferAccount) (messages : List Bytes) :
    account.ReadsBack messages ↔ messages.head? ≠ some [] := by
  have hspec := account.putAll_spec messages
  constructor
  · rintro ⟨numMsgs, hgreatest, hread⟩ hhead
    obtain ⟨messages', rfl⟩ : ∃ messages', messages = [] :: messages' := by
      cases messages with
      | nil => exact absurd hhead nofun
      | cons m messages' => exact ⟨messages', by rw [Option.some.inj hhead]⟩
    rw [hspec.read_nil] at hread
    have hone : 1 ≤ numMsgs := hgreatest.2 (fits_nil _ _)
    cases numMsgs with
    | zero => exact absurd hone (by decide)
    | succ n => exact absurd (Option.some.inj hread) (List.cons_ne_nil _ _).symm
  · intro hhead
    exact ⟨_, hspec.greatest, hspec.read hhead⟩

/-! ## Reachable buffers -/

/-- The end offsets are sorted up to the last used one, zero after it, and inside the
account. -/
structure BufferAccount.WellFormed (account : BufferAccount) : Prop where
  headerLen : account.header.headerLen.toNat = HEADER_LEN
  used : ∃ n, (account.header.endOffsets.toList.take n).Pairwise (· ≤ ·) ∧
    ∀ e ∈ account.header.endOffsets.toList.drop n, e = 0
  inside : ∀ e ∈ account.header.endOffsets.toList, HEADER_LEN + e.toNat ≤ account.size

theorem wellFormed_new (bump : UInt8) (body : Bytes) :
    BufferAccount.WellFormed { header := .new bump, body } where
  headerLen := rfl
  used := ⟨0, List.Pairwise.nil, fun e he => List.eq_of_mem_replicate (Vector.toList_replicate ▸ he)⟩
  inside e he := by
    rw [List.eq_of_mem_replicate (Vector.toList_replicate ▸ he : e ∈ List.replicate 255 0)]
    exact Nat.le_add_right _ _

theorem BufferAccount.Written.wellFormed {account account' : BufferAccount}
    {messages : List Bytes} {k : Nat} (h : account.Written messages k account') :
    account'.WellFormed := by
  have htotal : 0 + (messages.take k).flatten.length < 2 ^ 16 := h.greatest.1.total
  have hends {e : Nat} (he : e ∈ endsFrom 0 (messages.take k)) :
      (BitVec.ofNat 16 e).toNat = e := by
    have hle := (le_of_mem_endsFrom he).2
    rw [BitVec.toNat_ofNat, Nat.mod_eq_of_lt (by omega)]
  refine ⟨h.headerLen, ⟨(messages.take k).length, ?_, ?_⟩, fun e he => ?_⟩
  · rw [h.endOffsets, List.take_left' (by simp)]
    refine List.pairwise_map.mpr ((sorted_endsFrom 0 _).imp_of_mem fun ha hb hab => ?_)
    rw [BitVec.le_def, hends ha, hends hb]
    exact hab
  · rw [h.endOffsets, List.drop_left' (by simp)]
    exact fun e he => List.eq_of_mem_replicate he
  · rw [h.endOffsets] at he
    refine Nat.add_le_add_left ?_ _
    cases List.mem_append.mp he with
    | inl hused =>
      obtain ⟨e', he', rfl⟩ := List.mem_map.mp hused
      have hle := (le_of_mem_endsFrom he').2
      rw [hends he', h.body, List.length_append]
      omega
    | inr hzero =>
      rw [List.eq_of_mem_replicate hzero]
      exact Nat.zero_le _

theorem le_foldl_max (xs : List U16) (m : Nat) :
    m ≤ xs.foldl (fun m x => max m x.toNat) m ∧
      ∀ x ∈ xs, x.toNat ≤ xs.foldl (fun m x => max m x.toNat) m := by
  induction xs generalizing m with
  | nil => exact ⟨Nat.le_refl m, nofun⟩
  | cons y xs ih =>
    obtain ⟨hm, hxs⟩ := ih (max m y.toNat)
    refine ⟨(Nat.le_max_left _ _).trans hm, List.forall_mem_cons.mpr ⟨?_, hxs⟩⟩
    exact (Nat.le_max_right _ _).trans hm

theorem BufferAccount.size_realloc (account : BufferAccount) (fill : Nat → UInt8)
    {targetSize : Nat} (h : HEADER_LEN ≤ targetSize) :
    (account.realloc fill targetSize).size = targetSize := by
  simp only [BufferAccount.size, BufferAccount.realloc, List.length_append, List.length_take,
    List.length_map, List.length_range]
  omega

theorem BufferAccount.header_realloc (account : BufferAccount) (fill : Nat → UInt8)
    (targetSize : Nat) : (account.realloc fill targetSize).header = account.header := by
  rw [BufferAccount.realloc]

/-- An account that is resized to at least the end of what is used stays well formed. -/
theorem BufferAccount.WellFormed.realloc {account : BufferAccount} (h : account.WellFormed)
    (fill : Nat → UInt8) {targetSize : Nat} (hmin : HEADER_LEN ≤ targetSize)
    (hinside : ∀ e ∈ account.header.endOffsets.toList, HEADER_LEN + e.toNat ≤ targetSize) :
    (account.realloc fill targetSize).WellFormed where
  headerLen := by
    rw [header_realloc]
    exact h.headerLen
  used := by
    rw [header_realloc]
    exact h.used
  inside e he := by
    rw [header_realloc] at he
    rw [account.size_realloc fill hmin]
    exact hinside e he

/-- Every buffer is well formed. -/
def Accounts.WellFormed (accounts : Accounts) : Prop :=
  ∀ seeds account, accounts.buffers seeds = some account → account.WellFormed

theorem Accounts.WellFormed.setBuffer {accounts : Accounts} (h : accounts.WellFormed)
    (seeds : BufferSeeds) {account : Option BufferAccount}
    (haccount : ∀ a, account = some a → a.WellFormed) :
    (accounts.setBuffer seeds account).WellFormed := by
  intro seeds' account' hget
  by_cases hseeds : seeds' = seeds
  · subst hseeds
    exact haccount account' (by simpa [Accounts.setBuffer] using hget)
  · exact h seeds' account' (by simpa [Accounts.setBuffer, hseeds] using hget)

theorem putAll_eq_ok {auth : AccountMeta} {baseAccountKey : Pubkey} {messages : List Bytes}
    {accounts accounts' : Accounts} :
    putAll auth baseAccountKey messages accounts = .ok accounts' ↔
      ∃ whitelist account, accounts.whitelist = some whitelist ∧ auth.isSigner = true ∧
        accounts.buffers ⟨auth.pubkey, baseAccountKey⟩ = some account ∧
        auth.pubkey ∈ whitelist.allowedPrograms ∧
        accounts.setBuffer ⟨auth.pubkey, baseAccountKey⟩ (account.putAll messages).1 =
          accounts' := by
  simp only [putAll, loadWhitelist, loadBuffer, Whitelist.isAllowedProgramAuth,
    except_bind_eq_ok, signer_eq_ok, require_eq_ok, Rust.okOr_eq_ok, Rust.pure_eq_ok,
    exists_const]
  tauto

/-- What a buffer that is created looks like. -/
theorem createBuffer_ok {bumps : Bumps} {admin payer : AccountMeta}
    {bufferAccount : Option BufferSeeds} {seeds : BufferSeeds} {targetSize : Nat}
    {accounts accounts' : Accounts}
    (h : createBuffer bumps admin payer bufferAccount seeds targetSize accounts =
      .ok accounts') :
    accounts' = accounts ∨ accounts' = accounts.setBuffer seeds (some
      { header := .new (bumps.buffer seeds), body := List.replicate (targetSize - HEADER_LEN) 0 }) := by
  simp only [createBuffer, except_bind_eq_ok] at h
  obtain ⟨-, -, -, -, -, -, given, -, -, -, -, -, -, -, h⟩ := h
  split at h
  · obtain ⟨-, -, h⟩ := except_bind_eq_ok.mp h
    exact .inr (Rust.pure_eq_ok.mp h).symm
  · exact .inl (Rust.pure_eq_ok.mp h).symm

/-- What a buffer that is resized was before, and what the new size is. -/
theorem resizeBuffer_ok {admin payer : AccountMeta} {seeds : BufferSeeds} {targetSize : Nat}
    {fill : Nat → UInt8} {accounts accounts' : Accounts}
    (h : resizeBuffer admin payer seeds targetSize fill accounts = .ok accounts') :
    ∃ account, accounts.buffers seeds = some account ∧ HEADER_LEN ≤ targetSize ∧
      account.header.endOffsets.toList.foldl (fun m offset => max m offset.toNat) 0 +
        account.header.headerLen.toNat ≤ targetSize ∧
      accounts' = accounts.setBuffer seeds (some (account.realloc fill targetSize)) := by
  simp only [resizeBuffer, loadBuffer, except_bind_eq_ok, Rust.okOr_eq_ok, Rust.unwrap_eq_ok,
    require_eq_ok, Rust.pure_eq_ok] at h
  obtain ⟨-, -, -, -, account, hget, -, -, -, -, _, hheader, size, hsize, -, hmin, -, -, rfl⟩ := h
  have htarget : HEADER_LEN ≤ targetSize := by
    by_contra hlt
    exact absurd hheader (by simp [Nat.lt_of_not_le hlt])
  refine ⟨account, hget, htarget, ?_, rfl⟩
  split at hsize
  · cases hsize
    exact hmin
  · exact absurd hsize nofun

/-- What an instruction preserves. -/
theorem Call.exec_wellFormed {bumps : Bumps} {call : Call} {accounts accounts' : Accounts}
    (hs : accounts.WellFormed) (h : call.exec bumps accounts = .ok accounts') :
    accounts'.WellFormed := by
  cases call with
  | whitelist call =>
    obtain ⟨whitelist, -, h⟩ := except_bind_eq_ok.mp h
    rw [← Rust.pure_eq_ok.mp h]
    exact hs
  | putAll auth baseAccountKey messages =>
    obtain ⟨-, account, -, -, -, -, rfl⟩ := putAll_eq_ok.mp h
    refine hs.setBuffer _ fun account' haccount => ?_
    cases haccount
    exact (account.putAll_spec messages).wellFormed
  | createBuffer admin payer bufferAccount seeds targetSize =>
    obtain rfl | rfl := createBuffer_ok h
    · exact hs
    · refine hs.setBuffer _ fun account' haccount => ?_
      cases haccount
      exact wellFormed_new _ _
  | resizeBuffer admin payer seeds targetSize fill =>
    obtain ⟨account, hget, htarget, hmin, rfl⟩ := resizeBuffer_ok h
    have haccount := hs seeds account hget
    refine hs.setBuffer _ fun account' heq => ?_
    cases heq
    refine haccount.realloc fill htarget fun e he => ?_
    have hle := (le_foldl_max account.header.endOffsets.toList 0).2 e he
    rw [haccount.headerLen] at hmin
    omega
  | deleteBuffer admin payer seeds =>
    obtain ⟨-, -, h⟩ := except_bind_eq_ok.mp h
    obtain ⟨-, -, h⟩ := except_bind_eq_ok.mp h
    obtain ⟨-, -, h⟩ := except_bind_eq_ok.mp h
    rw [← Rust.pure_eq_ok.mp h]
    exact hs.setBuffer _ nofun

/-- The accounts after a list of instructions. -/
abbrev reached (bumps : Bumps) (calls : List Call) : Accounts :=
  runAll (Call.exec bumps) {} calls

theorem reached_wellFormed (bumps : Bumps) (calls : List Call) :
    (reached bumps calls).WellFormed :=
  have hinit : Accounts.WellFormed {} := fun _ _ h => absurd h nofun
  runAll_invariant hinit (fun _ _ _ hs h => Call.exec_wellFormed hs h) calls

/-- Every buffer is well formed, and what is written to it is read back exactly when the
first message is not empty. -/
theorem write_read_law (bumps : Bumps) (calls : List Call) (seeds : BufferSeeds)
    (account : BufferAccount) (hget : (reached bumps calls).buffers seeds = some account)
    (messages : List Bytes) :
    (account.WellFormed ∧ account.ReadsBack messages) ↔ messages.head? ≠ some [] := by
  have hwf := reached_wellFormed bumps calls seeds account hget
  rw [readsBack_iff]
  exact and_iff_right hwf

/-! ### A buffer with an empty first message -/

def exBumps : Bumps where
  whitelist := 255
  buffer _ := 254

def exSeeds : BufferSeeds where
  allowedProgramAuth := exKey 2
  baseAccountKey := exKey 3

/-- A buffer with ten bytes of body. -/
def exBufferCalls : List Call :=
  [.whitelist (.initializeWhitelist exAdmin exAdmin),
    .whitelist (.setAllowedPrograms exAdmin [exKey 2]),
    .createBuffer exAdmin exAdmin (some exSeeds) exSeeds 532]

def exBuffer : BufferAccount where
  header := .new 254
  body := List.replicate 10 0

theorem exBuffer_reached : (reached exBumps exBufferCalls).buffers exSeeds = some exBuffer := by
  decide +kernel

theorem write_read_law_ex :
    (reached exBumps exBufferCalls).buffers exSeeds = some exBuffer ∧
      ((exBuffer.WellFormed ∧ exBuffer.ReadsBack [[1, 2], [3]]) ↔
        ([[1, 2], [3]] : List Bytes).head? ≠ some []) :=
  ⟨exBuffer_reached, write_read_law exBumps exBufferCalls exSeeds exBuffer exBuffer_reached _⟩

/-- Both messages are written, and the reader finds none. -/
theorem write_read_law_violated :
    (reached exBumps exBufferCalls).buffers exSeeds = some exBuffer ∧
      (exBuffer.putAll [[], [1, 2, 3]]).2 = 2 ∧
      read (exBuffer.putAll [[], [1, 2, 3]]).1.data = some [] ∧
      ¬(exBuffer.WellFormed ∧ exBuffer.ReadsBack [[], [1, 2, 3]]) := by
  refine ⟨exBuffer_reached, by decide +kernel, (exBuffer.putAll_spec _).read_nil, ?_⟩
  exact fun h => (readsBack_iff _ _).mp h.2 rfl

end PythCrosschain.MessageBuffer
