import PythCrosschain.RemoteExecutor.Payload
import PythCrosschain.XcAdmin.GovernancePayload

/-!
# Batches for the remote executor

`batchIntoExecutorPayload` of `propose.ts`, which cuts a list of instructions into batches, and
`ExecutePostedVaa.ts`, which encodes a batch as a governance payload in a buffer of the size of a
packet. The results are:

- `batchIntoExecutorPayload_batched`: the cut is greedy, and the last instruction is always alone;
- `ExecutePostedVaa.encode_eq`: an encoding fits the buffer or nothing is returned;
- `executor_batches`: the batches in order are the instructions, and the remote executor reads
  each encoded batch back.
-/

namespace PythCrosschain.XcAdmin

open Solana (AccountMeta Pubkey)

def PACKET_DATA_SIZE : ℕ := 1232
def PACKET_DATA_SIZE_WITH_ROOM_FOR_COMPUTE_BUDGET : ℕ := PACKET_DATA_SIZE - 52
def MAX_EXECUTOR_PAYLOAD_SIZE : ℕ := PACKET_DATA_SIZE_WITH_ROOM_FOR_COMPUTE_BUDGET - 687

structure TransactionInstruction where
  programId : Pubkey
  keys : List AccountMeta
  data : Bytes

/-! ## `propose.ts` -/

def sizeOfExecutorInstruction (ix : TransactionInstruction) : ℕ :=
  32 + 4 + ix.keys.length * 34 + 4 + ix.data.length

/-- `reduce` without a first value throws on an empty array. -/
def getSizeOfExecutorInstructions (instructions : List TransactionInstruction) : Option ℕ :=
  match instructions.map sizeOfExecutorInstruction with
  | [] => none
  | size :: sizes => some (sizes.foldl (· + ·) size)

def slice (instructions : List TransactionInstruction) (i j : ℕ) : List TransactionInstruction :=
  (instructions.drop i).take (j - i)

/-- The inner loop for the batch from `i` on, where `j` has come to `i + 2 + more`: how far it
goes. -/
def growBatch (instructions : List TransactionInstruction) (i more : ℕ) : Option ℕ :=
  let j := i + 2 + more
  if j < instructions.length then do
    let size ← getSizeOfExecutorInstructions (slice instructions i j)
    if size ≤ MAX_EXECUTOR_PAYLOAD_SIZE then growBatch instructions i (more + 1) else some more
  else some more
termination_by instructions.length - (i + 2 + more)

/-- The outer loop. -/
def batchFrom (instructions : List TransactionInstruction) (i : ℕ) :
    Option (List (List TransactionInstruction)) :=
  if i < instructions.length then do
    let more ← growBatch instructions i 0
    let j := i + 2 + more
    let batches ← batchFrom instructions (j - 1)
    return slice instructions i (j - 1) :: batches
  else some []
termination_by instructions.length - i

def batchIntoExecutorPayload (instructions : List TransactionInstruction) :
    Option (List (List TransactionInstruction)) :=
  batchFrom instructions 0

/-! ## `ExecutePostedVaa.ts` -/

/-- The bytes in a buffer once a layout has encoded a value behind them. A value that does not
fit the rest of the buffer throws. -/
abbrev Write := Bytes → Option Bytes

namespace Layout

variable (size : ℕ)

/-- `blob`. -/
def blob (src : Bytes) : Write := fun b =>
  if b.length + src.length ≤ size then some (b ++ src) else none

def u8 (src : UInt8) : Write := blob size [src]

def u32 (src : ℕ) : Write := fun b =>
  if src < 2 ^ 32 then blob size (bytesLE 4 src) b else none

/-- `seq`, of as many elements as there are. -/
def seq {T : Type} (element : T → Write) : List T → Write
  | [], b => some b
  | src :: rest, b => do
    let b ← element src b
    seq element rest b

def accountMetaLayout (acc : AccountMeta) : Write := fun b => do
  let b ← blob size acc.pubkey.val b
  let b ← u8 size (if acc.isSigner then 1 else 0) b
  u8 size (if acc.isWritable then 1 else 0) b

end Layout

/-- `Vector.encode`. -/
def Vector.encode {T : Type} (size : ℕ) (element : T → Write) (src : List T) : Write := fun b => do
  let b ← Layout.u32 size src.length b
  Layout.seq element src b

def Layout.instructionDataLayout (size : ℕ) (ix : TransactionInstruction) : Write := fun b => do
  let b ← blob size ix.programId.val b
  let b ← Vector.encode size (accountMetaLayout size) ix.keys b
  Vector.encode size (u8 size) ix.data b

structure ExecutePostedVaa (ChainName : Type) where
  targetChainId : ChainName
  instructions : List TransactionInstruction

def ExecutePostedVaa.encode {ChainName : Type} (toChainId : ChainName → Option (BitVec 16))
    (self : ExecutePostedVaa ChainName) : Option Bytes := do
  let headerBuffer ← PythGovernanceHeader.encode toChainId ⟨self.targetChainId, .executePostedVaa⟩
  let buffer ← Vector.encode PACKET_DATA_SIZE (Layout.instructionDataLayout PACKET_DATA_SIZE)
    self.instructions []
  return headerBuffer ++ buffer

/-! ## The batches -/

/-- The sum of the sizes. -/
def sizeOf (instructions : List TransactionInstruction) : ℕ :=
  (instructions.map sizeOfExecutorInstruction).sum

theorem getSizeOfExecutorInstructions_eq {instructions : List TransactionInstruction}
    (h : instructions ≠ []) :
    getSizeOfExecutorInstructions instructions = some (sizeOf instructions) := by
  cases instructions with
  | nil => exact absurd rfl h
  | cons ix rest =>
    have hfold : (rest.map sizeOfExecutorInstruction).foldl (· + ·)
          (sizeOfExecutorInstruction ix + 0)
        = sizeOfExecutorInstruction ix + (rest.map sizeOfExecutorInstruction).foldl (· + ·) 0 :=
      List.foldl_assoc
    rw [sizeOf, List.map_cons, List.sum_cons, List.sum_eq_foldl, ← hfold]
    rfl

/-- A list in greedy batches: two or more instructions fit, the next one does not unless it is
the last, and the last one is alone. -/
inductive Batched :
    List TransactionInstruction → List (List TransactionInstruction) → Prop
  | nil : Batched [] []
  | cons {batch rest : List TransactionInstruction} {batches : List (List TransactionInstruction)} :
      batch ≠ [] →
      (2 ≤ batch.length → sizeOf batch ≤ MAX_EXECUTOR_PAYLOAD_SIZE) →
      (∀ ix rest', rest = ix :: rest' → rest' ≠ [] →
        MAX_EXECUTOR_PAYLOAD_SIZE < sizeOf (batch ++ [ix])) →
      (rest = [] → batch.length = 1) →
      Batched rest batches → Batched (batch ++ rest) (batch :: batches)

section

variable {instructions : List TransactionInstruction}

theorem slice_ne_nil {i j : ℕ} (hi : i < instructions.length) (hj : i < j) :
    slice instructions i j ≠ [] := by
  apply List.ne_nil_of_length_pos
  rw [slice, List.length_take, List.length_drop]
  omega

/-- Every slice that is passed fits, and the one where the loop stops does not, unless it ends
the list. -/
theorem growBatch_spec {i : ℕ} (hi : i < instructions.length) (more : ℕ) :
    ∃ m, growBatch instructions i more = some m ∧ more ≤ m ∧
      (∀ k, more ≤ k → k < m → i + 2 + k < instructions.length ∧
        sizeOf (slice instructions i (i + 2 + k)) ≤ MAX_EXECUTOR_PAYLOAD_SIZE) ∧
      (i + 2 + m < instructions.length →
        MAX_EXECUTOR_PAYLOAD_SIZE < sizeOf (slice instructions i (i + 2 + m))) := by
  fun_induction growBatch instructions i more with
  | case1 more j hj ih =>
    have hsize : getSizeOfExecutorInstructions (slice instructions i j)
        = some (sizeOf (slice instructions i j)) :=
      getSizeOfExecutorInstructions_eq (slice_ne_nil hi (by omega))
    rw [hsize, Option.bind_eq_bind, Option.bind_some]
    by_cases hfits : sizeOf (slice instructions i j) ≤ MAX_EXECUTOR_PAYLOAD_SIZE
    · obtain ⟨m, hm, hle, hpassed, hstop⟩ := ih
      refine ⟨m, by rw [if_pos hfits, hm], Nat.le_of_succ_le hle, fun k hk hkm => ?_, hstop⟩
      rcases Nat.eq_or_lt_of_le hk with rfl | hk
      · exact ⟨hj, hfits⟩
      · exact hpassed k hk hkm
    · exact ⟨more, if_neg hfits, le_rfl, fun k hk hkm => absurd hk (Nat.not_le.mpr hkm),
        fun _ => Nat.lt_of_not_le hfits⟩
  | case2 more j hj =>
    exact ⟨more, rfl, le_rfl, fun k hk hkm => absurd hk (Nat.not_le.mpr hkm),
      fun h => absurd h hj⟩

theorem slice_append_drop {i j : ℕ} (hij : i ≤ j) :
    slice instructions i j ++ instructions.drop j = instructions.drop i := by
  have hdrop : instructions.drop j = (instructions.drop i).drop (j - i) := by
    rw [List.drop_drop, Nat.add_sub_cancel' hij]
  rw [slice, hdrop, List.take_append_drop]

theorem length_slice {i j : ℕ} (hj : j ≤ instructions.length) :
    (slice instructions i j).length = j - i := by
  rw [slice, List.length_take, List.length_drop]
  omega

theorem slice_concat {i j : ℕ} (hij : i ≤ j) {ix : TransactionInstruction}
    {rest : List TransactionInstruction} (hrest : instructions.drop j = ix :: rest) :
    slice instructions i j ++ [ix] = slice instructions i (j + 1) := by
  have hlength : j < instructions.length := by
    by_contra hbeyond
    rw [List.drop_eq_nil_of_le (Nat.le_of_not_lt hbeyond)] at hrest
    cases hrest
  have hfirst : instructions.drop i = slice instructions i j ++ [ix] ++ rest := by
    rw [← slice_append_drop hij, hrest, List.append_assoc, List.singleton_append]
  have hcount : j + 1 - i = (slice instructions i j ++ [ix]).length := by
    rw [List.length_append, length_slice (Nat.le_of_lt hlength), List.length_singleton]
    omega
  show _ = (instructions.drop i).take (j + 1 - i)
  rw [hcount, hfirst, List.take_left]

/-- **The loops cut greedily.** -/
theorem batchFrom_batched (i : ℕ) :
    ∃ batches, batchFrom instructions i = some batches ∧ Batched (instructions.drop i) batches := by
  induction h : instructions.length - i using Nat.strong_induction_on generalizing i with
  | _ n ih =>
    by_cases hi : i < instructions.length
    · obtain ⟨m, hm, -, hpassed, hstop⟩ := growBatch_spec hi 0
      obtain ⟨batches, hbatches, hrest⟩ := ih (instructions.length - (i + 1 + m)) (by omega) _ rfl
      have hj : i + 2 + m - 1 = i + 1 + m := by omega
      have hnext : i + 1 + m + 1 = i + 2 + m := by omega
      refine ⟨slice instructions i (i + 1 + m) :: batches, ?_, ?_⟩
      · rw [batchFrom, if_pos hi, hm, Option.bind_eq_bind, Option.bind_some]
        dsimp only
        rw [hj, hbatches]
        rfl
      · have hend : i + 1 + m ≤ instructions.length := by
          cases m with
          | zero => exact hi
          | succ m =>
            obtain ⟨hlt, -⟩ := hpassed m (Nat.zero_le m) (Nat.lt_succ_self m)
            omega
        rw [← slice_append_drop (i := i) (j := i + 1 + m) (by omega)]
        refine .cons (slice_ne_nil hi (by omega)) (fun htwo => ?_) (fun ix rest' hdrop hmore => ?_)
          (fun hdrop => ?_) hrest
        · rw [length_slice hend] at htwo
          obtain ⟨m, rfl⟩ := Nat.exists_eq_succ_of_ne_zero (n := m) (by omega)
          have hsame : i + 1 + m.succ = i + 2 + m := by omega
          rw [hsame]
          exact (hpassed m (Nat.zero_le m) (Nat.lt_succ_self m)).2
        · rw [slice_concat (by omega) hdrop, hnext]
          have hlength := congrArg List.length hdrop
          have hpos := List.length_pos_iff.mpr hmore
          rw [List.length_drop, List.length_cons] at hlength
          exact hstop (by omega)
        · -- With nothing left the inner loop has passed no slice.
          have hlength := List.drop_eq_nil_iff.mp hdrop
          cases m with
          | zero => rw [length_slice hend]; omega
          | succ m =>
            obtain ⟨hlt, -⟩ := hpassed m (Nat.zero_le m) (Nat.lt_succ_self m)
            omega
    · refine ⟨[], by rw [batchFrom, if_neg hi], ?_⟩
      rw [List.drop_eq_nil_of_le (Nat.le_of_not_lt hi)]
      exact .nil

theorem batchIntoExecutorPayload_batched (instructions : List TransactionInstruction) :
    ∃ batches, batchIntoExecutorPayload instructions = some batches ∧
      Batched instructions batches :=
  batchFrom_batched 0

end

variable {instructions batch : List TransactionInstruction}
  {batches : List (List TransactionInstruction)}

theorem Batched.flatten (h : Batched instructions batches) : batches.flatten = instructions := by
  induction h with
  | nil => rfl
  | cons _ _ _ _ _ ih => rw [List.flatten_cons, ih]

theorem Batched.ne_nil (h : Batched instructions batches) (hmem : batch ∈ batches) :
    batch ≠ [] := by
  induction h with
  | nil => cases hmem
  | cons hne _ _ _ _ ih =>
    rcases List.mem_cons.mp hmem with rfl | hmem
    · exact hne
    · exact ih hmem

theorem Batched.size_le (h : Batched instructions batches) (hmem : batch ∈ batches)
    (htwo : 2 ≤ batch.length) : sizeOf batch ≤ MAX_EXECUTOR_PAYLOAD_SIZE := by
  induction h with
  | nil => cases hmem
  | cons _ hsize _ _ _ ih =>
    rcases List.mem_cons.mp hmem with rfl | hmem
    · exact hsize htwo
    · exact ih hmem

/-- No batch has room for the next instruction, where another one comes behind it. -/
theorem Batched.maximal (h : Batched instructions batches)
    {before after : List (List TransactionInstruction)} {ix : TransactionInstruction}
    {rest : List TransactionInstruction}
    (hsplit : batches = before ++ batch :: (ix :: rest) :: after)
    (hmore : rest ++ after.flatten ≠ []) : MAX_EXECUTOR_PAYLOAD_SIZE < sizeOf (batch ++ [ix]) := by
  induction h generalizing before with
  | nil => exact absurd hsplit.symm (List.append_ne_nil_of_right_ne_nil _ (List.cons_ne_nil _ _))
  | cons _ _ hmax _ hrest ih =>
    cases before with
    | nil =>
      obtain ⟨rfl, rfl⟩ := List.cons.inj hsplit
      refine hmax ix (rest ++ after.flatten) ?_ hmore
      rw [← hrest.flatten, List.flatten_cons, List.cons_append]
    | cons _ before => exact ih (List.cons.inj hsplit).2

/-- The last instruction has a batch of its own, whether or not the batch before it has room. -/
theorem Batched.last (h : Batched instructions batches) (hne : instructions ≠ []) :
    ∃ before ix, batches = before ++ [[ix]] := by
  induction h with
  | nil => exact absurd rfl hne
  | @cons batch rest batches _ _ _ hlast hrest ih =>
    cases rest with
    | nil =>
      obtain ⟨ix, rfl⟩ := List.length_eq_one_iff.mp (hlast rfl)
      cases batches with
      | nil => exact ⟨[], ix, rfl⟩
      | cons _ _ =>
        have hnil := hrest.flatten
        exact absurd (List.flatten_eq_nil_iff.mp hnil _ List.mem_cons_self)
          (hrest.ne_nil List.mem_cons_self)
    | cons ix rest =>
      obtain ⟨before, last, hbatches⟩ := ih (List.cons_ne_nil ix rest)
      exact ⟨batch :: before, last, by rw [hbatches, List.cons_append]⟩

/-! ## The encoding -/

/-- What is written are the bytes, where they fit. -/
def Writes (size : ℕ) (w : Write) (bytes : Bytes) : Prop :=
  ∀ b, w b = if b.length + bytes.length ≤ size then some (b ++ bytes) else none

section

variable {size : ℕ}

theorem writes_blob (src : Bytes) : Writes size (Layout.blob size src) src := fun _ => rfl

theorem Writes.bind {w w' : Write} {bytes bytes' : Bytes} (h : Writes size w bytes)
    (h' : Writes size w' bytes') : Writes size (fun b => w b >>= w') (bytes ++ bytes') := by
  intro b
  dsimp only
  rw [h b, List.length_append, ← Nat.add_assoc]
  by_cases hfits : b.length + bytes.length ≤ size
  · rw [if_pos hfits, Option.bind_eq_bind, Option.bind_some, h' (b ++ bytes), List.length_append,
      List.append_assoc]
  · rw [if_neg hfits, if_neg (by omega)]
    rfl

theorem writes_seq {T : Type} {element : T → Write} {bytes : T → Bytes} (src : List T)
    (h : ∀ v, Writes size (element v) (bytes v)) :
    ∀ b, b.length ≤ size → Layout.seq element src b
      = if b.length + (src.flatMap bytes).length ≤ size then some (b ++ src.flatMap bytes)
        else none := by
  induction src with
  | nil =>
    intro b hb
    rw [Layout.seq, List.flatMap_nil, List.append_nil, List.length_nil, Nat.add_zero, if_pos hb]
  | cons v src ih =>
    intro b hb
    rw [Layout.seq, h v b, List.flatMap_cons, List.length_append, ← Nat.add_assoc]
    by_cases hfits : b.length + (bytes v).length ≤ size
    · rw [if_pos hfits, Option.bind_eq_bind, Option.bind_some,
        ih _ (by rw [List.length_append]; exact hfits), List.length_append, List.append_assoc]
    · rw [if_neg hfits, if_neg (by omega)]
      rfl

/-- A length beyond 32 bits throws, and the elements would not fit then. -/
theorem writes_vector {T : Type} {element : T → Write} {bytes : T → Bytes} {src : List T}
    (hsize : size < 2 ^ 32) (h : ∀ v, Writes size (element v) (bytes v))
    (hpos : src.length ≤ (src.flatMap bytes).length) :
    Writes size (Vector.encode size element src) (bytesLE 4 src.length ++ src.flatMap bytes) := by
  intro b
  unfold Vector.encode Layout.u32
  rw [List.length_append, length_bytesLE, ← Nat.add_assoc]
  by_cases hlength : src.length < 2 ^ 32
  · rw [if_pos hlength, writes_blob, length_bytesLE]
    by_cases hfits : b.length + 4 ≤ size
    · have hb : (b ++ bytesLE 4 src.length).length = b.length + 4 := by
        rw [List.length_append, length_bytesLE]
      rw [if_pos hfits, Option.bind_eq_bind, Option.bind_some,
        writes_seq src h _ (hb.trans_le hfits), hb, List.append_assoc]
    · rw [if_neg hfits, if_neg (by omega)]
      rfl
  · rw [if_neg hlength, if_neg (by omega)]
    rfl

end

def accountBytes (acc : AccountMeta) : Bytes :=
  acc.pubkey.val ++ [if acc.isSigner then 1 else 0, if acc.isWritable then 1 else 0]

def instructionBytes (ix : TransactionInstruction) : Bytes :=
  ix.programId.val ++ (bytesLE 4 ix.keys.length ++ ix.keys.flatMap accountBytes) ++
    (bytesLE 4 ix.data.length ++ ix.data)

theorem length_accountBytes (acc : AccountMeta) : (accountBytes acc).length = 34 := by
  rw [accountBytes, List.length_append, acc.pubkey.property]
  rfl

theorem length_flatMap_accountBytes (keys : List AccountMeta) :
    (keys.flatMap accountBytes).length = keys.length * 34 := by
  rw [List.length_flatMap, List.map_congr_left (fun acc _ => length_accountBytes acc),
    List.map_const', List.sum_replicate_nat]

theorem length_instructionBytes (ix : TransactionInstruction) :
    (instructionBytes ix).length = sizeOfExecutorInstruction ix := by
  simp only [instructionBytes, List.length_append, length_bytesLE, length_flatMap_accountBytes,
    ix.programId.property, sizeOfExecutorInstruction]
  omega

theorem length_flatMap_instructionBytes (instructions : List TransactionInstruction) :
    (instructions.flatMap instructionBytes).length = sizeOf instructions := by
  rw [List.length_flatMap, List.map_congr_left (fun ix _ => length_instructionBytes ix)]
  rfl

theorem length_le_sizeOf (instructions : List TransactionInstruction) :
    instructions.length ≤ sizeOf instructions := by
  rw [sizeOf, ← List.length_map (f := sizeOfExecutorInstruction)]
  refine List.length_le_sum_of_one_le _ fun n hn => ?_
  obtain ⟨ix, -, rfl⟩ := List.mem_map.mp hn
  unfold sizeOfExecutorInstruction
  omega

section

variable {size : ℕ} (hsize : size < 2 ^ 32)

theorem writes_accountMeta (acc : AccountMeta) :
    Writes size (Layout.accountMetaLayout size acc) (accountBytes acc) :=
  (writes_blob _).bind ((writes_blob _).bind (writes_blob _))

include hsize in
theorem writes_instructionData (ix : TransactionInstruction) :
    Writes size (Layout.instructionDataLayout size ix) (instructionBytes ix) := by
  have hkeys : Writes size (Vector.encode size (Layout.accountMetaLayout size) ix.keys)
      (bytesLE 4 ix.keys.length ++ ix.keys.flatMap accountBytes) :=
    writes_vector hsize writes_accountMeta (by rw [length_flatMap_accountBytes]; omega)
  have hdata : Writes size (Vector.encode size (Layout.u8 size) ix.data)
      (bytesLE 4 ix.data.length ++ ix.data.flatMap fun v => [v]) :=
    writes_vector hsize (fun v => writes_blob [v]) (by rw [List.flatMap_singleton'])
  rw [List.flatMap_singleton'] at hdata
  rw [instructionBytes, List.append_assoc]
  exact (writes_blob _).bind (hkeys.bind hdata)

include hsize in
theorem writes_instructions (instructions : List TransactionInstruction) :
    Writes size (Vector.encode size (Layout.instructionDataLayout size) instructions)
      (bytesLE 4 instructions.length ++ instructions.flatMap instructionBytes) := by
  refine writes_vector hsize (writes_instructionData hsize) ?_
  rw [length_flatMap_instructionBytes]
  exact length_le_sizeOf instructions

end

/-- The header of the payload, for a chain that has an id. -/
def headerBytes (chain : BitVec 16) : Bytes :=
  bytesLE 4 MAGIC_NUMBER ++ [0, 0] ++ bytesBE 2 chain.toNat

theorem ExecutePostedVaa.encode_eq {ChainName : Type} {toChainId : ChainName → Option (BitVec 16)}
    {targetChainId : ChainName} {chain : BitVec 16} (hchain : toChainId targetChainId = some chain)
    (instructions : List TransactionInstruction) :
    encode toChainId ⟨targetChainId, instructions⟩ =
      if 4 + sizeOf instructions ≤ PACKET_DATA_SIZE then
        some (headerBytes chain ++
          (bytesLE 4 instructions.length ++ instructions.flatMap instructionBytes))
      else none := by
  have hsize : PACKET_DATA_SIZE < 2 ^ 32 := by decide
  have hbody := writes_instructions hsize instructions []
  rw [List.length_append, length_bytesLE, length_flatMap_instructionBytes, List.length_nil,
    Nat.zero_add, List.nil_append] at hbody
  unfold encode PythGovernanceHeader.encode
  dsimp only
  rw [hchain, hbody]
  by_cases hfits : 4 + sizeOf instructions ≤ PACKET_DATA_SIZE
  · rw [if_pos hfits, if_pos hfits]
    rfl
  · rw [if_neg hfits, if_neg hfits]
    rfl

/-! ## The remote executor reads it back -/

open RemoteExecutor (ExecutorPayload GovernanceHeader InstructionData accountMetaData)

def TransactionInstruction.toInstructionData (ix : TransactionInstruction) : InstructionData :=
  ⟨ix.programId, ix.keys, ix.data⟩

theorem accountMetaData_roundTrips :
    RoundTrips (fun acc : AccountMeta => (.ok (accountBytes acc) : Except Unit Bytes))
      accountMetaData := by
  intro acc bytes hbytes rest
  cases hbytes
  rw [accountBytes, List.append_assoc, accountMetaData,
    Decoder.bind_run_of (Borsh.array_append acc.pubkey _), List.cons_append, List.cons_append,
    List.nil_append, Decoder.bind_run_of (Borsh.bool_cons acc.isSigner _),
    Decoder.bind_run_of (Borsh.bool_cons acc.isWritable _)]
  rfl

/-- An instruction whose lengths are below `2 ^ 32`. -/
def encodeInstruction (ix : InstructionData) : Except Unit Bytes :=
  if ix.accounts.length < 2 ^ 32 ∧ ix.data.length < 2 ^ 32 then
    .ok (instructionBytes ⟨ix.programId, ix.accounts, ix.data⟩)
  else .error ()

theorem instructionData_roundTrips : RoundTrips encodeInstruction InstructionData.deserialize := by
  intro ix bytes hbytes rest
  unfold encodeInstruction at hbytes
  split at hbytes
  · next hlengths =>
    cases hbytes
    have haccounts : encodeElements (fun acc => (.ok (accountBytes acc) : Except Unit Bytes))
        ix.accounts = .ok (ix.accounts.flatMap accountBytes) :=
      encodeElements_eq_ok fun _ _ => rfl
    rw [instructionBytes, List.append_assoc, List.append_assoc, InstructionData.deserialize,
      Decoder.bind_run_of (Borsh.array_append ix.programId _),
      Decoder.bind_run_of (Borsh.vec_append accountMetaData_roundTrips haccounts hlengths.1 _),
      Decoder.bind_run_of (Borsh.byteVec_append hlengths.2 _)]
    rfl
  · cases hbytes

/-- The header that is read. -/
def executorHeader (chain : BitVec 16) : GovernanceHeader :=
  ⟨RemoteExecutor.MAGIC_NUMBER, .executor, .executePostedVaa, chain.toNat⟩

theorem header_append (chain : BitVec 16) (rest : Bytes) :
    GovernanceHeader.deserialize (headerBytes chain ++ rest)
      = .ok (executorHeader chain, rest) := by
  have hid : chain.toNat % 256 ^ 2 = chain.toNat := Nat.mod_eq_of_lt chain.isLt
  have hchain : RemoteExecutor.bigEndianU16 (bytesBE 2 chain.toNat ++ rest)
      = .ok (chain.toNat, rest) := by
    rw [RemoteExecutor.bigEndianU16, Decoder.map_run_of
      (Decoder.take_run_append (length_bytesBE 2 _) rest), natBE_bytesBE, hid]
  rw [headerBytes, List.append_assoc, List.append_assoc, GovernanceHeader.deserialize,
    Decoder.bind_run_of (Borsh.uint_append (by decide) _), List.cons_append, List.cons_append,
    List.nil_append, Decoder.bind_run_of (Borsh.variant_cons rfl _),
    Decoder.bind_run_of (Borsh.variant_cons rfl _), Decoder.bind_run_of hchain]
  rfl

/-- An instruction is no longer than a list that holds it. -/
theorem sizeOfExecutorInstruction_le {instructions : List TransactionInstruction}
    {ix : TransactionInstruction} (hmem : ix ∈ instructions) :
    sizeOfExecutorInstruction ix ≤ sizeOf instructions :=
  List.single_le_sum (fun _ _ => Nat.zero_le _) _ (List.mem_map_of_mem hmem)

theorem tryFromSlice_encoded {instructions : List TransactionInstruction}
    (hfits : 4 + sizeOf instructions ≤ PACKET_DATA_SIZE) (chain : BitVec 16) :
    ExecutorPayload.tryFromSlice (headerBytes chain ++
        (bytesLE 4 instructions.length ++ instructions.flatMap instructionBytes))
      = .ok ⟨executorHeader chain, instructions.map TransactionInstruction.toInstructionData⟩ := by
  have hpacket : PACKET_DATA_SIZE < 2 ^ 32 := by decide
  have hcount := length_le_sizeOf instructions
  have hencode : encodeElements encodeInstruction
      (instructions.map TransactionInstruction.toInstructionData)
        = .ok (instructions.flatMap instructionBytes) := by
    rw [encodeElements_map]
    refine encodeElements_eq_ok fun ix hix => if_pos ?_
    have hle := sizeOfExecutorInstruction_le hix
    unfold sizeOfExecutorInstruction at hle
    exact ⟨show ix.keys.length < 2 ^ 32 by omega, show ix.data.length < 2 ^ 32 by omega⟩
  have hvec := Borsh.vec_append instructionData_roundTrips hencode
    (by rw [List.length_map]; omega) []
  rw [List.length_map, List.append_nil] at hvec
  have hread : ExecutorPayload.deserialize (headerBytes chain ++
      (bytesLE 4 instructions.length ++ instructions.flatMap instructionBytes))
        = .ok (⟨executorHeader chain, instructions.map TransactionInstruction.toInstructionData⟩,
          []) := by
    rw [ExecutorPayload.deserialize, Decoder.bind_run_of (header_append chain _),
      Decoder.bind_run_of hvec]
    rfl
  rw [ExecutorPayload.tryFromSlice, Borsh.tryFromSlice_of hread]

/-- An encoding is twelve bytes longer than the size of its instructions, and is read back. -/
theorem ExecutePostedVaa.encode_of_fits {ChainName : Type}
    {toChainId : ChainName → Option (BitVec 16)} {targetChainId : ChainName} {chain : BitVec 16}
    (hchain : toChainId targetChainId = some chain) {instructions : List TransactionInstruction}
    (hfits : 4 + sizeOf instructions ≤ PACKET_DATA_SIZE) :
    ∃ encoded, encode toChainId ⟨targetChainId, instructions⟩ = some encoded ∧
      encoded.length = sizeOf instructions + 12 ∧
      ExecutorPayload.tryFromSlice encoded
        = .ok ⟨executorHeader chain, instructions.map TransactionInstruction.toInstructionData⟩ := by
  refine ⟨_, (encode_eq hchain instructions).trans (if_pos hfits), ?_,
    tryFromSlice_encoded hfits chain⟩
  simp only [headerBytes, List.length_append, length_bytesLE, length_bytesBE, List.length_cons,
    List.length_nil, length_flatMap_instructionBytes]
  omega

/-- **The batches.** In order they are the instructions, batches of two or more fit, and no batch
before the last two has room for the next instruction. What is encoded is read back, and a single
instruction that is too big for the buffer throws. -/
theorem executor_batches {ChainName : Type} (toChainId : ChainName → Option (BitVec 16))
    (instructions : List TransactionInstruction) :
    ∃ batches, batchIntoExecutorPayload instructions = some batches ∧
      batches.flatten = instructions ∧
      (∀ batch ∈ batches, batch ≠ []) ∧
      (∀ batch ∈ batches, 2 ≤ batch.length →
        ∃ size, getSizeOfExecutorInstructions batch = some size ∧
          size ≤ MAX_EXECUTOR_PAYLOAD_SIZE) ∧
      (∀ before batch ix rest after, batches = before ++ batch :: (ix :: rest) :: after →
        rest ++ after.flatten ≠ [] →
        ∃ size, getSizeOfExecutorInstructions (batch ++ [ix]) = some size ∧
          MAX_EXECUTOR_PAYLOAD_SIZE < size) ∧
      ∀ batch ∈ batches, ∃ size, getSizeOfExecutorInstructions batch = some size ∧
        ∀ targetChainId chain, toChainId targetChainId = some chain →
          if 4 + size ≤ PACKET_DATA_SIZE then
            ∃ encoded, ExecutePostedVaa.encode toChainId ⟨targetChainId, batch⟩ = some encoded ∧
              encoded.length = size + 12 ∧
              ExecutorPayload.tryFromSlice encoded
                = .ok ⟨executorHeader chain, batch.map TransactionInstruction.toInstructionData⟩
          else ExecutePostedVaa.encode toChainId ⟨targetChainId, batch⟩ = none := by
  obtain ⟨batches, hresult, hbatched⟩ := batchIntoExecutorPayload_batched instructions
  refine ⟨batches, hresult, hbatched.flatten, fun batch hmem => hbatched.ne_nil hmem,
    fun batch hmem htwo => ⟨_, getSizeOfExecutorInstructions_eq (hbatched.ne_nil hmem),
      hbatched.size_le hmem htwo⟩,
    fun before batch ix rest after hsplit hmore => ⟨_,
      getSizeOfExecutorInstructions_eq (List.concat_ne_nil ix batch),
      hbatched.maximal hsplit hmore⟩,
    fun batch hmem => ⟨_, getSizeOfExecutorInstructions_eq (hbatched.ne_nil hmem),
      fun targetChainId chain hchain => ?_⟩⟩
  by_cases hfits : 4 + sizeOf batch ≤ PACKET_DATA_SIZE
  · rw [if_pos hfits]
    exact ExecutePostedVaa.encode_of_fits hchain hfits
  · rw [if_neg hfits, ExecutePostedVaa.encode_eq hchain, if_neg hfits]

/-- One instruction of 1240 bytes. -/
def exOversize : List TransactionInstruction :=
  [⟨⟨List.replicate 32 0, List.length_replicate⟩, [], List.replicate 1200 0⟩]

/-- It is a batch of its own and does not fit the buffer of a packet. -/
theorem oversize_not_encoded :
    ¬∃ batches, batchIntoExecutorPayload exOversize = some batches ∧
      ∀ batch ∈ batches, ∃ size, getSizeOfExecutorInstructions batch = some size ∧
        ∃ encoded, ExecutePostedVaa.encode (fun _ : Unit => some 1) ⟨(), batch⟩ = some encoded ∧
          encoded.length = size + 12 := by
  rintro ⟨batches, hresult, hall⟩
  obtain ⟨batches', hresult', hbatched⟩ := batchIntoExecutorPayload_batched exOversize
  obtain rfl : batches = batches' := Option.some.inj (hresult.symm.trans hresult')
  obtain ⟨before, ix, rfl⟩ := hbatched.last (List.cons_ne_nil _ _)
  obtain ⟨size, -, encoded, hencoded, -⟩ :=
    hall [ix] (List.mem_append_right before List.mem_cons_self)
  have hflatten := hbatched.flatten
  rw [List.flatten_append, List.flatten_singleton] at hflatten
  have hix : [ix] = exOversize :=
    (List.append_inj' (show before.flatten ++ [ix] = [] ++ exOversize from hflatten) rfl).2
  have hnone : ExecutePostedVaa.encode (fun _ : Unit => some 1) ⟨(), exOversize⟩ = none :=
    (ExecutePostedVaa.encode_eq (show (fun _ : Unit => some (1 : BitVec 16)) () = some 1 from rfl)
      exOversize).trans (if_neg (by decide +kernel))
  rw [hix, hnone] at hencoded
  cases hencoded

end PythCrosschain.XcAdmin
