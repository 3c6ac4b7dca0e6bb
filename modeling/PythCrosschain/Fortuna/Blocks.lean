import Mathlib.Algebra.Order.Ring.Nat
import Mathlib.Data.List.Pairwise
import Mathlib.Tactic.Use

/-!
# Block ranges of the keeper

`watch_blocks` sends the block ranges that may hold new events, and
`process_block_range` splits each of them into batches. Block numbers are `u64`, and
their additions wrap around. The results are:

- `processBlockRange_splits_iff`: the batches of a range are in order, disjoint and
  cover the range, exactly when no addition wraps around;
- `covers_of_run`: whatever was observed and whichever sends failed, the ranges sent
  cover every block from the first safe block on;
- `keeper_block_coverage`: so do their batches.
-/

namespace PythCrosschain.Fortuna

abbrev BlockNumber := UInt64

/-- How many blocks to fetch events for in a single rpc call. -/
def BLOCK_BATCH_SIZE : UInt64 := 100

/-- Retry last N blocks. -/
def RETRY_PREVIOUS_BLOCKS : UInt64 := 100

/-- `u64::saturating_sub`. -/
def saturatingSub (a b : UInt64) : UInt64 := if a < b then 0 else a - b

structure BlockRange where
  fromBlock : BlockNumber
  toBlock : BlockNumber
deriving DecidableEq, Repr

/-- The block is in the range, whose bounds both count. -/
def BlockRange.Contains (range : BlockRange) (block : BlockNumber) : Prop :=
  range.fromBlock ≤ block ∧ block ≤ range.toBlock

instance (range : BlockRange) (block : BlockNumber) : Decidable (range.Contains block) :=
  inferInstanceAs (Decidable (_ ∧ _))

/-! ## `process_block_range` -/

/-- The end of the batch that starts at `currentBlock`. -/
def batchEnd (currentBlock lastBlock : BlockNumber) : BlockNumber :=
  if currentBlock + BLOCK_BATCH_SIZE > lastBlock then lastBlock
  else currentBlock + BLOCK_BATCH_SIZE

/-- The batches of the loop from `currentBlock` on, or `none` where `fuel` rounds do not
end it. -/
def processBlocksFrom (lastBlock : BlockNumber) : Nat → BlockNumber → Option (List BlockRange)
  | 0, _ => none
  | fuel + 1, currentBlock =>
    if currentBlock ≤ lastBlock then
      (processBlocksFrom lastBlock fuel (batchEnd currentBlock lastBlock + 1)).map
        ({ fromBlock := currentBlock, toBlock := batchEnd currentBlock lastBlock } :: ·)
    else
      some []

def processBlockRange (fuel : Nat) (blockRange : BlockRange) : Option (List BlockRange) :=
  processBlocksFrom blockRange.toBlock fuel blockRange.fromBlock

/-- The batches are not empty, in order and disjoint. -/
def Ordered (batches : List BlockRange) : Prop :=
  (∀ batch ∈ batches, batch.fromBlock ≤ batch.toBlock) ∧
    batches.Pairwise fun a b => a.toBlock < b.fromBlock

/-- The loop ends, with ordered batches that contain the blocks of the range and no
others. -/
def Splits (blockRange : BlockRange) (batches : List BlockRange) : Prop :=
  (∃ fuel, processBlockRange fuel blockRange = some batches) ∧ Ordered batches ∧
    ∀ block, (∃ batch ∈ batches, batch.Contains block) ↔ blockRange.Contains block

/-- No addition of the loop wraps around: neither the end of the last batch nor the block
after the range. -/
def Fits (blockRange : BlockRange) : Prop :=
  blockRange.fromBlock ≤ blockRange.toBlock →
    blockRange.fromBlock.toNat +
        101 * ((blockRange.toBlock.toNat - blockRange.fromBlock.toNat) / 101) + 100 < 2 ^ 64 ∧
      blockRange.toBlock.toNat + 1 < 2 ^ 64

instance (blockRange : BlockRange) : Decidable (Fits blockRange) :=
  inferInstanceAs (Decidable (_ → _ ∧ _))

section

variable {currentBlock lastBlock : BlockNumber} {fuel : Nat} {batches : List BlockRange}

theorem toNat_succ {block : BlockNumber} (fits : block.toNat + 1 < 2 ^ 64) :
    (block + 1).toNat = block.toNat + 1 := by
  rw [UInt64.toNat_add, show (1 : UInt64).toNat = 1 from rfl, Nat.mod_eq_of_lt fits]

theorem toNat_add_batchSize (currentBlock : BlockNumber) :
    (currentBlock + BLOCK_BATCH_SIZE).toNat = (currentBlock.toNat + 100) % 2 ^ 64 := by
  rw [UInt64.toNat_add, show BLOCK_BATCH_SIZE.toNat = 100 from rfl]

theorem toNat_batchEnd (fits : currentBlock.toNat + 100 < 2 ^ 64) :
    (batchEnd currentBlock lastBlock).toNat = min (currentBlock.toNat + 100) lastBlock.toNat := by
  have sum := toNat_add_batchSize currentBlock
  rw [Nat.mod_eq_of_lt fits] at sum
  unfold batchEnd
  split
  · next above =>
    rw [gt_iff_lt, UInt64.lt_iff_toNat_lt, sum] at above
    exact (Nat.min_eq_right (Nat.le_of_lt above)).symm
  · next within =>
    rw [gt_iff_lt, UInt64.lt_iff_toNat_lt, sum] at within
    rw [sum, Nat.min_eq_left (Nat.le_of_not_lt within)]

/-- The batches from `currentBlock` on, where no addition wraps around. -/
theorem exists_batches (fits : Fits { fromBlock := currentBlock, toBlock := lastBlock }) :
    ∃ fuel batches, processBlocksFrom lastBlock fuel currentBlock = some batches ∧
      Ordered batches ∧
      ∀ block, (∃ batch ∈ batches, batch.Contains block) ↔
        currentBlock ≤ block ∧ block ≤ lastBlock := by
  -- The induction is on the number of blocks that are left.
  induction left : lastBlock.toNat + 1 - currentBlock.toNat using Nat.strongRecOn
    generalizing currentBlock with
  | _ left ih =>
    by_cases below : currentBlock ≤ lastBlock
    case neg =>
      refine ⟨1, [], by rw [processBlocksFrom, if_neg below], ⟨by simp, List.Pairwise.nil⟩,
        fun block => ⟨fun ⟨_, member, _⟩ => absurd member List.not_mem_nil, fun inside => ?_⟩⟩
      exact absurd (UInt64.le_trans inside.1 inside.2) below
    case pos =>
      obtain ⟨batchFits, lastFits⟩ := fits below
      have below' := UInt64.le_iff_toNat_le.mp below
      have ends := @toNat_batchEnd currentBlock lastBlock
        (by simp only at batchFits; omega)
      have next := @toNat_succ (batchEnd currentBlock lastBlock)
        (by simp only at lastFits; omega)
      obtain ⟨fuel, batches, found, ordered, cover⟩ := @ih
        (lastBlock.toNat + 1 - (batchEnd currentBlock lastBlock + 1).toNat) (by omega)
        (batchEnd currentBlock lastBlock + 1) (fun rest => by
          simp only [UInt64.le_iff_toNat_le] at rest batchFits lastFits ⊢
          omega) rfl
      have inside : ∀ batch ∈ batches, batchEnd currentBlock lastBlock + 1 ≤ batch.fromBlock :=
        fun batch member => ((cover _).mp ⟨batch, member, UInt64.le_refl _, ordered.1 _ member⟩).1
      refine ⟨fuel + 1, _ :: batches, by rw [processBlocksFrom, if_pos below, found]; rfl,
        ⟨?_, List.pairwise_cons.mpr ⟨fun batch member => ?_, ordered.2⟩⟩, fun block => ?_⟩
      · rintro batch (_ | ⟨_, member⟩)
        · rw [UInt64.le_iff_toNat_le] at below ⊢
          rw [ends]
          exact Nat.le_min.mpr ⟨Nat.le_add_right _ _, below⟩
        · exact ordered.1 batch member
      · have after := inside batch member
        rw [UInt64.le_iff_toNat_le, next] at after
        exact UInt64.lt_iff_toNat_lt.mpr after
      · simp only [List.mem_cons, exists_eq_or_imp, cover]
        simp only [BlockRange.Contains, UInt64.le_iff_toNat_le, ends, next] at below ⊢
        omega

/-- A loop that is not at its end starts with a batch from the current block. -/
theorem exists_first (below : currentBlock ≤ lastBlock)
    (found : processBlocksFrom lastBlock fuel currentBlock = some batches) :
    ∃ batch ∈ batches, batch.fromBlock = currentBlock := by
  cases fuel with
  | zero => cases found
  | succ fuel =>
    rw [processBlocksFrom, if_pos below, Option.map_eq_some_iff] at found
    obtain ⟨rest, _, rfl⟩ := found
    exact ⟨_, List.mem_cons_self, rfl⟩

/-- The batch of a sum that wraps around ends before it starts. -/
theorem batchEnd_lt (below : currentBlock ≤ lastBlock)
    (wraps : 2 ^ 64 ≤ currentBlock.toNat + 100) :
    batchEnd currentBlock lastBlock < currentBlock := by
  have sum := toNat_add_batchSize currentBlock
  have bound := currentBlock.toNat_lt
  rw [UInt64.le_iff_toNat_le] at below
  have within : ¬currentBlock + BLOCK_BATCH_SIZE > lastBlock := by
    rw [gt_iff_lt, UInt64.lt_iff_toNat_lt, sum]
    omega
  rw [batchEnd, if_neg within, UInt64.lt_iff_toNat_lt, sum]
  omega

/-- Ordered batches are those of a loop in which no addition wraps around. -/
theorem fits_of_ordered (found : processBlocksFrom lastBlock fuel currentBlock = some batches)
    (ordered : Ordered batches) : Fits { fromBlock := currentBlock, toBlock := lastBlock } := by
  intro below
  induction fuel generalizing currentBlock batches with
  | zero => cases found
  | succ fuel ih =>
    rw [processBlocksFrom, if_pos below, Option.map_eq_some_iff] at found
    obtain ⟨rest, found, rfl⟩ := found
    obtain ⟨nonempty, pairwise⟩ := ordered
    obtain ⟨before, pairwise⟩ := List.pairwise_cons.mp pairwise
    have fits : currentBlock.toNat + 100 < 2 ^ 64 := by
      by_contra wraps
      exact absurd (nonempty _ List.mem_cons_self)
        (UInt64.not_le.mpr (batchEnd_lt below (Nat.le_of_not_lt wraps)))
    have ends := @toNat_batchEnd currentBlock lastBlock fits
    have bound := lastBlock.toNat_lt
    have lastFits : (batchEnd currentBlock lastBlock).toNat + 1 < 2 ^ 64 := by
      -- A loop that wraps around to block 0 goes on there.
      by_contra wraps
      have zero : batchEnd currentBlock lastBlock + 1 = 0 := by
        apply UInt64.toNat_inj.mp
        rw [UInt64.toNat_add, show (1 : UInt64).toNat = 1 from rfl]
        have small := (batchEnd currentBlock lastBlock).toNat_lt
        simp only [UInt64.toNat_zero]
        omega
      rw [zero] at found
      obtain ⟨batch, member, first⟩ := exists_first UInt64.zero_le found
      exact absurd (first ▸ before batch member) (UInt64.not_lt.mpr UInt64.zero_le)
    have next := toNat_succ lastFits
    by_cases more : batchEnd currentBlock lastBlock + 1 ≤ lastBlock
    · have rest := ih found ⟨fun batch member => nonempty batch (List.mem_cons_of_mem _ member),
        pairwise⟩ more
      simp only [UInt64.le_iff_toNat_le] at rest more below ⊢
      omega
    · simp only [UInt64.le_iff_toNat_le] at more below ⊢
      omega

end

/-- The batches of a range split it exactly when no addition wraps around. -/
theorem processBlockRange_splits_iff (blockRange : BlockRange) :
    (∃ batches, Splits blockRange batches) ↔ Fits blockRange := by
  constructor
  · rintro ⟨batches, ⟨fuel, found⟩, ordered, _⟩
    exact fits_of_ordered found ordered
  · intro fits
    obtain ⟨fuel, batches, found, ordered, cover⟩ := exists_batches fits
    exact ⟨batches, ⟨fuel, found⟩, ordered, cover⟩

/-! ## `watch_blocks` -/

/-- The progress that the watcher keeps across restarts, and the ranges that it has sent. -/
structure Watcher where
  lastSafeBlockProcessed : BlockNumber
  sent : List BlockRange := []
deriving DecidableEq, Repr

/-- `watch_blocks` fails and is started again, or it observes a latest safe block and, where
it sends a range, the channel takes it or not. -/
inductive WatchEvent where
  | restart
  | observed (latestSafeBlock : BlockNumber) (sends : Bool)
deriving DecidableEq, Repr

/-- The range that is sent for an observed block. -/
def rangeToSend (lastSafeBlockProcessed latestSafeBlock : BlockNumber) : BlockRange where
  fromBlock :=
    if saturatingSub latestSafeBlock RETRY_PREVIOUS_BLOCKS > lastSafeBlockProcessed then
      lastSafeBlockProcessed
    else
      saturatingSub latestSafeBlock RETRY_PREVIOUS_BLOCKS
  toBlock := latestSafeBlock

def Watcher.step (w : Watcher) : WatchEvent → Watcher
  | .restart => w
  | .observed latestSafeBlock sends =>
    if latestSafeBlock > w.lastSafeBlockProcessed ∧ sends then
      { lastSafeBlockProcessed := latestSafeBlock
        sent := w.sent ++ [rangeToSend w.lastSafeBlockProcessed latestSafeBlock] }
    else
      w

/-- `watch_blocks_wrapper`, from the first safe block on. -/
def watchBlocks (latestSafeBlock : BlockNumber) (events : List WatchEvent) : Watcher :=
  events.foldl Watcher.step { lastSafeBlockProcessed := latestSafeBlock }

/-- The ranges sent end at the progress, and cover every block from `start` up to it. -/
structure Covers (start : BlockNumber) (w : Watcher) : Prop where
  progress : start ≤ w.lastSafeBlockProcessed
  unsent : w.sent = [] → w.lastSafeBlockProcessed = start
  highest : ∀ blockRange ∈ w.sent, blockRange.toBlock ≤ w.lastSafeBlockProcessed
  covered : w.sent ≠ [] → ∀ block, start ≤ block → block ≤ w.lastSafeBlockProcessed →
    ∃ blockRange ∈ w.sent, blockRange.Contains block

theorem rangeToSend_fromBlock_le (lastSafeBlockProcessed latestSafeBlock : BlockNumber) :
    (rangeToSend lastSafeBlockProcessed latestSafeBlock).fromBlock ≤ lastSafeBlockProcessed := by
  unfold rangeToSend
  split
  · exact UInt64.le_refl _
  · next within => exact UInt64.not_lt.mp within

theorem Covers.step {start : BlockNumber} {w : Watcher} (covers : Covers start w)
    (event : WatchEvent) : Covers start (w.step event) := by
  cases event with
  | restart => exact covers
  | observed latestSafeBlock sends =>
    simp only [Watcher.step]
    split
    case isFalse => exact covers
    case isTrue sent =>
      have later : w.lastSafeBlockProcessed ≤ latestSafeBlock := UInt64.le_of_lt sent.1
      refine ⟨UInt64.le_trans covers.progress later, fun none => absurd none (by simp), ?_, ?_⟩
      · intro blockRange member
        rcases List.mem_append.mp member with old | new
        · exact UInt64.le_trans (covers.highest blockRange old) later
        · rw [List.mem_singleton.mp new]
          exact UInt64.le_refl _
      · intro _ block above below
        by_cases new : w.lastSafeBlockProcessed ≤ block
        · have start := rangeToSend_fromBlock_le w.lastSafeBlockProcessed latestSafeBlock
          exact ⟨_, List.mem_append_right _ (List.mem_singleton_self _),
            UInt64.le_trans start new, below⟩
        -- A block below the progress is one of a range that was sent before.
        · have before := UInt64.le_of_lt (UInt64.not_le.mp new)
          have some_sent : w.sent ≠ [] := by
            intro none
            rw [covers.unsent none] at new
            exact new above
          obtain ⟨blockRange, member, contains⟩ := covers.covered some_sent block above before
          exact ⟨blockRange, List.mem_append_left _ member, contains⟩

theorem covers_of_run (start : BlockNumber) (events : List WatchEvent) :
    Covers start (watchBlocks start events) := by
  have initial : Covers start { lastSafeBlockProcessed := start } :=
    ⟨UInt64.le_refl _, fun _ => rfl, fun _ none => absurd none List.not_mem_nil,
      fun some_sent => absurd rfl some_sent⟩
  unfold watchBlocks
  generalize ({ lastSafeBlockProcessed := start } : Watcher) = w at initial
  induction events generalizing w with
  | nil => exact initial
  | cons event events ih => exact ih (w.step event) (initial.step event)

/-- **Block coverage.** Whatever latest safe blocks were observed, and whichever sends and
runs of `watch_blocks` failed, the ranges sent contain every block from the first safe
block up to the end of any of them. A range is split into ordered, disjoint batches that
cover it exactly when no `u64` addition of `process_block_range` wraps around, and then
the block is in one of these batches. -/
theorem keeper_block_coverage (start : BlockNumber) (events : List WatchEvent) :
    (∀ blockRange, (∃ batches, Splits blockRange batches) ↔ Fits blockRange) ∧
      ∀ sentRange ∈ (watchBlocks start events).sent, ∀ block, start ≤ block →
        block ≤ sentRange.toBlock →
        ∃ blockRange ∈ (watchBlocks start events).sent, blockRange.Contains block ∧
          (Fits blockRange → ∃ batches, Splits blockRange batches ∧
            ∃ batch ∈ batches, batch.Contains block) := by
  refine ⟨processBlockRange_splits_iff, fun sentRange sent block above below => ?_⟩
  have covers := covers_of_run start events
  obtain ⟨blockRange, member, contains⟩ := covers.covered (List.ne_nil_of_mem sent) block above
    (UInt64.le_trans below (covers.highest sentRange sent))
  refine ⟨blockRange, member, contains, fun fits => ?_⟩
  obtain ⟨batches, splits⟩ := (processBlockRange_splits_iff blockRange).mpr fits
  exact ⟨batches, splits, (splits.2.2 block).mpr contains⟩

theorem keeper_block_coverage_run :
    ∃ blockRange ∈ (watchBlocks 5 [.observed 300 false, .restart, .observed 320 true]).sent,
      blockRange.Contains 107 ∧ (Fits blockRange → ∃ batches, Splits blockRange batches ∧
        ∃ batch ∈ batches, batch.Contains 107) :=
  (keeper_block_coverage 5 [.observed 300 false, .restart, .observed 320 true]).2
    { fromBlock := 5, toBlock := 320 } (by decide) 107 (by decide) (by decide)

/-- The loop over a range that ends at the last `u64` goes on at block 0. -/
theorem last_block_not_split :
    ∃ blockRange ∈ (watchBlocks 0xfffffffffffffffe [.observed 0xffffffffffffffff true]).sent,
      ¬∃ batches, Splits blockRange batches :=
  ⟨{ fromBlock := 0xffffffffffffff9b, toBlock := 0xffffffffffffffff }, by decide +kernel,
    fun splits => absurd ((processBlockRange_splits_iff _).mp splits) (by decide +kernel)⟩

end PythCrosschain.Fortuna
