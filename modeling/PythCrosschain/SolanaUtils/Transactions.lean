import PythCrosschain.SolanaUtils.TransactionBuilder

/-!
# Solana utils: what the transactions hold

The size of a transaction grows with its instructions (`getSizeOfTransaction_le`). So an
instruction that fits alone is never cut off, and one that does not has a batch of its own.
-/

namespace PythCrosschain.SolanaUtils

open Solana (AccountMeta Pubkey)
open XcAdmin (TransactionInstruction PACKET_DATA_SIZE)

/-! ## Sizes grow -/

theorem getSizeOfCompressedU16_le {n m : ℕ} (h : n ≤ m) :
    getSizeOfCompressedU16 n ≤ getSizeOfCompressedU16 m := by
  unfold getSizeOfCompressedU16
  split <;> split <;> split <;> split <;> omega

/-- The instructions `l` need no more than the instructions `m`. -/
structure Within (l m : List TransactionInstruction) : Prop where
  programs : programs l ⊆ programs m
  signers : signers l ⊆ signers m
  accounts : accounts l ⊆ accounts m
  sizes : (l.map instructionSize).sum ≤ (m.map instructionSize).sum
  length : l.length ≤ m.length

section

variable {l m : List TransactionInstruction} {addressLookupTable : Option (List Pubkey)}

theorem storedAccounts_subset_accounts (l : List TransactionInstruction)
    (addressLookupTable : Option (List Pubkey)) :
    storedAccounts l addressLookupTable ⊆ accounts l := by
  cases addressLookupTable with
  | none => exact Finset.Subset.rfl
  | some addresses =>
    refine Finset.union_subset (Finset.union_subset (Finset.filter_subset _ _) ?_) ?_
    · intro account haccount
      obtain ⟨ix, hix, rfl⟩ := List.mem_map.mp (List.mem_toFinset.mp haccount)
      exact List.mem_toFinset.mpr (List.mem_flatMap.mpr ⟨ix, hix, List.mem_cons_self⟩)
    · intro account haccount
      obtain ⟨ix, hix, hkey⟩ := List.mem_flatMap.mp (List.mem_toFinset.mp haccount)
      have hmem := ((List.filter_sublist (p := AccountMeta.isSigner)).map
        AccountMeta.pubkey).subset hkey
      exact List.mem_toFinset.mpr (List.mem_flatMap.mpr ⟨ix, hix, List.mem_cons_of_mem _ hmem⟩)

theorem Within.stored (h : Within l m) (addressLookupTable : Option (List Pubkey)) :
    storedAccounts l addressLookupTable ⊆ storedAccounts m addressLookupTable := by
  cases addressLookupTable with
  | none => exact h.accounts
  | some addresses =>
    exact Finset.union_subset_union
      (Finset.union_subset_union (Finset.filter_subset_filter _ h.accounts) h.programs) h.signers

/-- An account that is looked up takes one byte, and one that is stored 32. -/
theorem getSizeOfTransaction_le (h : Within l m) (versionedTransaction : Bool) :
    getSizeOfTransaction l versionedTransaction addressLookupTable ≤
      getSizeOfTransaction m versionedTransaction addressLookupTable := by
  have hsigners := Finset.card_le_card h.signers
  have hstored := Finset.card_le_card (h.stored addressLookupTable)
  have haccounts := Finset.card_le_card h.accounts
  have hl := Finset.card_le_card (storedAccounts_subset_accounts l addressLookupTable)
  have hm := Finset.card_le_card (storedAccounts_subset_accounts m addressLookupTable)
  have hcompressedSigners := getSizeOfCompressedU16_le hsigners
  have hcompressedStored := getSizeOfCompressedU16_le hstored
  have hcompressedLength := getSizeOfCompressedU16_le h.length
  have hsizes := h.sizes
  unfold getSizeOfTransaction
  dsimp only
  omega

theorem toFinset_mono {l m : List Pubkey} (h : l ⊆ m) : l.toFinset ⊆ m.toFinset :=
  fun _ hkey => List.mem_toFinset.mpr (h (List.mem_toFinset.mp hkey))

theorem Within.of_sublist (h : l.Sublist m) : Within l m where
  programs := toFinset_mono (h.map _).subset
  signers := toFinset_mono (h.flatMap _).subset
  accounts := toFinset_mono (h.flatMap _).subset
  sizes := (h.map _).sum_le_sum fun _ _ => Nat.zero_le _
  length := h.length_le

/-- What needs no more needs no more behind the same instructions. -/
theorem Within.append_left (h : Within l m) (before : List TransactionInstruction) :
    Within (before ++ l) (before ++ m) where
  programs := by
    simp only [SolanaUtils.programs, List.map_append, List.toFinset_append]
    exact Finset.union_subset_union_right h.programs
  signers := by
    simp only [SolanaUtils.signers, List.flatMap_append, List.toFinset_append]
    exact Finset.union_subset_union_right h.signers
  accounts := by
    simp only [SolanaUtils.accounts, List.flatMap_append, List.toFinset_append]
    exact Finset.union_subset_union_right h.accounts
  sizes := by
    simp only [List.map_append, List.sum_append]
    exact Nat.add_le_add_left h.sizes _
  length := by
    simp only [List.length_append]
    exact Nat.add_le_add_left h.length _

end

theorem getSizeOfTransaction_sublist {l m : List TransactionInstruction} (h : l.Sublist m)
    (versionedTransaction : Bool) (addressLookupTable : Option (List Pubkey)) :
    getSizeOfTransaction l versionedTransaction addressLookupTable ≤
      getSizeOfTransaction m versionedTransaction addressLookupTable :=
  getSizeOfTransaction_le (.of_sublist h) versionedTransaction

/-- Without a lookup table a legacy transaction is two bytes smaller. -/
theorem getSizeOfTransaction_legacy (l : List TransactionInstruction) :
    getSizeOfTransaction l true none = getSizeOfTransaction l false none + 2 := by
  have hzero : getSizeOfCompressedU16 0 = 1 := rfl
  simp only [getSizeOfTransaction, hzero, if_true, Bool.false_and, Bool.true_and,
    Option.isSome_none, Bool.false_eq_true, if_false]
  omega

/-- The compute budget takes no more than what `addInstruction` leaves room for. -/
theorem within_room (web3 : Web3) (tipAccount payer : Pubkey) (units price : ℕ) :
    Within [web3.setComputeUnitLimit units, web3.setComputeUnitPrice price]
      [buildJitoTipInstruction web3 tipAccount payer 1, web3.setComputeUnitLimit 1] where
  programs := by
    simp [programs, buildJitoTipInstruction, web3.limit_programId, web3.price_programId]
  signers := by
    simp [signers, web3.limit_keys, web3.price_keys]
  accounts := by
    simp [accounts, buildJitoTipInstruction, web3.limit_programId, web3.price_programId,
      web3.limit_keys, web3.price_keys]
  sizes := by
    simp [instructionSize, buildJitoTipInstruction, web3.limit_keys, web3.price_keys,
      web3.transfer_keys, web3.limit_data, web3.price_data, web3.transfer_data,
      getSizeOfCompressedU16]
  length := le_rfl

/-! ## The entries of the builder -/

variable {Signer : Type}

/-- An instruction that is added, with the account that the call draws. -/
abbrev Added (Signer : Type) := Pubkey × InstructionWithEphemeralSigners Signer

/-- The instructions of a batch. -/
def userInstructions (batch : List (Added Signer)) : List TransactionInstruction :=
  batch.map (·.2.instruction)

/-- The entry of a batch. -/
def entryOf (batch : List (Added Signer)) : TransactionInstructions Signer where
  instructions := userInstructions batch
  signers := batch.flatMap (·.2.signers)
  computeUnits := (batch.map (·.2.computeUnits.getD 0)).sum

/-- The batch has room for the instruction, the tip and the compute unit limit. -/
def Joins (web3 : Web3) (payer : Pubkey) (addressLookupTable : Option (List Pubkey))
    (batch : List (Added Signer)) (item : Added Signer) : Prop :=
  getSizeOfTransaction (userInstructions batch ++ [item.2.instruction,
    buildJitoTipInstruction web3 item.1 payer 1, web3.setComputeUnitLimit 1])
    true addressLookupTable ≤ PACKET_DATA_SIZE

instance (web3 : Web3) (payer : Pubkey) (addressLookupTable : Option (List Pubkey))
    (batch : List (Added Signer)) (item : Added Signer) :
    Decidable (Joins web3 payer addressLookupTable batch item) :=
  inferInstanceAs (Decidable (_ ≤ _))

namespace TransactionBuilder

section

variable {web3 : Web3} {σ : TransactionBuilder Signer} {batches : List (List (Added Signer))}

theorem addInstruction_entries (h : σ.transactionInstructions = batches.map entryOf)
    (item : Added Signer) :
    (σ.addInstruction web3 item.1 item.2).transactionInstructions =
      (addToLast (Joins web3 σ.payer σ.addressLookupTable) batches item).map entryOf := by
  have hfresh : (⟨[item.2.instruction], item.2.signers, item.2.computeUnits.getD 0⟩ :
      TransactionInstructions Signer) = entryOf [item] := by
    simp only [entryOf, userInstructions, List.map_singleton, List.flatMap_singleton,
      List.sum_singleton]
  unfold addInstruction addToLast
  dsimp only
  rw [h, List.getLast?_map, hfresh]
  cases hlast : batches.getLast? with
  | none => rw [Option.map_none, List.map_append, List.map_singleton]
  | some last =>
    obtain ⟨before, rfl⟩ := List.getLast?_eq_some_iff.mp hlast
    rw [Option.map_some]
    dsimp only
    by_cases hjoins : Joins web3 σ.payer σ.addressLookupTable last item
    · rw [if_pos hjoins]
      refine (if_pos hjoins).trans ?_
      rw [List.map_append, List.map_singleton, List.dropLast_concat, List.dropLast_concat,
        List.map_append, List.map_singleton]
      simp only [entryOf, userInstructions, List.map_append, List.flatMap_append,
        List.sum_append, List.map_singleton, List.flatMap_singleton, List.sum_singleton]
    · rw [if_neg hjoins]
      refine (if_neg hjoins).trans ?_
      simp only [List.map_append, List.map_singleton]

theorem addInstructions_entries (items : List (Added Signer))
    (h : σ.transactionInstructions = batches.map entryOf) :
    (σ.addInstructions web3 items).transactionInstructions =
      (items.foldl (addToLast (Joins web3 σ.payer σ.addressLookupTable)) batches).map entryOf := by
  induction items generalizing σ batches with
  | nil => exact h
  | cons item items ih => exact ih (addInstruction_entries h item)

theorem addInstructions_payer (items : List (Added Signer)) :
    (σ.addInstructions web3 items).payer = σ.payer ∧
      (σ.addInstructions web3 items).addressLookupTable = σ.addressLookupTable := by
  induction items generalizing σ with
  | nil => exact ⟨rfl, rfl⟩
  | cons item items ih => exact ih

end

end TransactionBuilder

/-! ## One transaction -/

/-- The transaction of a batch that fits: it holds the whole batch and then as much of the compute
budget and of the tip as there is room for. Two or more instructions leave room for the whole
compute budget. -/
structure Sends (fits : List TransactionInstruction → Prop)
    (batch budget tip sent : List TransactionInstruction) : Prop where
  isFit : fits sent
  holds : ∃ extra dropped, sent = batch ++ extra ∧ extra ++ dropped = budget ++ tip ∧
    (∀ ix rest, dropped = ix :: rest → ¬ fits (sent ++ [ix])) ∧
    (2 ≤ batch.length → budget <+: extra)

def Fits (versionedTransaction : Bool) (addressLookupTable : Option (List Pubkey))
    (instructions : List TransactionInstruction) : Prop :=
  getSizeOfTransaction instructions versionedTransaction addressLookupTable ≤ PACKET_DATA_SIZE

instance (versionedTransaction : Bool) (addressLookupTable : Option (List Pubkey)) :
    DecidablePred (Fits versionedTransaction addressLookupTable) :=
  fun _ => inferInstanceAs (Decidable (_ ≤ _))

theorem Fits.sublist {versionedTransaction : Bool} {addressLookupTable : Option (List Pubkey)}
    {l m : List TransactionInstruction} (h : Fits versionedTransaction addressLookupTable m)
    (hsub : l.Sublist m) : Fits versionedTransaction addressLookupTable l :=
  (getSizeOfTransaction_sublist hsub _ _).trans h

theorem Fits.legacy {l : List TransactionInstruction} (h : Fits true none l) :
    Fits false none l := by
  unfold Fits at h ⊢
  rw [getSizeOfTransaction_legacy] at h
  omega

section

variable {web3 : Web3} {args : PriorityFeeConfig} {payer : Pubkey}
  {addressLookupTable : Option (List Pubkey)} {items batch : List (Added Signer)}
  {batches : List (List (Added Signer))} {tip sent : List TransactionInstruction}

/-- What is sent fits by the size that `addInstruction` takes, or by a smaller one. -/
structure Weaker (addressLookupTable : Option (List Pubkey))
    (fits : List TransactionInstruction → Prop) : Prop where
  sublist : ∀ l m, l.Sublist m → fits m → fits l
  weaken : ∀ l, Fits true addressLookupTable l → fits l

variable {fits : List TransactionInstruction → Prop}

theorem length_userInstructions (batch : List (Added Signer)) :
    (userInstructions batch).length = batch.length :=
  List.length_map _

/-- A batch of two or more leaves room for the compute budget. -/
theorem fits_of_two (args : PriorityFeeConfig) (hweaker : Weaker addressLookupTable fits)
    (hpacked : Packed (Joins web3 payer addressLookupTable) items batches)
    (hbatch : batch ∈ batches) (htwo : 2 ≤ batch.length) :
    fits (userInstructions batch ++
      TransactionBuilder.computeBudget web3 args (entryOf batch)) := by
  rcases List.eq_nil_or_concat' batch with rfl | ⟨before, item, rfl⟩
  · exact absurd rfl (hpacked.ne_nil [] hbatch)
  have hbefore : before ≠ [] := by
    rintro rfl
    exact absurd htwo (by simp)
  have hjoins := hpacked.joined _ hbatch before item rfl hbefore
  have hroom : Fits true addressLookupTable (userInstructions (before ++ [item]) ++
      [web3.setComputeUnitLimit (entryOf (before ++ [item])).computeUnits,
        web3.setComputeUnitPrice (args.computeUnitPriceMicroLamports.getD 0)]) := by
    refine (getSizeOfTransaction_le ?_ true).trans hjoins
    have hwithin := (within_room web3 item.1 payer (entryOf (before ++ [item])).computeUnits
      (args.computeUnitPriceMicroLamports.getD 0)).append_left
        (userInstructions before ++ [item.2.instruction])
    rw [List.append_assoc _ [item.2.instruction]
      [buildJitoTipInstruction web3 item.1 payer 1, _]] at hwithin
    simp only [userInstructions, List.map_append, List.map_singleton]
    exact hwithin
  refine hweaker.weaken _ (hroom.sublist (List.Sublist.append_left ?_ _))
  unfold TransactionBuilder.computeBudget truthy
  refine @List.Sublist.append _ _ [_] _ [_] ?_ ?_
  · split
    · exact List.Sublist.refl _
    · exact List.nil_sublist _
  · cases args.computeUnitPriceMicroLamports with
    | none => exact List.nil_sublist _
    | some price =>
      by_cases hprice : price = 0 <;> simp [hprice, Option.filter]

/-- **The transaction of a batch whose instructions fit alone.** -/
theorem sends_batch (hweaker : Weaker addressLookupTable fits)
    (hpacked : Packed (Joins web3 payer addressLookupTable) items batches)
    (hbatch : batch ∈ batches) (halone : ∀ item ∈ batch, fits [item.2.instruction])
    (hsent : LongestFit fits (userInstructions batch ++
      TransactionBuilder.computeBudget web3 args (entryOf batch) ++ tip) sent) :
    Sends fits (userInstructions batch)
      (TransactionBuilder.computeBudget web3 args (entryOf batch)) tip sent := by
  have hmono : ∀ l m : List TransactionInstruction, l <+: m → fits m → fits l :=
    fun l m hle => hweaker.sublist l m hle.sublist
  have hfits : fits (userInstructions batch) := by
    rcases Nat.lt_or_ge batch.length 2 with hone | htwo
    · obtain ⟨item, rfl⟩ := List.length_eq_one_iff.mp (Nat.le_antisymm (Nat.le_of_lt_succ hone)
        (List.length_pos_iff.mpr (hpacked.ne_nil batch hbatch)))
      exact halone item List.mem_cons_self
    · exact hweaker.sublist _ _ (List.sublist_append_left _ _)
        (fits_of_two args hweaker hpacked hbatch htwo)
  rw [List.append_assoc] at hsent
  obtain ⟨extra, rfl⟩ := hsent.of_fits hmono (List.prefix_append _ _) hfits
  obtain ⟨dropped, hdropped⟩ := hsent.isPrefix
  rw [List.append_assoc, List.append_right_inj] at hdropped
  refine ⟨hsent.isFit fun hnil => ?_, extra, dropped, rfl, hdropped, fun ix rest hrest => ?_,
    fun htwo => ?_⟩
  · have hlength := congrArg List.length (List.append_eq_nil_iff.mp hnil).1
    rw [length_userInstructions] at hlength
    exact hpacked.ne_nil batch hbatch (List.length_eq_zero_iff.mp hlength)
  · refine hsent.full ix rest ?_
    rw [← hdropped, hrest, List.append_assoc]
  · rw [length_userInstructions] at htwo
    have hprefix := hsent.of_fits hmono (by rw [← List.append_assoc]; exact List.prefix_append _ _)
      (fits_of_two args hweaker hpacked hbatch htwo)
    exact (List.prefix_append_right_inj _).mp hprefix

/-- An instruction that does not fit alone has a batch of its own. -/
theorem alone_of_not_fits (hweaker : Weaker addressLookupTable fits)
    (hpacked : Packed (Joins web3 payer addressLookupTable) items batches)
    (hbatch : batch ∈ batches) {item : Added Signer} (hitem : item ∈ batch)
    (hbig : ¬ fits [item.2.instruction]) : batch = [item] := by
  rcases Nat.lt_or_ge batch.length 2 with hone | htwo
  · obtain ⟨item', rfl⟩ := List.length_eq_one_iff.mp (Nat.le_antisymm (Nat.le_of_lt_succ hone)
      (List.length_pos_iff.mpr (hpacked.ne_nil batch hbatch)))
    rw [List.mem_singleton.mp hitem]
  · have hfits := fits_of_two ⟨none, false, none, none⟩ hweaker hpacked hbatch htwo
    refine absurd (hweaker.sublist _ _ (List.Sublist.trans ?_ (List.sublist_append_left _ _)) hfits)
      hbig
    exact List.singleton_sublist.mpr (List.mem_map_of_mem hitem)

end

/-! ## All transactions -/

/-- The transaction that the batch at an index has become, among `numberOfTransactions`. -/
def HoldsBatch (fits : List TransactionInstruction → Prop) (web3 : Web3)
    (args : PriorityFeeConfig) (payer : Pubkey) (tipAccount : ℕ → Pubkey)
    (numberOfTransactions : ℕ) (batch : List (Added Signer) × ℕ)
    (tx : BuiltTransaction Signer) : Prop :=
  tx.signers = batch.1.flatMap (·.2.signers) ∧
    Sends fits (userInstructions batch.1) (TransactionBuilder.computeBudget web3 args
      (entryOf batch.1)) (TransactionBuilder.jitoTip web3 args payer (tipAccount batch.2)
        numberOfTransactions batch.2) tx.instructions

section

variable {web3 : Web3} {payer : Pubkey} {addressLookupTable : Option (List Pubkey)}
  {items : List (Added Signer)} {args : PriorityFeeConfig} {tipAccount : ℕ → Pubkey}

/-- The builder once the instructions are added. -/
def builderOf (web3 : Web3) (payer : Pubkey) (addressLookupTable : Option (List Pubkey))
    (items : List (Added Signer)) : TransactionBuilder Signer :=
  TransactionBuilder.addInstructions web3 { payer, addressLookupTable } items

theorem exists_batches (web3 : Web3) (payer : Pubkey) (addressLookupTable : Option (List Pubkey))
    (items : List (Added Signer)) :
    ∃ batches, Packed (Joins web3 payer addressLookupTable) items batches ∧
      (builderOf web3 payer addressLookupTable items).transactionInstructions =
        batches.map entryOf ∧
      (builderOf web3 payer addressLookupTable items).payer = payer ∧
      (builderOf web3 payer addressLookupTable items).addressLookupTable = addressLookupTable :=
  ⟨_, packed_foldl items, TransactionBuilder.addInstructions_entries items rfl,
    TransactionBuilder.addInstructions_payer items⟩

/-- The instructions as the library writes them. -/
def exWeb3 : Web3 where
  systemProgram := default
  computeBudgetProgram := ⟨List.replicate 32 3, List.length_replicate⟩
  transfer source target lamports :=
    ⟨default, [⟨source, true, true⟩, ⟨target, false, true⟩], bytesLE 4 2 ++ bytesLE 8 lamports⟩
  setComputeUnitLimit units :=
    ⟨⟨List.replicate 32 3, List.length_replicate⟩, [], 2 :: bytesLE 4 units⟩
  setComputeUnitPrice price :=
    ⟨⟨List.replicate 32 3, List.length_replicate⟩, [], 3 :: bytesLE 8 price⟩
  transfer_programId _ _ _ := rfl
  transfer_keys _ _ _ := rfl
  transfer_data _ _ _ := rfl
  limit_programId _ := rfl
  limit_keys _ := rfl
  limit_data _ := rfl
  price_programId _ := rfl
  price_keys _ := rfl
  price_data _ := rfl

/-- An instruction with `n` bytes of data. -/
def exAdded (n : ℕ) : Added Unit :=
  (default, ⟨⟨default, [], List.replicate n 0⟩, [], none⟩)

/-- The second instruction is too big for a transaction and is not sent. -/
example : ((builderOf exWeb3 default none [exAdded 8, exAdded 1200]).buildVersionedTransactions
    exWeb3 ⟨some 50000, false, none, none⟩ (fun _ => default)).map (·.instructions.length)
      = [2, 0] := by
  decide +kernel

theorem weaker_legacy : Weaker none (Fits false none) :=
  ⟨fun _ _ hsub hm => hm.sublist hsub, fun _ hl => hl.legacy⟩

theorem sendLegacy_eq {sent : List TransactionInstruction} (hsent : sent ≠ [])
    (rest : List TransactionInstruction) :
    TransactionBuilder.sendLegacy sent rest = .ok (takeFitting (Fits false none) sent rest) := by
  induction rest generalizing sent with
  | nil => rfl
  | cons ix rest ih =>
    rw [TransactionBuilder.sendLegacy, takeFitting]
    by_cases hfits : Fits false none (sent ++ [ix])
    · rw [if_pos hfits, ← ih (List.concat_ne_nil ix sent)]
      exact if_neg (Nat.not_lt.mpr hfits)
    · rw [if_neg hfits, if_pos (Nat.lt_of_not_le hfits), if_neg]
      exact fun h => hsent (List.length_eq_zero_iff.mp h)

/-- The first instruction throws, or the longest beginning that fits is sent. -/
theorem sendLegacy_cons (ix : TransactionInstruction) (rest : List TransactionInstruction) :
    TransactionBuilder.sendLegacy [] (ix :: rest) =
      if Fits false none [ix] then .ok (takeFitting (Fits false none) [] (ix :: rest))
      else .error (TransactionBuilder.tooBig (getSizeOfTransaction [ix] false none)) := by
  rw [TransactionBuilder.sendLegacy, takeFitting]
  by_cases hfits : Fits false none [ix]
  · rw [if_pos hfits, if_pos (show Fits false none ([] ++ [ix]) from hfits),
      ← sendLegacy_eq (List.concat_ne_nil ix [])]
    exact if_neg (Nat.not_lt.mpr hfits)
  · rw [if_neg hfits]
    exact if_pos (Nat.lt_of_not_le hfits)

/-- The entry of a batch becomes a transaction where all its instructions fit alone, or is one
instruction that throws. -/
theorem legacyTransaction_batch (args : PriorityFeeConfig) (tipAccount : ℕ → Pubkey)
    {σ : TransactionBuilder Signer}
    {batches : List (List (Added Signer))} {batch : List (Added Signer) × ℕ}
    (hpacked : Packed (Joins web3 payer none) items batches)
    (hentries : σ.transactionInstructions = batches.map entryOf) (hpayer : σ.payer = payer)
    (hbatch : batch.1 ∈ batches) :
    ((∀ item ∈ batch.1, Fits false none [item.2.instruction]) ∧
      ∃ tx, σ.legacyTransaction web3 args tipAccount (batch.map entryOf id) = .ok tx ∧
        HoldsBatch (Fits false none) web3 args payer tipAccount batches.length batch tx) ∨
    ∃ big, batch.1 = [big] ∧ ¬ Fits false none [big.2.instruction] ∧
      σ.legacyTransaction web3 args tipAccount (batch.map entryOf id) =
        .error (TransactionBuilder.tooBig
          (getSizeOfTransaction [big.2.instruction] false none)) := by
  obtain ⟨batch, index⟩ := batch
  unfold TransactionBuilder.legacyTransaction TransactionBuilder.instructionsWithComputeBudget
  rw [hentries, hpayer, List.length_map]
  dsimp only [Prod.map, id] at hbatch ⊢
  cases batch with
  | nil => exact absurd rfl (hpacked.ne_nil [] hbatch)
  | cons first rest =>
    have hsend := sendLegacy_cons first.2.instruction (userInstructions rest ++
      TransactionBuilder.computeBudget web3 args (entryOf (first :: rest)) ++
      TransactionBuilder.jitoTip web3 args payer (tipAccount index) batches.length index)
    by_cases hfirst : Fits false none [first.2.instruction]
    · rw [if_pos hfirst] at hsend
      have halone : ∀ item ∈ first :: rest, Fits false none [item.2.instruction] := by
        intro item hitem
        by_contra hbig
        have halone := alone_of_not_fits weaker_legacy hpacked hbatch hitem hbig
        rw [(List.cons.inj halone).1] at hfirst
        exact hbig hfirst
      refine .inl ⟨halone, _, congrArg (· >>= _) hsend, rfl, ?_⟩
      exact sends_batch weaker_legacy hpacked hbatch halone (longestFit_takeFitting _ _)
    · rw [if_neg hfirst] at hsend
      exact .inr ⟨first, alone_of_not_fits weaker_legacy hpacked hbatch List.mem_cons_self hfirst,
        hfirst, congrArg (· >>= _) hsend⟩

end

end PythCrosschain.SolanaUtils
