import PythCrosschain.Entropy.Contract
import PythCrosschain.Lib.Codec

/-!
# The provider's hash chains

`PebbleHashChain` keeps every `sampleInterval`-th value of a hash chain and hashes the
others out of these; `HashChainState` finds the chain that a sequence number belongs to
among the chains of all registrations. The results are:

- `pebble_chain_reveals`: whatever the sample interval, `revealIth i` hashes the secret
  `length - i` times;
- `reveal_of_split`: a sequence number is revealed by the last chain that starts at it or
  before it.
-/

namespace PythCrosschain.Fortuna

open Entropy (hashWord)

/-- How revealing fails: with one of the two errors of the source, or a panic. -/
inductive RevealError where
  | indexNotInRange
  | chainNotAvailable
  | panic
deriving DecidableEq, Repr

/-- Every `sampleInterval`-th value of a hash chain, the last of which is the hash of the
secret. -/
structure PebbleHashChain where
  hash : List Bytes32
  sampleInterval : Nat
  length : Nat
  sampleInterval_pos : 0 < sampleInterval
deriving Repr

section

variable (keccak256 : Bytes → Bytes32)

/-! ## Building a chain -/

/-- One round of the loop of `new`: the current value, and the values kept so far. -/
def newRound (sampleInterval : Nat) (acc : Bytes32 × List Bytes32) (i : Nat) :
    Bytes32 × List Bytes32 :=
  let current := hashWord keccak256 acc.1
  (current, if i % sampleInterval = 0 then acc.2 ++ [current] else acc.2)

/-- The loop of `new` over `1..length`. -/
def newLoop (secret : Bytes32) (length sampleInterval : Nat) : Bytes32 × List Bytes32 :=
  let current := hashWord keccak256 secret
  (List.range' 1 (length - 1)).foldl (newRound keccak256 sampleInterval) (current, [current])

/-- `PebbleHashChain::new`, which panics on a sample interval of zero. -/
def PebbleHashChain.new (secret : Bytes32) (length sampleInterval : Nat) :
    Option PebbleHashChain :=
  if hpos : 0 < sampleInterval then
    some
      { hash := (newLoop keccak256 secret length sampleInterval).2.reverse
        sampleInterval
        length
        sampleInterval_pos := hpos }
  else none

/-! ## Revealing -/

/-- The loop `while i_index > i`. -/
def hashDown (i : Nat) : Nat → Bytes32 → Bytes32
  | 0, val => val
  | iIndex + 1, val => if iIndex + 1 > i then hashDown i iIndex (hashWord keccak256 val) else val

/-- A subtraction of `usize`s, which panics below zero. -/
def usizeSub (a b : Nat) : Except RevealError Nat := if b ≤ a then .ok (a - b) else .error .panic

/-- `hash[i]`, which panics out of range. -/
def readHash (hash : List Bytes32) (i : Nat) : Except RevealError Bytes32 :=
  match hash[i]? with
  | some val => .ok val
  | none => .error .panic

/-- `reveal_ith`. -/
def PebbleHashChain.revealIth (chain : PebbleHashChain) (i : Nat) : Except RevealError Bytes32 :=
  if i < chain.length then do
    let last ← usizeSub chain.length 1
    let fromLast ← usizeSub last i
    let indexFromEndOfSubsampledList := fromLast / chain.sampleInterval
    let iIndex ← usizeSub last (indexFromEndOfSubsampledList * chain.sampleInterval)
    let lastHash ← usizeSub chain.hash.length 1
    let hashIndex ← usizeSub lastHash indexFromEndOfSubsampledList
    let val ← readHash chain.hash hashIndex
    return hashDown keccak256 i iIndex val
  else .error .indexNotInRange

/-- The chains of all registrations, and the sequence numbers where they start. -/
structure HashChainState where
  offsets : List Nat
  hashChains : List PebbleHashChain

/-- `HashChainState::reveal`. `partition_point` counts the leading offsets that are at
most the sequence number. -/
def HashChainState.reveal (state : HashChainState) (sequenceNumber : Nat) :
    Except RevealError Bytes32 :=
  match (state.offsets.takeWhile (· ≤ sequenceNumber)).length with
  | 0 => .error .chainNotAvailable
  | chainIndex + 1 =>
    match state.hashChains[chainIndex]? with
    | none => .error .panic
    | some chain =>
      match state.offsets[chainIndex]? with
      | none => .error .panic
      | some offset => chain.revealIth keccak256 (sequenceNumber - offset)

end

section

variable {keccak256 : Bytes → Bytes32} {secret : Bytes32} {length sampleInterval : Nat}

/-! ## What a chain holds -/

/-- After `rounds` rounds the loop holds that value of the chain, and of all values so far
those at the multiples of the interval. -/
theorem newLoop_rounds (rounds : Nat) :
    (List.range' 1 rounds).foldl (newRound keccak256 sampleInterval)
        (hashWord keccak256 secret, [hashWord keccak256 secret]) =
      ((hashWord keccak256)^[rounds] (hashWord keccak256 secret),
        (List.range (rounds / sampleInterval + 1)).map fun j =>
          (hashWord keccak256)^[j * sampleInterval] (hashWord keccak256 secret)) := by
  induction rounds with
  | zero => simp [Nat.zero_div]
  | succ rounds ih =>
    rw [List.range'_concat, List.foldl_append, ih, List.foldl_cons, List.foldl_nil, newRound,
      ← Function.iterate_succ_apply' (hashWord keccak256), Nat.mul_comm, Nat.mul_one,
      Nat.add_comm 1, Nat.succ_div]
    by_cases hkept : (rounds + 1) % sampleInterval = 0
    · have hdvd : sampleInterval ∣ rounds + 1 := Nat.dvd_of_mod_eq_zero hkept
      have hindex : (rounds / sampleInterval + 1) * sampleInterval = rounds + 1 := by
        have hquotient : (rounds + 1) / sampleInterval = rounds / sampleInterval + 1 := by
          rw [Nat.succ_div, if_pos hdvd]
        rw [← hquotient]
        exact Nat.div_mul_cancel hdvd
      rw [if_pos hkept, if_pos hdvd, @List.range_succ (rounds / sampleInterval + 1),
        List.map_append, List.map_singleton, hindex]
    · rw [if_neg hkept, if_neg (fun hdvd => hkept (Nat.mod_eq_zero_of_dvd hdvd)), Nat.add_zero]

theorem hashDown_eq (i : Nat) : ∀ (iIndex : Nat) (val : Bytes32),
    hashDown keccak256 i iIndex val = (hashWord keccak256)^[iIndex - i] val
  | 0, val => by rw [hashDown, Nat.zero_sub, Function.iterate_zero_apply]
  | iIndex + 1, val => by
    rw [hashDown]
    split
    · next hgt =>
      rw [hashDown_eq i iIndex, Nat.succ_sub (Nat.le_of_lt_succ hgt),
        Function.iterate_succ_apply]
    · next hle =>
      rw [Nat.sub_eq_zero_of_le (Nat.le_of_not_gt hle), Function.iterate_zero_apply]

theorem length_new {chain : PebbleHashChain}
    (hchain : PebbleHashChain.new keccak256 secret length sampleInterval = some chain) :
    chain.length = length := by
  unfold PebbleHashChain.new at hchain
  split at hchain
  · cases hchain
    rfl
  · cases hchain

theorem usizeSub_of_le {a b : Nat} (h : b ≤ a) : usizeSub a b = .ok (a - b) := if_pos h

/-- Reading a reversed list from its end. -/
theorem getElem?_reverse_end {α : Type} {xs : List α} {j : Nat} (hj : j < xs.length) :
    xs.reverse[xs.reverse.length - 1 - j]? = xs[j]? := by
  rw [List.length_reverse, List.getElem?_reverse (by omega)]
  congr 1
  omega

/-- Whatever the sample interval, a chain reveals the values of the hash chain of its
secret, the last value first. -/
theorem revealIth_new {chain : PebbleHashChain}
    (hchain : PebbleHashChain.new keccak256 secret length sampleInterval = some chain) {i : Nat}
    (hi : i < length) :
    chain.revealIth keccak256 i =
      .ok ((hashWord keccak256)^[length - 1 - i] (hashWord keccak256 secret)) := by
  unfold PebbleHashChain.new at hchain
  split at hchain
  · cases hchain
    have hle : (length - 1 - i) / sampleInterval * sampleInterval ≤ length - 1 - i :=
      Nat.div_mul_le_self _ _
    have hindex : (length - 1 - i) / sampleInterval < (length - 1) / sampleInterval + 1 :=
      Nat.lt_succ_of_le (Nat.div_le_div_right (Nat.sub_le _ _))
    simp only [PebbleHashChain.revealIth, newLoop, newLoop_rounds]
    rw [if_pos hi, usizeSub_of_le (by omega), except_ok_bind, usizeSub_of_le (by omega),
      except_ok_bind]
    generalize (length - 1 - i) / sampleInterval = index at hle hindex ⊢
    have hkept : index < ((List.range ((length - 1) / sampleInterval + 1)).map fun j =>
        (hashWord keccak256)^[j * sampleInterval] (hashWord keccak256 secret)).length := by
      simpa using hindex
    rw [usizeSub_of_le (by omega), except_ok_bind, usizeSub_of_le (by simp), except_ok_bind,
      usizeSub_of_le (by simpa using Nat.le_of_lt_succ hindex), except_ok_bind, readHash,
      getElem?_reverse_end hkept, List.getElem?_map, List.getElem?_range hindex]
    simp only [Option.map_some]
    rw [except_ok_bind, hashDown_eq, ← Function.iterate_add_apply]
    refine congrArg Except.ok (congrArg (fun k => (hashWord keccak256)^[k] _) ?_)
    omega
  · cases hchain

/-- A chain only reveals the values below its length. -/
theorem revealIth_lt {chain : PebbleHashChain} {i : Nat} {value : Bytes32}
    (h : chain.revealIth keccak256 i = .ok value) : i < chain.length := by
  unfold PebbleHashChain.revealIth at h
  split at h
  · assumption
  · cases h

/-- From its length on a chain answers with an error. -/
theorem revealIth_of_le {chain : PebbleHashChain} {i : Nat} (h : chain.length ≤ i) :
    chain.revealIth keccak256 i = .error .indexNotInRange := if_neg (Nat.not_lt.mpr h)

/-- **The pebbled chain is the full hash chain** of its secret. Nothing is read out of range and
no index underflows, since either would be a panic. -/
theorem pebble_chain_reveals (keccak256 : Bytes → Bytes32) (secret : Bytes32)
    (length sampleInterval : Nat) (hinterval : 1 ≤ sampleInterval) :
    ∃ chain, PebbleHashChain.new keccak256 secret length sampleInterval = some chain ∧
      (∀ i < length,
        chain.revealIth keccak256 i = .ok ((hashWord keccak256)^[length - i] secret)) ∧
      (∀ i, length ≤ i → chain.revealIth keccak256 i = .error .indexNotInRange) ∧
      ∀ i, 0 < i → i < length → ∃ value previous, chain.revealIth keccak256 i = .ok value ∧
        chain.revealIth keccak256 (i - 1) = .ok previous ∧ hashWord keccak256 value = previous := by
  obtain ⟨chain, hchain⟩ : ∃ chain,
      PebbleHashChain.new keccak256 secret length sampleInterval = some chain :=
    ⟨_, dif_pos hinterval⟩
  have hreveals : ∀ i < length,
      chain.revealIth keccak256 i = .ok ((hashWord keccak256)^[length - i] secret) := by
    intro i hi
    have hlast : length - i = length - 1 - i + 1 := by omega
    rw [revealIth_new hchain hi, hlast, Function.iterate_succ_apply]
  refine ⟨chain, hchain, hreveals, fun i hi => ?_, fun i hpos hi => ?_⟩
  · exact revealIth_of_le ((length_new hchain).le.trans hi)
  · have hnext : length - (i - 1) = length - i + 1 := by omega
    refine ⟨_, _, hreveals i hi, hreveals (i - 1) (by omega), ?_⟩
    rw [hnext, Function.iterate_succ_apply']

theorem pebble_chain_reveals_uneven :
    ∃ chain, PebbleHashChain.new exKeccak 7 10 3 = some chain ∧
      (∀ i < 10, chain.revealIth exKeccak i = .ok ((hashWord exKeccak)^[10 - i] 7)) ∧
      (∀ i, 10 ≤ i → chain.revealIth exKeccak i = .error .indexNotInRange) ∧
      ∀ i, 0 < i → i < 10 → ∃ value previous, chain.revealIth exKeccak i = .ok value ∧
        chain.revealIth exKeccak (i - 1) = .ok previous ∧ hashWord exKeccak value = previous :=
  pebble_chain_reveals exKeccak 7 10 3 (by decide)

/-! ## Which chain reveals -/

/-- A sequence number is revealed by the last chain that starts at it or before it. -/
theorem reveal_of_split {before after : List Nat} {offset sequenceNumber : Nat}
    {hashChains : List PebbleHashChain} {chain : PebbleHashChain}
    (hchain : hashChains[before.length]? = some chain)
    (hbefore : ∀ x ∈ before, x ≤ sequenceNumber) (hoffset : offset ≤ sequenceNumber)
    (hafter : ∀ x ∈ after, sequenceNumber < x) :
    HashChainState.reveal keccak256 ⟨before ++ offset :: after, hashChains⟩ sequenceNumber =
      chain.revealIth keccak256 (sequenceNumber - offset) := by
  have hpoint : (before ++ offset :: after).takeWhile (· ≤ sequenceNumber) =
      before ++ [offset] := by
    rw [List.takeWhile_append_of_pos (by simpa using hbefore),
      List.takeWhile_cons_of_pos (by simpa using hoffset)]
    cases after with
    | nil => rfl
    | cons x after =>
      have hx := hafter x List.mem_cons_self
      rw [List.takeWhile_cons_of_neg (by simpa using hx)]
  have hlast : (before ++ offset :: after)[before.length]? = some offset := by simp
  simp only [HashChainState.reveal, hpoint, List.length_append, List.length_singleton, hchain,
    hlast]

end

end PythCrosschain.Fortuna
