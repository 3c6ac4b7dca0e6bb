import PythCrosschain.Evm.Solidity
import PythCrosschain.Lib.Codec
import PythCrosschain.Lib.Shuffle

/-!
# The entropy SDK: `PRNG.sol`

A random number is the hash of the seed and a nonce. `randomPermutation` exchanges each position of
the array with a random one that is not before it. Gas and memory are unlimited.

The results are:

- `randomPermutation_eq_ok`: the array is that of the exchanges with the choices of the hashes, one
  hash for each position;
- `random_permutation_fair`: each permutation comes from exactly one sequence of choices;
- `randUintRange_eq_ok`: a random number in a range.
-/

namespace PythCrosschain

open Shuffle (Choices exchanges arrange)

structure PRNG where
  seed : Bytes32
  nonce : Uint256
deriving DecidableEq

namespace PRNG

/-! ## The contract -/

/-- `a % b`, which panics where `b` is zero. -/
def checkedMod (a b : Uint256) : Exec Empty Uint256 :=
  if b = 0 then .error (.panic 0x12) else .ok (a % b)

def readAt (xs : List Uint256) (i : Uint256) : Exec Empty Uint256 :=
  match xs[i.toNat]? with
  | some x => .ok x
  | none => .error (.panic 0x32)

def writeAt (xs : List Uint256) (i x : Uint256) : Exec Empty (List Uint256) :=
  if i.toNat < xs.length then .ok (xs.set i.toNat x) else .error (.panic 0x32)

/-- `(permutation[i], permutation[j]) = (permutation[j], permutation[i])`. -/
def exchange (permutation : List Uint256) (i j : Uint256) : Exec Empty (List Uint256) := do
  let atJ ← readAt permutation j
  let atI ← readAt permutation i
  let permutation ← writeAt permutation i atJ
  writeAt permutation j atI

/-- The counter of a loop. -/
def word (i : ℕ) : Uint256 := BitVec.ofNat 256 i

section

variable (keccak256 : Bytes → Bytes32)

def nextBytes32 (self : PRNG) : Exec Empty (Bytes32 × PRNG) := do
  let result := keccak256 (wordBytes self.seed ++ wordBytes self.nonce)
  let nonce ← checkedAdd self.nonce 1
  return (result, { self with nonce })

def randUint (self : PRNG) : Exec Empty (Uint256 × PRNG) := nextBytes32 keccak256 self

def randUintRange (self : PRNG) (min max : Uint256) : Exec Empty (Uint256 × PRNG) := do
  require (max > min) (.reason "Max must be greater than min")
  let (value, self) ← randUint keccak256 self
  let range ← checkedSub max min
  let offset ← checkedMod value range
  let result ← checkedAdd offset min
  return (result, self)

/-- The loop that fills the array. -/
def fill (length : ℕ) : Exec Empty (List Uint256) :=
  (List.range length).foldlM (fun permutation i => writeAt permutation (word i) (word i))
    (List.replicate length 0)

/-- One round of the loop of exchanges. -/
def round (length : Uint256) (acc : List Uint256 × PRNG) (i : ℕ) :
    Exec Empty (List Uint256 × PRNG) := do
  let (value, self) ← randUint keccak256 acc.2
  let remaining ← checkedSub length (word i)
  let offset ← checkedMod value remaining
  let j ← checkedAdd (word i) offset
  let permutation ← exchange acc.1 (word i) j
  return (permutation, self)

def randomPermutation (self : PRNG) (length : Uint256) : Exec Empty (List Uint256 × PRNG) := do
  let permutation ← fill length.toNat
  (List.range length.toNat).foldlM (round keccak256 length) (permutation, self)

/-! ## What it is for -/

/-- The array that is permuted. -/
def positions (length : Uint256) : List Uint256 :=
  List.ofFn fun i : Fin length.toNat => word i

/-- The exchanges of the loop, with given choices. -/
def exchangeAll (length : Uint256) (c : Choices length.toNat) : Exec Empty (List Uint256) :=
  (List.finRange length.toNat).foldlM
    (fun permutation (i : Fin length.toNat) => exchange permutation (word i) (word (c i).1))
    (positions length)

/-- The hash with the `i`-th nonce from now on. -/
def draw (self : PRNG) (i : ℕ) : Uint256 :=
  keccak256 (wordBytes self.seed ++ wordBytes (self.nonce + word i))

/-- The choices that the hashes make. -/
def choices (self : PRNG) (length : Uint256) : Choices length.toNat := fun i =>
  ⟨⟨i + (draw keccak256 self i).toNat % (length.toNat - i), by
      have hlt := Nat.mod_lt (draw keccak256 self i).toNat (Nat.sub_pos_of_lt i.isLt)
      omega⟩,
    Fin.mk_le_mk.mpr (Nat.le_add_right _ _)⟩

end

/-! ## Arrays -/

theorem toNat_word {i : ℕ} (h : i < 2 ^ 256) : (word i).toNat = i := by
  rw [word, BitVec.toNat_ofNat, Nat.mod_eq_of_lt h]

theorem word_injective (length : Uint256) :
    Function.Injective fun i : Fin length.toNat => word i := by
  intro i j h
  have hnat := congrArg BitVec.toNat h
  have hlt := length.isLt
  simp only [toNat_word (i.isLt.trans hlt), toNat_word (j.isLt.trans hlt)] at hnat
  exact Fin.ext hnat

theorem exchange_ofFn {n : ℕ} (f : Fin n → Uint256) {i j : Uint256} (hi : i.toNat < n)
    (hj : j.toNat < n) :
    exchange (List.ofFn f) i j
      = .ok (List.ofFn (f ∘ Equiv.swap ⟨i.toNat, hi⟩ ⟨j.toNat, hj⟩)) := by
  have hread {k : Uint256} (hk : k.toNat < n) :
      readAt (List.ofFn f) k = .ok (f ⟨k.toNat, hk⟩) := by
    rw [readAt, List.getElem?_ofFn, dif_pos hk]
  have hwrite {xs : List Uint256} (hxs : xs.length = n) {k : Uint256} (hk : k.toNat < n)
      (x : Uint256) : writeAt xs k x = .ok (xs.set k.toNat x) := if_pos (hxs ▸ hk)
  rw [exchange, hread hj, except_ok_bind, hread hi, except_ok_bind, hwrite (List.length_ofFn) hi,
    except_ok_bind, hwrite (by rw [List.length_set, List.length_ofFn]) hj, ← Shuffle.set_set_ofFn]

/-- The loop fills the array with its positions. -/
theorem fill_eq (length : Uint256) : fill length.toNat = .ok (positions length) := by
  have hrounds : ∀ k ≤ length.toNat,
      (List.range k).foldlM (fun permutation i => writeAt permutation (word i) (word i))
          (List.replicate length.toNat 0)
        = (.ok ((List.range k).map word ++ List.replicate (length.toNat - k) 0) :
            Exec Empty (List Uint256)) := by
    intro k hk
    induction k with
    | zero => rfl
    | succ k ih =>
      have hword : (word k).toNat = k := toNat_word (by omega)
      have hlast : List.replicate (length.toNat - k) (0 : Uint256)
          = 0 :: List.replicate (length.toNat - (k + 1)) 0 := by
        rw [← List.replicate_succ]
        exact congrArg (List.replicate · 0) (by omega)
      rw [List.range_succ, List.foldlM_append, ih (Nat.le_of_succ_le hk), except_ok_bind]
      simp only [List.foldlM_cons, List.foldlM_nil]
      rw [writeAt, if_pos (by simp [hword]; omega), except_ok_bind, hword, hlast,
        List.set_append_right _ _ (by simp)]
      simp
  have hpositions : positions length = (List.range length.toNat).map word := by
    rw [positions, List.ofFn_eq_map, ← List.map_coe_finRange_eq_range, List.map_map]
    rfl
  rw [fill, hrounds length.toNat le_rfl, hpositions]
  simp

/-! ## Exchanges -/

section

variable {keccak256 : Bytes → Bytes32} {length : Uint256}

/-- An exchange of positions, as the code makes it, after the exchanges before it. -/
theorem exchange_exchanges (c : Choices length.toNat) (i : Fin length.toNat) :
    exchange (List.ofFn ((fun i : Fin length.toNat => word i) ∘ exchanges c i)) (word i) (word (c i).1)
      = .ok (List.ofFn ((fun i : Fin length.toNat => word i) ∘ exchanges c (i + 1))) := by
  have hlt := length.isLt
  have hi : (word i).toNat = i := toNat_word (i.isLt.trans hlt)
  have hj : (word (c i).1).toNat = (c i).1 := toNat_word ((c i).1.isLt.trans hlt)
  have hilt : (word i).toNat < length.toNat := hi.trans_lt i.isLt
  have hjlt : (word (c i).1).toNat < length.toNat := hj.trans_lt (c i).1.isLt
  have hswap : Equiv.swap (⟨(word i).toNat, hilt⟩ : Fin length.toNat) ⟨(word (c i).1).toNat, hjlt⟩
      = Equiv.swap i (c i).1 :=
    congrArg₂ Equiv.swap (Fin.ext hi) (Fin.ext hj)
  rw [exchange_ofFn _ hilt hjlt, Shuffle.exchanges_succ]
  rw [hswap]
  rfl

theorem exchangeAll_eq (c : Choices length.toNat) :
    exchangeAll length c = .ok (arrange (fun i : Fin length.toNat => word i) c) := by
  have hrounds : ∀ k ≤ length.toNat,
      ((List.finRange length.toNat).take k).foldlM
          (fun permutation (i : Fin length.toNat) => exchange permutation (word i) (word (c i).1))
          (positions length)
        = (.ok (List.ofFn ((fun i : Fin length.toNat => word i) ∘ exchanges c k)) :
            Exec Empty (List Uint256)) := by
    intro k hk
    induction k with
    | zero => rfl
    | succ k ih =>
      have hlast : (List.finRange length.toNat).take (k + 1)
          = (List.finRange length.toNat).take k ++ [⟨k, hk⟩] := by
        rw [List.take_succ_eq_append_getElem (by simpa using hk), List.getElem_finRange]
        rfl
      rw [hlast, List.foldlM_append, ih (Nat.le_of_succ_le hk), except_ok_bind]
      simp only [List.foldlM_cons, List.foldlM_nil]
      rw [exchange_exchanges c ⟨k, hk⟩]
      rfl
  have hall := hrounds length.toNat le_rfl
  rwa [List.take_of_length_le (by simp)] at hall

/-! ## What is random -/

theorem randUint_eq_ok {self self' : PRNG} {value : Uint256} :
    randUint keccak256 self = .ok (value, self') ↔
      value = draw keccak256 self 0 ∧ self'.seed = self.seed ∧
        self'.nonce.toNat = self.nonce.toNat + 1 := by
  have hdraw : draw keccak256 self 0 = keccak256 (wordBytes self.seed ++ wordBytes self.nonce) := by
    rw [draw, word, BitVec.add_zero]
  rw [hdraw]
  unfold randUint nextBytes32
  simp only [bind_eq_ok, checkedAdd_eq_ok, pure_eq_ok, Prod.mk.injEq]
  constructor
  · rintro ⟨nonce, hnonce, rfl, rfl⟩
    exact ⟨rfl, rfl, hnonce⟩
  · rintro ⟨rfl, hseed, hnonce⟩
    exact ⟨self'.nonce, hnonce, rfl, by rw [← hseed]⟩

/-- **A random number in a range** lies in the range, and uses one hash. -/
theorem randUintRange_eq_ok {self self' : PRNG} {min max value : Uint256} :
    randUintRange keccak256 self min max = .ok (value, self') ↔
      min < max ∧ self'.seed = self.seed ∧ self'.nonce.toNat = self.nonce.toNat + 1 ∧
        value.toNat = min.toNat
          + (draw keccak256 self 0).toNat % (max.toNat - min.toNat) := by
  unfold randUintRange
  simp only [bind_eq_ok, require_eq_ok, checkedSub_eq_ok, checkedAdd_eq_ok, pure_eq_ok,
    Prod.exists, Prod.mk.injEq, randUint_eq_ok]
  constructor
  · rintro ⟨_, hlt, drawn, next, ⟨rfl, hseed, hnonce⟩, range, hrange, offset, hoffset, result,
      hresult, rfl, rfl⟩
    refine ⟨hlt, hseed, hnonce, ?_⟩
    unfold checkedMod at hoffset
    split at hoffset
    · cases hoffset
    · cases hoffset
      rw [hresult, BitVec.toNat_umod, hrange, Nat.add_sub_cancel_left, Nat.add_comm]
  · rintro ⟨hlt, hseed, hnonce, hvalue⟩
    have hnat : min.toNat < max.toNat := BitVec.lt_def.mp hlt
    have hrange : (max - min).toNat = max.toNat - min.toNat := BitVec.toNat_sub_of_le (BitVec.le_of_lt hlt)
    have hzero : max - min ≠ 0 := by
      intro h
      rw [h] at hrange
      have : 0 = max.toNat - min.toNat := hrange
      omega
    refine ⟨(), hlt, _, self', ⟨rfl, hseed, hnonce⟩, max - min, by omega, _, if_neg hzero, value,
      ?_, rfl, rfl⟩
    rw [hvalue, BitVec.toNat_umod, hrange, Nat.add_comm]

/-! ## Random permutations -/

/-- One round uses the next hash, and makes the exchange that it chooses. -/
theorem round_eq_ok {self current self' : PRNG} {permutation : List Uint256}
    (i : Fin length.toNat) (hseed : current.seed = self.seed)
    (hnonce : current.nonce.toNat = self.nonce.toNat + i) :
    round keccak256 length (List.ofFn ((fun i : Fin length.toNat => word i) ∘
        exchanges (choices keccak256 self length) i), current) i = .ok (permutation, self') ↔
      permutation = List.ofFn ((fun i : Fin length.toNat => word i) ∘
        exchanges (choices keccak256 self length) (i + 1)) ∧
      self'.seed = self.seed ∧ self'.nonce.toNat = self.nonce.toNat + (i + 1) := by
  have hlt := length.isLt
  have hi : (word i).toNat = i := toNat_word (i.isLt.trans hlt)
  have hdraw : draw keccak256 current 0 = draw keccak256 self i := by
    have hword : current.nonce + word 0 = self.nonce + word i := by
      refine BitVec.eq_of_toNat_eq ?_
      rw [BitVec.toNat_add, BitVec.toNat_add, hi, ← hnonce]
      rfl
    rw [draw, draw, hseed, hword]
  have hle : word i ≤ length := BitVec.le_def.mpr (hi.trans_le i.isLt.le)
  have hremaining : (length - word i).toNat = length.toNat - i := by
    rw [BitVec.toNat_sub_of_le hle, hi]
  have hzero : length - word i ≠ 0 := by
    intro h
    rw [h] at hremaining
    have hpos := Nat.sub_pos_of_lt i.isLt
    rw [← hremaining] at hpos
    exact absurd hpos (lt_irrefl _)
  have hchoice : (choices keccak256 self length i).1
      = (i : ℕ) + (draw keccak256 self i).toNat % (length.toNat - i) := rfl
  have hmod : checkedMod (draw keccak256 self i) (length - word i)
      = .ok (draw keccak256 self i % (length - word i)) := if_neg hzero
  have hexchange := exchange_exchanges (choices keccak256 self length) i
  unfold round
  simp only [bind_eq_ok, checkedSub_eq_ok, checkedAdd_eq_ok, pure_eq_ok, Prod.exists,
    Prod.mk.injEq, randUint_eq_ok, hdraw, hseed]
  constructor
  · rintro ⟨_, drawn, ⟨rfl, hseed', hnonce'⟩, remaining, hsub, offset, hoffset, j, hj, _, hp, rfl, rfl⟩
    obtain rfl : remaining = length - word i :=
      BitVec.eq_of_toNat_eq (by omega)
    cases hmod.symm.trans hoffset
    obtain rfl : j = word (choices keccak256 self length i).1 := by
      refine BitVec.eq_of_toNat_eq ?_
      rw [toNat_word ((choices keccak256 self length i).1.isLt.trans hlt), hj, hi, BitVec.toNat_umod,
        hremaining, hchoice]
    cases hexchange.symm.trans hp
    exact ⟨rfl, hseed', by omega⟩
  · rintro ⟨rfl, hseed', hnonce'⟩
    refine ⟨_, self', ⟨rfl, hseed', by omega⟩, length - word i, by omega, _, hmod,
      word (choices keccak256 self length i).1, ?_, _, hexchange, rfl, rfl⟩
    rw [toNat_word ((choices keccak256 self length i).1.isLt.trans hlt), hi, BitVec.toNat_umod,
      hremaining, hchoice]

/-- **The permutation** is that of the exchanges with the choices of the hashes. -/
theorem randomPermutation_eq_ok {self self' : PRNG} {permutation : List Uint256} :
    randomPermutation keccak256 self length = .ok (permutation, self') ↔
      permutation = arrange (fun i : Fin length.toNat => word i) (choices keccak256 self length) ∧
        self'.seed = self.seed ∧ self'.nonce.toNat = self.nonce.toNat + length.toNat := by
  have hrounds : ∀ k ≤ length.toNat, ∀ permutation self',
      (List.range k).foldlM (round keccak256 length) (positions length, self)
          = .ok (permutation, self') ↔
        permutation = List.ofFn ((fun i : Fin length.toNat => word i) ∘
            exchanges (choices keccak256 self length) k) ∧
          self'.seed = self.seed ∧ self'.nonce.toNat = self.nonce.toNat + k := by
    intro k hk
    induction k with
    | zero =>
      intro permutation self'
      simp only [List.range_zero, List.foldlM_nil, pure_eq_ok, Prod.mk.injEq]
      constructor
      · rintro ⟨rfl, rfl⟩
        exact ⟨rfl, rfl, rfl⟩
      · rintro ⟨rfl, hseed, hnonce⟩
        refine ⟨rfl, ?_⟩
        cases self
        cases self'
        exact congrArg₂ PRNG.mk hseed.symm (BitVec.eq_of_toNat_eq hnonce.symm)
    | succ k ih =>
      intro permutation self'
      have hfits (current : PRNG) := ih (Nat.le_of_succ_le hk) (List.ofFn
        ((fun i : Fin length.toNat => word i) ∘ exchanges (choices keccak256 self length) k)) current
      rw [List.range_succ, List.foldlM_append]
      simp only [List.foldlM_cons, List.foldlM_nil, bind_pure]
      constructor
      · intro h
        obtain ⟨⟨before, current⟩, hbefore, hround⟩ := bind_eq_ok.mp h
        obtain ⟨rfl, hseed, hnonce⟩ := (ih (Nat.le_of_succ_le hk) _ _).mp hbefore
        exact (round_eq_ok ⟨k, hk⟩ hseed hnonce).mp hround
      · rintro ⟨hpermutation, hseed, hnonce⟩
        have hlt := self'.nonce.isLt
        have hcurrent : (self.nonce + word k).toNat = self.nonce.toNat + k := by
          rw [BitVec.toNat_add, toNat_word (by omega), Nat.mod_eq_of_lt (by omega)]
        refine bind_eq_ok.mpr ⟨(_, ⟨self.seed, self.nonce + word k⟩),
          (hfits _).mpr ⟨rfl, rfl, hcurrent⟩, ?_⟩
        have hround := @round_eq_ok keccak256 length self ⟨self.seed, self.nonce + word k⟩ self'
          permutation ⟨k, hk⟩ rfl hcurrent
        exact hround.mpr ⟨hpermutation, hseed, hnonce⟩
  rw [randomPermutation, fill_eq, except_ok_bind]
  exact hrounds length.toNat le_rfl permutation self'

/-- **Random permutations are fair.** A run makes the exchanges with the choices of its hashes, one
for each position; a run fails only where the nonces end. Every permutation of the positions comes
from exactly one sequence of choices, so all have the same probability. A random number in a range
lies in the range. -/
theorem random_permutation_fair (keccak256 : Bytes → Bytes32) (length : Uint256) :
    (∀ self, (∃ result, randomPermutation keccak256 self length = .ok result) ↔
      self.nonce.toNat + length.toNat < 2 ^ 256) ∧
    (∀ self permutation self', randomPermutation keccak256 self length = .ok (permutation, self') →
      exchangeAll length (choices keccak256 self length) = .ok permutation ∧
      permutation.Perm (positions length) ∧ self'.seed = self.seed ∧
      self'.nonce.toNat = self.nonce.toNat + length.toNat) ∧
    Set.BijOn (exchangeAll length) Set.univ {r | ∃ l, l.Perm (positions length) ∧ .ok l = r} ∧
    (∀ l, l.Perm (positions length) →
      (PMF.uniformOfFintype (Choices length.toNat)).map (exchangeAll length) (.ok l)
        = (length.toNat.factorial : ENNReal)⁻¹) ∧
    ∀ self min max, ((∃ result, randUintRange keccak256 self min max = .ok result) ↔
        min < max ∧ self.nonce.toNat + 1 < 2 ^ 256) ∧
      ∀ value self', randUintRange keccak256 self min max = .ok (value, self') →
        min ≤ value ∧ value < max ∧ self'.nonce.toNat = self.nonce.toNat + 1 := by
  have hall : exchangeAll length
      = fun c => .ok (arrange (fun i : Fin length.toNat => word i) c) := funext exchangeAll_eq
  obtain ⟨hmaps, hinjective, hsurjective⟩ := Shuffle.arrange_bijOn (word_injective length)
  refine ⟨fun self => ⟨?_, fun hfits => ?_⟩, fun self permutation self' h => ?_, ?_, fun l hl => ?_,
    fun self min max => ⟨⟨?_, ?_⟩, fun value self' h => ?_⟩⟩
  · rintro ⟨⟨permutation, self'⟩, h⟩
    obtain ⟨-, -, hnonce⟩ := randomPermutation_eq_ok.mp h
    exact hnonce ▸ self'.nonce.isLt
  · refine ⟨(_, ⟨self.seed, self.nonce + length⟩), randomPermutation_eq_ok.mpr ⟨rfl, rfl, ?_⟩⟩
    rw [BitVec.toNat_add, Nat.mod_eq_of_lt hfits]
  · obtain ⟨rfl, hseed, hnonce⟩ := randomPermutation_eq_ok.mp h
    exact ⟨exchangeAll_eq _, Shuffle.arrange_perm _ _, hseed, hnonce⟩
  · rw [hall]
    refine ⟨fun c hc => ⟨_, hmaps hc, rfl⟩, fun c hc c' hc' h => ?_, ?_⟩
    · exact hinjective hc hc' (Except.ok.inj h)
    · rintro _ ⟨l, hl, rfl⟩
      obtain ⟨c, hc, rfl⟩ := hsurjective hl
      exact ⟨c, hc, rfl⟩
  · obtain ⟨c, -, rfl⟩ := hsurjective hl
    rw [hall, PMF.map_apply, tsum_eq_single c, if_pos rfl, PMF.uniformOfFintype_apply,
      Shuffle.card_choices]
    intro c' hc'
    exact if_neg fun h => hc' (hinjective trivial trivial (Except.ok.inj h).symm)
  · rintro ⟨⟨value, self'⟩, h⟩
    obtain ⟨hlt, -, hnonce, -⟩ := randUintRange_eq_ok.mp h
    exact ⟨hlt, hnonce ▸ self'.nonce.isLt⟩
  · rintro ⟨hlt, hfits⟩
    have hnat : min.toNat < max.toNat := BitVec.lt_def.mp hlt
    have hmod := Nat.mod_lt (draw keccak256 self 0).toNat (Nat.sub_pos_of_lt hnat)
    have hmax := max.isLt
    refine ⟨(word (min.toNat + (draw keccak256 self 0).toNat % (max.toNat - min.toNat)),
      ⟨self.seed, self.nonce + 1⟩), randUintRange_eq_ok.mpr ⟨hlt, rfl, ?_, toNat_word (by omega)⟩⟩
    show (self.nonce + 1).toNat = _
    rw [BitVec.toNat_add]
    exact Nat.mod_eq_of_lt hfits
  · obtain ⟨hlt, -, hnonce, hvalue⟩ := randUintRange_eq_ok.mp h
    have hnat : min.toNat < max.toNat := BitVec.lt_def.mp hlt
    have hmod := Nat.mod_lt (draw keccak256 self 0).toNat (Nat.sub_pos_of_lt hnat)
    exact ⟨BitVec.le_def.mpr (by omega), BitVec.lt_def.mpr (by omega), hnonce⟩

end

example : (randomPermutation exKeccak ⟨5, 0⟩ 5).toOption.map Prod.fst = some [4, 1, 0, 3, 2] := by
  decide +kernel

end PRNG

end PythCrosschain
