import PythCrosschain.Lib.Bits
import PythCrosschain.Lib.Codec

/-!
# TVM

Data of the TON virtual machine is a tree of cells. What reads byte strings only follows first
references, so a cell is here the chain of cells that it starts, which is empty for `null`. A
slice is what is left of a cell. `Slice.all` is all data from a slice on, through the references.

Unsigned and signed integers that are loaded from `w` bits are bit vectors.
-/

namespace PythCrosschain.Tvm

inductive Exception where
  | code (code : ℕ)
  | typeCheck
  | rangeCheck
  | cellOverflow
  | cellUnderflow
deriving DecidableEq, Repr

abbrev Result (α : Type) := Except Exception α

/-- A chain of cells, or `null`. -/
abbrev Cell := List Bits

/-- What is left of a cell, and the cells behind it. -/
structure Slice where
  bits : Bits
  refs : Cell
deriving DecidableEq, Repr

def Slice.all (s : Slice) : Bits := s.bits ++ s.refs.flatten

/-- `slice_empty?`. -/
def Slice.IsEmpty (s : Slice) : Prop := s.bits = [] ∧ s.refs = []

instance (s : Slice) : Decidable s.IsEmpty := inferInstanceAs (Decidable (_ ∧ _))

/-- `begin_parse`. -/
def beginParse : Cell → Result Slice
  | [] => .error .typeCheck
  | bits :: refs => .ok ⟨bits, refs⟩

/-- `load_ref`, and `begin_parse` of the cell. -/
def Slice.followRef (s : Slice) : Result Slice :=
  match s.refs with
  | [] => .error .cellUnderflow
  | bits :: refs => .ok ⟨bits, refs⟩

def throwUnless (code : ℕ) (p : Prop) [Decidable p] : Result Unit :=
  if p then .ok () else .error (.code code)

def throwIf (code : ℕ) (p : Prop) [Decidable p] : Result Unit := throwUnless code (¬p)

/-! ## Loads -/

abbrev Reader (α : Type) := StateT Slice (Except Exception) α

def loadBits (n : ℕ) : Reader Bits := fun s =>
  if n ≤ s.bits.length then .ok (s.bits.take n, { s with bits := s.bits.drop n })
  else .error .cellUnderflow

/-- `load_uint` and `load_int`. -/
def loadInt (w : ℕ) : Reader (BitVec w) := fun s =>
  if w ≤ s.bits.length then
    .ok (BitVec.ofNat w (natBits (s.bits.take w)), { s with bits := s.bits.drop w })
  else .error .cellUnderflow

/-- `skip_bits`. -/
def skipBits (n : ℕ) : Reader Unit := fun s =>
  if n ≤ s.bits.length then .ok ((), { s with bits := s.bits.drop n })
  else .error .cellUnderflow

/-! ## Lemmas -/

@[simp] theorem throwUnless_eq_ok {code : ℕ} {p : Prop} [Decidable p] {u : Unit} :
    throwUnless code p = .ok u ↔ p := by
  unfold throwUnless
  split
  · next h => exact iff_of_true rfl h
  · next h => exact iff_of_false nofun h

@[simp] theorem throwIf_eq_ok {code : ℕ} {p : Prop} [Decidable p] {u : Unit} :
    throwIf code p = .ok u ↔ ¬p :=
  throwUnless_eq_ok

theorem beginParse_eq_ok {cell : Cell} {s : Slice} :
    beginParse cell = .ok s ↔ cell = s.bits :: s.refs := by
  cases cell with
  | nil => exact ⟨nofun, nofun⟩
  | cons bits refs =>
    obtain ⟨bits', refs'⟩ := s
    simp only [beginParse, Except.ok.injEq, Slice.mk.injEq, List.cons.injEq]

theorem loadInt_eq_ok {w : ℕ} {s s' : Slice} {v : BitVec w} :
    loadInt w s = .ok (v, s') ↔
      w ≤ s.bits.length ∧ v = BitVec.ofNat w (natBits (s.bits.take w)) ∧
        s' = { s with bits := s.bits.drop w } := by
  unfold loadInt
  split
  · next h =>
    simp only [Except.ok.injEq, Prod.mk.injEq, h, true_and]
    exact ⟨fun h => ⟨h.1.symm, h.2.symm⟩, fun h => ⟨h.1.symm, h.2.symm⟩⟩
  · next h => exact ⟨nofun, fun h' => absurd h'.1 h⟩

theorem loadBits_eq_ok {n : ℕ} {s s' : Slice} {bits : Bits} :
    loadBits n s = .ok (bits, s') ↔
      n ≤ s.bits.length ∧ bits = s.bits.take n ∧ s' = { s with bits := s.bits.drop n } := by
  unfold loadBits
  split
  · next h =>
    simp only [Except.ok.injEq, Prod.mk.injEq, h, true_and]
    exact ⟨fun h => ⟨h.1.symm, h.2.symm⟩, fun h => ⟨h.1.symm, h.2.symm⟩⟩
  · next h => exact ⟨nofun, fun h' => absurd h'.1 h⟩

/-- An integer that was stored is loaded again. -/
theorem loadInt_bitsBE {w : ℕ} (v : BitVec w) (rest : Bits) (refs : Cell) :
    loadInt w ⟨bitsBE w v.toNat ++ rest, refs⟩ = .ok (v, ⟨rest, refs⟩) := by
  have htake : (bitsBE w v.toNat ++ rest).take w = bitsBE w v.toNat :=
    List.take_left' (length_bitsBE w v.toNat)
  have hdrop : (bitsBE w v.toNat ++ rest).drop w = rest :=
    List.drop_left' (length_bitsBE w v.toNat)
  refine loadInt_eq_ok.mpr ⟨?_, ?_, by rw [hdrop]⟩
  · rw [List.length_append, length_bitsBE]
    exact Nat.le_add_right w _
  · rw [htake, natBits_bitsBE, Nat.mod_eq_of_lt v.isLt, BitVec.ofNat_toNat, BitVec.setWidth_eq]

theorem Slice.all_eq_nil {s : Slice} : s.all = [] ↔ s.bits = [] ∧ ∀ bits ∈ s.refs, bits = [] := by
  rw [Slice.all, List.append_eq_nil_iff, List.flatten_eq_nil_iff]

end PythCrosschain.Tvm
