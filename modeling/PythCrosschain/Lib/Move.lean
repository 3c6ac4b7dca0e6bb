import PythCrosschain.Lib.Bytes

/-!
# Move

A Move function that aborts undoes the whole transaction. Amounts and times are `u64`, and
`vector<u8>` is a list of bytes.
-/

namespace PythCrosschain.Move

abbrev U64 := BitVec 64

/-- Why a transaction aborts: a code of the module, a resource that is missing or there
already, an index out of bounds or an overflow, or a function of another package. -/
inductive Abort where
  | code (code : ℕ)
  | missingData
  | resourceAlreadyExists
  | vectorError
  | arithmeticError
  | external
deriving DecidableEq, Repr

abbrev Result (α : Type) := Except Abort α

/-- `assert!(p, code)`. -/
def assert (p : Prop) [Decidable p] (code : ℕ) : Result Unit :=
  if p then .ok () else .error (.code code)

/-- The value of an expression in `u64`, which aborts where it overflows. -/
def ofNat (n : ℕ) : Result U64 :=
  if n < 2 ^ 64 then .ok (BitVec.ofNat 64 n) else .error .arithmeticError

/-- `borrow_global`, and what else aborts where there is no value. -/
def orAbort {α : Type} (abort : Abort) : Option α → Result α
  | some a => .ok a
  | none => .error abort

theorem assert_eq_ok {p : Prop} [Decidable p] {code : ℕ} {u : Unit} :
    assert p code = .ok u ↔ p := by
  unfold assert
  split
  · next h => exact ⟨fun _ => h, fun _ => rfl⟩
  · next h => exact ⟨nofun, fun h' => absurd h' h⟩

theorem ofNat_eq_ok {n : ℕ} {x : U64} : ofNat n = .ok x ↔ x.toNat = n := by
  unfold ofNat
  split
  · next hlt =>
    rw [Except.ok.injEq, ← BitVec.toNat_inj, BitVec.toNat_ofNat, Nat.mod_eq_of_lt hlt, eq_comm]
  · next hlt => exact ⟨nofun, fun h => absurd (h ▸ x.isLt) hlt⟩

theorem orAbort_eq_ok {α : Type} {abort : Abort} {o : Option α} {a : α} :
    orAbort abort o = .ok a ↔ o = some a := by
  cases o with
  | none => exact ⟨nofun, nofun⟩
  | some b => simp only [orAbort, Except.ok.injEq, Option.some.injEq]

theorem pure_eq_ok {α : Type} {a b : α} : (pure a : Result α) = .ok b ↔ a = b := by
  simp only [pure, Except.pure, Except.ok.injEq]

/-! ## Vectors -/

section

variable {α : Type}

/-- `vector::borrow`. -/
def borrow (v : List α) (i : ℕ) : Result α := orAbort .vectorError v[i]?

/-- `vector::swap_remove`: the last element takes the place of the removed one. -/
def swapRemove (v : List α) (i : ℕ) : Result (α × List α) := do
  let removed ← borrow v i
  let last ← borrow v (v.length - 1)
  return (removed, (v.set i last).dropLast)

theorem borrow_getD {v : List α} {i : ℕ} (h : i < v.length) (default : α) :
    borrow v i = .ok (v.getD i default) := by
  rw [borrow, List.getD_eq_getElem?_getD, List.getElem?_eq_getElem h]
  rfl

/-- A pushed element that takes the place of an earlier one. -/
theorem swapRemove_concat {v : List α} {i : ℕ} (h : i < v.length) (a : α) :
    swapRemove (v ++ [a]) i = .ok (v.get ⟨i, h⟩, v.set i a) := by
  have hremoved : borrow (v ++ [a]) i = .ok (v.get ⟨i, h⟩) := by
    rw [borrow, List.getElem?_append_left h, List.getElem?_eq_getElem h]
    rfl
  have hlast : borrow (v ++ [a]) ((v ++ [a]).length - 1) = .ok a := by
    rw [borrow, List.length_append, List.length_singleton, Nat.add_sub_cancel,
      List.getElem?_concat_length]
    rfl
  have hset : (v ++ [a]).set i a = v.set i a ++ [a] := List.set_append_left i a h
  unfold swapRemove
  rw [hremoved, hlast]
  show Except.ok (_, ((v ++ [a]).set i a).dropLast) = _
  rw [hset, List.dropLast_concat]

end

end PythCrosschain.Move
