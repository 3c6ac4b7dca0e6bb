import Mathlib.Data.Set.Function
import PythCrosschain.Lib.Bytes

/-!
# Solidity values, reverts and transactions

The fixed-width Solidity types are bit vectors; `bytesN` values are their
big-endian numbers. A function that may revert returns in `Exec ε`, where `ε` is
the contract's error type. Arithmetic outside `unchecked` blocks reverts on
overflow (`checkedAdd`, `checkedSub`, `checkedMul`), and so do the `SafeCast`
conversions. Each of these has one lemma that says when it succeeds and what
number it returns.
-/

namespace PythCrosschain

abbrev Uint8 := BitVec 8
abbrev Uint16 := BitVec 16
abbrev Uint32 := BitVec 32
abbrev Uint64 := BitVec 64
abbrev Uint128 := BitVec 128
abbrev Uint256 := BitVec 256
abbrev Address := BitVec 160
abbrev Bytes20 := BitVec 160
abbrev Bytes32 := BitVec 256

/-- An `int32`, as its two's complement. -/
abbrev Int32Bits := BitVec 32

/-- An `int64`, as its two's complement. -/
abbrev Int64Bits := BitVec 64

/-- Why an execution reverted: a custom error, a `require` message, a compiler
panic, a check of the compiler that gives no data (value sent to a function that
is not payable), or a failed external call whose data is passed on. -/
inductive Revert (ε : Type) where
  | error (e : ε)
  | reason (message : String)
  | panic (code : Nat)
  | noData
  | externalCall
deriving DecidableEq, Repr

/-- The result of code that may revert. -/
abbrev Exec (ε α : Type) := Except (Revert ε) α

section Exec

variable {ε α β : Type}

/-- `if (!p) revert r`. -/
def require (p : Prop) [Decidable p] (r : Revert ε) : Exec ε Unit :=
  if p then .ok () else .error r

/-- The result of a call to another contract, which reverts with it. -/
def callResult (result : Option α) : Exec ε α :=
  match result with
  | none => .error .externalCall
  | some a => .ok a

@[simp] theorem callResult_eq_ok {result : Option α} {a : α} :
    (callResult result : Exec ε α) = .ok a ↔ result = some a := by
  cases result <;> simp [callResult]

@[simp] theorem require_eq_ok {p : Prop} [Decidable p] {r : Revert ε} {u : Unit} :
    require p r = .ok u ↔ p := by
  unfold require
  split <;> simp_all

@[simp] theorem bind_eq_ok {x : Exec ε α} {f : α → Exec ε β} {b : β} :
    (x >>= f) = .ok b ↔ ∃ a, x = .ok a ∧ f a = .ok b := by
  cases x with
  | error e => simp [bind, Except.bind]
  | ok a => simp [bind, Except.bind]

@[simp] theorem pure_eq_ok {a b : α} : (pure a : Exec ε α) = .ok b ↔ a = b := by
  simp [pure, Except.pure]

theorem toOption_eq_some {x : Exec ε α} {a : α} : x.toOption = some a ↔ x = .ok a := by
  cases x <;> simp [Except.toOption]

end Exec

/-! ## Checked arithmetic -/

section Arithmetic

variable {ε : Type} {w v : Nat}

def checkedAdd (a b : BitVec w) : Exec ε (BitVec w) :=
  if a.toNat + b.toNat < 2 ^ w then .ok (a + b) else .error (.panic 0x11)

def checkedSub (a b : BitVec w) : Exec ε (BitVec w) :=
  if b.toNat ≤ a.toNat then .ok (a - b) else .error (.panic 0x11)

def checkedMul (a b : BitVec w) : Exec ε (BitVec w) :=
  if a.toNat * b.toNat < 2 ^ w then .ok (a * b) else .error (.panic 0x11)

/-- The `SafeCast` conversion of an unsigned number to `v` bits. -/
def safeCast (v : Nat) (a : BitVec w) : Exec ε (BitVec v) :=
  if a.toNat < 2 ^ v then .ok (a.setWidth v)
  else .error (.reason ("SafeCast: value doesn't fit in " ++ toString v ++ " bits"))

@[simp] theorem checkedAdd_eq_ok {a b c : BitVec w} :
    (checkedAdd a b : Exec ε _) = .ok c ↔ c.toNat = a.toNat + b.toNat := by
  unfold checkedAdd
  split
  · next h =>
    rw [Except.ok.injEq, BitVec.toNat_eq, BitVec.toNat_add, Nat.mod_eq_of_lt h]
    exact eq_comm
  · next h =>
    have hc := c.isLt
    simp only [reduceCtorEq, false_iff]
    omega

@[simp] theorem checkedSub_eq_ok {a b c : BitVec w} :
    (checkedSub a b : Exec ε _) = .ok c ↔ a.toNat = b.toNat + c.toNat := by
  unfold checkedSub
  split
  · next h =>
    rw [Except.ok.injEq, BitVec.toNat_eq, BitVec.toNat_sub_of_le (by simpa [BitVec.le_def] using h)]
    omega
  · next h =>
    simp only [reduceCtorEq, false_iff]
    omega

@[simp] theorem checkedMul_eq_ok {a b c : BitVec w} :
    (checkedMul a b : Exec ε _) = .ok c ↔ c.toNat = a.toNat * b.toNat := by
  unfold checkedMul
  split
  · next h =>
    rw [Except.ok.injEq, BitVec.toNat_eq, BitVec.toNat_mul, Nat.mod_eq_of_lt h]
    exact eq_comm
  · next h =>
    have hc := c.isLt
    simp only [reduceCtorEq, false_iff]
    omega

@[simp] theorem safeCast_eq_ok {a : BitVec w} {c : BitVec v} :
    (safeCast v a : Exec ε _) = .ok c ↔ c.toNat = a.toNat := by
  unfold safeCast
  split
  · next h =>
    rw [Except.ok.injEq, BitVec.toNat_eq, BitVec.toNat_setWidth, Nat.mod_eq_of_lt h]
    exact eq_comm
  · next h =>
    have hc := c.isLt
    simp only [reduceCtorEq, false_iff]
    omega

end Arithmetic

/-! ## Packed encoding -/

/-- `abi.encodePacked` of one value of `k` bytes. -/
def packed {w : Nat} (k : Nat) (x : BitVec w) : Bytes := bytesBE k x.toNat

/-- The bytes of a word. -/
abbrev wordBytes (x : Bytes32) : Bytes := packed 32 x

@[simp] theorem length_packed {w : Nat} (k : Nat) (x : BitVec w) : (packed k x).length = k := by
  simp [packed]

theorem packed_inj {w k : Nat} (hw : w ≤ 8 * k) {x y : BitVec w}
    (h : packed k x = packed k y) : x = y := by
  have hle : 2 ^ w ≤ 256 ^ k := by
    calc 2 ^ w ≤ 2 ^ (8 * k) := Nat.pow_le_pow_right (by decide) hw
      _ = 256 ^ k := by rw [Nat.pow_mul]
  exact BitVec.eq_of_toNat_eq
    (bytesBE_inj (lt_of_lt_of_le x.isLt hle) (lt_of_lt_of_le y.isLt hle) h)

theorem wordBytes_inj {x y : Bytes32} : wordBytes x = wordBytes y ↔ x = y :=
  ⟨packed_inj (by decide), congrArg _⟩

/-- Two words packed one after the other determine both. -/
theorem wordBytes_append_inj {a b c d : Bytes32}
    (h : wordBytes a ++ wordBytes b = wordBytes c ++ wordBytes d) : a = c ∧ b = d := by
  have hlen : (wordBytes a).length = (wordBytes c).length := by simp
  obtain ⟨hac, hbd⟩ := List.append_inj h hlen
  exact ⟨wordBytes_inj.mp hac, wordBytes_inj.mp hbd⟩

/-! ## Transactions -/

/-- What a call sees of its block. -/
structure Block where
  number : Uint256
  timestamp : Uint256
  blockhash : Uint256 → Bytes32

/-- What a call sees of its caller and of the chain. -/
structure Env where
  sender : Address
  value : Uint256
  block : Block
  extcodesize : Address → Nat

/-- No two different byte strings of `S` have the same hash. -/
def NoCollision (keccak256 : Bytes → Bytes32) (S : Set Bytes) : Prop :=
  Set.InjOn keccak256 S

/-- A hash that keeps strings of one length apart, up to the length of a word,
and the few longer strings of the example runs. -/
def exKeccak (s : Bytes) : Bytes32 :=
  BitVec.ofNat 256 (natBE s + 7 * (natBE s / 2 ^ 256) + s.length * 2 ^ 240)

theorem exKeccak_inj {s t : Bytes} {k : Nat} (hk : k ≤ 28) (hs : s.length = k)
    (ht : t.length = k) (h : exKeccak s = exKeccak t) : s = t := by
  have hlt : ∀ u : Bytes, u.length = k → natBE u < 256 ^ 28 := fun u hu =>
    Nat.lt_of_lt_of_le (hu ▸ natBE_lt u) (Nat.pow_le_pow_right (by decide) hk)
  have hslt := hlt s hs
  have htlt := hlt t ht
  have hnat := congrArg BitVec.toNat h
  simp only [exKeccak, hs, ht, BitVec.toNat_ofNat] at hnat
  rw [Nat.div_eq_of_lt (by omega), Nat.div_eq_of_lt (by omega), Nat.mod_eq_of_lt (by omega),
    Nat.mod_eq_of_lt (by omega)] at hnat
  rw [← bytesBE_natBE s, ← bytesBE_natBE t, hs, ht,
    Nat.add_right_cancel (Nat.add_right_cancel hnat)]

end PythCrosschain
