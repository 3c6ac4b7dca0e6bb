import PythCrosschain.Evm.ByteArrays
import PythCrosschain.Lib.Rust

/-!
# `Bytes` of Sway

`get`, `split_at` and the conversions of the standard library that the Fuel contract reads its
messages with. `require` and `unwrap` are those of `Rust`: a failed `require` reverts with an
error, everything else that fails reverts without one.

Each read is said to be the `field` at its offset of the whole byte string, as it is for the
strict readers of the EVM contracts.
-/

namespace PythCrosschain.Fuel

export Rust (require require_eq_ok okOr okOr_eq_ok unwrap unwrap_eq_ok)

open BytesLib (field)

variable {ε : Type}

/-- `Bytes::split_at`. -/
def splitAt (bytes : Bytes) (mid : ℕ) : Rust.Result ε (Bytes × Bytes) :=
  if mid ≤ bytes.length then .ok (bytes.take mid, bytes.drop mid) else .error .panic

/-- `Bytes::get`. -/
def get (bytes : Bytes) (index : ℕ) : Option (BitVec 8) := bytes[index]?.map UInt8.toBitVec

/-- The array of `get(index).unwrap()`, `get(index + 1).unwrap()` and so on. -/
def getArray (bytes : Bytes) (index : ℕ) : ℕ → Rust.Result ε Bytes
  | 0 => .ok []
  | n + 1 => do
    let byte ← unwrap bytes[index]?
    let rest ← getArray bytes (index + 1) n
    return byte :: rest

/-- `from_be_bytes` of the integers. -/
def fromBeBytes (w : ℕ) (bytes : Bytes) : BitVec w := BitVec.ofNat w (natBE bytes)

/-- An integer from `n` calls of `get`. -/
def getUint (w n : ℕ) (bytes : Bytes) (index : ℕ) : Rust.Result ε (BitVec w) := do
  let read ← getArray bytes index n
  return fromBeBytes w read

/-- A `Bytes` into a `b256`: the bytes stand on the left, with zeros behind them. -/
def intoB256 (bytes : Bytes) : BitVec 256 :=
  BitVec.ofNat 256 (natBE (bytes.take 32 ++ List.replicate (32 - bytes.length) 0))

def tryAsU8 (n : ℕ) : Option (BitVec 8) := if n < 256 then some (BitVec.ofNat 8 n) else none

/-- The addition of unsigned integers, which reverts on overflow. -/
def checkedAdd {w : ℕ} (a b : BitVec w) : Rust.Result ε (BitVec w) :=
  if a.toNat + b.toNat < 2 ^ w then .ok (a + b) else .error .panic

/-- The multiplication of unsigned integers, which reverts on overflow. -/
def checkedMul {w : ℕ} (a b : BitVec w) : Rust.Result ε (BitVec w) :=
  if a.toNat * b.toNat < 2 ^ w then .ok (a * b) else .error .panic

/-- The subtraction of unsigned integers, which reverts on underflow. -/
def checkedSub {w : ℕ} (a b : BitVec w) : Rust.Result ε (BitVec w) :=
  if b.toNat ≤ a.toNat then .ok (a - b) else .error .panic

/-! ## Reads -/

variable {bytes : Bytes}

theorem splitAt_eq_ok {mid : ℕ} {parts : Bytes × Bytes} :
    (splitAt bytes mid : Rust.Result ε _) = .ok parts ↔
      mid ≤ bytes.length ∧ parts = (bytes.take mid, bytes.drop mid) := by
  unfold splitAt
  split
  · next h => exact ⟨fun e => ⟨h, (Except.ok.inj e).symm⟩, fun e => congrArg _ e.2.symm⟩
  · next h => exact ⟨nofun, fun e => absurd e.1 h⟩

theorem checkedAdd_eq_ok {w : ℕ} {a b c : BitVec w} :
    (checkedAdd a b : Rust.Result ε _) = .ok c ↔ a.toNat + b.toNat < 2 ^ w ∧ c = a + b := by
  unfold checkedAdd
  split
  · next h => exact ⟨fun e => ⟨h, (Except.ok.inj e).symm⟩, fun e => congrArg _ e.2.symm⟩
  · next h => exact ⟨nofun, fun e => absurd e.1 h⟩

theorem checkedSub_eq_ok {w : ℕ} {a b c : BitVec w} :
    (checkedSub a b : Rust.Result ε _) = .ok c ↔ b.toNat ≤ a.toNat ∧ c = a - b := by
  unfold checkedSub
  split
  · next h => exact ⟨fun e => ⟨h, (Except.ok.inj e).symm⟩, fun e => congrArg _ e.2.symm⟩
  · next h => exact ⟨nofun, fun e => absurd e.1 h⟩

theorem get_eq_some {index : ℕ} {b : BitVec 8} :
    get bytes index = some b ↔ index < bytes.length ∧ b = field bytes index 8 1 := by
  unfold get
  rw [Option.map_eq_some_iff]
  have hfield (h : index < bytes.length) : field bytes index 8 1 = bytes[index].toBitVec := by
    rw [field, List.drop_eq_getElem_cons h, List.take_succ_cons, List.take_zero, natBE, natBE,
      List.length_nil, pow_zero, Nat.mul_one, Nat.add_zero]
    exact BitVec.ofNat_toNat 8 _
  constructor
  · rintro ⟨byte, hbyte, rfl⟩
    obtain ⟨h, rfl⟩ := List.getElem?_eq_some_iff.mp hbyte
    exact ⟨h, (hfield h).symm⟩
  · rintro ⟨h, rfl⟩
    exact ⟨_, List.getElem?_eq_getElem h, (hfield h).symm⟩

theorem getArray_eq_ok {index n : ℕ} {read : Bytes} (hindex : index ≤ bytes.length) :
    (getArray bytes index n : Rust.Result ε _) = .ok read ↔
      index + n ≤ bytes.length ∧ read = (bytes.drop index).take n := by
  induction n generalizing index read with
  | zero =>
    rw [List.take_zero]
    exact ⟨fun h => ⟨hindex, (Except.ok.inj h).symm⟩, fun h => congrArg _ h.2.symm⟩
  | succ n ih =>
    simp only [getArray, except_bind_eq_ok, unwrap_eq_ok, List.getElem?_eq_some_iff]
    constructor
    · rintro ⟨byte, ⟨h, rfl⟩, rest, hrest, hread⟩
      obtain ⟨hlength, rfl⟩ := (ih h).mp hrest
      refine ⟨by omega, ?_⟩
      rw [List.drop_eq_getElem_cons h, List.take_succ_cons]
      exact (Except.ok.inj hread).symm
    · rintro ⟨hlength, rfl⟩
      have h : index < bytes.length := by omega
      refine ⟨bytes[index], ⟨h, rfl⟩, (bytes.drop (index + 1)).take n,
        (ih h).mpr ⟨by omega, rfl⟩, ?_⟩
      rw [List.drop_eq_getElem_cons h, List.take_succ_cons]
      rfl

theorem getUint_eq_ok {w n index : ℕ} [NeZero n] {v : BitVec w} :
    (getUint w n bytes index : Rust.Result ε _) = .ok v ↔
      index + n ≤ bytes.length ∧ v = field bytes index w n := by
  have hn := Nat.pos_of_ne_zero (NeZero.ne n)
  by_cases hindex : index ≤ bytes.length
  · simp only [getUint, except_bind_eq_ok, getArray_eq_ok hindex]
    constructor
    · rintro ⟨_, ⟨hlength, rfl⟩, hv⟩
      exact ⟨hlength, (Except.ok.inj hv).symm⟩
    · rintro ⟨hlength, rfl⟩
      exact ⟨_, ⟨hlength, rfl⟩, rfl⟩
  · refine iff_of_false (fun h => ?_) fun h => hindex (by omega)
    obtain ⟨k, rfl⟩ := Nat.exists_eq_succ_of_ne_zero hn.ne'
    simp only [getUint, getArray, except_bind_eq_ok, unwrap_eq_ok,
      List.getElem?_eq_some_iff] at h
    obtain ⟨_, ⟨_, ⟨hlt, -⟩, -⟩, -⟩ := h
    exact hindex hlt.le

/-- An array within the byte string. -/
theorem fromBeBytes_eq_field {w index n : ℕ} :
    fromBeBytes w ((bytes.drop index).take n) = field bytes index w n := rfl

theorem intoB256_eq_field {index : ℕ} (h : index + 32 ≤ bytes.length) :
    intoB256 ((bytes.drop index).take 32) = field bytes index 256 32 := by
  have hlength : ((bytes.drop index).take 32).length = 32 := by
    rw [List.length_take, List.length_drop]
    omega
  rw [intoB256, hlength, Nat.sub_self, List.replicate_zero, List.append_nil,
    List.take_of_length_le hlength.le]
  rfl

/-- An address, which the shift moves to the right end of the word. -/
theorem intoB256_shift {index : ℕ} (h : index + 20 ≤ bytes.length) :
    intoB256 ((bytes.drop index).take 20) >>> 96
      = (field bytes index 160 20).setWidth 256 := by
  have hlength : ((bytes.drop index).take 20).length = 20 := by
    rw [List.length_take, List.length_drop]
    omega
  have hlt : natBE ((bytes.drop index).take 20) < 2 ^ 160 := by
    have := natBE_lt ((bytes.drop index).take 20)
    rwa [hlength] at this
  have hzero : natBE (List.replicate (32 - 20) (0 : UInt8)) = 0 := by decide
  have hpow : 256 ^ (32 - 20) = 2 ^ 96 := by decide
  have hword : intoB256 ((bytes.drop index).take 20)
      = BitVec.ofNat 256 (natBE ((bytes.drop index).take 20) * 2 ^ 96) := by
    rw [intoB256, hlength, List.take_of_length_le (by omega), natBE_append, hzero,
      List.length_replicate, Nat.add_zero, hpow]
  rw [hword]
  apply BitVec.eq_of_toNat_eq
  rw [BitVec.toNat_ushiftRight, BitVec.toNat_ofNat, BitVec.toNat_setWidth, field,
    BitVec.toNat_ofNat, Nat.mod_eq_of_lt (by omega), Nat.mod_eq_of_lt hlt,
    Nat.mod_eq_of_lt (by omega), Nat.shiftRight_eq_div_pow, Nat.mul_div_cancel _ (by decide)]

end PythCrosschain.Fuel
