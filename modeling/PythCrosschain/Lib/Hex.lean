import PythCrosschain.Lib.Bytes

/-!
# Hexadecimal text

Two digits for each byte. Both cases are read, and the lower case is written. A text is the list
of its characters.
-/

namespace PythCrosschain.Hex

def digit (c : Char) : Option Nat :=
  if '0' ≤ c ∧ c ≤ '9' then some (c.toNat - '0'.toNat)
  else if 'a' ≤ c ∧ c ≤ 'f' then some (c.toNat - 'a'.toNat + 10)
  else if 'A' ≤ c ∧ c ≤ 'F' then some (c.toNat - 'A'.toNat + 10)
  else none

/-- `hex::decode`, without the reason why it fails. -/
def decode : List Char → Option Bytes
  | [] => some []
  | [_] => none
  | high :: low :: rest => do
    let high ← digit high
    let low ← digit low
    let bytes ← decode rest
    return UInt8.ofNat (16 * high + low) :: bytes

/-- The digit of a number below 16. -/
def digitChar (n : Nat) : Char := if n < 10 then Char.ofNat ('0'.toNat + n)
  else Char.ofNat ('a'.toNat + (n - 10))

/-- `hex::encode`. -/
def encode (bytes : Bytes) : List Char :=
  bytes.flatMap fun b => [digitChar (b.toNat / 16), digitChar (b.toNat % 16)]

/-! ## What is written is read -/

theorem digit_digitChar {n : Nat} (h : n < 16) : digit (digitChar n) = some n := by
  have hall : ∀ n : Fin 16, digit (digitChar n) = some n.val := by decide
  exact hall ⟨n, h⟩

theorem decode_encode (bytes : Bytes) : decode (encode bytes) = some bytes := by
  induction bytes with
  | nil => rfl
  | cons b bytes ih =>
    have hlt := b.toNat_lt
    have hcons : encode (b :: bytes)
        = digitChar (b.toNat / 16) :: digitChar (b.toNat % 16) :: encode bytes := rfl
    rw [hcons, decode, digit_digitChar (Nat.div_lt_of_lt_mul hlt),
      digit_digitChar (Nat.mod_lt _ (by decide)), ih]
    show some (UInt8.ofNat (16 * (b.toNat / 16) + b.toNat % 16) :: bytes) = _
    rw [Nat.div_add_mod, UInt8.ofNat_toNat]

end PythCrosschain.Hex
