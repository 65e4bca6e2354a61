/-!
# Hexadecimal text of bytes

Identifiers and keys are shown as two lower-case hexadecimal digits a byte, most significant digit first. Reading accepts
both cases of digit and nothing else, so what is written reads back (`decode_encode`).
-/

namespace TelemetryRouter.Hex

/-- The lower-case digit of a value below sixteen. -/
def digit (n : Nat) : Char := if n < 10 then Char.ofNat (48 + n) else Char.ofNat (87 + n)

/-- The value of a digit of either case. -/
def value? (c : Char) : Option Nat :=
  if '0' ≤ c ∧ c ≤ '9' then some (c.toNat - 48)
  else if 'a' ≤ c ∧ c ≤ 'f' then some (c.toNat - 87)
  else if 'A' ≤ c ∧ c ≤ 'F' then some (c.toNat - 55)
  else none

/-- The digits of a list of bytes. -/
def encodeChars : List UInt8 → List Char
  | [] => []
  | b :: rest => digit (b.toNat / 16) :: digit (b.toNat % 16) :: encodeChars rest

/-- The text of a list of bytes. -/
def encode (bytes : List UInt8) : String := String.ofList (encodeChars bytes)

/-- The bytes written by pairs of digits; none for an odd number of digits or a foreign character. -/
def decodeChars : List Char → Option (List UInt8)
  | [] => some []
  | [_] => none
  | hi :: lo :: rest => do
    let h ← value? hi
    let l ← value? lo
    let bytes ← decodeChars rest
    pure (UInt8.ofNat (16 * h + l) :: bytes)

/-- The bytes that a text writes. -/
def decode (text : String) : Option (List UInt8) := decodeChars text.toList

/-- Every digit has its value. -/
theorem value?_digit (n : Nat) (h : n < 16) : value? (digit n) = some n := by
  have key : ∀ m : Fin 16, value? (digit m.val) = some m.val := by decide
  exact key ⟨n, h⟩

/-- What is written reads back. -/
theorem decodeChars_encodeChars (bytes : List UInt8) : decodeChars (encodeChars bytes) = some bytes := by
  induction bytes with
  | nil => rfl
  | cons b rest ih =>
    have hb : b.toNat < 256 := b.toNat_lt
    have hi := value?_digit (b.toNat / 16) (by omega)
    have lo := value?_digit (b.toNat % 16) (by omega)
    have whole : 16 * (b.toNat / 16) + b.toNat % 16 = b.toNat := by omega
    have same : UInt8.ofNat (16 * (b.toNat / 16) + b.toNat % 16) = b := by rw [whole]; exact UInt8.ofNat_toNat
    simp only [encodeChars, decodeChars, hi, lo, ih, Option.bind_eq_bind, Option.bind_some, same, Option.pure_def]

theorem decode_encode (bytes : List UInt8) : decode (encode bytes) = some bytes := by
  simp [decode, encode, decodeChars_encodeChars]

end TelemetryRouter.Hex
