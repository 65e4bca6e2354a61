import TelemetryRouter.Text.HiddenTable

/-!
# Quoted text

A text shown inside a description of a value stands between double quotes. Quotes and backslashes are written with a backslash
before them, the usual control characters by letter, and other characters that have no visible form by their code point in
hexadecimal digits.
-/

namespace TelemetryRouter.Quoted

/-- The lower-case hexadecimal digits of a number, without leading zeros. -/
def hexDigits (n : Nat) : String := String.ofList (Nat.toDigits 16 n)

/-- Whether a character is written by its code point. -/
def isHidden (c : Char) : Bool :=
  c.toNat < 32 || c.toNat = 0x7f || HiddenTable.hidden.any (fun r => r.1 ≤ c.toNat && c.toNat ≤ r.2)

/-- The written form of one character. -/
def escape (c : Char) : String :=
  if c = '"' then "\\\""
  else if c = '\\' then "\\\\"
  else if c = '\n' then "\\n"
  else if c = '\r' then "\\r"
  else if c = '\t' then "\\t"
  else if c.toNat = 0 then "\\0"
  else if isHidden c then "\\u\x7b" ++ hexDigits c.toNat ++ "\x7d"
  else c.toString

/-- A text between quotes. -/
def quote (s : String) : String := "\"" ++ String.join (s.toList.map escape) ++ "\""

end TelemetryRouter.Quoted
