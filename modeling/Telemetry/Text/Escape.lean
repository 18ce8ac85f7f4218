/-!
# Quoted text with escapes

Text between double quotes in which quotes, backslashes and control characters
are written as escapes. The frequent control characters have a letter of their
own, the others four hexadecimal digits.
-/

namespace Telemetry.Text

/-- A hexadecimal digit in lower case. -/
def hexDigit (n : Nat) : Char := Nat.digitChar n

/-- One character inside quotes. -/
def escape (c : Char) : List Char :=
  if c = '"' then ['\\', '"']
  else if c = '\\' then ['\\', '\\']
  else if c = '\n' then ['\\', 'n']
  else if c = '\r' then ['\\', 'r']
  else if c = '\t' then ['\\', 't']
  else if c.toNat = 8 then ['\\', 'b']
  else if c.toNat = 12 then ['\\', 'f']
  else if c.toNat < 32 then ['\\', 'u', '0', '0', hexDigit (c.toNat / 16), hexDigit (c.toNat % 16)]
  else [c]

/-- A text between quotes. -/
def quote (cs : List Char) : List Char := '"' :: (cs.flatMap escape ++ ['"'])

example : quote "a\"b\n".toList = "\"a\\\"b\\n\"".toList := by decide

example : escape (Char.ofNat 31) = "\\u001f".toList := by decide

end Telemetry.Text
