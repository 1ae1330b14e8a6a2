/-
# Quoted texts

A text or a character between quotes, on one line and without invisible characters: the quote
itself, the backslash, tab, newline, return and NUL are written with a backslash, all other
invisible characters by their number.
-/
import SmartLock.Text.Invisible

namespace SmartLock.Text

/-- The lower-case hexadecimal digits of a number. -/
def hexNumber (n : Nat) : List Char := Nat.toDigits 16 n

/-- One character as it stands between quotes of the kind `quote`. -/
def quotedChar (quote c : Char) : List Char :=
  if c = quote || c = '\\' then ['\\', c]
  else if c = '\t' then ['\\', 't']
  else if c = '\n' then ['\\', 'n']
  else if c = '\r' then ['\\', 'r']
  else if c = '\x00' then ['\\', '0']
  else if isInvisible c then ['\\', 'u', '\x7b'] ++ hexNumber c.toNat ++ ['\x7d']
  else [c]

/-- A text in double quotes. -/
def quote (s : String) : String :=
  String.ofList ('"' :: s.toList.flatMap (quotedChar '"') ++ ['"'])

/-- A character in single quotes. -/
def quoteChar (c : Char) : String := String.ofList ('\'' :: quotedChar '\'' c ++ ['\''])

end SmartLock.Text
