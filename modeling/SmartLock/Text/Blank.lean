/-
# White space

The characters with the Unicode property White_Space, and texts without them at both ends.
-/

namespace SmartLock.Text

/-- A character with the property White_Space. -/
def isBlank (c : Char) : Bool :=
  ('\t' ≤ c && c ≤ '\r') || c = ' ' || c = '\u0085' || c = '\u00A0' || c = '\u1680' ||
    ('\u2000' ≤ c && c ≤ '\u200A') || c = '\u2028' || c = '\u2029' || c = '\u202F' ||
    c = '\u205F' || c = '\u3000'

/-- A text without the white space at its start. -/
def trimStart (s : List Char) : List Char := s.dropWhile isBlank

/-- A text without the white space at its end. -/
def trimEnd (s : List Char) : List Char := (trimStart s.reverse).reverse

/-- A text without the white space at both ends. -/
def trim (s : List Char) : List Char := trimEnd (trimStart s)

end SmartLock.Text
