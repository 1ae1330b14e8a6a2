/-
# UTF-8

Characters as bytes and back.  `firstChar?` reads one character, `validPrefix` all of them
up to the first byte that UTF-8 cannot hold, and `decodeLossy` puts U+FFFD in the place of
every broken sequence.  On top of these stand the two cuts that text fields of a fixed size
need: `truncate` (whole characters that fit a number of bytes) and `cleanupTail` (the text
before the first zero byte and the first broken sequence).
-/
import SmartLock.Bytes

namespace SmartLock.Utf8

/-! ## Writing -/

/-- The bytes of a text. -/
def encode (s : List Char) : Bytes := s.flatMap String.utf8EncodeChar

/-- The bytes of a string. -/
def bytesOf (s : String) : Bytes := encode s.toList

/-! ## Reading one character -/

/-- A continuation byte. -/
def isTail (b : UInt8) : Bool := 0x80 ≤ b && b ≤ 0xBF

/-- The second byte of a sequence: a continuation byte, and after `E0`, `ED`, `F0` and `F4`
one from a narrower range, so that nothing is written in more bytes than it needs, no
surrogate is written and nothing lies above U+10FFFF. -/
def isSecond (first b : UInt8) : Bool :=
  if first = 0xE0 then 0xA0 ≤ b && b ≤ 0xBF
  else if first = 0xED then 0x80 ≤ b && b ≤ 0x9F
  else if first = 0xF0 then 0x90 ≤ b && b ≤ 0xBF
  else if first = 0xF4 then 0x80 ≤ b && b ≤ 0x8F
  else isTail b

/-- The number of bytes of the sequence that a first byte begins, and nothing for a byte that
begins none. -/
def sequenceLength? (first : UInt8) : Option Nat :=
  if first < 0x80 then some 1
  else if first < 0xC2 then none
  else if first < 0xE0 then some 2
  else if first < 0xF0 then some 3
  else if first < 0xF5 then some 4
  else none

/-- The six payload bits of a continuation byte. -/
def tailBits (b : UInt8) : Nat := b.toNat % 64

/-- The first character of a byte string and the bytes after it; nothing if the bytes are
empty or begin with a broken sequence. -/
def firstChar? : Bytes → Option (Char × Bytes)
  | [] => none
  | a :: rest =>
      match sequenceLength? a, rest with
      | some 1, _ => some (Char.ofNat a.toNat, rest)
      | some 2, b :: rest =>
          if isSecond a b then some (Char.ofNat (a.toNat % 32 * 64 + tailBits b), rest) else none
      | some 3, b :: c :: rest =>
          if isSecond a b && isTail c then
            some (Char.ofNat ((a.toNat % 16 * 64 + tailBits b) * 64 + tailBits c), rest)
          else none
      | some 4, b :: c :: d :: rest =>
          if isSecond a b && isTail c && isTail d then
            some (Char.ofNat
              (((a.toNat % 8 * 64 + tailBits b) * 64 + tailBits c) * 64 + tailBits d), rest)
          else none
      | _, _ => none

/-- The number of bytes that a broken sequence takes: its first byte and those after it that
could still have continued it. -/
def brokenLength : Bytes → Nat
  | [] => 0
  | a :: rest =>
      match sequenceLength? a, rest with
      | some 3, b :: _ => if isSecond a b then 2 else 1
      | some 4, b :: c :: _ => if isSecond a b then if isTail c then 3 else 2 else 1
      | some 4, b :: _ => if isSecond a b then 2 else 1
      | _, _ => 1

/-! ## Reading a text -/

/-- At most `fuel` characters from the start of a byte string. -/
def validPrefixWithin : Nat → Bytes → List Char
  | 0, _ => []
  | fuel + 1, b =>
      match firstChar? b with
      | none => []
      | some (c, rest) => c :: validPrefixWithin fuel rest

/-- The characters before the first broken sequence. -/
def validPrefix (b : Bytes) : List Char := validPrefixWithin b.length b

/-- At most `fuel` characters, with U+FFFD for each broken sequence. -/
def decodeLossyWithin : Nat → Bytes → List Char
  | 0, _ => []
  | fuel + 1, b =>
      match firstChar? b with
      | some (c, rest) => c :: decodeLossyWithin fuel rest
      | none =>
          if b.isEmpty then [] else '\uFFFD' :: decodeLossyWithin fuel (b.drop (brokenLength b))

/-- The text of a byte string, with U+FFFD for each broken sequence. -/
def decodeLossy (b : Bytes) : String := String.ofList (decodeLossyWithin b.length b)

/-! ## Cutting text to a size -/

/-- The longest prefix of whole characters that takes at most `limit` bytes. -/
def truncateChars : Nat → List Char → List Char
  | _, [] => []
  | limit, c :: cs => if c.utf8Size ≤ limit then c :: truncateChars (limit - c.utf8Size) cs else []

/-- The longest prefix of whole characters that takes at most `limit` bytes. -/
def truncate (s : String) (limit : Nat) : String := String.ofList (truncateChars limit s.toList)

/-- The text of a field that is padded with zeros or cut inside a character: everything before
the first zero byte and before the first broken sequence. -/
def cleanupTail (b : Bytes) : String := String.ofList (validPrefix (b.takeWhile (· ≠ 0)))

end SmartLock.Utf8
