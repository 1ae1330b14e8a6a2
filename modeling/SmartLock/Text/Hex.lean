/-
# Hexadecimal digits

Byte strings as pairs of digits.  Writing uses lower-case letters; reading takes both cases,
counts in bytes of the trimmed text, and reports the first of these that holds: an odd number
of digits, a wrong number of digits, a byte that is no digit.
-/
import SmartLock.Text.Blank
import SmartLock.Text.Quoted
import SmartLock.Text.Utf8

namespace SmartLock

/-- Why a text is no hexadecimal byte string of the wanted size. -/
inductive HexError where
  | oddLength
  | invalidStringLength
  | invalidHexCharacter (byte : UInt8) (index : Nat)
  deriving DecidableEq, Repr

/-- The text that tells a user what is wrong; the byte is shown as the character with its
number. -/
def HexError.message : HexError → String
  | .oddLength => "Odd number of digits"
  | .invalidStringLength => "Invalid string length"
  | .invalidHexCharacter byte index =>
      "Invalid character " ++ Text.quoteChar (Char.ofNat byte.toNat) ++ s!" at position {index}"

namespace Hex

/-! ## Writing -/

/-- The lower-case digit of a number below sixteen. -/
def digit (n : Nat) : Char := if n < 10 then Char.ofNat (48 + n) else Char.ofNat (87 + n)

/-- The two digits of each byte. -/
def digits (b : Bytes) : List Char :=
  b.flatMap fun x => [digit (x.toNat / 16), digit (x.toNat % 16)]

/-- The digits of the first byte come first. -/
theorem digits_cons (x : UInt8) (b : Bytes) :
    digits (x :: b) = digit (x.toNat / 16) :: digit (x.toNat % 16) :: digits b := rfl

/-- There are two digits for each byte. -/
@[simp] theorem length_digits (b : Bytes) : (digits b).length = 2 * b.length := by
  induction b with
  | nil => rfl
  | cons x b ih =>
      rw [digits_cons, List.length_cons, List.length_cons, ih, List.length_cons]
      omega

/-- A byte string as lower-case digits. -/
def encode (b : Bytes) : String := String.ofList (digits b)

/-! ## Reading -/

/-- The value of a digit in either case. -/
def value? (x : UInt8) : Option Nat :=
  if 48 ≤ x && x ≤ 57 then some (x.toNat - 48)
  else if 65 ≤ x && x ≤ 70 then some (x.toNat - 55)
  else if 97 ≤ x && x ≤ 102 then some (x.toNat - 87)
  else none

/-- The value of the digit at position `index`, or the complaint about it. -/
def valueAt (index : Nat) (x : UInt8) : Except HexError Nat :=
  match value? x with
  | some v => .ok v
  | none => .error (.invalidHexCharacter x index)

/-- The bytes written by pairs of digits, the first of them at position `index`. -/
def decodePairs : Nat → Bytes → Except HexError Bytes
  | index, high :: low :: rest => do
      let h ← valueAt index high
      let l ← valueAt (index + 1) low
      let bytes ← decodePairs (index + 2) rest
      return UInt8.ofNat (16 * h + l) :: bytes
  | _, _ => .ok []

/-- The digits of a text in bytes, without white space at both ends. -/
def trimmedBytes (s : String) : Bytes := Utf8.encode (Text.trim s.toList)

/-- The byte string of any size that some digits write. -/
def decodeDigits (digits : Bytes) : Except HexError Bytes :=
  if digits.length % 2 = 1 then .error .oddLength else decodePairs 0 digits

/-- The byte string of any size that a text writes; white space at both ends is not trimmed. -/
def decode (s : String) : Except HexError Bytes := decodeDigits (Utf8.bytesOf s)

/-- The byte string of any size that a trimmed text writes. -/
def decodeTrimmed (s : String) : Except HexError Bytes := decodeDigits (trimmedBytes s)

/-- The `n` bytes that a trimmed text writes. -/
def decodeExact (n : Nat) (s : String) : Except HexError (Octets n) :=
  let b := trimmedBytes s
  if b.length % 2 = 1 then .error .oddLength
  else if b.length ≠ 2 * n then .error .invalidStringLength
  else (decodePairs 0 b).map (Octets.ofBytes n)

end Hex

end SmartLock
