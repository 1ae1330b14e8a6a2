/-
# Identifiers

Identifiers of sixteen bytes (RFC 4122) and their text.  Writing gives groups of lower-case
digits with hyphens between; reading also takes the digits without hyphens, and the hyphenated
form in braces or after `urn:uuid:`, all in capital or small letters.
-/
import SmartLock.Crypto.Random
import SmartLock.Text.Hex

namespace SmartLock

/-- An identifier of sixteen bytes. -/
abbrev Uuid : Type := Octets 16

namespace Uuid

/-- The identifier of zeros. -/
def nil : Uuid := Octets.zero 16

/-- A random identifier: the top bits of bytes 6 and 8 say so. -/
def random (source : RandomSource) : Uuid × RandomSource :=
  let (b, source) := source.draw 16
  let marked := (b.toBytes.modify 6 fun x => x &&& 0x0F ||| 0x40).modify 8 fun x =>
    x &&& 0x3F ||| 0x80
  (Octets.ofBytes 16 marked, source)

/-! ## Writing -/

/-- The identifier as hyphenated text: groups of 8, 4, 4, 4 and 12 digits. -/
def toText (u : Uuid) : String :=
  let d := Hex.digits u.toBytes
  String.ofList (d.take 8 ++ '-' :: (d.drop 8).take 4 ++ '-' :: (d.drop 12).take 4 ++
    '-' :: (d.drop 16).take 4 ++ '-' :: d.drop 20)

/-! ## Reading -/

/-- The identifier that 32 digits write. -/
def ofDigits? (digits : Bytes) : Option Uuid :=
  if digits.length = 32 then
    match Hex.decodePairs 0 digits with
    | .ok b => Octets.ofBytes? 16 b
    | .error _ => none
  else none

/-- The digits of a hyphenated text of 36 bytes. -/
def hyphenated? (b : Bytes) : Option Bytes :=
  if b.length = 36 && b[8]? = some 45 && b[13]? = some 45 && b[18]? = some 45 && b[23]? = some 45
  then
    some (b.take 8 ++ (b.drop 9).take 4 ++ (b.drop 14).take 4 ++ (b.drop 19).take 4 ++ b.drop 24)
  else none

/-- What stands before the hyphenated form in a uniform resource name, in small letters. -/
def resourceHead : Bytes := Utf8.bytesOf "urn:uuid:"

/-- The byte of a letter from `A` to `Z` as that of the small one. -/
def small (x : UInt8) : UInt8 := if 65 ≤ x && x ≤ 90 then x + 32 else x

/-- Whether a text begins like a uniform resource name, in capital or small letters. -/
def isResource (b : Bytes) : Bool := (b.take resourceHead.length).map small = resourceHead

/-- The identifier that a text writes, in any of the accepted forms. -/
def ofText? (text : String) : Option Uuid :=
  let b := Utf8.bytesOf text
  if b.length = 32 then ofDigits? b
  else if b.length = 36 then hyphenated? b >>= ofDigits?
  else if b.length = 38 && b.head? = some 123 && b.getLast? = some 125 then
    hyphenated? (b.drop 1).dropLast >>= ofDigits?
  else if b.length = 45 && isResource b then
    hyphenated? (b.drop resourceHead.length) >>= ofDigits?
  else none

end Uuid

end SmartLock
