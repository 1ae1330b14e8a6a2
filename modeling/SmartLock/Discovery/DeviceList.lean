/-
# Lists of devices

A device tells which other devices it knows in records of 23 bytes.  The last byte of a record
says whether it is in use.  If the byte before it is zero, the record begins with the bytes of
an identifier, else with its Base64 text.
-/
import SmartLock.Catalog.Model
import SmartLock.Discovery.Uuid
import SmartLock.Text.Base64

namespace SmartLock

/-- A device that another one knows. -/
structure KnownDevice where
  uuid : Uuid
  osVersion : OsVersion
  deriving DecidableEq, Repr, Inhabited

namespace KnownDevice

/-- The number of bytes of a record. -/
def recordSize : Nat := 23

/-- The number of characters of an identifier as text. -/
def textSize : Nat := 22

/-- The device of one record; nothing for an empty or a corrupt one. -/
def ofRecord? (r : Bytes) : Option KnownDevice :=
  if r.getD 22 0 = 0 then none
  else if r.getD 21 0 = 0 then some ⟨Octets.ofBytes 16 r, .os3⟩
  else do
    let bytes ← Base64.decode? (r.take textSize)
    let uuid ← Octets.ofBytes? 16 bytes
    return ⟨uuid, .os2⟩

/-- The devices of a list of records; an incomplete record at the end is ignored. -/
def parseList (body : Bytes) : List KnownDevice :=
  (body.pieces recordSize).filterMap fun r => if r.length = recordSize then ofRecord? r else none

end KnownDevice

end SmartLock
