/-
# Bluetooth addresses

The address of a device follows from its identifier: the first bytes of an authentication
code, in reverse order, with the two top bits set that mark a static random address.
-/
import SmartLock.Crypto.Cmac
import SmartLock.Discovery.Uuid

namespace SmartLock

/-- A Bluetooth address, highest byte first. -/
abbrev Address : Type := Octets 6

namespace Address

/-- The text that is authenticated under the identifier. -/
def salt : Bytes := Utf8.bytesOf "candy"

/-- The address of the device with an identifier. -/
def ofUuid (u : Uuid) : Address :=
  let mac := (cmac u salt).toBytes
  Octets.ofBytes 6 ((mac.getD 5 0 ||| 0xC0) :: (mac.take 5).reverse)

/-- The address as pairs of digits with colons between. -/
def toText (a : Address) : String := String.intercalate ":" (a.toBytes.map fun x => Hex.encode [x])

end Address

end SmartLock
