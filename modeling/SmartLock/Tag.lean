/-
# Tags

A command names its author by a tag, and the history of a device keeps it.  A tag is a text of
limited size after its length byte or, in the third generation, a trigger: a zero, the kind of
the trigger and the sixteen bytes of an identifier.
-/
import SmartLock.Catalog.Code
import SmartLock.Text.Hex

namespace SmartLock.Tag

/-! ## Text -/

/-- The most bytes of a text tag in the second generation. -/
def maxSizeOs2 : Nat := 21

/-- The most bytes of a text tag in the third generation. -/
def maxSizeOs3 : Nat := 29

/-- A field of `size` bytes with a text in it: its length, its bytes, and zeros. -/
def textField (size : Nat) (text : String) : Bytes :=
  let bytes := Utf8.bytesOf text
  (UInt8.ofNat bytes.length :: bytes) ++ List.replicate (size - (bytes.length + 1)) 0

/-! ## Triggers -/

/-- The number of bytes of a trigger. -/
def triggerSize : Nat := 18

/-- The field of a trigger. -/
def triggerField (trigger : TriggerType) (id : Octets 16) : Bytes := 0 :: trigger.code :: id.toBytes

/-- The kind of a trigger and its identifier as text.  Exactly eighteen bytes that begin with a
zero are a trigger; its kind need not be known. -/
def parseTrigger? : Bytes → Option (Option TriggerType × String)
  | zero :: kind :: id =>
      if zero = 0 && id.length = 16 then some (TriggerType.ofCode? kind, Hex.encode id) else none
  | _ => none

end SmartLock.Tag
