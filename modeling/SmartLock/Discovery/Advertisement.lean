/-
# Advertisements

What a device broadcasts: the company's number, its model, flags and, in the third generation,
its identifier.  Devices of the second generation carry the identifier in their name, as Base64
without padding.
-/
import SmartLock.Catalog.Model
import SmartLock.Discovery.Uuid
import SmartLock.Text.Base64
import SmartLock.Text.Quoted

namespace SmartLock

/-- Why an advertisement is refused. -/
inductive AdvertisementError where
  | foreignManufacturer
  | tooShort (size : Nat)
  | unknownModel (code : UInt8)
  | badName (name : String)
  deriving DecidableEq, Repr

/-- The text that tells a user why an advertisement is refused. -/
def AdvertisementError.message : AdvertisementError → String
  | .foreignManufacturer => "Unexpected manufacturer id"
  | .tooShort size => s!"Manufacturer data too short: {size} bytes"
  | .unknownModel code => s!"Unknown model code: {code.toNat}"
  | .badName name => "Unexpected device name: " ++ Text.quote name

/-- An advertisement that has been read. -/
structure Advertisement where
  model : Model
  flags : UInt8
  uuid : Uuid
  deriving DecidableEq, Repr, Inhabited

/-- The data of an advertisement to be broadcast. -/
structure Broadcast where
  manufacturerData : Bytes
  localName : String
  deriving DecidableEq, Repr, Inhabited

namespace Advertisement

/-- Whether the device says that it has an owner. -/
def isRegistered (a : Advertisement) : Bool := a.flags &&& 1 ≠ 0

/-- The company's number, lowest byte first. -/
def company : Bytes := [0x5A, 0x05]

/-- The offset of the identifier in the manufacturer data. -/
def uuidOffset : Nat := 5

/-- The number of characters of an identifier in a name. -/
def nameSize : Nat := 22

/-- The first ten bytes of the identifier of every gateway. -/
def gatewayHead : Bytes := [0x00, 0x00, 0x00, 0x00, 0x05, 0x5A, 0xFD, 0x81, 0x00, 0x01]

/-- The identifier that a name carries. -/
def uuidOfName (name : String) : Except AdvertisementError Uuid :=
  let b := Utf8.bytesOf name
  match if b.length = nameSize then Base64.decode? b else none with
  | some bytes =>
      match Octets.ofBytes? 16 bytes with
      | some uuid => .ok uuid
      | none => .error (.badName name)
  | none => .error (.badName name)

/-- The identifier in the manufacturer data of a model, or in its name. -/
def uuidOf (model : Model) (data : Bytes) (name : String) : Except AdvertisementError Uuid :=
  let tail := data.drop uuidOffset
  if model = .wifi2 then
    if tail.length < 6 then .error (.tooShort data.length)
    else .ok (Octets.ofBytes 16 (gatewayHead ++ tail.take 6))
  else
    match model.osVersion with
    | .os2 => uuidOfName name
    | .os3 =>
        if tail.length < 16 then .error (.tooShort data.length) else .ok (Octets.ofBytes 16 tail)
    | .unknown => .error (.unknownModel model.code)

/-- The advertisement that manufacturer data and a name make up. -/
def parse (data : Bytes) (name : String) : Except AdvertisementError Advertisement :=
  match data with
  | a :: b :: code :: _ :: flags :: _ =>
      if [a, b] ≠ company then .error .foreignManufacturer
      else
        match Model.ofCode? code with
        | none => .error (.unknownModel code)
        | some model => (uuidOf model data name).map fun uuid => ⟨model, flags, uuid⟩
  | _ => .error (.tooShort data.length)

/-- The name of a device of the second generation with an identifier. -/
def nameOf (uuid : Uuid) : String :=
  String.ofList ((Base64.encode uuid.toBytes).map fun x => Char.ofNat x.toNat)

/-- The data that a device of the third generation broadcasts. -/
def build (model : Model) (registered : Bool) (uuid : Uuid) : Broadcast where
  manufacturerData :=
    company ++ [model.code, 0, if registered then 1 else 0] ++ uuid.toBytes
  localName := nameOf uuid

end Advertisement

end SmartLock
