/-
# The file of the settings

Settings as a TOML document.  Reading takes defaults for what is missing and passes over what it
does not know; a device needs its name, its model and its secret.  Writing leaves out what is
absent and gives every table a header of its own.
-/
import SmartLock.Settings.Basic
import SmartLock.Toml.Document

namespace SmartLock

open Toml (Entries Value)

/-! ## Reading values -/

namespace Settings.Read

/-- A text. -/
def text? : Value → Option String
  | .string text => some text
  | _ => none

/-- A number below a bound. -/
def natural? (bound : Nat) : Value → Option Nat
  | .integer n => if 0 ≤ n && n < bound then some n.toNat else none
  | _ => none

/-- A number that is a signed word of 64 bits and not negative. -/
def word64? (v : Value) : Option UInt64 := (natural? 0x8000000000000000 v).map UInt64.ofNat

/-- A number that is an unsigned word of 32 bits. -/
def word32? (v : Value) : Option UInt32 := (natural? 0x100000000 v).map UInt32.ofNat

/-- The items of a list. -/
def items? : Value → Option (List Value)
  | .array items => some items
  | .tables tables => some (tables.map (.table .header))
  | _ => none

/-- The fields of a record whose fields have the given names, in this order.  A list gives them
by their place, and a time is a record without any field. -/
def fields? (names : List String) : Value → Option Entries
  | .table _ entries => some entries
  | .dateTime _ => some []
  | v => (items? v).map (names.zip ·)

/-- Whether a value has neither items nor entries. -/
def isEmpty : Value → Bool
  | .array items => items.isEmpty
  | .tables tables => tables.isEmpty
  | .table _ entries => entries.isEmpty
  | _ => false

/-- A model: its name, letter for letter, or a table whose only key is the name and holds
nothing. -/
def model? : Value → Option Model
  | .string name => Model.ofName? name
  | .table _ [(name, v)] => if isEmpty v then Model.ofName? name else none
  | _ => none

/-- An identifier: a text, or a list that begins with its sixteen bytes. -/
def uuid? : Value → Option Uuid
  | .string text => Uuid.ofText? text
  | v => do
      let bytes ← ((← items? v).take 16).mapM (natural? 256)
      Octets.ofBytes? 16 (bytes.map UInt8.ofNat)

/-- A field that may be missing. -/
def optional (fields : Entries) (name : String) (read : Value → Option α) : Option (Option α) :=
  match fields.get? name with
  | none => some none
  | some v => (read v).map some

/-- A field that has a default. -/
def withDefault (fields : Entries) (name : String) (read : Value → Option α) (default : α) :
    Option α :=
  (optional fields name read).map (·.getD default)

/-- A field that must be there. -/
def required (fields : Entries) (name : String) (read : Value → Option α) : Option α :=
  (fields.get? name).bind read

end Settings.Read

open Settings.Read

/-! ## Reading settings -/

/-- The device that a value describes. -/
def DeviceProfile.ofValue? (v : Value) : Option DeviceProfile := do
  let fields ← fields? ["name", "model", "uuid", "secret", "public_key"] v
  return {
    name := ← required fields "name" text?
    model := ← required fields "model" model?
    uuid := ← optional fields "uuid" uuid?
    secret := ← required fields "secret" text?
    publicKey := ← optional fields "public_key" text? }

/-- The server that a value describes. -/
def ServerSettings.ofValue? (v : Value) : Option ServerSettings := do
  let fields ← fields?
    ["model", "uuid", "max_sessions", "auth_timeout_ms", "private_key", "secret"] v
  let plain : ServerSettings := {}
  return {
    model := ← withDefault fields "model" model? plain.model
    uuid := ← optional fields "uuid" uuid?
    maxSessions := ← withDefault fields "max_sessions" word64? plain.maxSessions
    loginTimeout := ← withDefault fields "auth_timeout_ms" word32? plain.loginTimeout
    privateKey := ← optional fields "private_key" text?
    secret := ← optional fields "secret" text? }

namespace Settings

/-- The devices that a value lists. -/
def devices? (v : Value) : Option (List DeviceProfile) :=
  (items? v).bind (·.mapM DeviceProfile.ofValue?)

/-- The settings that a table holds. -/
def ofEntries? (fields : Entries) : Option Settings := do
  let plain : Settings := {}
  return {
    logLevel := ← withDefault fields "log_level" text? plain.logLevel
    devices := ← withDefault fields "devices" devices? plain.devices
    server := ← withDefault fields "server" ServerSettings.ofValue? plain.server }

/-- The settings that a file holds, if it is well formed. -/
def ofText? (text : String) : Option Settings := Toml.parse? text >>= ofEntries?

/-! ## Writing settings -/

namespace Write

/-- A line that gives a name its value. -/
def line (name : String) (value : List Char) : List Char :=
  name.toList ++ [' ', '=', ' '] ++ value ++ ['\n']

/-- A line with a text. -/
def text (name : String) (value : String) : List Char := line name (Toml.Quoted.write value)

/-- A line with a text that may be absent. -/
def optional (name : String) (value : Option String) : List Char := value.elim [] (text name)

/-- A line with a number. -/
def natural (name : String) (value : Nat) : List Char := line name (Nat.toDigits 10 value)

/-- A header and the blank line before it. -/
def header (title : String) : List Char := '\n' :: title.toList ++ ['\n']

/-- The part of the file about a device. -/
def device (device : DeviceProfile) : List Char :=
  header "[[devices]]" ++ text "name" device.name ++ text "model" device.model.name ++
    optional "uuid" (device.uuid.map Uuid.toText) ++ text "secret" device.secret ++
    optional "public_key" device.publicKey

/-- The part of the file about the devices. -/
def devices (devices : List DeviceProfile) : List Char :=
  if devices.isEmpty then line "devices" ['[', ']'] else devices.flatMap device

/-- The part of the file about the server. -/
def server (server : ServerSettings) : List Char :=
  header "[server]" ++ text "model" server.model.name ++
    optional "uuid" (server.uuid.map Uuid.toText) ++
    natural "max_sessions" server.maxSessions.toNat ++
    natural "auth_timeout_ms" server.loginTimeout.toNat ++
    optional "private_key" server.privateKey ++ optional "secret" server.secret

end Write

/-- The text of the file for some settings. -/
def toText (settings : Settings) : String :=
  String.ofList (Write.text "log_level" settings.logLevel ++ Write.devices settings.devices ++
    Write.server settings.server)

/-- Whether every number is one that a file can hold: a signed word of 64 bits.  Settings that
come from a file always fit. -/
def fits (settings : Settings) : Bool := settings.server.maxSessions < 0x8000000000000000

/-- The text of the file for some settings, if they fit. -/
def toText? (settings : Settings) : Option String :=
  if settings.fits then some settings.toText else none

end Settings

end SmartLock
