/-
# Commands

What the program can be told to do, and how it is told on the command line.
-/
import SmartLock.Command.Arguments
import SmartLock.Catalog.Model
import SmartLock.Discovery.Uuid
import SmartLock.LogLevel

namespace SmartLock

/-- What the program can be told to do. -/
inductive Command where
  /-- Tell the addresses of devices. -/
  | addresses (uuids : List Uuid)
  /-- Tell what manufacturer data and a name advertise. -/
  | readAdvertisement (manufacturer name : String)
  /-- Tell what a device advertises. -/
  | buildAdvertisement (model : Model) (uuid : Uuid) (registered : Bool)
  /-- Decrypt captured fragments. -/
  | decode (secret nonce : String) (asPeripheral : Bool) (lines : List String)
  /-- Make a key pair, and keep it if wanted. -/
  | generateKeys (save : Bool)
  /-- Run a session in memory. -/
  | simulate (model : Model) (tag : String)
  /-- Tell where the settings are kept. -/
  | settingsPath
  /-- Tell the settings. -/
  | showSettings
  /-- Write the default settings. -/
  | initSettings (force : Bool)
  deriving DecidableEq, Repr

namespace Command

/-! ## The tree of commands -/

/-- An option whose value is any text. -/
def textOption (name : String) (letter : Char) : CommandOption :=
  ⟨name, some letter, .value fun _ => true⟩

/-- Whether a text names a model. -/
def isModel (text : String) : Bool := (Model.ofText? text).isSome

/-- Whether a text writes an identifier. -/
def isUuid (text : String) : Bool := (Uuid.ofText? text).isSome

/-- The option for the model. -/
def modelOption : CommandOption := ⟨"model", some 'm', .value isModel⟩

/-- The options of every command. -/
def common : List CommandOption := [
  ⟨"log-level", none, .value fun text => (LogLevel.ofText? text).isSome⟩,
  ⟨"help", some 'h', .stop .help⟩]

/-- A command without parts, with the options that every command has. -/
def leaf (options : List CommandOption) (operand : Option (String → Bool)) : CommandTree :=
  .leaf (options ++ common) operand

/-- All commands. -/
def tree : CommandTree :=
  .group (⟨"version", some 'V', .stop .version⟩ :: common) [
    ("btaddr", leaf [] (some isUuid)),
    ("adv", .group common [
      ("parse", leaf [textOption "manufacturer" 'm', textOption "name" 'n'] none),
      ("build", leaf [modelOption, ⟨"uuid", some 'u', .value isUuid⟩,
        ⟨"registered", some 'r', .switch⟩] none)]),
    ("decode", leaf [textOption "secret" 's', textOption "nonce" 'n',
      ⟨"peripheral", some 'p', .switch⟩] (some fun _ => true)),
    ("keygen", leaf [⟨"save", none, .switch⟩] none),
    ("simulate", leaf [modelOption, textOption "tag" 't'] none),
    ("config", .group common [
      ("path", leaf [] none),
      ("show", leaf [] none),
      ("init", leaf [⟨"force", none, .switch⟩] none)])]

/-! ## From arguments to a command -/

/-- The model that was given, or the usual one. -/
def modelOf (g : Given) : Option Model :=
  match g.value? "model" with
  | none => some .sesame5
  | some text => Model.ofText? text

/-- The command that was given, unless something is missing. -/
def ofGiven? (g : Given) : Option Command :=
  match g.path with
  | ["btaddr"] => do
      let uuids ← g.operands.mapM Uuid.ofText?
      if uuids.isEmpty then none else some (.addresses uuids)
  | ["adv", "parse"] => do
      return .readAdvertisement (← g.value? "manufacturer") ((g.value? "name").getD "")
  | ["adv", "build"] => do
      return .buildAdvertisement (← modelOf g) (← Uuid.ofText? (← g.value? "uuid"))
        (g.has "registered")
  | ["decode"] => do
      let secret ← g.value? "secret"
      let nonce ← g.value? "nonce"
      if g.operands.isEmpty then none
      else some (.decode secret nonce (g.has "peripheral") g.operands)
  | ["keygen"] => some (.generateKeys (g.has "save"))
  | ["simulate"] => do return .simulate (← modelOf g) ((g.value? "tag").getD "sesame-cli")
  | ["config", "path"] => some .settingsPath
  | ["config", "show"] => some .showSettings
  | ["config", "init"] => some (.initSettings (g.has "force"))
  | _ => none

/-- The command that arguments tell. -/
def ofArguments (arguments : List String) : Except Stop Command := do
  let g ← readArguments { tree := tree } arguments
  match ofGiven? g with
  | some command => return command
  | none => .error .usage

end Command

end SmartLock
