/-
# Carrying commands out

What a command prints, what it writes to the file of the settings and how it fails.  All that it
needs of its surroundings is given beforehand, so that nothing here reads or writes by itself.
-/
import SmartLock.Capture
import SmartLock.Command.Invocation
import SmartLock.Discovery.Address
import SmartLock.Discovery.Advertisement
import SmartLock.Settings.File
import SmartLock.Simulation

namespace SmartLock

/-! ## Surroundings and outcome -/

/-- What was found in the place of the settings. -/
inductive SettingsFile where
  | absent
  | unreadable
  | present (text : String)
  deriving DecidableEq, Repr, Inhabited

namespace SettingsFile

/-- Whether there is a file. -/
def isThere : SettingsFile → Bool
  | absent => false
  | _ => true

/-- The settings of a file; the defaults if it is absent, unreadable or not well formed. -/
def settings : SettingsFile → Settings
  | present text => (Settings.ofText? text).getD {}
  | _ => {}

end SettingsFile

/-- The surroundings in which a command is carried out. -/
structure Surroundings where
  settingsPath : String
  settingsFile : SettingsFile := .absent
  random : RandomSource
  /-- Seconds since the start of 1970. -/
  time : UInt32 := 0

/-- Why a command failed, and the cause of that, if it has one. -/
structure Failure where
  complaint : String
  cause : Option String := none
  deriving DecidableEq, Repr

/-- The text about a failure that the user reads. -/
def Failure.text (failure : Failure) : String :=
  "Error: " ++ failure.complaint ++
    match failure.cause with
    | none => ""
    | some cause => "\n\nCaused by:\n    " ++ cause

/-- What a command leads to. -/
structure Effect where
  /-- What is printed. -/
  output : String := ""
  /-- The new text of the file of the settings, and what is printed once it is written. -/
  saved : Option (String × String) := none
  failure : Option Failure := none
  deriving DecidableEq, Repr, Inhabited

namespace Effect

/-- Lines as one text, with a line end after each. -/
def ofLines (lines : List String) : String := String.join (lines.map (· ++ "\n"))

/-- Nothing but lines. -/
def print (lines : List String) : Effect := { output := ofLines lines }

/-- Nothing but a failure. -/
def fail (complaint : String) (cause : Option String := none) : Effect :=
  { failure := some ⟨complaint, cause⟩ }

/-- Lines, then new settings, then one more line. -/
def save (lines : List String) (settings : Settings) (notice : String) : Effect :=
  { output := ofLines lines, saved := some (settings.toText, ofLines [notice]) }

end Effect

/-! ## The commands -/

namespace Command

/-- The address of a device as one line. -/
def addressLine (uuid : Uuid) : String := uuid.toText ++ " -> " ++ (Address.ofUuid uuid).toText

/-- Tells what manufacturer data and a name advertise. -/
def runReadAdvertisement (manufacturer name : String) : Effect :=
  match Hex.decodeTrimmed manufacturer with
  | .error error => .fail "manufacturer data is not hex" error.message
  | .ok data =>
      match Advertisement.parse data name with
      | .error error => .fail error.message
      | .ok adv =>
          .print ([
            "📡 " ++ adv.model.name,
            "   UUID: " ++ adv.uuid.toText,
            s!"   已注册: {adv.isRegistered}"] ++
            if adv.model.osVersion = .os3 then
              ["   地址: " ++ (Address.ofUuid adv.uuid).toText]
            else [])

/-- Tells what a device advertises. -/
def runBuildAdvertisement (model : Model) (uuid : Uuid) (registered : Bool) : Effect :=
  if model.osVersion ≠ .os3 then .fail (model.name ++ " does not advertise in the OS3 format")
  else
    let broadcast := Advertisement.build model registered uuid
    .print [
      "manufacturer: " ++ Hex.encode broadcast.manufacturerData,
      "name: " ++ broadcast.localName]

/-- Decrypts captured fragments. -/
def runDecode (secret nonce : String) (asPeripheral : Bool) (lines : List String) : Effect :=
  match Hex.decodeExact 16 secret with
  | .error error => .fail "secret must be 32 hex characters" error.message
  | .ok secret =>
      match Hex.decodeExact 4 nonce with
      | .error error => .fail "nonce must be 8 hex characters" error.message
      | .ok nonce =>
          let key := cmac secret nonce.toBytes
          let role : Role := if asPeripheral then .peripheral else .central
          let reports := (Capture.start key nonce role).readAll (lines.map CaptureLine.ofText)
          .print (("session key=" ++ Hex.encode key.toBytes) :: reports.map CaptureReport.text)

/-- Makes a key pair, and keeps the private key in the settings if wanted. -/
def runGenerateKeys (s : Surroundings) (save : Bool) : Effect :=
  let (key, _) := PrivateKey.generate s.random
  let digits := Hex.encode key.toOctets.toBytes
  let lines := ["🔑 public:  " ++ Hex.encode key.publicKey.toBytes, "   private: " ++ digits]
  if save then
    let settings := s.settingsFile.settings
    let server := { settings.server with privateKey := some digits }
    .save lines { settings with server := server } ("✅ 已保存到 " ++ s.settingsPath)
  else .print lines

/-- Runs a session in memory.  The secret, the identifier and the seeds of the two ends are
drawn one after the other. -/
def runSimulate (s : Surroundings) (model : Model) (tag : String) : Effect :=
  if model.osVersion ≠ .os3 then
    .fail (model.name ++ " cannot be simulated, only OS3 models are supported")
  else
    let (secret, random) := s.random.draw 16
    let (uuid, random) := Uuid.random random
    let (client, random) := random.split
    let (server, _) := random.split
    let (lines, complaint) :=
      Simulation.run client server
        { model := model, tag := tag, uuid := uuid, secret := secret, time := s.time }
    { output := Effect.ofLines lines, failure := complaint.map (⟨·, none⟩) }

/-- Writes the default settings, unless that would lose others. -/
def runInitSettings (s : Surroundings) (force : Bool) : Effect :=
  if s.settingsFile.isThere && !force then
    .fail (s.settingsPath ++ " already exists, use --force to overwrite")
  else .save [] {} ("✅ 已写入 " ++ s.settingsPath)

/-- What a command leads to. -/
def run (s : Surroundings) : Command → Effect
  | addresses uuids => .print (uuids.map addressLine)
  | readAdvertisement manufacturer name => runReadAdvertisement manufacturer name
  | buildAdvertisement model uuid registered => runBuildAdvertisement model uuid registered
  | decode secret nonce asPeripheral lines => runDecode secret nonce asPeripheral lines
  | generateKeys save => runGenerateKeys s save
  | simulate model tag => runSimulate s model tag
  | settingsPath => .print [s.settingsPath]
  | showSettings => { output := s.settingsFile.settings.toText }
  | initSettings force => runInitSettings s force

/-! ## Command lines that name no command -/

/-- How the program is used. -/
def help : String :=
  "Usage: sesame [--log-level LEVEL] COMMAND\n\n" ++
  "Commands:\n" ++
  "  btaddr UUID...\n" ++
  "  adv parse --manufacturer HEX [--name TEXT]\n" ++
  "  adv build --uuid UUID [--model MODEL] [--registered]\n" ++
  "  decode --secret HEX --nonce HEX [--peripheral] FRAGMENT...\n" ++
  "  keygen [--save]\n" ++
  "  simulate [--model MODEL] [--tag TEXT]\n" ++
  "  config path | show | init [--force]\n"

/-- What is printed when a command line asks for something else than a command. -/
def Stop.output : Stop → String
  | usage => ""
  | help => Command.help
  | version => "sesame 0.1.0\n"

/-- The exit code when a command line names no command. -/
def Stop.exitCode : Stop → Nat
  | usage => 2
  | help | version => 0

end Command

end SmartLock
