/-
# The program

The outer layer of the command line: it collects the surroundings, has the command carried out,
and prints and writes what came of it.
-/
import SmartLock.Command.Run

namespace SmartLock.Program

/-! ## Surroundings -/

/-- The directory in which programs keep their settings. -/
def settingsRoot : IO String := do
  match ← IO.getEnv "XDG_CONFIG_HOME" with
  | some root => if root.startsWith "/" then return root
  | none => pure ()
  match ← IO.getEnv "HOME" with
  | some home => return home ++ "/.config"
  | none => return "."

/-- What is found in the place of the settings. -/
def readSettings (path : String) : IO SettingsFile := do
  try
    match String.fromUTF8? (← IO.FS.readBinFile path) with
    | some text => return .present text
    | none => return .unreadable
  catch
    | .noFileOrDirectory .. => return .absent
    | _ => return .unreadable

/-- Seconds since the start of 1970, by the clock of the file system. -/
def currentTime : IO UInt32 := do
  let (_, path) ← IO.FS.createTempFile
  let time := (← path.metadata).modified
  IO.FS.removeFile path
  return UInt32.ofNat time.sec.toNat

/-- A random source with a key from the system. -/
def freshRandom : IO RandomSource := do
  let key ← IO.getRandomBytes 32
  return RandomSource.ofKey (Octets.ofBytes 32 key.toList)

/-! ## Carrying a command out -/

/-- Prints and writes what a command leads to; the result is the exit code. -/
def perform (directory : String) (s : Surroundings) (effect : Effect) : IO UInt32 := do
  IO.print effect.output
  match effect.saved with
  | none => pure ()
  | some (text, notice) =>
      IO.FS.createDirAll directory
      IO.FS.writeFile s.settingsPath text
      IO.print notice
  match effect.failure with
  | none => return 0
  | some failure =>
      IO.eprintln failure.text
      return 1

/-- Carries out the command that arguments tell; the result is the exit code. -/
def runArguments (arguments : List String) : IO UInt32 := do
  match Command.ofArguments arguments with
  | .error stop =>
      IO.print stop.output
      if stop = .usage then IO.eprint Command.help
      return UInt32.ofNat stop.exitCode
  | .ok command =>
      let directory := (← settingsRoot) ++ "/sesame"
      let path := directory ++ "/settings.toml"
      let s : Surroundings := {
        settingsPath := path
        settingsFile := ← readSettings path
        random := ← freshRandom
        time := ← currentTime }
      perform directory s (command.run s)

end SmartLock.Program

/-- Runs the program; a failure of the system is told like any other. -/
def main (arguments : List String) : IO UInt32 := do
  try
    SmartLock.Program.runArguments arguments
  catch error =>
    IO.eprintln ("Error: " ++ toString error)
    return 1
