/-
# Log levels

How much a program tells about its work, from errors only to every step.
-/
import SmartLock.Text.Blank

namespace SmartLock

/-- A log level, the least talkative first. -/
inductive LogLevel where
  | error
  | warn
  | info
  | debug
  | trace
  deriving DecidableEq, Repr, Inhabited

namespace LogLevel

/-- The place of a level in the order. -/
def rank : LogLevel → Nat
  | .error => 0
  | .warn => 1
  | .info => 2
  | .debug => 3
  | .trace => 4

/-- The name of a level. -/
def name : LogLevel → String
  | .error => "ERROR"
  | .warn => "WARN"
  | .info => "INFO"
  | .debug => "DEBUG"
  | .trace => "TRACE"

/-- The name of a level in small letters. -/
def lowerName : LogLevel → String
  | .error => "error"
  | .warn => "warn"
  | .info => "info"
  | .debug => "debug"
  | .trace => "trace"

/-- The filter rules of a level: it holds for the program and its library, everything else keeps
to warnings. -/
def directive (level : LogLevel) : String :=
  "warn,sesame_core=" ++ level.lowerName ++ ",sesame=" ++ level.lowerName

/-- A letter whose capital is a letter from `A` to `Z`, as that capital: the small ones, the
dotless i and the long s.  No other capital matters to the names of levels. -/
def capital (c : Char) : Char :=
  if c = '\u0131' then 'I' else if c = '\u017F' then 'S' else c.toUpper

/-- The complaint about a text that names no level. -/
def unknownMessage (text : String) : String := "Unknown log level: " ++ text

/-- The level that a text names, in any case and with white space around it. -/
def ofText? (text : String) : Option LogLevel :=
  match String.ofList ((Text.trim text.toList).map capital) with
  | "ERROR" => some .error
  | "WARN" => some .warn
  | "WARNING" => some .warn
  | "INFO" => some .info
  | "DEBUG" => some .debug
  | "TRACE" => some .trace
  | _ => none

end LogLevel

end SmartLock
