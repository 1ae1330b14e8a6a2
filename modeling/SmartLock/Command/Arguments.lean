/-
# Arguments of a command line

A command line is read against a tree of commands: a group is followed by the name of one of its
parts, a leaf by its operands.  Options may stand anywhere behind the command that has them.  An
option with a value takes it from the same argument or from the next one, which must not look
like an option; an option is given at most once; after two hyphens everything is an operand.
-/

namespace SmartLock.Command

/-! ## Descriptions -/

/-- Why a command line is not carried out. -/
inductive Stop where
  /-- It is not a command line of this program. -/
  | usage
  /-- It asks for help. -/
  | help
  /-- It asks for the version. -/
  | version
  deriving DecidableEq, Repr

/-- What an option does when it is given. -/
inductive OptionKind where
  /-- It is on. -/
  | switch
  /-- It takes a value, if that is acceptable. -/
  | value (accepts : String → Bool)
  /-- It ends the reading. -/
  | stop (reason : Stop)

/-- An option: its name after two hyphens and its letter after one. -/
structure CommandOption where
  name : String
  letter : Option Char := none
  kind : OptionKind

/-- A tree of commands. -/
inductive CommandTree where
  /-- A command with its options, and the operands it takes, if it takes any. -/
  | leaf (options : List CommandOption) (operand : Option (String → Bool))
  /-- A command that is continued by the name of a part. -/
  | group (options : List CommandOption) (parts : List (String × CommandTree))

namespace CommandTree

/-- The options of a command. -/
def options : CommandTree → List CommandOption
  | leaf options _ => options
  | group options _ => options

/-- The part with a given name. -/
def part? (name : String) : CommandTree → Option CommandTree
  | leaf .. => none
  | group _ parts => parts.lookup name

/-- Whether a command takes a text as an operand. -/
def takes (operand : String) : CommandTree → Bool
  | leaf _ accepts => accepts.any (· operand)
  | group .. => false

/-- Whether a command is continued by parts. -/
def isGroup : CommandTree → Bool
  | leaf .. => false
  | group .. => true

/-- The command that names lead to. -/
def follow? : CommandTree → List String → Option CommandTree
  | tree, [] => some tree
  | tree, name :: names => (tree.part? name).bind (·.follow? names)

end CommandTree

/-! ## Reading -/

/-- What was given so far. -/
structure Given where
  /-- The command reached. -/
  tree : CommandTree
  /-- The names that led to it. -/
  path : List String := []
  /-- The options already given to this command. -/
  used : List String := []
  /-- The switches that are on. -/
  switches : List String := []
  /-- The values of options, the last one first. -/
  values : List (String × String) := []
  operands : List String := []

namespace Given

/-- The value of an option. -/
def value? (g : Given) (name : String) : Option String := g.values.lookup name

/-- Whether a switch is on. -/
def has (g : Given) (name : String) : Bool := g.switches.contains name

/-- The option was given; a second time is one too many. -/
def use (g : Given) (o : CommandOption) : Except Stop Given :=
  if g.used.contains o.name then .error .usage else .ok { g with used := o.name :: g.used }

/-- A value was given to an option. -/
def addValue (g : Given) (o : CommandOption) (text : String) : Except Stop Given :=
  match o.kind with
  | .value accepts => do
      let g ← g.use o
      if accepts text then .ok { g with values := (o.name, text) :: g.values } else .error .usage
  | _ => .error .usage

/-- An option was given that takes no value. -/
def addSwitch (g : Given) (o : CommandOption) : Except Stop Given :=
  match o.kind with
  | .switch => do
      let g ← g.use o
      .ok { g with switches := o.name :: g.switches }
  | .stop reason => .error reason
  | .value _ => .error .usage

/-- An operand was given. -/
def addOperand (g : Given) (text : String) : Except Stop Given :=
  if g.tree.takes text then .ok { g with operands := g.operands ++ [text] } else .error .usage

/-- The next name of the command was given. -/
def enter (g : Given) (name : String) (tree : CommandTree) : Given :=
  { g with tree := tree, path := g.path ++ [name], used := [] }

end Given

/-- Whether an option is followed by its value. -/
def CommandOption.takesValue (o : CommandOption) : Bool :=
  match o.kind with
  | .value _ => true
  | _ => false

/-- Whether an argument looks like an option: a hyphen and more. -/
def looksLikeOption (argument : String) : Bool :=
  match argument.toList with
  | '-' :: _ :: _ => true
  | _ => false

/-- Reads an argument after two hyphens: a name, and possibly a value after a sign of equality.
Gives the option that still waits for its value, if one does. -/
def readLong (g : Given) (body : List Char) : Except Stop (Given × Option CommandOption) :=
  let (name, rest) := body.span (· ≠ '=')
  match g.tree.options.find? (·.name = String.ofList name) with
  | none => .error .usage
  | some o =>
      match rest with
      | _ :: text => (g.addValue o (String.ofList text)).map (·, none)
      | [] => if o.takesValue then .ok (g, some o) else (g.addSwitch o).map (·, none)

/-- Reads the letters after one hyphen.  A letter whose option takes a value takes what is left,
without a sign of equality before it. -/
def readShort : Given → List Char → Except Stop (Given × Option CommandOption)
  | g, [] => .ok (g, none)
  | g, letter :: rest =>
      match g.tree.options.find? (·.letter = some letter) with
      | none => .error .usage
      | some o =>
          if o.takesValue then
            match rest with
            | [] => .ok (g, some o)
            | '=' :: text => (g.addValue o (String.ofList text)).map (·, none)
            | text => (g.addValue o (String.ofList text)).map (·, none)
          else
            match g.addSwitch o with
            | .error reason => .error reason
            | .ok g => readShort g rest

/-- Reads an argument that looks like an option. -/
def readOption (g : Given) (argument : String) : Except Stop (Given × Option CommandOption) :=
  match argument.toList with
  | '-' :: '-' :: body => readLong g body
  | _ :: letters => readShort g letters
  | [] => .error .usage

/-- Reads the arguments that are all operands. -/
def readOperands (g : Given) (arguments : List String) : Except Stop Given :=
  arguments.foldlM Given.addOperand g

/-- Reads arguments. -/
def readArguments (g : Given) : List String → Except Stop Given
  | [] => .ok g
  | argument :: rest =>
      if argument = "--" then readOperands g rest
      else if looksLikeOption argument then
        match readOption g argument, rest with
        | .error reason, _ => .error reason
        | .ok (g, none), rest => readArguments g rest
        | .ok (_, some _), [] => .error .usage
        | .ok (g, some o), text :: rest =>
            if looksLikeOption text then .error .usage
            else
              match g.addValue o text with
              | .error reason => .error reason
              | .ok g => readArguments g rest
      else
        match g.tree.part? argument with
        | some tree => readArguments (g.enter argument tree) rest
        | none =>
            if argument = "help" && g.tree.isGroup then
              .error (if (g.tree.follow? rest).isSome then .help else .usage)
            else
              match g.addOperand argument with
              | .error reason => .error reason
              | .ok g => readArguments g rest

end SmartLock.Command
