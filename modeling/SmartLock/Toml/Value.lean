/-
# Values and tables of a TOML document

A table is filled piece by piece: a line may assign a dotted key, a header may open a table
whose parts were opened before it, and a doubled header adds one more table to a list.  How a
table came about decides what may still be added to it, so each table remembers its `Origin`.

`descend` is the one walk along the names of a key; `assign`, `openTable` and `openElement`
are what can happen at its end.
-/

namespace SmartLock.Toml

/-! ## Values -/

/-- How a table came about. -/
inductive Origin where
  /-- Written out in braces: nothing can be added. -/
  | inline
  /-- Opened by a header of its own. -/
  | header
  /-- Passed on the way to a table with a header. -/
  | passed
  /-- Passed by a dotted key. -/
  | dotted
  deriving DecidableEq, Repr, Inhabited

/-- A value; floating-point numbers and times are kept as they are written. -/
inductive Value where
  | string (text : String)
  | integer (n : Int)
  | float (text : String)
  | boolean (b : Bool)
  | dateTime (text : String)
  | array (items : List Value)
  /-- A list of tables, each opened by a doubled header. -/
  | tables (items : List (List (String × Value)))
  | table (origin : Origin) (entries : List (String × Value))
  deriving Inhabited

/-- The entries of a table, in the order of their first appearance. -/
abbrev Entries : Type := List (String × Value)

/-- A key: the names of the tables that it passes, and its last name. -/
structure Key where
  parents : List String
  name : String
  deriving DecidableEq, Repr, Inhabited

/-- All the names of a key. -/
def Key.path (key : Key) : List String := key.parents ++ [key.name]

namespace Entries

/-- The value of an entry. -/
def get? (entries : Entries) (name : String) : Option Value := entries.lookup name

/-- The entries with a new value in an entry that is there. -/
def set (entries : Entries) (name : String) (v : Value) : Entries :=
  entries.map fun entry => if entry.1 = name then (name, v) else entry

/-- The entries with one more at the end. -/
def push (entries : Entries) (name : String) (v : Value) : Entries := entries ++ [(name, v)]

/-! ## Filling a table -/

/-- Walks along `path` and changes the table at its end.  Tables that are missing on the way are
made; of a list of tables the last one is meant.  A dotted key must not enter a table that has a
header, and nothing enters a table in braces. -/
def descend (isDotted : Bool) (change : Origin → Entries → Option Entries) :
    List String → Origin → Entries → Option Entries
  | [], origin, entries => change origin entries
  | name :: path, _, entries =>
      match entries.get? name with
      | none =>
          let origin := if isDotted then .dotted else .passed
          (descend isDotted change path origin []).map fun inner =>
            entries.push name (.table origin inner)
      | some (.table origin inner) =>
          if origin = .inline || (isDotted && origin = .header) then none
          else (descend isDotted change path origin inner).map fun inner =>
            entries.set name (.table origin inner)
      | some (.tables items) =>
          match items.getLast? with
          | none => none
          | some last => (descend isDotted change path .header last).map fun inner =>
              entries.set name (.tables (items.dropLast ++ [inner]))
      | some _ => none

/-- Gives an entry that is not yet there its value.  A dotted key may add only to tables that
dotted keys made, and a plain key only to others. -/
def add (isDotted : Bool) (name : String) (v : Value) (origin : Origin) (entries : Entries) :
    Option Entries :=
  if (origin = .dotted) = isDotted && (entries.get? name).isNone then some (entries.push name v)
  else none

/-- Assigns a value to a key. -/
def assign (key : Key) (v : Value) (origin : Origin) (entries : Entries) : Option Entries :=
  descend true (add (!key.parents.isEmpty) key.name v) key.parents origin entries

/-- Opens a table that is missing or was only passed so far. -/
def openTable (name : String) (_ : Origin) (entries : Entries) : Option Entries :=
  match entries.get? name with
  | none => some (entries.push name (.table .header []))
  | some (.table .passed inner) => some (entries.set name (.table .header inner))
  | some _ => none

/-- Adds an empty table to a list of tables that is missing or was made in this way. -/
def openElement (name : String) (_ : Origin) (entries : Entries) : Option Entries :=
  match entries.get? name with
  | none => some (entries.push name (.tables [[]]))
  | some (.tables items) => some (entries.set name (.tables (items ++ [[]])))
  | some _ => none

end Entries

end SmartLock.Toml
