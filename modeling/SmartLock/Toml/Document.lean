/-
# Documents

A TOML document is a list of lines: assignments and headers.  `readLines` takes the text apart
and `Entries.ofLines?` fills the table of the document line by line; `parse?` is both.
-/
import SmartLock.Toml.ValueText

namespace SmartLock.Toml

/-- A line of a document that says something. -/
inductive Line where
  /-- A key gets a value, in the table that the last header opened. -/
  | assign (key : Key) (v : Value)
  /-- A header opens a table. -/
  | openTable (key : Key)
  /-- A doubled header adds a table to a list. -/
  | openElement (key : Key)
  deriving Inhabited

/-! ## Reading lines -/

/-- The rest of a text after the end of a line: blanks, a comment and the line end or the end
of the text. -/
def endLine (cs : List Char) : Option (List Char) :=
  match dropComment (dropSpaces cs) with
  | [] => some []
  | '\n' :: rest => some rest
  | '\r' :: '\n' :: rest => some rest
  | _ => none

/-- Reads one line that says something, without the blanks before it. -/
def readLine : Reader Line
  | '[' :: '[' :: rest => do
      let (key, rest) ← readKey rest
      return (.openElement key, ← endLine (← expect ']' (← expect ']' rest)))
  | '[' :: rest => do
      let (key, rest) ← readKey rest
      return (.openTable key, ← endLine (← expect ']' rest))
  | cs => do
      let (key, rest) ← readKey cs
      let (v, rest) ← readValue maxDepth (dropSpaces (← expect '=' rest))
      return (.assign key v, ← endLine rest)

/-- Whether a line says nothing: it is empty or a comment. -/
def isSilent : List Char → Bool
  | '#' :: _ => true
  | cs => Quoted.atLineEnd cs

/-- Reads at most so many lines. -/
def readLinesWithin : Nat → List Char → Option (List Line)
  | 0, _ => none
  | fuel + 1, cs =>
      match dropSpaces cs with
      | [] => some []
      | cs =>
          if isSilent cs then (endLine cs).bind (readLinesWithin fuel)
          else do
            let (line, rest) ← readLine cs
            return line :: (← readLinesWithin fuel rest)

/-- The lines of a document.  A mark of the byte order at its start is skipped. -/
def readLines (text : String) : Option (List Line) :=
  let cs := text.toList
  let cs := if cs.head? = some '\uFEFF' then cs.tail else cs
  readLinesWithin (cs.length + 1) cs

/-! ## The table of a document -/

/-- A document that is being filled. -/
structure Draft where
  /-- The table of the document. -/
  root : Entries := []
  /-- The names that lead to the table that the last header opened. -/
  current : List String := []
  deriving Inhabited

/-- Fills in one line. -/
def Draft.add (draft : Draft) : Line → Option Draft
  | .assign key v =>
      (Entries.descend false (Entries.assign key v) draft.current .header draft.root).map fun root =>
        { draft with root }
  | .openTable key =>
      (Entries.descend false (Entries.openTable key.name) key.parents .header draft.root).map
        fun root => ⟨root, key.path⟩
  | .openElement key =>
      (Entries.descend false (Entries.openElement key.name) key.parents .header draft.root).map
        fun root => ⟨root, key.path⟩

/-- The table that the lines of a document write. -/
def Entries.ofLines? (lines : List Line) : Option Entries :=
  (lines.foldlM Draft.add {}).map Draft.root

/-- The table that a document writes, if it is well formed. -/
def parse? (text : String) : Option Entries := readLines text >>= Entries.ofLines?

end SmartLock.Toml
