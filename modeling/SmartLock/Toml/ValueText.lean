/-
# The text of keys and values

Keys with dots, and values with lists in brackets and tables in braces around the quoted texts
and tokens.  Lists and tables may be nested to a fixed depth, and keys may have as many names;
`readValue` recurses on the depth that is left.
-/
import SmartLock.Toml.Token

namespace SmartLock.Toml

/-- What reads the start of a text: the result and the rest of the text, or nothing. -/
abbrev Reader (α : Type) : Type := List Char → Option (α × List Char)

/-- The deepest nesting of values, and the greatest number of names in a key. -/
def maxDepth : Nat := 79

/-! ## Blanks and comments -/

/-- A text without the spaces and tabs at its start. -/
def dropSpaces (cs : List Char) : List Char := cs.dropWhile Quoted.isSpace

/-- A text without the comment at its start. -/
def dropComment : List Char → List Char
  | '#' :: rest => rest.dropWhile Quoted.isPlain
  | cs => cs

/-- A text without the blanks, line ends and comments at its start, as they may stand between
the items of a list.  A comment, in which we are while `inComment` holds, ends with its line. -/
def dropFiller : Bool → List Char → Option (List Char)
  | _, [] => some []
  | _, '\n' :: rest => dropFiller false rest
  | inComment, '\r' :: rest =>
      if rest.head? = some '\n' then dropFiller inComment rest else none
  | true, c :: rest => if Quoted.isPlain c then dropFiller true rest else none
  | false, c :: rest =>
      if Quoted.isSpace c then dropFiller false rest
      else if c = '#' then dropFiller true rest
      else some (c :: rest)

/-- The rest of a text after a given character. -/
def expect (c : Char) : List Char → Option (List Char)
  | [] => none
  | d :: rest => if d = c then some rest else none

/-! ## Keys -/

/-- A character of a name without quotes. -/
def isNamePart (c : Char) : Bool := c.isAlphanum || c = '_' || c = '-'

/-- Reads one name of a key. -/
def readName : Reader String := fun cs =>
  match Quoted.readLine? cs with
  | some done => some done
  | none =>
      match cs.span isNamePart with
      | ([], _) => none
      | (name, rest) => some (String.ofList name, rest)

/-- Reads at most so many names with dots between and blanks around them. -/
def readNames : Nat → Reader (List String)
  | 0, _ => none
  | names + 1, cs => do
      let (name, rest) ← readName (dropSpaces cs)
      match dropSpaces rest with
      | '.' :: rest =>
          let (path, rest) ← readNames names rest
          return (name :: path, rest)
      | rest => return ([name], rest)

/-- The key with given names. -/
def Key.ofPath? (path : List String) : Option Key :=
  path.getLast?.map fun name => ⟨path.dropLast, name⟩

/-- Reads a key and the blanks around it. -/
def readKey : Reader Key := fun cs => do
  let (path, rest) ← readNames maxDepth cs
  return (← Key.ofPath? path, rest)

/-! ## Values -/

/-- Reads the items of a list after its bracket. -/
def readItems (item : Reader Value) : Nat → Reader (List Value)
  | 0, _ => none
  | fuel + 1, cs =>
      match dropFiller false cs with
      | some (']' :: rest) => some ([], rest)
      | some cs => do
          let (v, rest) ← item cs
          match ← dropFiller false rest with
          | ',' :: rest =>
              let (vs, rest) ← readItems item fuel rest
              return (v :: vs, rest)
          | ']' :: rest => return ([v], rest)
          | _ => none
      | none => none

/-- Reads an assignment in a table in braces, and the blanks after it. -/
def readPair (item : Reader Value) : Reader (Key × Value) := fun cs => do
  let (key, rest) ← readKey cs
  let rest ← expect '=' rest
  let (v, rest) ← item (dropSpaces rest)
  return ((key, v), dropSpaces rest)

/-- Reads the assignments of a table in braces, at least one, and the closing brace. -/
def readPairs (item : Reader Value) : Nat → Reader (List (Key × Value))
  | 0, _ => none
  | fuel + 1, cs => do
      let (pair, rest) ← readPair item cs
      match rest with
      | ',' :: rest =>
          let (pairs, rest) ← readPairs item fuel rest
          return (pair :: pairs, rest)
      | '\x7d' :: rest => return ([pair], rest)
      | _ => none

/-- The table in braces with given assignments. -/
def inlineTable? (pairs : List (Key × Value)) : Option Value :=
  (pairs.foldlM (fun entries pair => Entries.assign pair.1 pair.2 .inline entries) []).map
    (Value.table .inline)

/-- Reads a value that nests lists and tables at most so deep. -/
def readValue : Nat → Reader Value
  | depth, '[' :: rest =>
      match depth with
      | 0 => none
      | depth + 1 => (readItems (readValue depth) (rest.length + 1) rest).map fun (vs, rest) =>
          (.array vs, rest)
  | depth, '\x7b' :: rest =>
      match depth with
      | 0 => none
      | depth + 1 =>
          match dropSpaces rest with
          | '\x7d' :: rest => some (.table .inline [], rest)
          | cs => do
              let (pairs, rest) ← readPairs (readValue depth) (cs.length + 1) cs
              return (← inlineTable? pairs, rest)
  | _, cs =>
      match Quoted.read? cs with
      | some (text, rest) => some (.string text, rest)
      | none => Token.read? cs

end SmartLock.Toml
