/-
# Quoted text

The four ways to write a text in a TOML document: between double quotes, where a backslash
begins an escape, or between single quotes, where it does not; and either of them tripled, so
that the text may hold line ends and up to two quotes in a row.  `read` reads the text after the
opening quotes and `write` chooses the plainest of the four ways that can hold a text.
-/
import SmartLock.Text.Hex

namespace SmartLock.Toml

/-- A way to quote a text. -/
inductive Style where
  | basic
  | literal
  | multilineBasic
  | multilineLiteral
  deriving DecidableEq, Repr, Inhabited

namespace Style

/-- The quote that opens and closes a text. -/
def mark : Style → Char
  | .basic | .multilineBasic => '"'
  | .literal | .multilineLiteral => '\''

/-- Whether a backslash begins an escape. -/
def hasEscapes : Style → Bool
  | .basic | .multilineBasic => true
  | .literal | .multilineLiteral => false

/-- Whether the quotes are tripled. -/
def isMultiline : Style → Bool
  | .basic | .literal => false
  | .multilineBasic | .multilineLiteral => true

/-- The quotes at either end. -/
def delimiter (style : Style) : List Char :=
  List.replicate (if style.isMultiline then 3 else 1) style.mark

end Style

namespace Quoted

/-! ## Characters -/

/-- A character that may stand in a quoted text as it is, quotes and backslashes aside: a tab or
no control character of ASCII. -/
def isPlain (c : Char) : Bool := c = '\t' || (' ' ≤ c && c ≠ '\x7f')

/-- A space or a tab. -/
def isSpace (c : Char) : Bool := c = ' ' || c = '\t'

/-- Whether a line ends here. -/
def atLineEnd : List Char → Bool
  | '\n' :: _ => true
  | '\r' :: '\n' :: _ => true
  | _ => false

/-- The value of a hexadecimal digit in either case. -/
def hexValue? (c : Char) : Option Nat :=
  if c.isDigit then some (c.toNat - 48)
  else if 'a' ≤ c && c ≤ 'f' then some (c.toNat - 87)
  else if 'A' ≤ c && c ≤ 'F' then some (c.toNat - 55)
  else none

/-- The character whose number some hexadecimal digits write. -/
def charOfHex? (digits : List Char) : Option Char := do
  let n ← digits.foldlM (fun n d => (16 * n + ·) <$> hexValue? d) 0
  if n.isValidChar then some (Char.ofNat n) else none

/-- The character that a letter after a backslash stands for. -/
def unescape? : Char → Option Char
  | 'b' => some '\x08'
  | 't' => some '\t'
  | 'n' => some '\n'
  | 'f' => some '\x0c'
  | 'r' => some '\r'
  | '"' => some '"'
  | '\\' => some '\\'
  | _ => none

/-! ## Reading -/

/-- Puts a character before a text that was read. -/
def cons? (c : Option Char) (tail : Option (List Char × List Char)) :
    Option (List Char × List Char) := do
  let c ← c
  let (text, rest) ← tail
  return (c :: text, rest)

/-- What a quote means that is followed by `rest`: `some` with the end of the text and what
comes after it, or nothing if the quote belongs to the text.  Of three or more quotes in a row
the last three close a tripled quotation, and at most two stand before them. -/
def close? (style : Style) (rest : List Char) : Option (List Char × List Char) :=
  if style.isMultiline then
    match (rest.takeWhile (· = style.mark)).length with
    | 0 | 1 => none
    | n + 2 =>
        let extra := min n 2
        some (List.replicate extra style.mark, rest.drop (extra + 2))
  else some ([], rest)

/-- Reads a text up to its closing quotes.  While `isTrimming` holds, white space and line ends
are skipped: a backslash at the end of a line begins that. -/
def readBody (style : Style) : Bool → List Char → Option (List Char × List Char)
  | _, [] => none
  | isTrimming, c :: rest =>
      if c = style.mark then
        match close? style rest with
        | some done => some done
        | none => cons? (some c) (readBody style false rest)
      else if c = '\\' && style.hasEscapes then
        if style.isMultiline && atLineEnd (rest.dropWhile isSpace) then readBody style true rest
        else
          match rest with
          | 'u' :: a :: b :: c :: d :: rest =>
              cons? (charOfHex? [a, b, c, d]) (readBody style false rest)
          | 'U' :: a :: b :: c :: d :: e :: f :: g :: h :: rest =>
              cons? (charOfHex? [a, b, c, d, e, f, g, h]) (readBody style false rest)
          | e :: rest => cons? (unescape? e) (readBody style false rest)
          | [] => none
      else if isTrimming && isSpace c then readBody style true rest
      else if isPlain c then cons? (some c) (readBody style false rest)
      else if style.isMultiline && c = '\n' then
        if isTrimming then readBody style true rest
        else cons? (some c) (readBody style false rest)
      else if style.isMultiline && c = '\r' && rest.head? = some '\n' then
        readBody style isTrimming rest
      else none

/-- A text without the line end that may follow tripled quotes. -/
def dropLineEnd : List Char → List Char
  | '\n' :: rest => rest
  | '\r' :: '\n' :: rest => rest
  | rest => rest

/-- Reads a text of a given style after its opening quotes. -/
def readStyle (style : Style) (cs : List Char) : Option (String × List Char) :=
  let cs := if style.isMultiline then dropLineEnd cs else cs
  (readBody style false cs).map fun (text, rest) => (String.ofList text, rest)

/-- Reads a text in double or single quotes that stays on its line, as keys are quoted. -/
def readLine? : List Char → Option (String × List Char)
  | '"' :: rest => readStyle .basic rest
  | '\'' :: rest => readStyle .literal rest
  | _ => none

/-- Reads a quoted text of any style. -/
def read? : List Char → Option (String × List Char)
  | '"' :: '"' :: '"' :: rest => readStyle .multilineBasic rest
  | '\'' :: '\'' :: '\'' :: rest => readStyle .multilineLiteral rest
  | cs => readLine? cs

/-! ## Writing -/

/-- A control character of ASCII that no literal text can hold: neither a tab nor a line feed. -/
def isControl (c : Char) : Bool := !isPlain c && c ≠ '\n'

/-- The length of the longest run of a character, given the length of the run so far. -/
def longestRun (mark : Char) : Nat → List Char → Nat
  | run, [] => run
  | run, c :: cs =>
      if c = mark then longestRun mark (run + 1) cs else max run (longestRun mark 0 cs)

/-- The plainest style for a text: double quotes if nothing needs an escape, else single quotes
if the text holds none and stays on a line, else one of the two tripled if that avoids all
escapes, else double quotes with escapes. -/
def styleOf (text : List Char) : Style :=
  let hasControl := text.any isControl
  let hasBackslash := text.contains '\\'
  let hasLineEnd := text.contains '\n'
  let doubles := longestRun '"' 0 text
  let singles := longestRun '\'' 0 text
  if !hasControl && !hasBackslash && doubles = 0 && !hasLineEnd then .basic
  else if !hasControl && singles = 0 && !hasLineEnd then .literal
  else if !hasControl && !hasBackslash && doubles ≤ 2 then .multilineBasic
  else if !hasControl && singles ≤ 2 then .multilineLiteral
  else if hasLineEnd then .multilineBasic
  else .basic

/-- The capital hexadecimal digit of a number below sixteen. -/
def capitalDigit (n : Nat) : Char := (Hex.digit n).toUpper

/-- The escape of a character by its number. -/
def numberEscape (c : Char) : List Char :=
  ['\\', 'u', '0', '0', capitalDigit (c.toNat / 16), capitalDigit (c.toNat % 16)]

/-- One character between double quotes; a line end stays as it is if they are tripled. -/
def writeChar (style : Style) (c : Char) : List Char :=
  match c with
  | '\x08' => ['\\', 'b']
  | '\t' => ['\\', 't']
  | '\n' => if style.isMultiline then ['\n'] else ['\\', 'n']
  | '\x0c' => ['\\', 'f']
  | '\r' => ['\\', 'r']
  | '\\' => ['\\', '\\']
  | c => if isPlain c then [c] else numberEscape c

/-- A text between double quotes, after `run` quotes in a row.  Two quotes in a row may stand
between tripled ones, and none between single ones. -/
def writeEscaped (style : Style) : Nat → List Char → List Char
  | _, [] => []
  | run, c :: cs =>
      if c = '"' then
        if style.isMultiline && run < 2 then c :: writeEscaped style (run + 1) cs
        else '\\' :: c :: writeEscaped style 0 cs
      else writeChar style c ++ writeEscaped style 0 cs

/-- A text between quotes of a given style.  A text with line ends begins on a line of its
own. -/
def writeStyle (style : Style) (text : List Char) : List Char :=
  let gap := if style.isMultiline && text.contains '\n' then ['\n'] else []
  let body := if style.hasEscapes then writeEscaped style 0 text else text
  style.delimiter ++ gap ++ body ++ style.delimiter

/-- A text in the plainest style that can hold it. -/
def write (text : String) : List Char := writeStyle (styleOf text.toList) text.toList

end Quoted

end SmartLock.Toml
