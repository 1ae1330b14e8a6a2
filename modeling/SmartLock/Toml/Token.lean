/-
# Numbers, times and truth values

The values of a TOML document that are written without quotes or brackets.  Each is one run of
letters, digits and a few signs, a token, and the whole token decides what it means; only a
date and a time may also stand in two tokens with one space between.
-/
import SmartLock.Toml.Quoted
import SmartLock.Toml.Value

namespace SmartLock.Toml.Token

/-- A character of a token. -/
def isPart (c : Char) : Bool :=
  c.isAlphanum || c = '_' || c = '+' || c = '-' || c = '.' || c = ':'

/-! ## Digits -/

/-- The value of a digit in a given base. -/
def digit? (base : Nat) (c : Char) : Option Nat := (Quoted.hexValue? c).filter (· < base)

/-- The number that digits write after digits of value `n`; single underscores may stand between
digits. -/
def digitsAfter? (base : Nat) : Nat → List Char → Option Nat
  | n, [] => some n
  | n, '_' :: c :: cs => (digit? base c).bind fun d => digitsAfter? base (n * base + d) cs
  | n, c :: cs => (digit? base c).bind fun d => digitsAfter? base (n * base + d) cs

/-- The number that one or more digits write; single underscores may stand between them. -/
def digits? (base : Nat) : List Char → Option Nat
  | [] => none
  | c :: cs => (digit? base c).bind fun d => digitsAfter? base d cs

/-- The number that decimal digits write without a zero in front of others. -/
def decimal? : List Char → Option Nat
  | '0' :: _ :: _ => none
  | cs => digits? 10 cs

/-! ## Integers -/

/-- A number, if it is a signed word of 64 bits. -/
def word64? (n : Int) : Option Int :=
  if -0x8000000000000000 ≤ n ∧ n < 0x8000000000000000 then some n else none

/-- The integer that a token writes: decimal with or without a sign, or without one in base 16,
8 or 2. -/
def integer? (token : List Char) : Option Int :=
  (match token with
    | '+' :: cs => (decimal? cs).map Int.ofNat
    | '-' :: cs => (decimal? cs).map fun n => -Int.ofNat n
    | '0' :: 'x' :: cs => (digits? 16 cs).map Int.ofNat
    | '0' :: 'o' :: cs => (digits? 8 cs).map Int.ofNat
    | '0' :: 'b' :: cs => (digits? 2 cs).map Int.ofNat
    | cs => (decimal? cs).map Int.ofNat).bind word64?

/-! ## Floating-point numbers -/

/-- The least number that rounds to infinity in double precision: half a step above the
greatest finite one. -/
def infinityBound : Nat := (1 <<< 1024) - (1 <<< 970)

/-- Whether `n * 10 ^ exponent` rounds to infinity in double precision.  Its size in digits
settles all but the closest cases. -/
def isInfinite (n : Nat) (exponent : Int) : Bool :=
  let size := (Nat.toDigits 10 n).length + exponent
  if n = 0 || size < 309 then false
  else if 310 < size then true
  else if 0 ≤ exponent then infinityBound ≤ n * Nat.pow 10 exponent.toNat
  else infinityBound * Nat.pow 10 (-exponent).toNat ≤ n

/-- The exponent of a number: nothing, or the letter e and an integer that may have zeros in
front. -/
def exponent? : List Char → Option Int
  | [] => some 0
  | e :: cs =>
      if e = 'e' || e = 'E' then
        match cs with
        | '+' :: cs => (digits? 10 cs).map Int.ofNat
        | '-' :: cs => (digits? 10 cs).map fun n => -Int.ofNat n
        | cs => (digits? 10 cs).map Int.ofNat
      else none

/-- A digit or an underscore. -/
def isDigitPart (c : Char) : Bool := c.isDigit || c = '_'

/-- Whether a token without sign is a number with a fraction, an exponent or both, and is below
infinity if it has to be. -/
def isUnsignedFloat (hasBound : Bool) (token : List Char) : Bool :=
  let (whole, rest) := token.span isDigitPart
  match decimal? whole, rest with
  | none, _ | _, [] => false
  | some n, '.' :: rest =>
      let (fraction, rest) := rest.span isDigitPart
      match digits? 10 fraction, exponent? rest with
      | some m, some e =>
          let places := fraction.countP Char.isDigit
          !(hasBound && isInfinite (n * Nat.pow 10 places + m) (e - places))
      | _, _ => false
  | some n, rest =>
      match exponent? rest with
      | some e => !(hasBound && isInfinite n e)
      | none => false

/-- Whether a token is a floating-point number.  A number without minus sign that is too large
for double precision is refused, one with it is not. -/
def isFloat (token : List Char) : Bool :=
  let (isNegative, body) : Bool × List Char :=
    match token with
    | '+' :: cs => (false, cs)
    | '-' :: cs => (true, cs)
    | cs => (false, cs)
  body = ['i', 'n', 'f'] || body = ['n', 'a', 'n'] || isUnsignedFloat (!isNegative) body

/-! ## Dates and times -/

/-- The number that digits write, without underscores. -/
def plainDigits? (cs : List Char) : Option Nat :=
  if cs.all Char.isDigit then digits? 10 cs else none

/-- Whether two digits write a number from `low` to `high`. -/
def isPair (low high : Nat) (tens units : Char) : Bool :=
  match plainDigits? [tens, units] with
  | some n => low ≤ n && n ≤ high
  | none => false

/-- The number of days of a month. -/
def daysOf (year month : Nat) : Nat :=
  if month = 2 then if year % 4 = 0 && (year % 100 ≠ 0 || year % 400 = 0) then 29 else 28
  else if month = 4 || month = 6 || month = 9 || month = 11 then 30
  else 31

/-- Whether a token is a date. -/
def isDate : List Char → Bool
  | [a, b, c, d, '-', m, n, '-', x, y] =>
      match plainDigits? [a, b, c, d], plainDigits? [m, n] with
      | some year, some month => 1 ≤ month && month ≤ 12 && isPair 1 (daysOf year month) x y
      | _, _ => false
  | _ => false

/-- What follows the seconds of a time that begins a token, if one does. -/
def afterTime? : List Char → Option (List Char)
  | h :: i :: ':' :: m :: n :: ':' :: s :: t :: rest =>
      if isPair 0 23 h i && isPair 0 59 m n && isPair 0 60 s t then
        match rest with
        | '.' :: f :: rest => if f.isDigit then some (rest.dropWhile Char.isDigit) else none
        | rest => some rest
      else none
  | _ => none

/-- Whether a token is a time. -/
def isTime (token : List Char) : Bool := afterTime? token = some []

/-- Whether the end of a token is a distance from universal time. -/
def isOffset : List Char → Bool
  | ['Z'] | ['z'] => true
  | [sign, h, i, ':', m, n] => (sign = '+' || sign = '-') && isPair 0 23 h i && isPair 0 59 m n
  | _ => false

/-- Whether a token is a time that may tell its distance from universal time. -/
def isZonedTime (token : List Char) : Bool :=
  match afterTime? token with
  | none => false
  | some rest => rest.isEmpty || isOffset rest

/-- Whether a token is a date and a time with a letter t between. -/
def isDateTime (token : List Char) : Bool :=
  match token.drop 10 with
  | t :: time => (t = 'T' || t = 't') && isDate (token.take 10) && isZonedTime time
  | [] => false

/-! ## Tokens -/

/-- The value that a token writes. -/
def value? (token : List Char) : Option Value :=
  match integer? token with
  | some n => some (.integer n)
  | none =>
      if token = ['t', 'r', 'u', 'e'] then some (.boolean true)
      else if token = ['f', 'a', 'l', 's', 'e'] then some (.boolean false)
      else if isFloat token then some (.float (String.ofList token))
      else if isDate token || isTime token || isDateTime token then
        some (.dateTime (String.ofList token))
      else none

/-- Whether a second token follows a date: one space and a digit. -/
def hasTime : List Char → Bool
  | ' ' :: c :: _ => c.isDigit
  | _ => false

/-- Reads a value that is written without quotes or brackets. -/
def read? (cs : List Char) : Option (Value × List Char) :=
  let (token, rest) := cs.span isPart
  if isDate token && hasTime rest then
    let (time, rest) := rest.tail.span isPart
    if isZonedTime time then some (.dateTime (String.ofList (token ++ ' ' :: time)), rest) else none
  else (value? token).map (·, rest)

end SmartLock.Toml.Token
