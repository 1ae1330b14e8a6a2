/-
# Base64 without padding

The standard alphabet.  Reading accepts exactly what writing produces: every symbol must be of
the alphabet and the unused low bits of the last one must be zero.
-/
import SmartLock.Bytes

namespace SmartLock.Base64

/-! ## Symbols -/

/-- The symbol of a number below 64. -/
def symbol (n : Nat) : UInt8 :=
  if n < 26 then UInt8.ofNat (65 + n)
  else if n < 52 then UInt8.ofNat (71 + n)
  else if n < 62 then UInt8.ofNat (n - 4)
  else if n = 62 then 43
  else 47

/-- The number that a symbol stands for. -/
def value? (x : UInt8) : Option Nat :=
  if 65 ≤ x && x ≤ 90 then some (x.toNat - 65)
  else if 97 ≤ x && x ≤ 122 then some (x.toNat - 71)
  else if 48 ≤ x && x ≤ 57 then some (x.toNat + 4)
  else if x = 43 then some 62
  else if x = 47 then some 63
  else none

/-! ## Whole texts -/

/-- Four symbols for each three bytes; two or three symbols for the one or two bytes left. -/
def encode : Bytes → Bytes
  | [] => []
  | [a] =>
      let v := a.toNat * 16
      [symbol (v / 64), symbol (v % 64)]
  | [a, b] =>
      let v := (a.toNat * 256 + b.toNat) * 4
      [symbol (v / 4096), symbol (v / 64 % 64), symbol (v % 64)]
  | a :: b :: c :: rest =>
      let v := (a.toNat * 256 + b.toNat) * 256 + c.toNat
      symbol (v / 262144) :: symbol (v / 4096 % 64) :: symbol (v / 64 % 64) :: symbol (v % 64) ::
        encode rest

/-- The bytes that a text of symbols writes. -/
def decode? : Bytes → Option Bytes
  | [] => some []
  | [_] => none
  | [w, x] => do
      let v := (← value? w) * 64 + (← value? x)
      if v % 16 = 0 then some [UInt8.ofNat (v / 16)] else none
  | [w, x, y] => do
      let v := ((← value? w) * 64 + (← value? x)) * 64 + (← value? y)
      if v % 4 = 0 then some [UInt8.ofNat (v / 1024), UInt8.ofNat (v / 4 % 256)] else none
  | w :: x :: y :: z :: rest => do
      let v := (((← value? w) * 64 + (← value? x)) * 64 + (← value? y)) * 64 + (← value? z)
      let bytes ← decode? rest
      return UInt8.ofNat (v / 65536) :: UInt8.ofNat (v / 256 % 256) :: UInt8.ofNat (v % 256) ::
        bytes

end SmartLock.Base64
