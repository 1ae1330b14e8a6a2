/-
# Nonces of the two directions

A link encrypts in two directions, and each direction has its own nonce: a counter of five
bytes, lowest first, and eight fixed bytes.  In the second generation the fixed bytes are the
random tokens of both parties, and the top bit of the counter tells the directions apart.  In
the third they are four zeros and the token of the peripheral.
-/
import SmartLock.Catalog.Model
import SmartLock.Crypto.Ccm

namespace SmartLock

/-- A random token of four bytes. -/
abbrev Token : Type := Octets 4

/-- The two parties of a link. -/
inductive Role where
  | central
  | peripheral
  deriving DecidableEq, Repr, Inhabited

/-- The two directions of a link. -/
inductive Direction where
  | toPeripheral
  | toCentral
  deriving DecidableEq, Repr, Inhabited

/-- The direction in which a party sends. -/
def Role.outward : Role → Direction
  | .central => .toPeripheral
  | .peripheral => .toCentral

/-- The direction in which a party receives. -/
def Role.inward : Role → Direction
  | .central => .toCentral
  | .peripheral => .toPeripheral

/-- How the counters of a link run. -/
inductive NonceRule where
  | os2
  | os3
  deriving DecidableEq, Repr, Inhabited

/-- The rule of a generation; one that is not known follows the third. -/
def OsVersion.nonceRule : OsVersion → NonceRule
  | .os2 => .os2
  | _ => .os3

/-- The nonce of one direction and the counter that it was last written from. -/
structure NonceState where
  nonce : Nonce := Octets.zero 13
  count : UInt64 := 0
  deriving DecidableEq, Repr, Inhabited

/-- The nonces of both directions. -/
structure Nonces where
  toPeripheral : NonceState := {}
  toCentral : NonceState := {}
  deriving DecidableEq, Repr, Inhabited

/-! ## Counters -/

/-- The bits that a counter of the second generation runs through. -/
def counterMask : UInt64 := 0x7FFFFFFFFF

/-- The bit that marks the direction to the peripheral in the second generation. -/
def outwardBit : UInt64 := 0x8000000000

/-- A nonce with the low five bytes of a counter in front. -/
def writeCounter (nonce : Nonce) (count : UInt64) : Nonce :=
  Octets.ofBytes 13 (littleEndian 5 count.toNat ++ nonce.toBytes.drop 5)

/-- The counter after a given one. -/
def NonceRule.next : NonceRule → Direction → UInt64 → UInt64
  | .os2, .toPeripheral, count => ((count + 1) &&& counterMask) ||| outwardBit
  | .os2, .toCentral, count => (count + 1) &&& counterMask
  | .os3, _, count => count + 1

/-- The nonce of a direction, one step on. -/
def NonceState.advance (rule : NonceRule) (direction : Direction) (s : NonceState) : NonceState :=
  let count := rule.next direction s.count
  ⟨writeCounter s.nonce count, count⟩

/-! ## Both directions -/

namespace Nonces

/-- The state of one direction. -/
def get (nonces : Nonces) : Direction → NonceState
  | .toPeripheral => nonces.toPeripheral
  | .toCentral => nonces.toCentral

/-- One direction, a step on. -/
def advance (rule : NonceRule) (nonces : Nonces) : Direction → Nonces
  | .toPeripheral =>
      { nonces with toPeripheral := nonces.toPeripheral.advance rule .toPeripheral }
  | .toCentral => { nonces with toCentral := nonces.toCentral.advance rule .toCentral }

/-- The nonces of a new link between parties with the given tokens. -/
def start (rule : NonceRule) (central peripheral : Token) : Nonces :=
  match rule with
  | .os2 =>
      let nonce := Octets.ofBytes 13 (List.replicate 5 0 ++ central.toBytes ++ peripheral.toBytes)
      ⟨⟨writeCounter nonce outwardBit, outwardBit⟩, ⟨nonce, 0⟩⟩
  | .os3 =>
      let nonce := Octets.ofBytes 13 (List.replicate 9 0 ++ peripheral.toBytes)
      ⟨⟨nonce, 0⟩, ⟨nonce, 0⟩⟩

/-- A step of one direction leaves the other alone. -/
theorem get_advance_of_ne {rule : NonceRule} {nonces : Nonces} {d e : Direction} (h : d ≠ e) :
    (nonces.advance rule d).get e = nonces.get e := by
  match d, e with
  | .toPeripheral, .toCentral | .toCentral, .toPeripheral => rfl
  | .toPeripheral, .toPeripheral | .toCentral, .toCentral => exact absurd rfl h

/-- A step of one direction is a step of its state. -/
@[simp] theorem get_advance_self (rule : NonceRule) (nonces : Nonces) (d : Direction) :
    (nonces.advance rule d).get d = (nonces.get d).advance rule d := by
  cases d <;> rfl

end Nonces

end SmartLock
