/-
# Key pairs and key agreement

Private keys are numbers between zero and the order of the curve; public keys are the two
coordinates of a point as 64 bytes.  Two parties agree on the first coordinate of the product
of one's private key and the other's point.
-/
import SmartLock.Crypto.Cmac
import SmartLock.Crypto.Curve
import SmartLock.Crypto.Error
import SmartLock.Crypto.Random

namespace SmartLock

/-- A public key as it is sent: two coordinates of 32 bytes, highest byte first. -/
abbrev PublicKey : Type := Octets 64

/-- A private key: a factor between zero and the order of the curve. -/
structure PrivateKey where
  factor : Nat
  pos : 0 < factor
  lt_order : factor < Curve.order
  deriving DecidableEq, Repr

namespace PublicKey

/-- The point that a public key writes, if it writes one. -/
def point? (key : PublicKey) : Option Curve.Point :=
  Curve.Point.ofAffine? (ofBigEndian (key.toBytes.take 32)) (ofBigEndian (key.toBytes.drop 32))

/-- The public key that writes a point. -/
def ofPoint (u : Curve.Point) : PublicKey :=
  let (x, y) := u.affine
  (Octets.ofBytes 32 (bigEndian 32 x)).append (Octets.ofBytes 32 (bigEndian 32 y))

/-- A public key, checked to write a point of the curve. -/
def check (key : PublicKey) : Except CryptoError PublicKey :=
  if key.point?.isSome then .ok key else .error .invalidPublicKey

end PublicKey

namespace PrivateKey

/-- The private key 1. -/
def one : PrivateKey := ⟨1, by decide, by decide⟩

instance : Inhabited PrivateKey := ⟨one⟩

/-- The private key that 32 bytes write, if their number is in range. -/
def ofBytes? (b : Octets 32) : Option PrivateKey :=
  let k := ofBigEndian b.toBytes
  if h : 0 < k ∧ k < Curve.order then some ⟨k, h.1, h.2⟩ else none

/-- The 32 bytes that write a private key. -/
def toOctets (k : PrivateKey) : Octets 32 := Octets.ofBytes 32 (bigEndian 32 k.factor)

/-- The public key of a private key. -/
def publicKey (k : PrivateKey) : PublicKey := PublicKey.ofPoint (Curve.Point.smul k.factor .base)

/-- Draws 32 bytes until they write a private key, at most `attempts` times. -/
def generateWithin : Nat → RandomSource → PrivateKey × RandomSource
  | 0, source => (one, source)
  | attempts + 1, source =>
      let (b, source) := source.draw 32
      match ofBytes? b with
      | some k => (k, source)
      | none => generateWithin attempts source

/-- A random private key.  A draw is out of range with probability below 2⁻³², so the bound on
the number of draws is never met. -/
def generate (source : RandomSource) : PrivateKey × RandomSource := generateWithin 1000 source

/-- The secret that a private key shares with the owner of a public key. -/
def sharedSecret (k : PrivateKey) (peer : PublicKey) : Except CryptoError (Octets 32) :=
  match peer.point? with
  | some u => .ok (Octets.ofBytes 32 (bigEndian 32 (Curve.Point.smul k.factor u).affine.1))
  | none => .error .invalidPublicKey

/-- The first sixteen bytes of the shared secret. -/
def sharedKey (k : PrivateKey) (peer : PublicKey) : Except CryptoError Key :=
  (k.sharedSecret peer).map fun secret => Octets.ofBytes 16 secret.toBytes

end PrivateKey

end SmartLock
