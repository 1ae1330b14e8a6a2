/-
# The curve P-256

Points of y² = x³ − 3x + b over the field of p elements, in Jacobian coordinates: the triple
(x, y, z) stands for the point (x / z², y / z³), and z = 0 for the point at infinity.
-/
import SmartLock.Bytes

namespace SmartLock.Curve

/-! ## The field -/

/-- The number of elements of the field. -/
def p : Nat := 0xFFFFFFFF00000001000000000000000000000000FFFFFFFFFFFFFFFFFFFFFFFF

/-- The order of the group of points. -/
def order : Nat := 0xFFFFFFFF00000000FFFFFFFFFFFFFFFFBCE6FAADA7179E84F3B9CAC2FC632551

/-- The constant term of the equation. -/
def b : Nat := 0x5AC635D8AA3A93E7B3EBBD55769886BC651D06B0CC53B0F63BCE3C3E27D2604B

/-- The product of two field elements. -/
def mul (u v : Nat) : Nat := u * v % p

/-- The difference of two field elements. -/
def sub (u v : Nat) : Nat := (u + (p - v)) % p

/-- A power of a field element, by repeated squaring over at most `fuel` bits of the exponent. -/
def powWithin : Nat → Nat → Nat → Nat
  | 0, _, _ => 1
  | fuel + 1, u, e =>
      if e = 0 then 1
      else
        let half := powWithin fuel u (e / 2)
        let square := mul half half
        if e % 2 = 1 then mul square u else square

/-- The inverse of a field element other than zero. -/
def inverse (u : Nat) : Nat := powWithin 256 u (p - 2)

/-! ## Points -/

/-- A point in Jacobian coordinates. -/
structure Point where
  x : Nat
  y : Nat
  z : Nat
  deriving DecidableEq, Repr, Inhabited

namespace Point

/-- The point at infinity. -/
def infinity : Point := ⟨1, 1, 0⟩

/-- The generator of the group. -/
def base : Point where
  x := 0x6B17D1F2E12C4247F8BCE6E563A440F277037D812DEB33A0F4A13945D898C296
  y := 0x4FE342E2FE1A7F9B8EE7EB4A7C0F9E162BCE33576B315ECECBB6406837BF51F5
  z := 1

/-- Twice a point. -/
def double (u : Point) : Point :=
  if u.z = 0 then infinity
  else
    let delta := mul u.z u.z
    let gamma := mul u.y u.y
    let beta := mul u.x gamma
    let alpha := mul 3 (mul (sub u.x delta) ((u.x + delta) % p))
    let x := sub (mul alpha alpha) (mul 8 beta)
    let z := mul 2 (mul u.y u.z)
    ⟨x, sub (mul alpha (sub (mul 4 beta) x)) (mul 8 (mul gamma gamma)), z⟩

/-- The sum of two points. -/
def add (u v : Point) : Point :=
  if u.z = 0 then v
  else if v.z = 0 then u
  else
    let uu := mul u.z u.z
    let vv := mul v.z v.z
    let x₁ := mul u.x vv
    let x₂ := mul v.x uu
    let y₁ := mul u.y (mul v.z vv)
    let y₂ := mul v.y (mul u.z uu)
    if x₁ = x₂ then
      if y₁ = y₂ then double u else infinity
    else
      let h := sub x₂ x₁
      let r := sub y₂ y₁
      let hh := mul h h
      let hhh := mul h hh
      let w := mul x₁ hh
      let x := sub (sub (mul r r) hhh) (mul 2 w)
      ⟨x, sub (mul r (sub w x)) (mul y₁ hhh), mul h (mul u.z v.z)⟩

/-- A multiple of a point, by repeated doubling over at most `fuel` bits of the factor. -/
def smulWithin : Nat → Nat → Point → Point
  | 0, _, _ => infinity
  | fuel + 1, k, u =>
      if k = 0 then infinity
      else
        let twice := double (smulWithin fuel (k / 2) u)
        if k % 2 = 1 then add twice u else twice

/-- A multiple of a point, for factors below 2²⁵⁶. -/
def smul (k : Nat) (u : Point) : Point := smulWithin 256 k u

/-- The affine coordinates of a point. -/
def affine (u : Point) : Nat × Nat :=
  let i := inverse u.z
  let ii := mul i i
  (mul u.x ii, mul u.y (mul ii i))

/-- The point with given affine coordinates, if they are field elements that satisfy the
equation. -/
def ofAffine? (x y : Nat) : Option Point :=
  if x < p && y < p && mul y y = (sub (mul x (mul x x)) (mul 3 x) + b) % p then some ⟨x, y, 1⟩
  else none

end Point

end SmartLock.Curve
