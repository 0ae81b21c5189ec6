import AccessControl.Binary.Octets
import AccessControl.Curve.Modular

/-!
# Elliptic curves of prime order

The points of a curve `y² = x³ - 3 · x + constant` over the residues modulo a prime, together with a
neutral one, form a group. Here its order is a prime too, so that one formula adds any two points. A
secret number has a public point, the multiple of the generator.

## Main definitions

* `Curve` — a curve with a generator, and `Curve.p256`, `Curve.p384`
* `Curve.Point`, `Curve.add` — points and their addition
* `Curve.publicOctets` — the written form of the public point of a secret number
-/

namespace AccessControl

/-- A curve of prime order with a generator. -/
structure Curve where
  /-- The number of octets of a coordinate. -/
  size : Nat
  /-- The prime that coordinates are residues of. -/
  modulus : Nat
  /-- The constant coefficient. -/
  constant : Nat
  /-- The first coordinate of the generator. -/
  generatorX : Nat
  /-- The second coordinate of the generator. -/
  generatorY : Nat
  /-- The order of the generator. -/
  order : Nat
  deriving DecidableEq

namespace Curve

/-- The coefficient of `x`, which is the residue of `-3`. -/
def linear (c : Curve) : Nat := c.modulus - 3

/-- A point in homogeneous coordinates: its coordinates are `x / z` and `y / z`, and the neutral
point has `z = 0`. -/
structure Point where
  /-- The first coordinate, times `z`. -/
  x : Nat
  /-- The second coordinate, times `z`. -/
  y : Nat
  /-- The denominator. -/
  z : Nat
  deriving DecidableEq

/-- The neutral point. -/
def neutral : Point := ⟨0, 1, 0⟩

/-- The generator. -/
def generator (c : Curve) : Point := ⟨c.generatorX, c.generatorY, 1⟩

/-- The sum of two points, equal or not, neutral or not. -/
def add (c : Curve) (p q : Point) : Point :=
  let m := c.modulus
  let triple := 3 * c.constant
  let xx := p.x * q.x % m
  let yy := p.y * q.y % m
  let zz := p.z * q.z % m
  let xy := (p.x * q.y + q.x * p.y) % m
  let xz := (p.x * q.z + q.x * p.z) % m
  let yz := (p.y * q.z + q.y * p.z) % m
  let shift := (c.linear * xz + triple * zz) % m
  let upper := yy + shift
  let lower := Modular.difference m yy shift
  let tangent := 3 * xx + c.linear * zz
  let rest := Modular.difference m (c.linear * xx + triple * xz) (c.linear * c.linear * zz)
  ⟨Modular.difference m (xy * lower) (yz * rest), (upper * lower + tangent * rest) % m,
    (yz * upper + xy * tangent) % m⟩

/-- A multiple of a point. -/
def multiple (c : Curve) (n : Nat) (p : Point) : Point := Modular.repeated c.add neutral p n

/-- The octets of a point that is not neutral: the mark of the form, then both coordinates. -/
def octets (c : Curve) (p : Point) : List UInt8 :=
  let inverse := Modular.inverse c.modulus p.z
  0x04 :: (Binary.writeBigEndian c.size (p.x * inverse % c.modulus) ++
    Binary.writeBigEndian c.size (p.y * inverse % c.modulus))

/-- The octets of the public point of a secret number. -/
def publicOctets (c : Curve) (secret : Nat) : List UInt8 := c.octets (c.multiple secret c.generator)

/-- The curve P-256. -/
def p256 : Curve where
  size := 32
  modulus := 0xFFFFFFFF00000001000000000000000000000000FFFFFFFFFFFFFFFFFFFFFFFF
  constant := 0x5AC635D8AA3A93E7B3EBBD55769886BC651D06B0CC53B0F63BCE3C3E27D2604B
  generatorX := 0x6B17D1F2E12C4247F8BCE6E563A440F277037D812DEB33A0F4A13945D898C296
  generatorY := 0x4FE342E2FE1A7F9B8EE7EB4A7C0F9E162BCE33576B315ECECBB6406837BF51F5
  order := 0xFFFFFFFF00000000FFFFFFFFFFFFFFFFBCE6FAADA7179E84F3B9CAC2FC632551

/-- The curve P-384. -/
def p384 : Curve where
  size := 48
  modulus :=
  0xFFFFFFFFFFFFFFFFFFFFFFFFFFFFFFFFFFFFFFFFFFFFFFFFFFFFFFFFFFFFFFFEFFFFFFFF0000000000000000FFFFFFFF
  constant :=
  0xB3312FA7E23EE7E4988E056BE3F82D19181D9C6EFE8141120314088F5013875AC656398D8A2ED19D2A85C8EDD3EC2AEF
  generatorX :=
  0xAA87CA22BE8B05378EB1C71EF320AD746E1D3B628BA79B9859F741E082542A385502F25DBF55296C3A545E3872760AB7
  generatorY :=
  0x3617DE4A96262C6F5D9E98BF9292DC29F8F41DBD289A147CE9DA3113B5F0B8C00A60B1CE1D7E819D7A431D7C90EA0E5F
  order :=
  0xFFFFFFFFFFFFFFFFFFFFFFFFFFFFFFFFFFFFFFFFFFFFFFFFC7634D81F4372DDF581A0DB248B0A77AECEC196ACCC52973

end Curve

end AccessControl
