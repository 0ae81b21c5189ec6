import AccessControl.Curve.Modular
import AccessControl.Digest.Sha512

/-!
# The curve of Ed25519

The points of the curve `y² - x² = 1 + d · x² · y²` over the residues modulo a prime form a group of
which `(0, 1)` is the neutral one, and one formula adds any two of them. The public key of a seed is
the multiple of a base point by a number that the digest of the seed tells.

## Main definitions

* `Ed25519.Point`, `Ed25519.add` — points and their addition
* `Ed25519.secretNumber` — the number of a seed
* `Ed25519.publicOctets` — the public key of a seed
-/

namespace AccessControl.Ed25519

/-- The prime that coordinates are residues of. -/
def modulus : Nat := 0x7FFFFFFFFFFFFFFFFFFFFFFFFFFFFFFFFFFFFFFFFFFFFFFFFFFFFFFFFFFFFFED

/-- The coefficient `d`. -/
def coefficient : Nat := 0x52036CEE2B6FFE738CC740797779E89800700A4D4141D8AB75EB4DCA135978A3

/-- A point in homogeneous coordinates: its coordinates are `x / z` and `y / z`. -/
structure Point where
  /-- The first coordinate, times `z`. -/
  x : Nat
  /-- The second coordinate, times `z`. -/
  y : Nat
  /-- The denominator. -/
  z : Nat
  deriving DecidableEq

/-- The neutral point. -/
def neutral : Point := ⟨0, 1, 1⟩

/-- The base point. -/
def base : Point where
  x := 0x216936D3CD6E53FEC0A4E231FDD6DC5C692CC7609525A7B2C9562D608F25D51A
  y := 0x6666666666666666666666666666666666666666666666666666666666666658
  z := 1

/-- The sum of two points, equal or not. -/
def add (p q : Point) : Point :=
  let zz := p.z * q.z % modulus
  let squared := zz * zz % modulus
  let xx := p.x * q.x % modulus
  let yy := p.y * q.y % modulus
  let product := coefficient * xx * yy % modulus
  let lower := Modular.difference modulus squared product
  let upper := squared + product
  let crossed := p.x * q.y + p.y * q.x
  ⟨zz * lower * crossed % modulus, zz * upper * (yy + xx) % modulus, lower * upper % modulus⟩

/-- A multiple of a point. -/
def multiple (n : Nat) (p : Point) : Point := Modular.repeated add neutral p n

/-- The number that begins with the least significant octet. -/
def littleEndian (octets : List UInt8) : Nat := Binary.bigEndian octets.reverse

/-- The number of a seed: the first half of its digest, of which the lowest three bits and the
highest one are cleared and the second highest one is set. -/
def secretNumber (seed : List UInt8) : Nat :=
  let half := littleEndian ((Digest.sha512 seed).take 32)
  let second := 0x4000000000000000000000000000000000000000000000000000000000000000
  half % second / 8 * 8 + second

/-- The octets of a point: the second coordinate, the least significant octet first, with the parity
of the first coordinate in the highest bit. -/
def Point.octets (p : Point) : List UInt8 :=
  let inverse := Modular.inverse modulus p.z
  let parity := p.x * inverse % modulus % 2
  let sign := 0x8000000000000000000000000000000000000000000000000000000000000000
  (Binary.writeBigEndian 32 (p.y * inverse % modulus + parity * sign)).reverse

/-- The public key of a seed. -/
def publicOctets (seed : List UInt8) : List UInt8 := (multiple (secretNumber seed) base).octets

end AccessControl.Ed25519
