import AccessControl.Certificate.StrictDer

/-!
# Private RSA keys

A private RSA key consists of eight numbers. It can be used if its modulus has 256 to 512 octets and
the other numbers agree with it, as far as that is cheap to see: the exponents are not known to be
inverses of each other, nor the primes to be primes.

## Main definitions

* `RsaKey` — the eight numbers
* `RsaKey.isConsistent` — whether a key can be used
* `RsaKey.parse?` — the usable key that octets are, in the form of PKCS #1
* `RsaKey.publicOctets` — the written form of the public key
-/

namespace AccessControl

open StrictDer

/-- A private RSA key. -/
structure RsaKey where
  modulus : Nat
  /-- The exponent of the public key. -/
  publicExponent : Nat
  /-- The exponent of the private key. -/
  privateExponent : Nat
  /-- The first factor of the modulus. -/
  firstPrime : Nat
  /-- The second factor of the modulus. -/
  secondPrime : Nat
  /-- The exponent modulo the first factor. -/
  firstExponent : Nat
  /-- The exponent modulo the second factor. -/
  secondExponent : Nat
  /-- The inverse of the second factor modulo the first one. -/
  coefficient : Nat
  deriving DecidableEq

namespace RsaKey

/-- The number of bits of a number above zero. -/
def bitLength (n : Nat) : Nat := n.log2 + 1

/-- Whether a number is odd. -/
def isOdd (n : Nat) : Bool := n % 2 = 1

/-- Whether the public key is of a usable size, and both its numbers are odd. -/
def isPublicKeyUsable (k : RsaKey) : Bool :=
  isOdd k.modulus && 2041 ≤ bitLength k.modulus && bitLength k.modulus ≤ 4096 &&
    isOdd k.publicExponent && 0x10001 ≤ k.publicExponent && k.publicExponent < 0x200000000

/-- Half the number of bits of the modulus, rounded up. -/
def halfLength (k : RsaKey) : Nat := (bitLength k.modulus + 1) / 2

/-- Whether a number is odd and half as long as the modulus, that being a multiple of 512 bits. -/
def isFactorUsable (k : RsaKey) (factor : Nat) : Bool :=
  isOdd factor && bitLength factor = k.halfLength && k.halfLength % 512 = 0

/-- Whether a key can be used. -/
def isConsistent (k : RsaKey) : Bool :=
  k.isPublicKeyUsable && k.isFactorUsable k.firstPrime && k.isFactorUsable k.secondPrime &&
    k.firstPrime * k.secondPrime % k.modulus = 0 &&
    isOdd k.privateExponent && k.halfLength < bitLength k.privateExponent &&
    k.privateExponent < k.modulus &&
    k.coefficient < k.firstPrime && k.coefficient * k.secondPrime % k.firstPrime = 1 &&
    isOdd k.firstExponent && k.firstExponent < k.firstPrime &&
    isOdd k.secondExponent && k.secondExponent < k.secondPrime

/-- A key: the version 0 and the eight numbers. -/
def key : Der.Parser RsaKey := within sequenceTag do
  if (← natural) ≠ 0 then failure
  return ⟨← natural, ← natural, ← natural, ← natural, ← natural, ← natural, ← natural, ← natural⟩

/-- The usable key that octets are. -/
def parse? (der : List UInt8) : Option RsaKey := do
  let k ← wholly key der
  if k.isConsistent then return k else none

/-- The octets of the public key: the sequence of the modulus and the exponent. -/
def publicOctets (k : RsaKey) : List UInt8 :=
  encode sequenceTag (encode integerTag (naturalOctets k.modulus) ++
    encode integerTag (naturalOctets k.publicExponent))

end RsaKey

end AccessControl
