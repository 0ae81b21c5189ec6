import AccessControl.Certificate.StrictDer
import AccessControl.Curve.PrimeOrder

/-!
# Algorithms of keys

A key is used with one of four algorithms, which certificates and keys name by object identifiers. A
public key is written together with its algorithm.

## Main definitions

* `KeyAlgorithm` — the algorithms
* `KeyAlgorithm.octets` — the written name of an algorithm
* `KeyAlgorithm.publicKeyInfo` — the written form of a public key
-/

namespace AccessControl

open StrictDer

/-- The algorithms that a key can be used with. -/
inductive KeyAlgorithm where
  | rsa
  /-- Signatures with the curve P-256. -/
  | p256
  /-- Signatures with the curve P-384. -/
  | p384
  | ed25519
  deriving DecidableEq

namespace KeyAlgorithm

def all : List KeyAlgorithm := [.rsa, .p256, .p384, .ed25519]

/-- The element of an object identifier. -/
def objectId (octets : List UInt8) : List UInt8 := encode objectIdTag octets

/-- The curve of an algorithm, if it is one of those of prime order. -/
def curve? : KeyAlgorithm → Option Curve
  | .p256 => some .p256
  | .p384 => some .p384
  | .rsa | .ed25519 => none

/-- What the name of an algorithm has after its object identifier: nothing or one element. -/
def parameters : KeyAlgorithm → List UInt8
  | .rsa => [0x05, 0x00]
  | .p256 => objectId [0x2A, 0x86, 0x48, 0xCE, 0x3D, 0x03, 0x01, 0x07]
  | .p384 => objectId [0x2B, 0x81, 0x04, 0x00, 0x22]
  | .ed25519 => []

/-- The object identifier of an algorithm, which all curves of prime order share. -/
def family : KeyAlgorithm → List UInt8
  | .rsa => objectId [0x2A, 0x86, 0x48, 0x86, 0xF7, 0x0D, 0x01, 0x01, 0x01]
  | .p256 | .p384 => objectId [0x2A, 0x86, 0x48, 0xCE, 0x3D, 0x02, 0x01]
  | .ed25519 => objectId [0x2B, 0x65, 0x70]

/-- The name of an algorithm: the content of the sequence that stands for it. -/
def octets (a : KeyAlgorithm) : List UInt8 := a.family ++ a.parameters

/-- The algorithm of a name. -/
def ofOctets? (octets : List UInt8) : Option KeyAlgorithm := all.find? (·.octets = octets)

/-- Different algorithms have different names. -/
theorem ofOctets?_octets (a : KeyAlgorithm) : ofOctets? a.octets = some a := by
  cases a <;> decide

/-- The content of the sequence that holds a public key and its algorithm. -/
def publicKeyInfo (a : KeyAlgorithm) (key : List UInt8) : List UInt8 :=
  encode sequenceTag a.octets ++ encode bitStringTag (0 :: key)

end KeyAlgorithm

end AccessControl
