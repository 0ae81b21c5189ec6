import AccessControl.Curve.Ed25519
import AccessControl.Tls.KeyAlgorithm
import AccessControl.Tls.Pem
import AccessControl.Tls.RsaKey

/-!
# Private keys

A private key has one of three forms, which the label of its section tells: an RSA key on its own, a
key on the curve P-256 or P-384 on its own, or a key of any kind together with its algorithm. It can
be used if it belongs to the public key that is written with it, where one is, and an RSA key if its
numbers are consistent.

## Main definitions

* `PrivateKey` — a key as it was read
* `PrivateKey.ofSection?` — the key in a section, whether usable or not
* `PrivateKey.publicKeyInfo?` — the public key of a usable key
* `PrivateKey.isUsable` — whether a key can be used
-/

namespace AccessControl

open StrictDer

/-- The forms of private keys. -/
inductive PrivateKey.Form where
  /-- An RSA key on its own. -/
  | pkcs1
  /-- A key on an elliptic curve on its own. -/
  | sec1
  /-- A key with its algorithm. -/
  | pkcs8
  deriving DecidableEq

/-- A private key as it was read. -/
structure PrivateKey where
  /-- The form that its label tells. -/
  form : PrivateKey.Form
  der : List UInt8
  deriving DecidableEq

namespace PrivateKey

/-- The key in a section, if the label is that of a private key. -/
def ofSection? (s : Pem.Section) : Option PrivateKey :=
  match s.label with
  | .rsaPrivateKey => some ⟨.pkcs1, s.content⟩
  | .ecPrivateKey => some ⟨.sec1, s.content⟩
  | .privateKey => some ⟨.pkcs8, s.content⟩
  | _ => none

/-! ### Keys on a curve of prime order -/

/-- The secret number and the octets of the public point of a key: the version 1, the secret number,
optionally the given name of the curve, and the public point. -/
def curveKey (name : List UInt8) : Der.Parser (List UInt8 × List UInt8) := within sequenceTag do
  if (← natural) ≠ 1 then failure
  let secret ← tagged octetStringTag
  if ← announces (contextTag 0) then
    if (← tagged (contextTag 0)) ≠ name then failure
  let publicPoint ← within (contextTag 1) (bits bitStringTag)
  return (secret, publicPoint)

/-- The public key of a key with a given algorithm on a curve. The secret number has as many octets
as a coordinate and is between zero and the order of the curve. -/
def curvePublicKey? (a : KeyAlgorithm) (der : List UInt8) : Option (List UInt8) := do
  let c ← a.curve?
  let (secret, publicPoint) ← wholly (curveKey a.parameters) der
  let n := Binary.bigEndian secret
  if secret.length = c.size && 0 < n && n < c.order && publicPoint = c.publicOctets n then
    return a.publicKeyInfo publicPoint
  else none

/-! ### Keys with their algorithm -/

/-- The parts of a key with its algorithm. -/
structure Enclosed where
  algorithm : KeyAlgorithm
  content : List UInt8
  /-- The octets of the public key, which are there in version 1 only. -/
  publicKey : Option (List UInt8)
  deriving DecidableEq

/-- The tag of the public key in version 1. -/
def publicKeyTag : UInt8 := 0x81

/-- A public key in version 1, which may be enclosed in a further element. -/
def enclosedPublicKey : Der.Parser (List UInt8) := do
  if ← announces (contextTag 1) then within (contextTag 1) (bits bitStringTag)
  else bits publicKeyTag

/-- A key with its algorithm: the version 0 or 1, the algorithm, the key, optional attributes, and
in version 1 the public key. -/
def enclosed : Der.Parser Enclosed := within sequenceTag do
  let version ← natural
  let some algorithm := KeyAlgorithm.ofOctets? (← tagged sequenceTag) | failure
  let content ← tagged octetStringTag
  if ← announces (contextTag 0) then
    let _attributes ← tagged (contextTag 0)
  match version with
  | 0 => return ⟨algorithm, content, none⟩
  | 1 => return ⟨algorithm, content, some (← enclosedPublicKey)⟩
  | _ => failure

/-- The number of octets of the seed of an Ed25519 key. -/
def seedSize : Nat := 32

/-- The public key of an Ed25519 key, which is an octet string with a seed. A public key that is
written with it must be the one of the seed. -/
def ed25519PublicKey? (der : List UInt8) (written : Option (List UInt8)) : Option (List UInt8) := do
  let seed ← wholly (tagged octetStringTag) der
  let derived := Ed25519.publicOctets seed
  if seed.length = seedSize && written.all (· = derived) then
    return KeyAlgorithm.ed25519.publicKeyInfo derived
  else none

/-- The public key of an RSA key. -/
def rsaPublicKey? (der : List UInt8) : Option (List UInt8) :=
  (RsaKey.parse? der).map fun k => KeyAlgorithm.rsa.publicKeyInfo k.publicOctets

/-- The public key of a key with its algorithm. A public key may be written with an Ed25519 key
only. -/
def Enclosed.publicKeyInfo? (k : Enclosed) : Option (List UInt8) :=
  match k.algorithm, k.publicKey with
  | .ed25519, written => ed25519PublicKey? k.content written
  | .rsa, none => rsaPublicKey? k.content
  | .p256, none => curvePublicKey? .p256 k.content
  | .p384, none => curvePublicKey? .p384 k.content
  | _, some _ => none

/-! ### Keys of any form -/

/-- The content of the sequence that holds the public key of a usable key and its algorithm. -/
def publicKeyInfo? (k : PrivateKey) : Option (List UInt8) :=
  match k.form with
  | .pkcs1 => rsaPublicKey? k.der
  | .sec1 => (curvePublicKey? .p256 k.der).or (curvePublicKey? .p384 k.der)
  | .pkcs8 => (wholly enclosed k.der).bind Enclosed.publicKeyInfo?

/-- Whether a key can be used. -/
def isUsable (k : PrivateKey) : Bool := k.publicKeyInfo?.isSome

end PrivateKey

end AccessControl
