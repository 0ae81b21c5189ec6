import AccessControl.Certificate.StrictDer

/-!
# Certificates for encrypted connections

A certificate that one side of a connection presents, or that an authority is known by, is read
strictly: it is of version 3 and has nothing but the parts of such a certificate. Names, dates and
keys are taken as they stand. An authority may also be known by a certificate of version 1.

## Main definitions

* `StrictCertificate` — what is kept of a certificate
* `StrictCertificate.Fault` — why octets are no such certificate, with its `name`
* `StrictCertificate.parse` — the certificate that octets are
* `StrictCertificate.isAuthority` — whether octets are a certificate of an authority
-/

namespace AccessControl

open StrictDer

/-- Why octets are no certificate for connections. -/
inductive StrictCertificate.Fault where
  /-- An element is missing, ill-formed or too much. -/
  | malformed
  /-- The version is not 3. -/
  | unsupportedVersion
  /-- The algorithm of the signature is not the one that is signed. -/
  | algorithmMismatch
  /-- An extension is critical and not known. -/
  | unsupportedExtension
  /-- A known extension is repeated. -/
  | repeatedExtension
  deriving DecidableEq

/-- What is kept of a certificate for connections. -/
structure StrictCertificate where
  /-- The content of the sequence that holds the public key and its algorithm. -/
  publicKeyInfo : List UInt8
  deriving DecidableEq

namespace StrictCertificate

/-- The word that a message has for a fault. -/
def Fault.name : Fault → String
  | .malformed => "BadEncoding"
  | .unsupportedVersion => "UnsupportedCertVersion"
  | .algorithmMismatch => "SignatureAlgorithmMismatch"
  | .unsupportedExtension => "UnsupportedCriticalExtension"
  | .repeatedExtension => "ExtensionValueInvalid"

/-- A parser that tells the fault. -/
abbrev Reader := StateT (List UInt8) (Except Fault)

/-- A parser whose every failure is an ill-formed element. -/
def read {α : Type} (p : Der.Parser α) : Reader α := fun input =>
  match p input with
  | some r => .ok r
  | none => .error .malformed

/-- What a reader makes of octets, of which it must leave nothing. -/
def readWholly {α : Type} (r : Reader α) (octets : List UInt8) : Except Fault α :=
  match r octets with
  | .ok (a, []) => .ok a
  | .ok (_, _ :: _) => .error .malformed
  | .error fault => .error fault

/-- A value read from the whole content of an element of a given tag. -/
def readWithin {α : Type} (tag : UInt8) (r : Reader α) : Reader α := do
  readWholly r (← read (tagged tag))

/-- The number that stands for version 3. -/
def versionThree : Nat := 2

/-- The version, which must be 3. Where no element of its tag stands, another version is meant; what
stands in it must begin with a number of one octet. -/
def version : Reader Unit := fun input =>
  match tagged (contextTag 0) input with
  | none => .error .unsupportedVersion
  | some (content, rest) =>
    match natural content with
    | none => .error .malformed
    | some (n, more) =>
      if 0x100 ≤ n then .error .malformed
      else if n = versionThree && more.isEmpty then .ok ((), rest)
      else .error .unsupportedVersion

/-- What the object identifiers of the standard extensions start with. -/
def standardExtension : List UInt8 := [0x55, 0x1D]

/-- The last octet of the extension for the use of the key. -/
def keyUsage : UInt8 := 15

/-- The last octets of the known extensions: the use of the key, other names of the subject, basic
constraints, constraints on names, distribution of revocation lists and extended use of the key. -/
def knownExtensions : List UInt8 := [keyUsage, 17, 19, 30, 31, 37]

/-- The last octet of the object identifier of a known extension. -/
def knownExtension? (id : List UInt8) : Option UInt8 :=
  knownExtensions.find? fun last => id = standardExtension ++ [last]

/-- Whether an extension is critical, which it says with a truth value of one octet. -/
def critical : Der.Parser Bool := do
  if ← announces booleanTag then
    match ← tagged booleanTag with
    | [0xFF] => return true
    | [0x00] => return false
    | _ => failure
  else return false

/-- What is to be done about an extension that is critical and not known. -/
inductive UnknownExtension where
  /-- The certificate is refused. -/
  | refused
  /-- The extension is passed over. -/
  | ignored
  deriving DecidableEq

/-- An extension after the known ones in `seen`, which it joins. Apart from the use of the key, the
values of the known extensions are sequences. -/
def extension (unknown : UnknownExtension) (seen : List UInt8) : Reader (List UInt8) := do
  let id ← read (tagged objectIdTag)
  let isCritical ← read critical
  let value ← read (tagged octetStringTag)
  match knownExtension? id with
  | some last =>
    if last ∈ seen then throw .repeatedExtension
    if last ≠ keyUsage && (wholly (tagged sequenceTag) value).isNone then throw .malformed
    return last :: seen
  | none =>
    if isCritical && unknown = .refused then throw .unsupportedExtension
    return seen

/-- Extensions up to the end, of which there are at most `limit`, after the known ones in `seen`. -/
def extensionsUpTo (unknown : UnknownExtension) (seen : List UInt8) : Nat → Reader Unit
  | 0 => pure ()
  | limit + 1 => do
    if ← read Der.atEnd then return ()
    let next ← readWithin sequenceTag (extension unknown seen)
    extensionsUpTo unknown next limit

/-- Extensions up to the end. An extension takes an octet at least. -/
def extensions (unknown : UnknownExtension) : Reader Unit := fun input =>
  extensionsUpTo unknown [] input.length input

/-- The part of a certificate that is signed with the given algorithm. -/
def signedPart (unknown : UnknownExtension) (algorithm : List UInt8) :
    Reader StrictCertificate := do
  version
  let _serialNumber ← read (tagged integerTag)
  if (← read (tagged sequenceTag)) ≠ algorithm then throw .algorithmMismatch
  let _issuer ← read (tagged sequenceTag)
  let _validity ← read (tagged sequenceTag)
  let _subject ← read (tagged sequenceTag)
  let publicKeyInfo ← read (tagged sequenceTag)
  if ← read Der.atEnd then return ⟨publicKeyInfo⟩
  readWithin (contextTag 3) (readWithin sequenceTag (extensions unknown))
  return ⟨publicKeyInfo⟩

/-- The signed part of a certificate and the algorithm of the signature, which follow each other
before the signature. -/
def parts : Der.Parser (List UInt8 × List UInt8) := within sequenceTag do
  let signed ← tagged sequenceTag
  let algorithm ← tagged sequenceTag
  let _signature ← bits bitStringTag
  return (signed, algorithm)

/-- The certificate that octets are. -/
def parse (unknown : UnknownExtension) (der : List UInt8) : Except Fault StrictCertificate := do
  let (signed, algorithm) ← readWholly (read parts) der
  readWholly (signedPart unknown algorithm) signed

/-- A certificate of version 1, which does not tell its version. -/
def versionOne : Der.Parser Unit := within sequenceTag do
  within sequenceTag do
    let _serialNumber ← tagged integerTag
    -- the algorithm, the issuer, the validity, the subject and the public key
    for _ in List.range 5 do
      let _ ← tagged sequenceTag
  let _algorithm ← tagged sequenceTag
  let _signature ← tagged bitStringTag

/-- Whether octets are a certificate of an authority, which may have extensions that are not known
and may be of version 1. -/
def isAuthority (der : List UInt8) : Bool :=
  match parse .ignored der with
  | .ok _ => true
  | .error .unsupportedVersion => (wholly versionOne der).isSome
  | .error _ => false

end StrictCertificate

end AccessControl
