import AccessControl.Certificate.Time
import AccessControl.Text.Utf8

/-!
# Certificates

The certificate of a client is read for one thing, the first common name of its subject. Nothing is
verified, but the certificate must have the parts of an X.509 certificate in their order. Octets
after the certificate, and after the parts of one of its sequences, are passed over. Names are read
as far as they are well-formed.

## Main definitions

* `Certificate` — the subject of a certificate
* `Certificate.parse?` — the certificate at the front of a list of octets
* `Certificate.commonName?` — the first common name of the subject, if it is readable as a text
-/

namespace AccessControl

open Der

/-- An attribute of a name. -/
structure Certificate.Attribute where
  /-- The object identifier of its type. -/
  type : List UInt8
  value : Der.Element
  deriving DecidableEq

/-- What is read from a certificate. -/
structure Certificate where
  /-- The relative names of the subject, each of one or more attributes. -/
  subject : List (List Certificate.Attribute)
  deriving DecidableEq

namespace Certificate

/-- An attribute: its type and its value. -/
def attributePair : Parser Attribute := within sequenceTag do
  let type ← objectId
  let value ← element
  return ⟨type, value⟩

/-- A relative name: a set of one or more attributes. -/
def relativeName : Parser (List Attribute) := within setTag do
  match ← sequenceOf attributePair with
  | [] => failure
  | attributes => return attributes

/-- A name: a sequence of relative names. -/
def name : Parser (List (List Attribute)) := within sequenceTag (sequenceOf relativeName)

/-- An algorithm with its parameters, if anything follows it. -/
def algorithm : Parser Unit := within sequenceTag do
  let _ ← objectId
  if ← atEnd then return ()
  else
    let _ ← element

/-- The version, if there is one: a number in the context of the place, under the tag 0. What stands
there must be an element even if it is another one. -/
def version : Parser Unit := fun input =>
  if input.isEmpty then some ((), input)
  else do
    let (e, rest) ← element input
    if e.identifier.tag ≠ 0 then return ((), input)
    if e.identifier.tagClass ≠ .context then failure
    let _ ← natural 0x100000000 e.content
    return ((), rest)

/-- The depth that the elements of a serial number do not reach. -/
def serialDepth : Nat := 50

/-- A serial number. It alone may have content with an end of its own. -/
def serialNumber : Parser Unit := do
  let i ← identifier
  let l ← lengthOrMark
  let _ ← skipContent serialDepth i l
  if i.tag = integerTag then return () else failure

/-- A bit string under a tag of the context, if there is one. What stands there must begin like an
element even if it is another one. -/
def uniqueId (tag : Nat) : Parser Unit := fun input =>
  if input.isEmpty then some ((), input)
  else do
    let (i, afterIdentifier) ← identifier input
    let _ ← length afterIdentifier
    if i.tag ≠ tag then return ((), input)
    let (e, rest) ← element input
    if i.tagClass = .context && !e.content.isEmpty then return ((), rest) else failure

/-- An extension: its type, whether it is critical, and its content. -/
def extension : Parser Unit := within sequenceTag do
  let _ ← objectId
  let _ ← possibly do
    let e ← tagged booleanTag
    if e.content.length = 1 then return () else failure
  let value ← tagged octetStringTag
  if value.identifier.constructed then failure else return ()

/-- The number of the tag that announces extensions. -/
def extensionsTag : Nat := 3

/-- Extensions up to the end, if there is anything at all. -/
def extensions : Parser Unit := do
  if ← atEnd then return ()
  else
    let i ← identifier
    let _ ← length
    if i.tag ≠ extensionsTag then failure
    else
      within sequenceTag do
        let _ ← sequenceOf extension
        done
      done

/-- The part of a certificate that is signed, of which the subject is kept. -/
def signedPart : Parser Certificate := within sequenceTag do
  version
  serialNumber
  -- the algorithm of the signature and the issuer
  algorithm
  let _ ← name
  within sequenceTag do
    time
    time
  let subject ← name
  -- the public key
  within sequenceTag do
    algorithm
    bitString
  uniqueId 1
  uniqueId 2
  extensions
  return ⟨subject⟩

/-- A certificate: the signed part, the algorithm of the signature and the signature. -/
def certificate : Parser Certificate := within sequenceTag do
  let c ← signedPart
  algorithm
  bitString
  return c

/-- The certificate at the front of a list of octets. -/
def parse? (der : List UInt8) : Option Certificate := (certificate.run der).map (·.1)

/-- The object identifier 2.5.4.3 of common names. -/
def commonNameType : List UInt8 := [0x55, 0x04, 0x03]

/-- The numbers of the string tags that are read as text: UTF-8, numeric, printable and IA5. -/
def textTags : List Nat := [12, 18, 19, 22]

/-- The text of an attribute's value. -/
def Attribute.text? (a : Attribute) : Option String :=
  if a.value.identifier.tag ∈ textTags then
    match Utf8.decode a.value.content with
    | .ok s => some s
    | .error _ => none
  else none

/-- The first common name of the subject, if it is readable as a text. -/
def commonName? (c : Certificate) : Option String := do
  let a ← c.subject.flatten.find? (·.type = commonNameType)
  a.text?

/-- The common name in the certificate at the front of a list of octets. -/
def commonNameOf? (der : List UInt8) : Option String := do
  let c ← parse? der
  c.commonName?

end Certificate

end AccessControl
