import AccessControl.Text.Cut
import AccessControl.Text.Quoted
import AccessControl.Text.Utf8
import AccessControl.Tls.Base64

/-!
# PEM texts

A PEM text holds sections between a line that begins one and a line that ends it. Lines end at a
carriage return or a line feed. What stands outside sections is passed over, and so are sections of
an unknown label. A line that starts like the beginning of a section but does not close with exactly
five dashes is an error, and so is a section without an end; reading goes on after an error.

## Main definitions

* `Pem.Label` — the known labels
* `Pem.Section`, `Pem.Error` — a section that was read, and why one cannot be
* `Pem.sections` — the sections and errors of a text, in their order
-/

namespace AccessControl.Pem

/-- The labels of the sections that are decoded. -/
inductive Label where
  | certificate
  | publicKey
  /-- A private RSA key, in the form of PKCS #1. -/
  | rsaPrivateKey
  /-- A private key, in the form of PKCS #8. -/
  | privateKey
  /-- A private key on an elliptic curve, in the form of SEC 1. -/
  | ecPrivateKey
  | revocationList
  | certificateRequest
  /-- A configuration of encrypted client hellos. -/
  | echConfig
  deriving DecidableEq

def Label.all : List Label :=
  [.certificate, .publicKey, .rsaPrivateKey, .privateKey, .ecPrivateKey, .revocationList,
    .certificateRequest, .echConfig]

/-- The written form of a label. -/
def Label.name : Label → String
  | .certificate => "CERTIFICATE"
  | .publicKey => "PUBLIC KEY"
  | .rsaPrivateKey => "RSA PRIVATE KEY"
  | .privateKey => "PRIVATE KEY"
  | .ecPrivateKey => "EC PRIVATE KEY"
  | .revocationList => "X509 CRL"
  | .certificateRequest => "CERTIFICATE REQUEST"
  | .echConfig => "ECHCONFIG"

/-- The known label of a written form. -/
def Label.ofName? (name : List Char) : Option Label := all.find? (·.name.toList = name)

/-- A section: its label and its content. -/
structure Section where
  label : Label
  content : List UInt8
  deriving DecidableEq

/-- Why a section cannot be read. -/
inductive Error where
  /-- The text ends before the section of this label does. -/
  | missingEnd (label : List Char)
  /-- The line starts a section but does not close with five dashes. -/
  | illegalStart (line : List Char)
  /-- The content is not Base64. -/
  | illFormedContent (cause : Base64.Error)
  deriving DecidableEq

def Error.message : Error → String
  | .missingEnd label => "section end " ++ Text.quoted (.ofList label) ++ " missing"
  | .illegalStart line => "illegal section start: " ++ Text.quoted (.ofList line)
  | .illFormedContent cause => cause.message

/-- Whether a character ends a line. -/
def isLineEnd (c : Char) : Bool := c = '\n' || c = '\r'

/-- The lines of a text, each with the character that ends it; `line` is what was read of the first
one. -/
def linesFrom (line : List Char) : List Char → List (List Char)
  | [] => if line.isEmpty then [] else [line]
  | c :: rest =>
    if isLineEnd c then (line ++ [c]) :: linesFrom [] rest else linesFrom (line ++ [c]) rest

/-- What the first line of a section starts with. -/
def beginMark : List Char := "-----BEGIN ".toList

/-- What the last line of a section starts with, before the label. -/
def endMark : List Char := "-----END ".toList

/-- The dashes that close a label. -/
def closing : List Char := "-----".toList

/-- Whether a character is passed over at the end of a line that begins a section. -/
def isTrailing (c : Char) : Bool := isLineEnd c || c = ' '

/-- A reversed line without its last `n` dashes and what may trail them, if these are all the dashes
it closes with. -/
def dropDashes : Nat → List Char → Option (List Char)
  | 0, cs => if (cs.dropWhile isTrailing).head? = some '-' then none else some cs
  | _ + 1, [] => none
  | n + 1, c :: cs =>
    if c = '-' then dropDashes n cs else if isTrailing c then dropDashes (n + 1) cs else none

/-- The label in what follows the mark that begins a section. -/
def beginLabel? (afterMark : List Char) : Option (List Char) :=
  (dropDashes 5 afterMark.reverse).map List.reverse

/-- Whether a line ends the section of a label. -/
def endsSection (label line : List Char) : Bool :=
  (Text.stripChars (endMark ++ label ++ closing) line).isSome

/-- The section of a known label with the given content. -/
def decodeSection (label : Label) (content : List Char) : Except Error Section :=
  match Base64.decode (content.flatMap String.utf8EncodeChar) with
  | .ok octets => .ok ⟨label, octets⟩
  | .error cause => .error (.illFormedContent cause)

/-- The sections of some lines; `label` is that of the section they start in, if any, and `content`
what was read of it. A line that begins a section starts its label anew and keeps the content. -/
def sectionsFrom (label : Option (List Char)) (content : List Char) :
    List (List Char) → List (Except Error Section)
  | [] =>
    match label with
    | some label => [.error (.missingEnd label)]
    | none => []
  | line :: rest =>
    match Text.stripChars beginMark line with
    | some afterMark =>
      match beginLabel? afterMark with
      | some next => sectionsFrom (some next) content rest
      | none => .error (.illegalStart line) :: sectionsFrom none [] rest
    | none =>
      match label with
      | none => sectionsFrom none content rest
      | some current =>
        if endsSection current line then
          match Label.ofName? current with
          | some known => decodeSection known content :: sectionsFrom none [] rest
          | none => sectionsFrom none [] rest
        else sectionsFrom label (content ++ line) rest

/-- The sections and errors of a text, in their order. -/
def sections (text : String) : List (Except Error Section) :=
  sectionsFrom none [] (linesFrom [] text.toList)

end AccessControl.Pem
