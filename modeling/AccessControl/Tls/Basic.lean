import AccessControl.Certificate.Strict
import AccessControl.Config
import AccessControl.Tls.PrivateKey

/-!
# Certificates and keys for encrypted connections

A server presents its certificates with their key and verifies clients by the authorities it is
given. A client verifies the server by its authorities and may present certificates of its own. All
of them are read from PEM texts.

## Main definitions

* `Tls.Error` — why no configuration can be made, with its `message`
* `Tls.ServerConfig`, `Tls.ClientConfig` — the two configurations
* `Tls.serverOfPem`, `Tls.clientOfPem` — the configurations that PEM texts call for
* `Tls.serverOfFiles`, `Tls.serverOfConfig` — the same for files that may be missing
-/

namespace AccessControl.Tls

/-- Why no configuration can be made. -/
inductive Error where
  | missingFile
  /-- A section before the key cannot be read. -/
  | illFormedKey (cause : Pem.Error)
  /-- The key cannot be used. -/
  | unusableKey
  /-- The first certificate is not one. -/
  | unusableCertificate (fault : StrictCertificate.Fault)
  /-- The key is not the one of the first certificate. -/
  | keyMismatch
  | noCertificates
  | noPrivateKey
  /-- There is no authority to verify clients by. -/
  | noAuthorities
  /-- No file of authorities is configured. -/
  | noClientCa
  deriving DecidableEq

/-- The wording of a fault in a certificate. Only ill-formed elements have a word of their own. -/
def faultMessage : StrictCertificate.Fault → String
  | .malformed => StrictCertificate.Fault.malformed.name
  | fault => "Other(OtherError(" ++ fault.name ++ "))"

def Error.message : Error → String
  | .missingFile => "IO error: No such file or directory (os error 2)"
  | .illFormedKey cause => "IO error: " ++ cause.message
  | .unusableKey =>
    "TLS error: unexpected error: failed to parse private key as RSA, ECDSA, or EdDSA"
  | .unusableCertificate fault => "TLS error: invalid peer certificate: " ++ faultMessage fault
  | .keyMismatch => "TLS error: keys may not be consistent: KeyMismatch"
  | .noCertificates => "No certificates found in file"
  | .noPrivateKey => "No private key found in file"
  | .noAuthorities => "Client verifier error: no root trust anchors were provided"
  | .noClientCa => "No client CA configured (" ++ Config.clientCaFileVariable ++ " is not set)"

/-- Certificates with the key of the first one. -/
structure Identity where
  chain : List (List UInt8)
  key : PrivateKey
  deriving DecidableEq

/-- What a server needs. -/
structure ServerConfig where
  /-- The authorities that clients are verified by. -/
  authorities : List (List UInt8)
  /-- What the server presents. -/
  identity : Identity
  deriving DecidableEq

/-- What a client needs. -/
structure ClientConfig where
  /-- The authorities that the server is verified by. -/
  authorities : List (List UInt8)
  /-- What the client presents, if anything. -/
  identity : Option Identity
  deriving DecidableEq

/-- The certificates in a text, of which there must be one at least. Sections that cannot be read
are passed over. -/
def certificates (pem : String) : Except Error (List (List UInt8)) :=
  let found := (Pem.sections pem).filterMap fun
    | .ok s => if s.label = .certificate then some s.content else none
    | .error _ => none
  if found.isEmpty then .error .noCertificates else .ok found

/-- The first private key among sections, before which every section must be readable. -/
def firstKey : List (Except Pem.Error Pem.Section) → Except Error PrivateKey
  | [] => .error .noPrivateKey
  | .error cause :: _ => .error (.illFormedKey cause)
  | .ok s :: rest =>
    match PrivateKey.ofSection? s with
    | some key => .ok key
    | none => firstKey rest

/-- The first private key in a text. -/
def privateKey (pem : String) : Except Error PrivateKey := firstKey (Pem.sections pem)

/-- The authorities among certificates; other certificates are passed over. -/
def authoritiesOf (certificates : List (List UInt8)) : List (List UInt8) :=
  certificates.filter StrictCertificate.isAuthority

/-- Certificates with their key, if the key can be used and the first certificate names it. -/
def Identity.make (chain : List (List UInt8)) (key : PrivateKey) : Except Error Identity :=
  match key.publicKeyInfo? with
  | none => .error .unusableKey
  | some publicKeyInfo =>
    match StrictCertificate.parse .refused (chain.headD []) with
    | .error fault => .error (.unusableCertificate fault)
    | .ok first =>
      if first.publicKeyInfo = publicKeyInfo then .ok ⟨chain, key⟩ else .error .keyMismatch

/-- The configuration of a server. -/
def serverOfPem (certificatePem keyPem authorityPem : String) : Except Error ServerConfig := do
  let chain ← certificates certificatePem
  let key ← privateKey keyPem
  let authorities := authoritiesOf (← certificates authorityPem)
  if authorities.isEmpty then throw .noAuthorities
  return ⟨authorities, ← Identity.make chain key⟩

/-- The configuration of a client, with what it presents if that is given. -/
def clientOfPem (authorityPem : String) (identity : Option (String × String)) :
    Except Error ClientConfig := do
  let authorities := authoritiesOf (← certificates authorityPem)
  match identity with
  | none => return ⟨authorities, none⟩
  | some (certificatePem, keyPem) =>
    let chain ← certificates certificatePem
    let key ← privateKey keyPem
    return ⟨authorities, some (← Identity.make chain key)⟩

/-- The content of a file. -/
def contentOf (file : Option String) : Except Error String :=
  match file with
  | some content => .ok content
  | none => .error .missingFile

/-- The configuration of a server from files, of which any may be missing. -/
def serverOfFiles (certificateFile keyFile authorityFile : Option String) :
    Except Error ServerConfig := do
  let certificatePem ← contentOf certificateFile
  let keyPem ← contentOf keyFile
  let authorityPem ← contentOf authorityFile
  serverOfPem certificatePem keyPem authorityPem

/-- The configuration of a server whose file of authorities is the configured one; `file` is the
content of the file of a path, if there is such a file. -/
def serverOfConfig (config : Config) (file : String → Option String)
    (certificatePath keyPath : String) : Except Error ServerConfig :=
  match config.clientCaFile with
  | none => .error .noClientCa
  | some authorityPath => serverOfFiles (file certificatePath) (file keyPath) (file authorityPath)

end AccessControl.Tls
