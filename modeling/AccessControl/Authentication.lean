import AccessControl.AccessError
import AccessControl.Certificate.Basic
import AccessControl.Config
import AccessControl.Session

/-!
# Authentication

A client is the user that the common name of its certificate names. The name it asks for must be
that name; over HTTP it may leave the name empty. While authentication is off, every session is one
without a user.

## Main definitions

* `Protocol`, `ClientCertificate`, `Connection` — what is known of a client
* `Connection.authenticate` — the user a connection authenticates as
* `Config.openSession` — the session of a connection
-/

namespace AccessControl

/-- How a client is connected. -/
inductive Protocol where
  | postgres
  | http
  /-- The protocol between nodes. -/
  | transport
  deriving DecidableEq

/-- Whether an empty user name stands for the name in the certificate. -/
def Protocol.allowsEmptyUser (p : Protocol) : Bool := p = .http

/-- What a client presents. -/
inductive ClientCertificate where
  | x509 (der : List UInt8)
  /-- A bare public key, which names nobody. -/
  | rawKey (key : List UInt8)
  deriving DecidableEq

/-- What is known of a client before authentication. -/
structure Connection where
  /-- How it is connected. -/
  protocol : Protocol
  /-- Whether the connection is encrypted. -/
  tls : Bool
  /-- What the client presents. -/
  certificate : Option ClientCertificate
  deriving DecidableEq

namespace Connection

/-- The common name in the certificate of an encrypted connection. -/
def commonName? (c : Connection) : Option String :=
  if c.tls then
    match c.certificate with
    | some (.x509 der) => Certificate.commonNameOf? der
    | _ => none
  else none

/-- What `lookup` finds for the user a connection authenticates as. The refusal names the user who
was asked for, or whom the certificate names if an empty name stands for that. -/
def authenticate {α : Type} (c : Connection) (lookup : String → Option α) (requested : String) :
    Except AccessError α :=
  match c.commonName? with
  | none => .error (.authenticationFailed requested)
  | some commonName =>
    let user :=
      if requested.isEmpty && c.protocol.allowsEmptyUser then commonName else requested
    if user ≠ commonName then .error (.authenticationFailed user)
    else
      match lookup user with
      | some found => .ok found
      | none => .error (.authenticationFailed user)

end Connection

namespace Config

/-- The name of the method by which clients authenticate. -/
def certificateMethod : String := "cert"

/-- The method by which clients authenticate; none while authentication is off. -/
def method? (c : Config) : Option String := if c.authEnabled then some certificateMethod else none

/-- The session of a connection for the user it asks for. -/
def openSession (c : Config) (lookup : String → Option User) (requested : String)
    (connection : Connection) : Except AccessError Session :=
  if c.authEnabled then
    match connection.authenticate lookup requested with
    | .ok user => .ok ⟨some user, c.schema⟩
    | .error e => .error e
  else .ok { Session.anonymous with schema := c.schema }

end Config

end AccessControl
