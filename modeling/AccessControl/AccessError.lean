import AccessControl.Binary.Reader
import AccessControl.Privilege.Basic

/-!
# Refusals

Why access control refuses a request. Every refusal ends the request; its wording is
`AccessError.message`.

## Main definitions

* `AccessError` — the causes
* `AccessError.message` — the wording of each
-/

namespace AccessControl

/-- Why a request is refused. -/
inductive AccessError where
  /-- The client's certificate does not make it this user. -/
  | authenticationFailed (user : String)
  /-- The statement is for superusers only. -/
  | unauthorized (user : String)
  /-- A permission is missing, or any permission at all if none is named. -/
  | permissionDenied (user : String) (missing : Option Permission)
  | unknownUser (user : String)
  /-- Something else that is named does not exist. -/
  | resourceUnknown (detail : String)
  /-- The superuser cannot be dropped. -/
  | superuserDrop (user : String)
  /-- The privileges of the superuser cannot be changed. -/
  | superuserPrivileges (user : String)
  /-- Some other operation is not possible. -/
  | unsupportedOperation (detail : String)
  | userAlreadyExists (user : String)
  /-- There is no policy for this kind of statement. -/
  | unsupportedStatement (kind : String)
  /-- The metadata store could not commit. -/
  | store (detail : String)
  /-- Metadata could not be encoded or decoded. -/
  | encoding (detail : String)
  deriving DecidableEq

namespace AccessError

def message : AccessError → String
  | authenticationFailed user =>
    "Client certificate authentication failed for user \"" ++ user ++ "\""
  | unauthorized user => "User \"" ++ user ++ "\" is not authorized to execute statement"
  | permissionDenied user (some permission) =>
    "Missing '" ++ permission.name ++ "' Privilege for user '" ++ user ++ "'"
  | permissionDenied user none => "Missing Privilege for user '" ++ user ++ "'"
  | unknownUser user => "User '" ++ user ++ "' does not exist"
  | resourceUnknown detail => detail
  | superuserDrop user => "Cannot drop superuser '" ++ user ++ "'"
  | superuserPrivileges user => "Cannot alter privileges for superuser '" ++ user ++ "'"
  | unsupportedOperation detail => detail
  | userAlreadyExists user => "User '" ++ user ++ "' already exists"
  | unsupportedStatement kind => "Can't handle \"" ++ kind ++ "\""
  | store detail => "Metadata store error: " ++ detail
  | encoding detail => "Encoding error: " ++ detail

/-- The refusal of octets that cannot be decoded. -/
def ofBinary (cause : Binary.Error) : AccessError := .encoding cause.message

end AccessError

end AccessControl
