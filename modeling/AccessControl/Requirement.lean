import AccessControl.AccessError
import AccessControl.User

/-!
# Requirements

What a statement may ask of its user: to be a superuser, or to hold a grant at exactly one scope.

## Main definitions

* `Requirement` — the two kinds of requirements
* `Requirement.ofPermission` — the requirement for a permission at a scope; access control is for
  superusers only
* `User.requireSuperuser`, `User.requireGrant`, `Requirement.check` — the checks
-/

namespace AccessControl

/-- What a statement asks of its user. -/
inductive Requirement where
  /-- To be a superuser. -/
  | superuser
  /-- To hold a grant at exactly this key. -/
  | grant (key : Privilege.Key)
  deriving DecidableEq

namespace User

/-- Fails unless the user is a superuser. -/
def requireSuperuser (u : User) : Except AccessError Unit :=
  if u.superuser then .ok () else .error (.unauthorized u.name)

/-- Fails unless the user is a superuser or holds the grant. -/
def requireGrant (u : User) (key : Privilege.Key) : Except AccessError Unit :=
  if u.superuser || u.privileges.holds key then .ok ()
  else .error (.permissionDenied u.name (some key.permission))

end User

namespace Requirement

/-- The requirement for a permission at a scope. -/
def ofPermission (permission : Permission) (scope : Scope) : Requirement :=
  if permission = .dcl then .superuser else .grant ⟨permission, scope⟩

/-- The requirement for a permission on the cluster. -/
def onCluster (permission : Permission) : Requirement := ofPermission permission .cluster

/-- The requirement for a permission on a schema. -/
def onSchema (permission : Permission) (name : String) : Requirement :=
  ofPermission permission (.schema name)

/-- The requirement for a permission on a table, by its qualified name. -/
def onTable (permission : Permission) (qualified : String) : Requirement :=
  ofPermission permission (.table qualified)

/-- Fails unless the user meets the requirement. -/
def check (r : Requirement) (u : User) : Except AccessError Unit :=
  match r with
  | .superuser => u.requireSuperuser
  | .grant key => u.requireGrant key

end Requirement

end AccessControl
