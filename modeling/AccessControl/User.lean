import AccessControl.Privilege.Set

/-!
# Users

A user is a name, possibly with the superuser role, and a set of privileges. There is one built-in
superuser; it is never stored.

## Main definitions

* `User` — users
* `User.regular`, `User.builtin` — users without a role, and the built-in superuser
-/

namespace AccessControl

/-- A user. -/
structure User where
  name : String
  /-- Whether the user has the superuser role, the only role there is. -/
  superuser : Bool
  privileges : PrivilegeSet
  deriving DecidableEq

namespace User

/-- The name of the built-in superuser. -/
def superuserName : String := "crate"

/-- A user without a role. -/
def regular (name : String) (privileges : PrivilegeSet) : User := ⟨name, false, privileges⟩

/-- The built-in superuser. -/
def builtin : User := ⟨superuserName, true, .empty⟩

end User

end AccessControl
