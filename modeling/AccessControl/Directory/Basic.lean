import AccessControl.Metadata.Basic
import AccessControl.User

/-!
# The directory of users

The directory is computed from the two sections of the metadata: the built-in superuser, and every
stored name as a regular user with the privileges kept for it.

## Main definitions

* `Directory` — users by name
* `Directory.rebuild` — the directory of two sections
-/

namespace AccessControl

/-- Users by name. -/
structure Directory where
  byName : SortedMap String User
  deriving DecidableEq

namespace Directory

/-- The user of a name, if there is one. -/
def get? (d : Directory) (name : String) : Option User := d.byName.get? name

def contains (d : Directory) (name : String) : Bool := d.byName.contains name

/-- The users, in the order of their names. -/
def users (d : Directory) : List User := d.byName.values

def size (d : Directory) : Nat := d.byName.size

def isEmpty (d : Directory) : Bool := d.byName.isEmpty

/-- The user that a stored name stands for: regular, with the privileges kept for the name. -/
def storedUser (privileges : Option PrivilegeSection) (name : String) : User :=
  .regular name ((privileges.bind (·.get? name)).getD .empty)

/-- Add the user of a stored name, unless there is a user of that name. -/
def addStored (privileges : Option PrivilegeSection) (d : Directory) (name : String) : Directory :=
  if d.contains name then d else ⟨d.byName.insert name (storedUser privileges name)⟩

/-- The directory that holds the built-in superuser alone. -/
def builtin : Directory := ⟨SortedMap.empty.insert User.superuserName .builtin⟩

/-- The directory of two sections, of which either may be absent: the built-in superuser, and the
users of the stored names. A stored name equal to the superuser's counts for nothing. -/
def rebuild (users : Option UserSection) (privileges : Option PrivilegeSection) : Directory :=
  (users.elim [] (·.names)).foldl (addStored privileges) builtin

/-- The directory that a notification calls for. -/
def ofChange (c : Change) : Directory := rebuild c.users c.privileges

end Directory

end AccessControl
