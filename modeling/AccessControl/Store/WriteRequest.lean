import AccessControl.AccessError
import AccessControl.Metadata.Basic
import AccessControl.User

/-!
# Write requests

What can be asked of the metadata store. A request either is refused and writes nothing, or tells
how many rows it affected.

## Main definitions

* `WriteRequest` — the requests
* `Metadata.commit` — the metadata after a request, and the number of rows it affected
-/

namespace AccessControl

/-- A request to the store. -/
inductive WriteRequest where
  | createUser (name : String)
  /-- Drop a user with its privileges. -/
  | dropUser (name : String) (ifExists : Bool)
  /-- Write every one of the records for every one of the users. -/
  | applyPrivileges (users : List String) (privileges : List Privilege)
  deriving DecidableEq

/-- Write records for one user, and count those that changed its set. -/
def PrivilegeSection.applyAll (s : PrivilegeSection) (name : String) (ps : List Privilege) :
    PrivilegeSection × Nat :=
  ps.foldl (fun (s, n) p => let (s, changed) := s.apply name p; (s, n + changed.toNat)) (s, 0)

/-- Write records for each of some users, and count the pairs that changed a set. -/
def PrivilegeSection.applyToAll (s : PrivilegeSection) (names : List String)
    (ps : List Privilege) : PrivilegeSection × Nat :=
  names.foldl (fun (s, n) name => let (s, k) := s.applyAll name ps; (s, n + k)) (s, 0)

namespace Metadata

/-- The metadata after a request and the number of affected rows, or why it is refused. -/
def commit (m : Metadata) : WriteRequest → Except AccessError (Metadata × Nat)
  | .createUser name =>
    if name = User.superuserName then .error (.userAlreadyExists name)
    else
      match m.users.add? name with
      | none => .error (.userAlreadyExists name)
      | some users => .ok ({ m with users }, 1)
  | .dropUser name ifExists =>
    match m.users.remove? name with
    | none => if ifExists then .ok (m, 0) else .error (.unknownUser name)
    | some users => .ok (⟨users, m.privileges.erase name⟩, 1)
  | .applyPrivileges names ps =>
    match names.find? fun name => !m.users.contains name with
    | some unknown => .error (.unknownUser unknown)
    | none =>
      let (privileges, affected) := m.privileges.applyToAll names ps
      .ok ({ m with privileges }, affected)

end Metadata

end AccessControl
