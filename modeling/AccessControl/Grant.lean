import AccessControl.Name
import AccessControl.Privilege.Basic

/-!
# Grants and revocations

A GRANT or REVOKE statement names permissions, users and a target. It stands for one privilege
record per permission and object of the target, the same for each of the users.

## Main definitions

* `GrantTarget` — what a statement applies to
* `GrantTarget.objects` — the objects as they are kept in records, unqualified tables qualified
* `Grant.privileges` — the records a statement stands for
* `PrivilegeChange` — users and the records to write for each of them
-/

namespace AccessControl

/-- What a GRANT or REVOKE applies to. -/
structure GrantTarget where
  level : Level
  /-- The schemas or tables as written; none for the cluster. -/
  idents : List String
  deriving DecidableEq

namespace GrantTarget

/-- The whole cluster, the target of a statement that names none. -/
def cluster : GrantTarget := ⟨.cluster, []⟩

/-- Schemas. -/
def schemas (names : List String) : GrantTarget := ⟨.schema, names⟩

/-- Tables, qualified or not. -/
def tables (names : List String) : GrantTarget := ⟨.table, names⟩

/-- A table name as it is kept in records: one without a dot lies in the schema given. -/
def qualify (schema table : String) : String :=
  if '.' ∈ table.toList then table else schema ++ "." ++ table

/-- The objects of a target as they are kept in records. -/
def objects (t : GrantTarget) (schema : String) : List (Option String) :=
  match t.level with
  | .cluster => [none]
  | .schema => t.idents.map some
  | .table => t.idents.map fun table => some (qualify schema table)

end GrantTarget

/-- A GRANT or REVOKE statement. -/
structure Grant where
  permissions : List Permission
  users : List String
  target : GrantTarget
  deriving DecidableEq

/-- Users, and the records that are to be written for each of them. -/
structure PrivilegeChange where
  users : List String
  /-- The records, in the order in which they are written. -/
  privileges : List Privilege
  deriving DecidableEq

namespace Grant

/-- The permissions of a statement, each once and in their order. -/
def permissionSet (g : Grant) : List Permission := Permission.all.filter (· ∈ g.permissions)

/-- One record per permission and object. -/
def privileges (g : Grant) (effect : Effect) (grantor schema : String) : List Privilege :=
  g.permissionSet.flatMap fun permission =>
    (g.target.objects schema).map fun object =>
      ⟨effect, ⟨permission, ⟨g.target.level, object⟩⟩, grantor⟩

/-- What a GRANT writes. -/
def toGrant (g : Grant) (grantor schema : String) : PrivilegeChange :=
  ⟨g.users, g.privileges .grant grantor schema⟩

/-- What a REVOKE writes. -/
def toRevoke (g : Grant) (grantor schema : String) : PrivilegeChange :=
  ⟨g.users, g.privileges .revoke grantor schema⟩

end Grant

end AccessControl
