import AccessControl.Session
import AccessControl.SqlError

/-!
# Concealing what exists

An error such as "relation unknown" or "repository already exists" tells the client whether an
object exists. A user who cannot see the scope of the object gets a refusal instead, the same for
every error and every object.

## Main definitions

* `SqlError.scope?` — the scope of the object that an error is about, if it reveals one
* `SqlError.conceal` — the error as a session may see it
-/

namespace AccessControl.SqlError

/-- The scope of the object that an error is about, names without a schema being those of `schema`;
none for the errors that reveal nothing. -/
def scope? (schema : String) : SqlError → Option Scope
  | .tableUnknown name =>
    match Text.cut "." name with
    | some (explicit, _) => some (.schema explicit)
    | none => some (.schema schema)
  | .relationUnknown name => some (.schema (name.schema?.getD schema))
  | .columnUnknown table _ | .partitionUnknown table _ => some (.table table.qualified)
  | .functionUnknown explicit _ | .functionAlreadyExists explicit _
  | .aliasCollision explicit _ => some (.schema explicit)
  | .tableAlreadyExists explicit _ => some (.schema (explicit.getD schema))
  | .schemaUnknown _ | .analyzerUnknown _ | .repositoryUnknown _ | .snapshotUnknown _ _
  | .repositoryAlreadyExists _ | .snapshotAlreadyExists _ _ => some .cluster
  | .access _ | .other _ => none

/-- The error as a session may see it: a refusal if its user cannot see the scope of the error. -/
def conceal (e : SqlError) (session : Session) : SqlError :=
  match session.restricted?, e.scope? session.schema with
  | some user, some scope =>
    if user.privileges.sees scope then e else .access (.permissionDenied user.name none)
  | _, _ => e

end AccessControl.SqlError
