import AccessControl.AccessError
import AccessControl.Name

/-!
# Errors of analysis and execution

Most of these errors tell whether an object exists, and are hidden from users who may not know.

## Main definitions

* `SqlError` — the errors
* `SqlError.message` — the wording of each
* `SqlError.source?` — the refusal behind an error, if there is one
-/

namespace AccessControl

/-- Errors of analysis and execution. -/
inductive SqlError where
  /-- No table of this name, which may be qualified. -/
  | tableUnknown (name : String)
  | relationUnknown (name : DottedName)
  | schemaUnknown (name : String)
  | columnUnknown (table : TableName) (column : String)
  | partitionUnknown (table : TableName) (ident : String)
  | analyzerUnknown (name : String)
  | repositoryUnknown (name : String)
  | snapshotUnknown (repository snapshot : String)
  | functionUnknown (schema name : String)
  /-- The table exists; the schema is absent if the name was written without one. -/
  | tableAlreadyExists (schema : Option String) (name : String)
  | repositoryAlreadyExists (name : String)
  | snapshotAlreadyExists (repository snapshot : String)
  | functionAlreadyExists (schema name : String)
  /-- The alias is the name of a table of the schema. -/
  | aliasCollision (schema name : String)
  /-- A refusal by access control. -/
  | access (cause : AccessError)
  | other (detail : String)
  deriving DecidableEq

namespace SqlError

def message : SqlError → String
  | tableUnknown name => "Relation '" ++ name ++ "' unknown"
  | relationUnknown name => "Relation '" ++ name.render ++ "' unknown"
  | schemaUnknown name => "Schema '" ++ name ++ "' unknown"
  | columnUnknown table column =>
    "Column " ++ column ++ " unknown in table '" ++ table.qualified ++ "'"
  | partitionUnknown table ident =>
    "No partition for table '" ++ table.qualified ++ "' with ident '" ++ ident ++ "'"
  | analyzerUnknown name => "Analyzer '" ++ name ++ "' unknown"
  | repositoryUnknown name => "Repository '" ++ name ++ "' unknown"
  | snapshotUnknown repository snapshot =>
    "Snapshot '" ++ repository ++ "." ++ snapshot ++ "' unknown"
  | functionUnknown schema name => "Unknown function: " ++ schema ++ "." ++ name
  | tableAlreadyExists (some schema) name =>
    "Relation '" ++ schema ++ "." ++ name ++ "' already exists."
  | tableAlreadyExists none name => "Relation '" ++ name ++ "' already exists."
  | repositoryAlreadyExists name => "Repository '" ++ name ++ "' already exists"
  | snapshotAlreadyExists repository snapshot =>
    "Snapshot '" ++ repository ++ "." ++ snapshot ++ "' already exists"
  | functionAlreadyExists schema name =>
    "User defined Function '" ++ schema ++ "." ++ name ++ "' already exists."
  | aliasCollision schema name =>
    "The table alias '" ++ name ++ "' collides with a table in schema '" ++ schema ++ "'"
  | access cause => cause.message
  | other detail => detail

/-- The refusal behind an error, if there is one. -/
def source? : SqlError → Option AccessError
  | access cause => some cause
  | _ => none

end SqlError

end AccessControl
