import AccessControl.Grant
import AccessControl.Relation

/-!
# Analyzed statements

The closed set of statements that access control decides on, each with the names it is about.

## Main definitions

* `Statement` — analyzed statements
* `Statement.kind` — the short name of a statement, for messages
-/

namespace AccessControl

/-- What a SET applies to. -/
inductive SettingScope where
  | global
  | session
  | local
  /-- A SET without a scope word. -/
  | unspecified
  deriving DecidableEq

/-- Analyzed statements. -/
inductive Statement where
  | createUser (name : String)
  | dropUser (name : String) (ifExists : Bool)
  /-- GRANT, DENY or REVOKE. -/
  | changePrivileges (change : PrivilegeChange)
  | createTable (table : TableName)
  | createBlobTable (table : TableName)
  /-- ALTER TABLE … SET or RESET. -/
  | alterTable (table : TableName)
  | addColumn (table : TableName)
  /-- ALTER TABLE … OPEN or CLOSE. -/
  | openCloseTable (table : TableName)
  /-- ALTER TABLE … RENAME TO. -/
  | renameTable (source target : TableName)
  | alterBlobTable (table : TableName)
  | dropTable (table : TableName) (ifExists : Bool)
  | dropBlobTable (table : TableName) (ifExists : Bool)
  | createFunction (schema name : String)
  | dropFunction (schema name : String)
  | createAnalyzer (name : String)
  | createRepository (name : String)
  | dropRepository (name : String)
  | createSnapshot (repository name : String)
  | dropSnapshot (repository name : String)
  | restoreSnapshot (repository name : String)
  | select (relation : Relation)
  /-- INSERT … VALUES. -/
  | insertValues (table : TableName)
  /-- INSERT … SELECT. -/
  | insertQuery (table : TableName) (query : Relation)
  | update (source : Relation)
  | delete (relation : Relation)
  | copyFrom (table : TableName)
  | copyTo (source : Relation)
  | showCreateTable (table : TableName)
  /-- REFRESH TABLE, by index names, which may be those of partitions. -/
  | refreshTable (indexNames : List String)
  | optimizeTable (tables : List TableName)
  | set (scope : SettingScope)
  /-- RESET GLOBAL. -/
  | reset
  /-- KILL, of one job or of all. -/
  | kill (job : Option String)
  | begin
  /-- EXPLAIN of a statement. -/
  | explain (inner : Statement)
  /-- A kind of statement for which there is no policy. -/
  | unsupported (kind : String)

instance : Inhabited Statement := ⟨.begin⟩

/-- The short name of a statement. -/
def Statement.kind : Statement → String
  | .createUser .. => "CreateUser"
  | .dropUser .. => "DropUser"
  | .changePrivileges .. => "Privileges"
  | .createTable .. => "CreateTable"
  | .createBlobTable .. => "CreateBlobTable"
  | .alterTable .. => "AlterTable"
  | .addColumn .. => "AddColumn"
  | .openCloseTable .. => "AlterTableOpenClose"
  | .renameTable .. => "AlterTableRename"
  | .alterBlobTable .. => "AlterBlobTable"
  | .dropTable .. => "DropTable"
  | .dropBlobTable .. => "DropBlobTable"
  | .createFunction .. => "CreateFunction"
  | .dropFunction .. => "DropFunction"
  | .createAnalyzer .. => "CreateAnalyzer"
  | .createRepository .. => "CreateRepository"
  | .dropRepository .. => "DropRepository"
  | .createSnapshot .. => "CreateSnapshot"
  | .dropSnapshot .. => "DropSnapshot"
  | .restoreSnapshot .. => "RestoreSnapshot"
  | .select .. => "Select"
  | .insertValues .. => "InsertFromValues"
  | .insertQuery .. => "InsertFromSubQuery"
  | .update .. => "Update"
  | .delete .. => "Delete"
  | .copyFrom .. => "CopyFrom"
  | .copyTo .. => "CopyTo"
  | .showCreateTable .. => "ShowCreateTable"
  | .refreshTable .. => "RefreshTable"
  | .optimizeTable .. => "OptimizeTable"
  | .set .. => "Set"
  | .reset => "Reset"
  | .kill .. => "Kill"
  | .begin => "Begin"
  | .explain .. => "Explain"
  | .unsupported kind => kind

end AccessControl
