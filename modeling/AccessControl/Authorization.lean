import AccessControl.Requirement
import AccessControl.Session
import AccessControl.Statement

/-!
# Authorization of statements

Access control and cluster administration are for superusers. Changing a table takes DDL on that
table, creating an object DDL on its schema, and analyzers, repositories and snapshots DDL on the
cluster. Reads and writes take DQL or DML on every table they touch. A grant at a wider scope never
stands in for one at the scope that is asked for. The first requirement that is not met decides.

## Main definitions

* `Relation.authorize` — a permission on every table of a relation
* `Statement.authorizeFor` — the checks for one user
* `Statement.authorize` — the checks for a session
* `Demand`, `Statement.demands` — everything a statement asks for, as one list in order of checks
-/

namespace AccessControl

/-- The requirement for a permission on a table. -/
def TableName.requirement (permission : Permission) (table : TableName) : Requirement :=
  .onTable permission table.qualified

namespace Relation

mutual

/-- Fails unless the user has a permission on every table of a relation. -/
def authorize (permission : Permission) (user : User) : Relation → Except AccessError Unit
  | .systemTable table => (table.requirement permission).check user
  | .documentTable table => (table.requirement permission).check user
  | .tableFunction _ backing => (backing.requirement permission).check user
  | .join sources => authorizeSources permission user sources
  | .subquery _ body => authorize permission user body

/-- Fails unless the user has a permission on every table of the sources of a join. -/
def authorizeSources (permission : Permission) (user : User) :
    List (DottedName × Relation) → Except AccessError Unit
  | [] => .ok ()
  | (_, source) :: sources => do
    authorize permission user source
    authorizeSources permission user sources

end

end Relation

/-- Fails unless the user may refresh every table that one of the index names belongs to. -/
def authorizeRefresh (user : User) : List String → Except AccessError Unit
  | [] => .ok ()
  | indexName :: indexNames => do
    ((TableName.ofIndexName indexName).requirement .dql).check user
    authorizeRefresh user indexNames

namespace Statement

/-- Fails unless a user may run a statement. -/
def authorizeFor (user : User) : Statement → Except AccessError Unit
  | .createUser .. | .dropUser .. | .changePrivileges .. | .optimizeTable .. | .reset | .kill ..
  | .set .global => Requirement.superuser.check user
  | .alterTable table | .addColumn table | .openCloseTable table | .alterBlobTable table
  | .dropTable table _ | .dropBlobTable table _ | .renameTable table _ =>
    -- renaming asks for nothing on the new name
    (table.requirement .ddl).check user
  | .createTable table | .createBlobTable table => (Requirement.onSchema .ddl table.schema).check user
  | .createFunction schema _ | .dropFunction schema _ =>
    (Requirement.onSchema .ddl schema).check user
  | .createAnalyzer .. | .createRepository .. | .dropRepository .. | .createSnapshot ..
  | .dropSnapshot .. | .restoreSnapshot .. => (Requirement.onCluster .ddl).check user
  | .copyFrom table | .insertValues table => (table.requirement .dml).check user
  | .showCreateTable table => (table.requirement .dql).check user
  | .refreshTable indexNames => authorizeRefresh user indexNames
  -- the settings of a session are anybody's who may read at all
  | .set _ | .begin => (Requirement.onCluster .dql).check user
  | .select relation | .copyTo relation => relation.authorize .dql user
  | .update relation | .delete relation => relation.authorize .dml user
  | .insertQuery table query => do
    (table.requirement .dml).check user
    query.authorize .dql user
  | .explain inner => authorizeFor user inner
  | .unsupported kind => .error (.unsupportedStatement kind)

/-- Fails unless a session may run a statement. -/
def authorize (s : Statement) (session : Session) : Except AccessError Unit :=
  match session.restricted? with
  | some user => s.authorizeFor user
  | none => .ok ()

end Statement

/-- One thing a statement asks for. -/
inductive Demand where
  /-- A requirement on the user. -/
  | requirement (r : Requirement)
  /-- A policy, which does not exist for this kind of statement. -/
  | policy (kind : String)
  deriving DecidableEq

/-- The demand for a permission on a table. -/
def TableName.demand (permission : Permission) (table : TableName) : Demand :=
  .requirement (.grant ⟨permission, .table table.qualified⟩)

/-- Everything a statement asks for, in the order of the checks. -/
def Statement.demands : Statement → List Demand
  | .createUser .. | .dropUser .. | .changePrivileges .. | .optimizeTable .. | .reset | .kill ..
  | .set .global => [.requirement .superuser]
  | .alterTable table | .addColumn table | .openCloseTable table | .alterBlobTable table
  | .dropTable table _ | .dropBlobTable table _ | .renameTable table _ => [table.demand .ddl]
  | .createTable ⟨schema, _⟩ | .createBlobTable ⟨schema, _⟩ | .createFunction schema _
  | .dropFunction schema _ => [.requirement (.grant ⟨.ddl, .schema schema⟩)]
  | .createAnalyzer .. | .createRepository .. | .dropRepository .. | .createSnapshot ..
  | .dropSnapshot .. | .restoreSnapshot .. => [.requirement (.grant ⟨.ddl, .cluster⟩)]
  | .copyFrom table | .insertValues table => [table.demand .dml]
  | .showCreateTable table => [table.demand .dql]
  | .refreshTable indexNames => indexNames.map fun name => (TableName.ofIndexName name).demand .dql
  | .set _ | .begin => [.requirement (.grant ⟨.dql, .cluster⟩)]
  | .select relation | .copyTo relation => relation.leaves.map (TableName.demand .dql)
  | .update relation | .delete relation => relation.leaves.map (TableName.demand .dml)
  | .insertQuery table query => table.demand .dml :: query.leaves.map (TableName.demand .dql)
  | .explain inner => inner.demands
  | .unsupported kind => [.policy kind]

end AccessControl
