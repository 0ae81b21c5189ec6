import AccessControl.Proofs.Authorization
import AccessControl.Proofs.Concealment
import Mathlib.Logic.Basic

/-!
# Whoever may run a statement is told of its errors

Two checks look at the same records in different ways. A statement asks for a GRANT at exactly one
key; an error is told if the most specific record along the chain of its scope is a GRANT, for some
permission. A record at the scope itself is the most specific one there is, whatever stands at the
scopes around it. So a user who may run a statement sees every scope that the statement needs, and
is told of every error about it.

## Main definitions

* `Statement.Needs` — a statement asks for a permission at a scope
* `Statement.tables`, `Statement.schemas` — the tables and the schemas that a statement works on
* `SqlError.ToldTo` — an error is answered by itself

## Main results

* `PrivilegeSet.sees_of_grant` — a GRANT at a scope makes it visible, whatever else is recorded
* `Statement.toldTo_of_authorize` — whoever may run a statement is told of errors about its tables,
  its schemas and the cluster
-/

namespace AccessControl

/-! ### Visible scopes -/

/-- Every error is about a scope that is the first in its own chain. -/
theorem SqlError.Reveals.exists_chain_eq {e : SqlError} {schema : String} {scope : Scope}
    (h : e.Reveals schema scope) : ∃ outer, scope.chain = scope :: outer := by
  cases h
  case column | partition =>
    -- a table may lie in a schema, or else in the cluster alone
    unfold Scope.chain Scope.table
    dsimp only
    split
    · exact ⟨_, rfl⟩
    · exact ⟨_, rfl⟩
  all_goals exact ⟨_, rfl⟩

namespace PrivilegeSet

variable {s : PrivilegeSet} {permission : Permission} {scope : Scope}

/-- A record at the scope itself is the most specific one, whatever stands further out. -/
theorem closest?_of_get? {outer : List Scope} {record : Privilege}
    (hchain : scope.chain = scope :: outer) (h : s.get? ⟨permission, scope⟩ = some record) :
    s.closest? permission scope = some record := by
  rw [closest?, hchain, List.findSome?_cons, h]

/-- A scope is visible by a GRANT that is the most specific record of its permission. -/
theorem sees_iff :
    s.sees scope = true ↔ ∃ permission ≠ .dcl, ∃ record,
      s.closest? permission scope = some record ∧ record.effect = .grant := by
  rw [sees, List.any_eq_true]
  refine exists_congr fun permission => and_congr Permission.mem_grantable_iff ?_
  cases s.closest? permission scope <;> simp

/-- A GRANT at a scope makes it visible. -/
theorem sees_of_grant {outer : List Scope} {record : Privilege}
    (hpermission : permission ≠ .dcl) (hchain : scope.chain = scope :: outer)
    (h : s.get? ⟨permission, scope⟩ = some record) (hgrant : record.effect = .grant) :
    s.sees scope = true :=
  sees_iff.mpr ⟨permission, hpermission, record, closest?_of_get? hchain h, hgrant⟩

end PrivilegeSet

/-! ### What a statement needs -/

/-- The scope at which a demand asks for a permission, if it does. -/
def Demand.scope? : Demand → Option Scope
  | .requirement (.grant key) => some key.scope
  | .requirement .superuser | .policy _ => none

@[simp] theorem Demand.scope?_grant (key : Privilege.Key) :
    scope? (.requirement (.grant key)) = some key.scope := rfl

@[simp] theorem Demand.scope?_superuser : scope? (.requirement .superuser) = none := rfl

@[simp] theorem Demand.scope?_policy (kind : String) : scope? (.policy kind) = none := rfl

@[simp] theorem Demand.scope?_demand (permission : Permission) (table : TableName) :
    (table.demand permission).scope? = some (.table table.qualified) := rfl

theorem Demand.scope?_eq_some_iff {d : Demand} {scope : Scope} :
    d.scope? = some scope ↔ ∃ permission, d = .requirement (.grant ⟨permission, scope⟩) := by
  constructor
  · intro h
    match d, h with
    | .requirement (.grant ⟨permission, _⟩), rfl => exact ⟨permission, rfl⟩
  · rintro ⟨permission, rfl⟩
    rfl

namespace Statement

variable {s : Statement} {session : Session} {user : User} {scope : Scope}

/-- A statement asks for a permission at a scope. -/
def Needs (s : Statement) (scope : Scope) : Prop := ∃ d ∈ s.demands, d.scope? = some scope

/-- The tables on which a statement needs a permission. -/
def tables : Statement → List TableName
  | .alterTable table | .addColumn table | .openCloseTable table | .renameTable table _
  | .alterBlobTable table | .dropTable table _ | .dropBlobTable table _
  | .insertValues table | .copyFrom table | .showCreateTable table => [table]
  | .refreshTable indexNames => indexNames.map TableName.ofIndexName
  | .select relation | .copyTo relation | .update relation | .delete relation => relation.leaves
  | .insertQuery table query => table :: query.leaves
  | .explain inner => inner.tables
  | _ => []

/-- The schemas on which a statement needs a permission: a table is made there, or a function is made
or removed. -/
def schemas : Statement → List String
  | .createTable table | .createBlobTable table => [table.schema]
  | .createFunction schema _ | .dropFunction schema _ => [schema]
  | .explain inner => inner.schemas
  | _ => []

theorem needs_table_iff {qualified : String} :
    s.Needs (.table qualified) ↔ ∃ table ∈ s.tables, table.qualified = qualified := by
  induction s with
  | explain inner ih => exact ih
  | set setting => cases setting <;> simp [Needs, demands, tables, Scope.table, Scope.cluster]
  | _ => simp [Needs, demands, tables, Scope.table, Scope.schema, Scope.cluster]

theorem needs_schema_iff {schema : String} : s.Needs (.schema schema) ↔ schema ∈ s.schemas := by
  induction s with
  | explain inner ih => exact ih
  | createTable | createBlobTable | createFunction | dropFunction =>
    simp [Needs, demands, schemas, Scope.schema, eq_comm]
  | set setting => cases setting <;> simp [Needs, demands, schemas, Scope.schema, Scope.cluster]
  | _ => simp [Needs, demands, schemas, Scope.table, Scope.schema, Scope.cluster]

theorem permission_of_demand_eq {table : TableName} {permission : Permission}
    {key : Privilege.Key} (h : table.demand permission = .requirement (.grant key)) :
    key.permission = permission := by
  obtain rfl := Requirement.grant.inj (Demand.requirement.inj h)
  rfl

/-- No statement asks for a record that gives access control. -/
theorem permission_ne_dcl_of_mem_demands {key : Privilege.Key}
    (h : .requirement (.grant key) ∈ s.demands) : key.permission ≠ .dcl := by
  induction s with
  | explain inner ih => exact ih h
  -- nothing is asked for that a record could give
  | createUser | dropUser | changePrivileges | optimizeTable | reset | kill | unsupported =>
    simp [demands] at h
  -- a single key: of a table, of a schema, of the cluster
  | alterTable | addColumn | openCloseTable | alterBlobTable | dropTable | dropBlobTable
  | renameTable | copyFrom | insertValues | showCreateTable | createTable | createBlobTable
  | createFunction | dropFunction | createAnalyzer | createRepository | dropRepository
  | createSnapshot | dropSnapshot | restoreSnapshot | begin =>
    obtain rfl : key = _ := by simpa [demands, TableName.demand] using h
    simp
  | set setting =>
    cases setting with
    | global => simp [demands] at h
    | session | «local» | unspecified =>
      obtain rfl : key = _ := by simpa [demands] using h
      simp
  -- the same permission on each of some tables
  | select | copyTo | update | delete | refreshTable =>
    obtain ⟨_, -, hkey⟩ := List.mem_map.mp h
    rw [permission_of_demand_eq hkey]
    decide
  | insertQuery =>
    rcases List.mem_cons.mp h with hkey | hmem
    · rw [permission_of_demand_eq hkey.symm]
      decide
    · obtain ⟨_, -, hkey⟩ := List.mem_map.mp hmem
      rw [permission_of_demand_eq hkey]
      decide

/-- Whoever may run a statement sees every scope that it needs. -/
theorem sees_of_authorize (h : s.authorize session = .ok ())
    (huser : session.restricted? = some user) (hneeds : s.Needs scope) {outer : List Scope}
    (hchain : scope.chain = scope :: outer) : user.privileges.sees scope = true := by
  obtain ⟨d, hdemand, hscope⟩ := hneeds
  obtain ⟨permission, rfl⟩ := Demand.scope?_eq_some_iff.mp hscope
  have hpermission : permission ≠ .dcl := permission_ne_dcl_of_mem_demands hdemand
  obtain ⟨record, hrecord, hgrant⟩ := (authorize_eq_ok_iff huser).mp h _ hdemand
  exact PrivilegeSet.sees_of_grant hpermission hchain hrecord hgrant

end Statement

/-! ### What a user is told -/

/-- A session gets an error as it is. -/
def SqlError.ToldTo (e : SqlError) (session : Session) : Prop := e.conceal session = e

instance (e : SqlError) (session : Session) : Decidable (e.ToldTo session) :=
  inferInstanceAs (Decidable (e.conceal session = e))

namespace Statement

open SqlError

variable {s : Statement} {session : Session}

theorem toldTo_of_needs {e : SqlError} {scope : Scope} (h : s.authorize session = .ok ())
    (hreveals : e.Reveals session.schema scope) (hneeds : s.Needs scope) : e.ToldTo session := by
  -- only a user without a role could miss the error, and that user sees the scope
  refine conceal_eq_self fun hhidden => ?_
  obtain ⟨user, -, huser, hregular, -⟩ := id hhidden
  have hrestricted := Session.restricted?_eq_some_iff.mpr ⟨huser, hregular⟩
  obtain ⟨outer, hchain⟩ := hreveals.exists_chain_eq
  have hsees := sees_of_authorize h hrestricted hneeds hchain
  exact hreveals.not_hiddenFrom huser hsees hhidden

/-- **The two checks agree.** A session that may run a statement is told of every error about a
scope that the statement needs, whatever other records its user has: of columns and partitions of
the tables that it reads, writes or changes; of the tables, functions and aliases of the schemas in
which it makes or removes objects; and, if it needs the cluster, of schemas, analyzers, repositories
and snapshots. -/
theorem toldTo_of_authorize (h : s.authorize session = .ok ()) :
    (∀ (e : SqlError) (scope : Scope), e.Reveals session.schema scope → s.Needs scope →
      e.ToldTo session) ∧
    (∀ table ∈ s.tables, (∀ column, (columnUnknown table column).ToldTo session) ∧
      ∀ ident, (partitionUnknown table ident).ToldTo session) ∧
    (∀ schema ∈ s.schemas, ∀ name,
      (tableAlreadyExists (some schema) name).ToldTo session ∧
      (functionUnknown schema name).ToldTo session ∧
      (functionAlreadyExists schema name).ToldTo session ∧
      (aliasCollision schema name).ToldTo session) ∧
    (s.Needs .cluster → ∀ name,
      (schemaUnknown name).ToldTo session ∧ (analyzerUnknown name).ToldTo session ∧
      (repositoryUnknown name).ToldTo session ∧ (repositoryAlreadyExists name).ToldTo session ∧
      ∀ repository, (snapshotUnknown repository name).ToldTo session ∧
        (snapshotAlreadyExists repository name).ToldTo session) := by
  refine ⟨fun e scope => toldTo_of_needs h, ?_, ?_, ?_⟩
  · intro table htable
    have hneeds := needs_table_iff.mpr ⟨table, htable, rfl⟩
    exact ⟨fun column => toldTo_of_needs h .column hneeds,
      fun ident => toldTo_of_needs h .partition hneeds⟩
  · intro schema hschema name
    have hneeds := needs_schema_iff.mpr hschema
    exact ⟨toldTo_of_needs h .takenTableInSchema hneeds, toldTo_of_needs h .function hneeds,
      toldTo_of_needs h .takenFunction hneeds, toldTo_of_needs h .takenAlias hneeds⟩
  · intro hneeds name
    exact ⟨toldTo_of_needs h .schemaUnknown hneeds, toldTo_of_needs h .analyzer hneeds,
      toldTo_of_needs h .repository hneeds, toldTo_of_needs h .takenRepository hneeds,
      fun repository =>
        ⟨toldTo_of_needs h .snapshot hneeds, toldTo_of_needs h .takenSnapshot hneeds⟩⟩

/-- A user who is denied nearly everything around what was granted: within that, errors are told,
and elsewhere they are not. -/
theorem toldTo_of_authorize_amid_denials :
    let user := User.regular "ford" (.ofList
      [⟨.deny, ⟨.dml, .cluster⟩, "crate"⟩, ⟨.deny, ⟨.ddl, .cluster⟩, "crate"⟩,
        ⟨.deny, ⟨.dml, .schema "doc"⟩, "crate"⟩, ⟨.deny, ⟨.dql, .table "doc.log"⟩, "crate"⟩,
        ⟨.grant, ⟨.dml, .table "doc.log"⟩, "crate"⟩, ⟨.grant, ⟨.dql, .table "sys.nodes"⟩, "crate"⟩,
        ⟨.grant, ⟨.ddl, .schema "blob"⟩, "crate"⟩])
    let session : Session := ⟨some user, "doc"⟩
    let source := Relation.join [(.parse "n", .subquery none (.systemTable ⟨"sys", "nodes"⟩))]
    (columnUnknown ⟨"doc", "log"⟩ "c").ToldTo session ∧
      (partitionUnknown ⟨"sys", "nodes"⟩ "p").ToldTo session ∧
      (functionUnknown "blob" "f").ToldTo session ∧ ¬ (functionUnknown "doc" "f").ToldTo session ∧
      (Statement.explain (.insertQuery ⟨"doc", "log"⟩ source)).authorize session = .ok () := by
  intro user session source
  have hinsertion : (Statement.explain (.insertQuery ⟨"doc", "log"⟩ source)).authorize session =
      .ok () := (authorize_eq_ok_iff rfl).mpr (by decide +kernel)
  have hcreation : (Statement.createBlobTable ⟨"blob", "t"⟩).authorize session = .ok () :=
    (authorize_eq_ok_iff rfl).mpr (by decide +kernel)
  obtain ⟨-, htable, -, -⟩ := toldTo_of_authorize hinsertion
  obtain ⟨-, -, hschema, -⟩ := toldTo_of_authorize hcreation
  refine ⟨?_, ?_, ?_, by decide +kernel, hinsertion⟩
  · exact (htable ⟨"doc", "log"⟩ (.head _)).1 "c"
  · exact (htable ⟨"sys", "nodes"⟩ (.tail _ (.head _))).2 "p"
  · exact (hschema "blob" (.head _) "f").2.1

end Statement

end AccessControl
