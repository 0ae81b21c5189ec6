import AccessControl.Text.Cut
import AccessControl.Text.Uppercase

/-!
# Privileges

A privilege record states that a permission was granted, denied or revoked at a scope. Scopes are
nested: the cluster, a schema, a table named `schema.table`. Typed checks look at exactly one
scope; visibility is decided along the chain from a scope outwards.

## Main definitions

* `Permission` — the four kinds of statements a privilege is about
* `Level`, `Scope` — where a privilege applies
* `Scope.chain` — a scope and the scopes around it, the most specific one first
* `Effect` — whether a record grants, denies or revokes
* `Privilege.Key`, `Privilege` — what a record is about, and the record
-/

namespace AccessControl

/-- What a privilege is about. -/
inductive Permission where
  /-- Reading data. -/
  | dql
  /-- Changing data. -/
  | dml
  /-- Changing schema objects. -/
  | ddl
  /-- Changing users and privileges. -/
  | dcl
  deriving DecidableEq

namespace Permission

def all : List Permission := [.dql, .dml, .ddl, .dcl]

/-- What `ALL` stands for in a statement: access control stays with superusers. -/
def grantable : List Permission := [.dql, .dml, .ddl]

theorem mem_grantable_iff {permission : Permission} :
    permission ∈ grantable ↔ permission ≠ .dcl := by
  cases permission <;> decide

def rank : Permission → Nat
  | .dql => 0
  | .dml => 1
  | .ddl => 2
  | .dcl => 3

/-- The SQL name. -/
def name : Permission → String
  | .dql => "DQL"
  | .dml => "DML"
  | .ddl => "DDL"
  | .dcl => "DCL"

/-- The permission whose name is the upper case of a text. -/
def parse? (s : String) : Option Permission := all.find? fun p => Text.isUpperOf p.name s

theorem rank_injective {p q : Permission} (h : p.rank = q.rank) : p = q := by
  cases p <;> cases q <;> first | rfl | cases h

end Permission

/-- The size of a scope. -/
inductive Level where
  | cluster
  | schema
  | table
  deriving DecidableEq

namespace Level

def all : List Level := [.cluster, .schema, .table]

def rank : Level → Nat
  | .cluster => 0
  | .schema => 1
  | .table => 2

/-- The SQL name. -/
def name : Level → String
  | .cluster => "CLUSTER"
  | .schema => "SCHEMA"
  | .table => "TABLE"

/-- The level whose name is the upper case of a text. -/
def parse? (s : String) : Option Level := all.find? fun l => Text.isUpperOf l.name s

theorem rank_injective {l m : Level} (h : l.rank = m.rank) : l = m := by
  cases l <;> cases m <;> first | rfl | cases h

end Level

/-- Where a privilege applies: the cluster, a schema by its name, a table by its qualified name. -/
structure Scope where
  level : Level
  /-- The schema or the qualified table; none for the cluster. -/
  object : Option String
  deriving DecidableEq

namespace Scope

def cluster : Scope := ⟨.cluster, none⟩

/-- A schema. -/
def schema (name : String) : Scope := ⟨.schema, some name⟩

/-- A table, by its qualified name. -/
def table (qualified : String) : Scope := ⟨.table, some qualified⟩

/-- A scope and the scopes around it, the most specific one first. A table lies in the schema
before the first dot of its name; a table without a dot and a scope that names no object lie in
the cluster alone. -/
def chain (s : Scope) : List Scope :=
  match s.level, s.object with
  | .table, some qualified =>
    match Text.cut "." qualified with
    | some (name, _) => [table qualified, schema name, cluster]
    | none => [table qualified, cluster]
  | .schema, some name => [schema name, cluster]
  | _, _ => [cluster]

end Scope

/-- What a privilege record does. -/
inductive Effect where
  | grant
  | deny
  /-- The record at the same key is removed; no such record is stored. -/
  | revoke
  deriving DecidableEq

namespace Effect

def all : List Effect := [.grant, .deny, .revoke]

/-- The SQL name. -/
def name : Effect → String
  | .grant => "GRANT"
  | .deny => "DENY"
  | .revoke => "REVOKE"

end Effect

/-- What a privilege record is about: a permission at a scope. -/
structure Privilege.Key where
  permission : Permission
  scope : Scope
  deriving DecidableEq

/-- A privilege record. -/
structure Privilege where
  /-- Whether the permission is granted, denied or revoked. -/
  effect : Effect
  /-- Which permission, and where. -/
  key : Privilege.Key
  /-- The user who issued the record. -/
  grantor : String
  deriving DecidableEq

namespace Privilege.Key

/-- Keys are ordered by permission, then level, then object, with no object before any. -/
instance : Ord Privilege.Key where
  compare :=
    compareLex (compareOn fun k => k.permission.rank)
      (compareLex (compareOn fun k => k.scope.level.rank) (compareOn fun k => k.scope.object))

instance : Std.TransOrd Privilege.Key :=
  inferInstanceAs (Std.TransCmp (compareLex (compareOn fun k : Privilege.Key => k.permission.rank)
    (compareLex (compareOn fun k : Privilege.Key => k.scope.level.rank)
      (compareOn fun k : Privilege.Key => k.scope.object))))

instance : Std.LawfulEqOrd Privilege.Key where
  eq_of_compare {a b} h := by
    obtain ⟨p, ⟨l, o⟩⟩ := a
    obtain ⟨q, ⟨m, u⟩⟩ := b
    have h : ((compare p.rank q.rank).then ((compare l.rank m.rank).then (compare o u))) = .eq := h
    simp only [Ordering.then_eq_eq, Std.LawfulEqCmp.compare_eq_iff_eq] at h
    obtain ⟨hp, hl, rfl⟩ := h
    obtain rfl := Permission.rank_injective hp
    obtain rfl := Level.rank_injective hl
    rfl

end Privilege.Key

end AccessControl
