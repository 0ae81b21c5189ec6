import AccessControl.Name

/-!
# Relations

The relation tree of an analyzed statement. Access control looks at nothing but its leaves, the
tables that are read.

## Main definitions

* `Relation` — relation trees
* `Relation.leaves` — the tables at the leaves, from left to right
-/

namespace AccessControl

/-- The relation a statement reads from. -/
inductive Relation where
  /-- A system or information table. -/
  | systemTable (table : TableName)
  /-- A document table. -/
  | documentTable (table : TableName)
  /-- A table function, which is checked as the table behind it. -/
  | tableFunction (function : String) (backing : TableName)
  | join (sources : List (DottedName × Relation))
  /-- A query used as a relation. -/
  | subquery (alias? : Option DottedName) (body : Relation)

namespace Relation

instance : Inhabited Relation := ⟨.join []⟩

mutual

/-- The tables at the leaves of a relation, from left to right. -/
def leaves : Relation → List TableName
  | .systemTable table => [table]
  | .documentTable table => [table]
  | .tableFunction _ backing => [backing]
  | .join sources => leavesOfSources sources
  | .subquery _ body => leaves body

/-- The tables at the leaves of the sources of a join. -/
def leavesOfSources : List (DottedName × Relation) → List TableName
  | [] => []
  | (_, source) :: sources => leaves source ++ leavesOfSources sources

end

end Relation

end AccessControl
