import AccessControl.Text.Cut

/-!
# Names of tables and relations

A table is named by its schema and its name. A partitioned table keeps each partition in an index
of its own, named `.partitioned.<table>.<ident>` in the default schema and
`<schema>..partitioned.<table>.<ident>` elsewhere; an empty ident names the template of the
partitions.

## Main definitions

* `TableName` — schema and name, with the written form `TableName.qualified`
* `PartitionIndex` — the table and the ident that an index name of a partition stands for
* `TableName.ofIndexName` — the table an index belongs to
* `DottedName` — a name as written in a statement, part by part
-/

namespace AccessControl

/-- The schema of names that are written without one. -/
def defaultSchema : String := "doc"

/-- A table, by its schema and its name. -/
structure TableName where
  schema : String
  name : String
  deriving DecidableEq

namespace TableName

/-- Schema and name with a dot between them. -/
def qualified (t : TableName) : String := t.schema ++ "." ++ t.name

/-- A table of the default schema. -/
def inDefaultSchema (name : String) : TableName := ⟨defaultSchema, name⟩

end TableName

/-- A partition of a table, as an index name tells it. -/
structure PartitionIndex where
  table : TableName
  /-- The encoded values of the partition; empty for the template. -/
  ident : String
  deriving DecidableEq

namespace PartitionIndex

/-- What an index name of the default schema starts with. -/
def marker : String := ".partitioned."

/-- What stands after the schema in an index name of another schema. -/
def schemaMarker : String := "..partitioned."

/-- The schema of an index name, and what stands after the marker. -/
def cutMarker (indexName : String) : Option (String × String) :=
  match Text.stripStart marker indexName with
  | some rest => some (defaultSchema, rest)
  | none => Text.cut schemaMarker indexName

/-- The partition that an index name stands for. The ident follows the first dot after the table;
neither the schema nor the table may be empty. -/
def parse? (indexName : String) : Option PartitionIndex := do
  let (schema, rest) ← cutMarker indexName
  let (name, ident) ← Text.cut "." rest
  if schema.isEmpty || name.isEmpty then none else some ⟨⟨schema, name⟩, ident⟩

/-- Whether this is the template of the table's partitions. -/
def isTemplate (p : PartitionIndex) : Bool := p.ident.isEmpty

end PartitionIndex

/-- The table an index belongs to: that of a partition, else the name cut at its first dot, else a
table of the default schema. -/
def TableName.ofIndexName (indexName : String) : TableName :=
  match PartitionIndex.parse? indexName with
  | some partition => partition.table
  | none =>
    match Text.cut "." indexName with
    | some (schema, name) => ⟨schema, name⟩
    | none => inDefaultSchema indexName

/-- A name as written in a statement: `t`, `s.t`, … -/
structure DottedName where
  parts : List String
  deriving DecidableEq

namespace DottedName

/-- Split a written name at every dot. -/
def parse (s : String) : DottedName := ⟨Text.splitDots s⟩

/-- The written name. -/
def render (n : DottedName) : String := Text.joinDots n.parts

/-- The schema part, if the name has more than one part. -/
def schema? (n : DottedName) : Option String :=
  match n.parts with
  | first :: _ :: _ => some first
  | _ => none

/-- The name of a table with its schema. -/
def ofTable (t : TableName) : DottedName := ⟨[t.schema, t.name]⟩

end DottedName

end AccessControl
