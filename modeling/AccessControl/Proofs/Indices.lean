import AccessControl.Proofs.Authorization
import AccessControl.Proofs.Text
import Mathlib.Data.List.Forall2

/-!
# What is granted on a table is granted on its indices

A GRANT names a table as it is kept in records; REFRESH names the indices of a table, each of which
may be that of a partition. Both names are read apart from one another. This file shows that they
lead to the same table: an index that is no partition's has the name of its table, and the
partitions of a table lead to it whatever their idents are. So one record on a table is enough to
refresh all its partitions with their template, and nothing else is.

## Main definitions

* `Text.IsPart` — a text that can be the schema or the name in a dotted name
* `IsIndexOf` — the indices of a table, the table being named as in a GRANT

## Main results

* `PartitionIndex.parse?_inSchema`, `PartitionIndex.parse?_inDefaultSchema` — the names of
  partitions are read as they are made up
* `IsIndexOf.qualified_ofIndexName` — an index leads to the table that a GRANT is on
* `Statement.authorize_refresh_iff_granted` — who may refresh indices
-/

namespace AccessControl

/-- A text that has characters, and no dot among them. -/
def Text.IsPart (s : String) : Prop := s ≠ "" ∧ '.' ∉ s.toList

instance : DecidablePred Text.IsPart := fun _ => inferInstanceAs (Decidable (_ ∧ _))

/-! ### The names of partitions -/

namespace PartitionIndex

variable {schema name : String}

/-- A name that starts with a schema is not taken for one of the default schema. -/
theorem cutMarker_inSchema (hschema : Text.IsPart schema) (rest : String) :
    cutMarker (schema ++ schemaMarker ++ rest) = some (schema, rest) := by
  have hstrip : Text.stripStart marker (schema ++ schemaMarker ++ rest) = none := by
    cases hstart : Text.stripStart marker (schema ++ schemaMarker ++ rest) with
    | none => rfl
    | some after =>
      -- the schema would start with the dot that the marker starts with
      have hsame := congrArg String.toList (Text.stripStart_eq_some_iff.mp hstart)
      obtain ⟨c, cs, hcs⟩ := List.exists_cons_of_ne_nil (mt String.toList_eq_nil_iff.mp hschema.1)
      have hdot : c = '.' := by
        simp only [String.toList_append, hcs, List.cons_append] at hsame
        exact (List.cons.inj hsame).1
      exact absurd (hcs ▸ hdot ▸ List.mem_cons_self) hschema.2
  simp only [cutMarker, hstrip]
  exact Text.cut_append rfl hschema.2

theorem cutMarker_inDefaultSchema (rest : String) :
    cutMarker (marker ++ rest) = some (defaultSchema, rest) := by
  simp only [cutMarker, Text.stripStart_eq_some_iff.mpr rfl]

/-- Behind the marker stand the table and the ident. -/
theorem parse?_of_cutMarker {indexName ident : String} (hschema : schema ≠ "")
    (hname : Text.IsPart name)
    (h : cutMarker indexName = some (schema, name ++ "." ++ ident)) :
    parse? indexName = some ⟨⟨schema, name⟩, ident⟩ := by
  have hcut : Text.cut "." (name ++ "." ++ ident) = some (name, ident) :=
    Text.cut_dot_eq_some_iff.mpr ⟨rfl, hname.2⟩
  simp [parse?, h, hcut, hschema, hname.1]

/-- The ident of a partition may hold anything. -/
theorem parse?_inSchema (hschema : Text.IsPart schema) (hname : Text.IsPart name)
    (ident : String) :
    parse? (schema ++ "..partitioned." ++ name ++ "." ++ ident) =
      some ⟨⟨schema, name⟩, ident⟩ := by
  refine parse?_of_cutMarker hschema.1 hname ?_
  simpa only [schemaMarker, String.append_assoc] using
    cutMarker_inSchema hschema (name ++ "." ++ ident)

theorem parse?_inDefaultSchema (hname : Text.IsPart name) (ident : String) :
    parse? (".partitioned." ++ name ++ "." ++ ident) =
      some ⟨⟨defaultSchema, name⟩, ident⟩ := by
  refine parse?_of_cutMarker (by decide) hname ?_
  simpa only [marker, String.append_assoc] using cutMarker_inDefaultSchema (name ++ "." ++ ident)

end PartitionIndex

/-! ### The table that a GRANT is on -/

theorem GrantTarget.qualify_of_mem {table : String} (schema : String) (h : '.' ∈ table.toList) :
    qualify schema table = table :=
  if_pos h

/-- A name with a schema is kept as it is written, whatever the default schema is. -/
theorem GrantTarget.qualify_append (default schema name : String) :
    qualify default (schema ++ "." ++ name) = schema ++ "." ++ name :=
  qualify_of_mem default (by simp)

theorem GrantTarget.objects_tables_append (default schema name : String) :
    (tables [schema ++ "." ++ name]).objects default = [some (schema ++ "." ++ name)] := by
  simp only [objects, tables, List.map_cons, List.map_nil, qualify_append]

/-- The indices of a table, the table being named as in a GRANT: an index that is no partition's has
the name of the table; the others have it with a marker and an ident. -/
inductive IsIndexOf : String → String → Prop where
  | whole {indexName : String} (h : PartitionIndex.parse? indexName = none) :
      IsIndexOf indexName indexName
  | partition {schema name : String} (hschema : Text.IsPart schema) (hname : Text.IsPart name)
      (ident : String) :
      IsIndexOf (schema ++ "..partitioned." ++ name ++ "." ++ ident) (schema ++ "." ++ name)
  | defaultPartition {name : String} (hname : Text.IsPart name) (ident : String) :
      IsIndexOf (".partitioned." ++ name ++ "." ++ ident) (defaultSchema ++ "." ++ name)

/-- A name that is no partition's is cut at its first dot, or qualified if it has none. -/
theorem TableName.qualified_ofIndexName_whole {indexName : String}
    (h : PartitionIndex.parse? indexName = none) :
    (ofIndexName indexName).qualified = GrantTarget.qualify defaultSchema indexName := by
  unfold ofIndexName
  rw [h]
  cases hcut : Text.cut "." indexName with
  | none => exact (if_neg (Text.cut_dot_eq_none_iff.mp hcut)).symm
  | some parts =>
    obtain ⟨rfl, -⟩ := Text.cut_dot_eq_some_iff.mp hcut
    exact (GrantTarget.qualify_append ..).symm

/-- An index leads to the table that a GRANT of the same name is on. -/
theorem IsIndexOf.qualified_ofIndexName {indexName written : String}
    (h : IsIndexOf indexName written) :
    (TableName.ofIndexName indexName).qualified = GrantTarget.qualify defaultSchema written := by
  cases h with
  | whole h => exact TableName.qualified_ofIndexName_whole h
  | partition hschema hname ident =>
    rw [GrantTarget.qualify_append, TableName.ofIndexName,
      PartitionIndex.parse?_inSchema hschema hname]
    rfl
  | @defaultPartition name hname ident =>
    rw [TableName.ofIndexName, PartitionIndex.parse?_inDefaultSchema hname]
    exact (GrantTarget.qualify_append ..).symm

/-! ### Who may refresh -/

namespace Statement

variable {session : Session} {user : User}

/-- Each index is refreshed on account of a record on the table that it leads to. -/
theorem authorize_refresh_iff (hrestricted : session.restricted? = some user)
    {indexNames : List String} :
    (refreshTable indexNames).authorize session = .ok () ↔
      ∀ indexName ∈ indexNames,
        user.privileges.holds ⟨.dql, .table (TableName.ofIndexName indexName).qualified⟩ = true := by
  rw [authorize_eq_ok_iff hrestricted, demands, List.forall_mem_map]
  refine forall₂_congr fun indexName _ => ?_
  exact Demand.metBy_grant_iff_holds (by simp)

/-- Indices that lead to the tables of a GRANT are refreshed on account of its objects. -/
theorem authorize_refresh_iff_of_forall₂ (hrestricted : session.restricted? = some user)
    {indexNames written : List String} (h : List.Forall₂ IsIndexOf indexNames written) :
    (refreshTable indexNames).authorize session = .ok () ↔
      ∀ object ∈ (GrantTarget.tables written).objects defaultSchema,
        user.privileges.holds ⟨.dql, ⟨.table, object⟩⟩ = true := by
  have hobjects : (GrantTarget.tables written).objects defaultSchema =
      indexNames.map fun indexName => some (TableName.ofIndexName indexName).qualified := by
    induction h with
    | nil => rfl
    | cons hindex _ ih =>
      rw [List.map_cons, ← ih, hindex.qualified_ofIndexName]
      rfl
  rw [authorize_refresh_iff hrestricted, hobjects, List.forall_mem_map]
  rfl

/-- **What is granted on a table is granted on its indices.** A GRANT on a table is kept under the
name of the table that REFRESH finds for an index: for a name that is no partition's in the default
schema, and for the partitions of a table, with any idents, in every schema. So a user without a
role may refresh a list of indices exactly if reading is granted on each of their tables; and for
any indices of one table, its partitions and its template, one record decides. -/
theorem authorize_refresh_iff_granted :
    (∀ indexName, PartitionIndex.parse? indexName = none →
      (GrantTarget.tables [indexName]).objects defaultSchema =
        [some (TableName.ofIndexName indexName).qualified]) ∧
    (∀ schema name : String, Text.IsPart schema → Text.IsPart name → ∀ ident default : String,
      (GrantTarget.tables [schema ++ "." ++ name]).objects default =
        [some (TableName.ofIndexName
          (schema ++ "..partitioned." ++ name ++ "." ++ ident)).qualified] ∧
      (GrantTarget.tables [defaultSchema ++ "." ++ name]).objects default =
        [some (TableName.ofIndexName (".partitioned." ++ name ++ "." ++ ident)).qualified]) ∧
    ∀ (session : Session) (user : User), session.user = some user → user.superuser = false →
      (∀ indexNames written, List.Forall₂ IsIndexOf indexNames written →
        ((refreshTable indexNames).authorize session = .ok () ↔
          ∀ object ∈ (GrantTarget.tables written).objects defaultSchema,
            user.privileges.holds ⟨.dql, ⟨.table, object⟩⟩ = true)) ∧
      ∀ indexNames written, indexNames ≠ [] →
        (∀ indexName ∈ indexNames, IsIndexOf indexName written) →
        ((refreshTable indexNames).authorize session = .ok () ↔
          user.privileges.holds
            ⟨.dql, .table (GrantTarget.qualify defaultSchema written)⟩ = true) := by
  refine ⟨fun indexName h => ?_, fun schema name hschema hname ident default => ⟨?_, ?_⟩, ?_⟩
  · rw [(IsIndexOf.whole h).qualified_ofIndexName]
    rfl
  · rw [(IsIndexOf.partition hschema hname ident).qualified_ofIndexName,
      GrantTarget.objects_tables_append, GrantTarget.qualify_append]
  · rw [(IsIndexOf.defaultPartition hname ident).qualified_ofIndexName,
      GrantTarget.objects_tables_append, GrantTarget.qualify_append]
  · intro session user huser hregular
    have hrestricted := Session.restricted?_eq_some_iff.mpr ⟨huser, hregular⟩
    refine ⟨fun indexNames written h => authorize_refresh_iff_of_forall₂ hrestricted h,
      fun indexNames written hnonempty h => ?_⟩
    rw [authorize_refresh_iff hrestricted]
    obtain ⟨first, others, rfl⟩ := List.exists_cons_of_ne_nil hnonempty
    constructor
    · intro hall
      rw [← (h first List.mem_cons_self).qualified_ofIndexName]
      exact hall first List.mem_cons_self
    · intro hheld indexName hmem
      rwa [(h indexName hmem).qualified_ofIndexName]

/-- A partition whose ident looks like the name of another one, the template of the same table in
its long form, and an index that is no partition's; and a partition of a table that nothing is
granted on, whose ident is the name of one with a grant. -/
theorem authorize_refresh_iff_granted_partitions :
    let user := User.regular "ford" (.ofList
      [⟨.grant, ⟨.dql, .table "doc.log"⟩, "crate"⟩, ⟨.grant, ⟨.dql, .table "blob.t"⟩, "crate"⟩])
    let session : Session := ⟨some user, "custom"⟩
    let indexNames := [".partitioned.log.x..partitioned.y.0400", "doc..partitioned.log.", "blob.t"]
    List.Forall₂ IsIndexOf indexNames ["doc.log", "doc.log", "blob.t"] ∧
      (refreshTable indexNames).authorize session = .ok () ∧
      IsIndexOf "blob..partitioned.log.doc.log" "blob.log" ∧
      (refreshTable ["blob..partitioned.log.doc.log"]).authorize session ≠ .ok () := by
  intro user session indexNames
  have hindices : List.Forall₂ IsIndexOf indexNames ["doc.log", "doc.log", "blob.t"] :=
    .cons (@IsIndexOf.defaultPartition "log" (by decide) "x..partitioned.y.0400")
      (.cons (@IsIndexOf.partition "doc" "log" (by decide) (by decide) "")
        (.cons (.whole (by decide +kernel)) .nil))
  have hother : IsIndexOf "blob..partitioned.log.doc.log" "blob.log" :=
    @IsIndexOf.partition "blob" "log" (by decide) (by decide) "doc.log"
  obtain ⟨hlist, htable⟩ := authorize_refresh_iff_granted.2.2 session user rfl rfl
  refine ⟨hindices, (hlist _ _ hindices).mpr (by decide +kernel), hother, ?_⟩
  rw [Ne, htable _ _ (by simp) (List.forall_mem_singleton.mpr hother)]
  decide +kernel

end Statement

end AccessControl
