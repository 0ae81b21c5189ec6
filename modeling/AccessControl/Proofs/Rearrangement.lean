import AccessControl.Proofs.Authorization
import Mathlib.Data.List.Dedup

/-!
# The shape of a query does not matter

The checks of a query walk down its relation and stop at the first table that is refused, so they
visit other tables in another order when the relation is written differently. None of this can be
told from the answer: on every table the same permission is asked for, and a refusal names the
permission alone. So the answer depends on nothing but the set of tables, by their written names.

## Main definitions

* `TableName.SameNames` — two lists name the same tables
* `Relation.Reshaped` — two relations differ in shape alone
* `Statement.Alike` — two statements ask the same of the same tables, explained or not

## Main results

* `Relation.reshaped_iff` — relations can be reshaped into one another if they read the same tables
* `Demand.judge_map_demand` — the same permission on some tables is granted on all of them, or
  refused without a word about the table
* `Statement.authorize_of_alike` — statements that are alike are answered alike
-/

namespace AccessControl

/-- Two lists name the same tables, in any order and any number of times. -/
def TableName.SameNames (tables tables' : List TableName) : Prop :=
  ∀ name, name ∈ tables.map qualified ↔ name ∈ tables'.map qualified

theorem TableName.sameNames_of_mem_iff {tables tables' : List TableName}
    (h : ∀ table, table ∈ tables ↔ table ∈ tables') : SameNames tables tables' := by
  intro name
  simp only [List.mem_map, h]

/-! ### Shapes of relations -/

namespace Relation

/-- Two relations differ in shape alone: names and aliases are other ones, sources stand in another
order, several times or in joins of their own, and queries are wrapped. -/
inductive Reshaped : Relation → Relation → Prop where
  | refl (r : Relation) : Reshaped r r
  | symm {r r' : Relation} (h : Reshaped r r') : Reshaped r' r
  | trans {r r' r'' : Relation} (h : Reshaped r r') (h' : Reshaped r' r'') : Reshaped r r''
  -- a table, whatever kind it is of and whatever function it is behind
  | systemTable (table : TableName) : Reshaped (.systemTable table) (.documentTable table)
  | tableFunction (function : String) (backing : TableName) :
      Reshaped (.tableFunction function backing) (.documentTable backing)
  | subquery (alias? : Option DottedName) (body : Relation) : Reshaped (.subquery alias? body) body
  -- a source, under any name, on its own or in a join within the join
  | source {r r' : Relation} (name name' : DottedName) (sources : List (DottedName × Relation))
      (h : Reshaped r r') : Reshaped (.join ((name, r) :: sources)) (.join ((name', r') :: sources))
  | single (name : DottedName) (r : Relation) : Reshaped (.join [(name, r)]) r
  | nested (name : DottedName) (inner sources : List (DottedName × Relation)) :
      Reshaped (.join ((name, .join inner) :: sources)) (.join (inner ++ sources))
  | perm {sources sources' : List (DottedName × Relation)} (h : sources.Perm sources') :
      Reshaped (.join sources) (.join sources')
  | duplicate (source : DottedName × Relation) (sources : List (DottedName × Relation)) :
      Reshaped (.join (source :: source :: sources)) (.join (source :: sources))

variable {r r' : Relation} {table : TableName}

theorem mem_leaves_join {sources : List (DottedName × Relation)} :
    table ∈ (join sources).leaves ↔ ∃ source ∈ sources, table ∈ source.2.leaves := by
  rw [leaves]
  induction sources with
  | nil => simp [leavesOfSources]
  | cons source sources ih => simp [leavesOfSources, ih]

/-- Reshaping keeps the tables that are read. -/
theorem Reshaped.mem_leaves_iff (h : Reshaped r r') : table ∈ r.leaves ↔ table ∈ r'.leaves := by
  induction h with
  | refl => rfl
  | symm _ ih => exact ih.symm
  | trans _ _ ih ih' => exact ih.trans ih'
  | systemTable | tableFunction | subquery => simp [leaves]
  | source _ _ _ _ ih => simp [mem_leaves_join, ih]
  | single | duplicate => simp [mem_leaves_join]
  | nested => simp only [mem_leaves_join, List.mem_cons, List.mem_append, or_and_right, exists_or,
      exists_eq_left]
  | perm hperm => simp only [mem_leaves_join, hperm.mem_iff]

/-- The sources behind others may be reshaped as a whole. -/
theorem Reshaped.append_left {sources sources' : List (DottedName × Relation)}
    (h : Reshaped (.join sources) (.join sources')) (others : List (DottedName × Relation)) :
    Reshaped (.join (others ++ sources)) (.join (others ++ sources')) := by
  -- the sources become one in front of the others, which can then be replaced
  have hfront (sources : List (DottedName × Relation)) :
      Reshaped (.join (others ++ sources)) (.join ((⟨[]⟩, .join sources) :: others)) :=
    .trans (.perm List.perm_append_comm) (.symm (.nested ..))
  exact (hfront sources).trans (.trans (.source _ _ _ h) (hfront sources').symm)

/-- The join of some tables. -/
def ofTables (tables : List TableName) : Relation :=
  .join (tables.map fun table => (⟨[]⟩, .documentTable table))

theorem reshaped_ofTables_singleton (table : TableName) :
    Reshaped (.documentTable table) (ofTables [table]) := .symm (.single ..)

theorem Reshaped.ofTables_append {tables tables' : List TableName}
    (h : Reshaped (ofTables tables) (ofTables tables')) (others : List TableName) :
    Reshaped (ofTables (others ++ tables)) (ofTables (others ++ tables')) := by
  simpa only [ofTables, List.map_append] using Reshaped.append_left h _

mutual

/-- Every relation is the join of its tables, but for the shape. -/
theorem reshaped_ofTables_leaves : ∀ r : Relation, r.Reshaped (ofTables r.leaves)
  | .systemTable table => .trans (.systemTable table) (reshaped_ofTables_singleton table)
  | .documentTable table => reshaped_ofTables_singleton table
  | .tableFunction function backing =>
    .trans (.tableFunction function backing) (reshaped_ofTables_singleton backing)
  | .join sources => reshaped_ofTables_leavesOfSources sources
  | .subquery alias? body => .trans (.subquery alias? body) (reshaped_ofTables_leaves body)

theorem reshaped_ofTables_leavesOfSources : ∀ sources : List (DottedName × Relation),
    (join sources).Reshaped (ofTables (leavesOfSources sources))
  | [] => .refl _
  | (name, source) :: sources => by
    have hsource := reshaped_ofTables_leaves source
    have hsources := reshaped_ofTables_leavesOfSources sources
    rw [leavesOfSources, ofTables, List.map_append]
    exact .trans (.source name name sources hsource) (.trans (.nested ..) (hsources.append_left _))

end

theorem reshaped_ofTables_perm {tables tables' : List TableName} (h : tables.Perm tables') :
    (ofTables tables).Reshaped (ofTables tables') := .perm (h.map _)

/-- A table that is named elsewhere need not be named once more. -/
theorem reshaped_ofTables_cons {tables : List TableName} (h : table ∈ tables) :
    (ofTables (table :: tables)).Reshaped (ofTables tables) := by
  obtain ⟨before, after, rfl⟩ := List.append_of_mem h
  -- both of its places are brought to the front
  have hfront : (before ++ table :: after).Perm (table :: (before ++ after)) := List.perm_middle
  have honce : (ofTables (table :: table :: (before ++ after))).Reshaped
      (ofTables (table :: (before ++ after))) := .duplicate _ _
  exact (reshaped_ofTables_perm (hfront.cons table)).trans
    (honce.trans (reshaped_ofTables_perm hfront.symm))

theorem reshaped_ofTables_dedup (tables : List TableName) :
    (ofTables tables).Reshaped (ofTables tables.dedup) := by
  induction tables with
  | nil => exact .refl _
  | cons table tables ih =>
    by_cases hmem : table ∈ tables
    · rw [List.dedup_cons_of_mem hmem]
      exact (reshaped_ofTables_cons hmem).trans ih
    · rw [List.dedup_cons_of_notMem hmem]
      exact ih.ofTables_append [table]

/-- Relations can be reshaped into one another if they read the same tables, and only then. -/
theorem reshaped_iff : r.Reshaped r' ↔ ∀ table, table ∈ r.leaves ↔ table ∈ r'.leaves := by
  refine ⟨fun h table => h.mem_leaves_iff, fun h => ?_⟩
  have hperm : r.leaves.dedup.Perm r'.leaves.dedup :=
    (List.perm_ext_iff_of_nodup (List.nodup_dedup _) (List.nodup_dedup _)).mpr (by simpa using h)
  have hnormal (r : Relation) : r.Reshaped (ofTables r.leaves.dedup) :=
    (reshaped_ofTables_leaves r).trans (reshaped_ofTables_dedup r.leaves)
  exact (hnormal r).trans ((reshaped_ofTables_perm hperm).trans (hnormal r').symm)

end Relation

/-! ### One permission on many tables -/

namespace Demand

variable {user : User} {permission : Permission} {tables tables' : List TableName}

/-- If every refusal is worded alike, it is all the same which of the demands is refused. -/
theorem judge_of_refusal_eq {ds : List Demand} {e : AccessError}
    (h : ∀ d ∈ ds, d.refusal user = e) :
    judge user ds = if ∀ d ∈ ds, d.MetBy user then .ok () else .error e := by
  unfold judge
  cases hfind : ds.find? fun d => ¬ d.MetBy user with
  | none =>
    have hmet : ∀ d ∈ ds, d.MetBy user := by simpa using hfind
    rw [if_pos hmet]
  | some d =>
    have hmem : d ∈ ds := List.mem_of_find?_eq_some hfind
    have hunmet : ¬ d.MetBy user := by simpa using List.find?_some hfind
    rw [if_neg fun hall => hunmet (hall d hmem)]
    exact congrArg Except.error (h d hmem)

theorem judge_map_demand (user : User) (permission : Permission) (tables : List TableName) :
    judge user (tables.map (TableName.demand permission)) =
      if ∀ name ∈ tables.map TableName.qualified,
          MetBy user (.requirement (.grant ⟨permission, .table name⟩))
      then .ok () else .error (.permissionDenied user.name (some permission)) := by
  have hrefusal : ∀ d ∈ tables.map (TableName.demand permission),
      d.refusal user = .permissionDenied user.name (some permission) := by
    simp [TableName.demand, refusal]
  rw [judge_of_refusal_eq hrefusal]
  simp [TableName.demand]

theorem judge_map_demand_congr (h : TableName.SameNames tables tables') :
    judge user (tables.map (TableName.demand permission)) =
      judge user (tables'.map (TableName.demand permission)) := by
  rw [judge_map_demand, judge_map_demand]
  simp only [h _]

end Demand

/-! ### Statements that are alike -/

namespace Statement

/-- Two statements ask for the same permissions on tables of the same names, through relations of
any shape or lists of any order. Either may be explained. -/
inductive Alike : Statement → Statement → Prop where
  | select {r r' : Relation} (h : TableName.SameNames r.leaves r'.leaves) :
      Alike (.select r) (.select r')
  | copyTo {r r' : Relation} (h : TableName.SameNames r.leaves r'.leaves) :
      Alike (.copyTo r) (.copyTo r')
  | update {r r' : Relation} (h : TableName.SameNames r.leaves r'.leaves) :
      Alike (.update r) (.update r')
  | delete {r r' : Relation} (h : TableName.SameNames r.leaves r'.leaves) :
      Alike (.delete r) (.delete r')
  | insertQuery (target : TableName) {r r' : Relation}
      (h : TableName.SameNames r.leaves r'.leaves) :
      Alike (.insertQuery target r) (.insertQuery target r')
  | refreshTable {indexNames indexNames' : List String}
      (h : TableName.SameNames (indexNames.map TableName.ofIndexName)
        (indexNames'.map TableName.ofIndexName)) :
      Alike (.refreshTable indexNames) (.refreshTable indexNames')
  | explainLeft {s s' : Statement} (h : Alike s s') : Alike (.explain s) s'
  | explainRight {s s' : Statement} (h : Alike s s') : Alike s (.explain s')

variable {s s' : Statement} {session : Session} {user : User} {e : AccessError}

theorem demands_refreshTable (indexNames : List String) :
    (refreshTable indexNames).demands =
      (indexNames.map TableName.ofIndexName).map (TableName.demand .dql) := by
  rw [demands, List.map_map]
  rfl

/-- What is asked for by statements that are alike is judged alike. -/
theorem Alike.judge_demands (h : Alike s s') :
    Demand.judge user s.demands = Demand.judge user s'.demands := by
  induction h with
  | select h | copyTo h | update h | delete h => exact Demand.judge_map_demand_congr h
  | insertQuery target h =>
    rw [demands, demands, Demand.judge_cons, Demand.judge_map_demand_congr h, ← Demand.judge_cons]
  | refreshTable h =>
    rw [demands_refreshTable, demands_refreshTable]
    exact Demand.judge_map_demand_congr h
  | explainLeft _ ih | explainRight _ ih => exact ih

/-- A refusal to use many tables names the permission alone. -/
theorem eq_of_judge_map_demand {permission : Permission} {tables : List TableName}
    (h : Demand.judge user (tables.map (TableName.demand permission)) = .error e) :
    e = .permissionDenied user.name (some permission) := by
  rw [Demand.judge_map_demand] at h
  split at h
  · cases h
  · exact (Except.error.inj h).symm

/-- An insertion is refused on account of the target, or else of the query. -/
theorem eq_of_judge_insertQuery {target : TableName} {query : Relation}
    (h : Demand.judge user (insertQuery target query).demands = .error e) :
    e = .permissionDenied user.name
      (some (if (target.demand .dml).MetBy user then .dql else .dml)) := by
  rw [demands, Demand.judge_cons, Demand.judge_singleton] at h
  split
  · next hmet =>
    rw [if_pos hmet] at h
    exact eq_of_judge_map_demand h
  · next hmet =>
    rw [if_neg hmet] at h
    exact (Except.error.inj h).symm

/-- **The shape of a query does not matter.** For a user without a role, statements that are alike
are answered alike, with the same error if they are refused: they read, write, export, change or
delete by relations whose leaves have the same names, insert such queries into the same table, or
refresh indices of the same tables, explained any number of times or not. Reshaping a relation keeps
the names of its leaves. And a refusal does not tell the table: it names the user and the permission
that the kind of statement takes, which for an insertion depends on the target. -/
theorem authorize_of_alike {session : Session} {user : User} (huser : session.user = some user)
    (hregular : user.superuser = false) :
    (∀ s s' : Statement, s.Alike s' → s.authorize session = s'.authorize session) ∧
    (∀ r r' : Relation, r.Reshaped r' → TableName.SameNames r.leaves r'.leaves) ∧
    (∀ r e, (select r).authorize session = .error e ∨ (copyTo r).authorize session = .error e →
      e = .permissionDenied user.name (some .dql)) ∧
    (∀ r e, (update r).authorize session = .error e ∨ (delete r).authorize session = .error e →
      e = .permissionDenied user.name (some .dml)) ∧
    (∀ target query e, (insertQuery target query).authorize session = .error e →
      e = .permissionDenied user.name
        (some (if (target.demand .dml).MetBy user then .dql else .dml))) ∧
    ∀ indexNames e, (refreshTable indexNames).authorize session = .error e →
      e = .permissionDenied user.name (some .dql) := by
  have hjudge (s : Statement) : s.authorize session = Demand.judge user s.demands :=
    s.authorize_eq_judge (Session.restricted?_eq_some_iff.mpr ⟨huser, hregular⟩)
  simp only [hjudge]
  refine ⟨fun s s' h => h.judge_demands, ?_, ?_, ?_, ?_, ?_⟩
  · exact fun r r' h => TableName.sameNames_of_mem_iff (Relation.reshaped_iff.mp h)
  · rintro r e (h | h)
    · exact eq_of_judge_map_demand h
    · exact eq_of_judge_map_demand h
  · rintro r e (h | h)
    · exact eq_of_judge_map_demand h
    · exact eq_of_judge_map_demand h
  · exact fun target query e h => eq_of_judge_insertQuery h
  · intro indexNames e h
    rw [demands_refreshTable] at h
    exact eq_of_judge_map_demand h

/-- Two ways to insert from the same tables, one of which is also behind a function, and two ways to
refresh a table: by a partition, and by a list that names it twice. The user may write the target
and read one of the tables. -/
theorem authorize_of_alike_insertions :
    let user := User.regular "ford" (.ofList
      [⟨.grant, ⟨.dml, .table "doc.log"⟩, "crate"⟩, ⟨.grant, ⟨.dql, .table "doc.a"⟩, "crate"⟩])
    let session : Session := ⟨some user, "doc"⟩
    let read : Relation := .documentTable ⟨"doc", "a"⟩
    let flat : Relation := .join [(.parse "a", read), (.parse "b", .systemTable ⟨"doc", "b"⟩)]
    let nested : Relation := .join [(.parse "x", .tableFunction "f" ⟨"doc", "b"⟩),
      (.parse "y", .subquery (some (.parse "z")) (.join [(.parse "a", read), (.parse "c", read)]))]
    let plain := Statement.insertQuery ⟨"doc", "log"⟩ flat
    let explained := Statement.explain (.explain (.insertQuery ⟨"doc", "log"⟩ nested))
    flat.Reshaped nested ∧ plain.Alike explained ∧
      explained.authorize session = .error (.permissionDenied "ford" (some .dql)) ∧
      (∃ e, (delete nested).authorize session = .error e ∧
        e = .permissionDenied "ford" (some .dml)) ∧
      (refreshTable ["a", "doc.a"]).authorize session = .ok () := by
  intro user session read flat nested plain explained
  have hreshaped : flat.Reshaped nested := Relation.reshaped_iff.mpr fun table => by
    simp [flat, nested, read, Relation.leaves, Relation.leavesOfSources, or_comm]
  have hindices : TableName.SameNames ([".partitioned.a.0400"].map TableName.ofIndexName)
      (["a", "doc.a"].map TableName.ofIndexName) := by
    have hpartition : [".partitioned.a.0400"].map TableName.ofIndexName = [⟨"doc", "a"⟩] := by
      decide +kernel
    have hwhole : ["a", "doc.a"].map TableName.ofIndexName = [⟨"doc", "a"⟩, ⟨"doc", "a"⟩] := by
      decide +kernel
    exact TableName.sameNames_of_mem_iff fun table => by simp [hpartition, hwhole]
  obtain ⟨halike, hnames, -, hwritten, -, -⟩ := @authorize_of_alike session user rfl rfl
  have hboth : plain.Alike explained :=
    .explainRight (.explainRight (.insertQuery _ (hnames _ _ hreshaped)))
  have hplain : plain.authorize session = .error (.permissionDenied "ford" (some .dql)) := by
    decide +kernel
  have hdelete : (delete nested).authorize session ≠ .ok () := by decide +kernel
  have hpartition : (refreshTable [".partitioned.a.0400"]).authorize session = .ok () := by
    decide +kernel
  refine ⟨hreshaped, hboth, (halike _ _ hboth).symm.trans hplain, ?_,
    (halike _ _ (.refreshTable hindices)).symm.trans hpartition⟩
  cases hrefused : (delete nested).authorize session with
  | ok => exact absurd hrefused hdelete
  | error e => exact ⟨e, rfl, hwritten nested e (.inr hrefused)⟩

end Statement

end AccessControl
