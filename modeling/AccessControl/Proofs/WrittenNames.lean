import AccessControl.Proofs.Indices

/-!
# Names are read as they are written

A dotted name is its parts with a dot between each two, and an index name of a partition is a
schema, a marker, a table and an ident. Both are read from one text in which dots may stand
anywhere: next to one another, at the ends, and inside the ident of a partition. This file shows
that reading takes apart exactly what writing puts together. No text is changed by being read, and
none is read as what it does not say.

## Main definitions

* `PartitionIndex.Form`, `PartitionIndex.written` — the two forms of a partition's index name
* `PartitionIndex.Form.ofIndexName` — the form of an index name, told by its first characters

## Main results

* `DottedName.schema?_parse_eq_some_iff` — the schema of a name is what stands before its first dot
* `PartitionIndex.eq_written_of_parse?` — an index name that is read is the written name of what was
  read in it
* `DottedName.parse_inverts_render` — dotted names are read as they are written
* `PartitionIndex.parse?_reads_exactly` — so are the index names of partitions
-/

namespace AccessControl

/-! ### Dotted names -/

namespace DottedName

theorem render_parse (s : String) : (parse s).render = s :=
  Text.joinDots_splitDots s

theorem parse_render {n : DottedName} (h : n.parts ≠ [])
    (hdots : ∀ part ∈ n.parts, '.' ∉ part.toList) : parse n.render = n :=
  congrArg DottedName.mk (Text.splitDots_joinDots h hdots)

/-- A text with a dot has a first part and others. -/
theorem schema?_parse_append {first : String} (h : '.' ∉ first.toList) (rest : String) :
    (parse (first ++ "." ++ rest)).schema? = some first := by
  obtain ⟨second, others, hrest⟩ := List.exists_cons_of_ne_nil (Text.splitDots_ne_nil rest)
  rw [parse, Text.splitDots_append h, hrest]
  rfl

theorem schema?_parse_of_not_mem {s : String} (h : '.' ∉ s.toList) : (parse s).schema? = none := by
  rw [parse, Text.splitDots_of_not_mem h]
  rfl

theorem schema?_parse_eq_some_iff {s schema : String} :
    (parse s).schema? = some schema ↔
      '.' ∉ schema.toList ∧ ∃ rest, s = schema ++ "." ++ rest := by
  constructor
  · intro h
    cases hcut : Text.cut "." s with
    | none =>
      rw [schema?_parse_of_not_mem (Text.cut_dot_eq_none_iff.mp hcut)] at h
      cases h
    | some parts =>
      obtain ⟨first, rest⟩ := parts
      obtain ⟨rfl, hfirst⟩ := Text.cut_dot_eq_some_iff.mp hcut
      rw [schema?_parse_append hfirst] at h
      obtain rfl := Option.some.inj h
      exact ⟨hfirst, rest, rfl⟩
  · rintro ⟨hschema, rest, rfl⟩
    exact schema?_parse_append hschema rest

theorem schema?_parse_eq_none_iff {s : String} : (parse s).schema? = none ↔ '.' ∉ s.toList := by
  refine ⟨fun h hdot => ?_, schema?_parse_of_not_mem⟩
  -- a text with a dot can be cut there, and what stands before is its schema
  obtain ⟨⟨first, rest⟩, hcut⟩ := Option.ne_none_iff_exists'.mp
    (mt Text.cut_dot_eq_none_iff.mp (not_not_intro hdot))
  obtain ⟨rfl, hfirst⟩ := Text.cut_dot_eq_some_iff.mp hcut
  rw [schema?_parse_append hfirst] at h
  cases h

/-- A table is named by its schema and its name, written as a dotted name of two parts. -/
theorem render_ofTable (table : TableName) : (ofTable table).render = table.qualified := by
  simp [render, ofTable, Text.joinDots, TableName.qualified]

theorem parse_qualified {table : TableName} (hschema : '.' ∉ table.schema.toList)
    (hname : '.' ∉ table.name.toList) : parse table.qualified = ofTable table := by
  rw [← render_ofTable]
  exact parse_render (List.cons_ne_nil _ _) (by simp [ofTable, hschema, hname])

/-- **Dotted names are read as they are written.** A text that is split at its dots is joined to the
same text again, wherever the dots stand. The schema found in it is what stands before the first
dot, and there is one exactly if there is a dot. Parts without a dot of their own, of which there is
at least one, are found again in the name that they make up; so the written name of a table is read
as the name with the table's schema and name for its parts. -/
theorem parse_inverts_render :
    (∀ s, (parse s).render = s) ∧
    (∀ s schema, (parse s).schema? = some schema ↔
      '.' ∉ schema.toList ∧ ∃ rest, s = schema ++ "." ++ rest) ∧
    (∀ s, (∃ schema, (parse s).schema? = some schema) ↔ '.' ∈ s.toList) ∧
    (∀ parts : List String, parts ≠ [] → (∀ part ∈ parts, '.' ∉ part.toList) →
      parse (render ⟨parts⟩) = ⟨parts⟩) ∧
    ∀ table : TableName, '.' ∉ table.schema.toList → '.' ∉ table.name.toList →
      parse table.qualified = ofTable table ∧
        (parse table.qualified).schema? = some table.schema := by
  refine ⟨render_parse, fun s schema => schema?_parse_eq_some_iff, fun s => ?_,
    fun parts h hdots => parse_render h hdots, fun table hschema hname => ?_⟩
  · rw [← Option.ne_none_iff_exists', Ne, schema?_parse_eq_none_iff, not_not]
  · exact ⟨parse_qualified hschema hname,
      schema?_parse_eq_some_iff.mpr ⟨hschema, table.name, rfl⟩⟩

/-- Dots at both ends and next to one another make empty parts, which are kept; a table with an
empty name is read like any other. -/
theorem parse_inverts_render_empty_parts :
    parse (render ⟨["", "a", "", "", "b", ""]⟩) = ⟨["", "a", "", "", "b", ""]⟩ ∧
      (render ⟨["", "a", "", "", "b", ""]⟩) = ".a...b." ∧
      (parse ".a...b.").schema? = some "" ∧
      parse (TableName.qualified ⟨"doc", ""⟩) = ofTable ⟨"doc", ""⟩ := by
  obtain ⟨-, hschema, -, hparts, htable⟩ := parse_inverts_render
  exact ⟨hparts _ (by simp) (by decide), by decide +kernel,
    (hschema _ _).mpr ⟨by decide, "a...b.", by decide +kernel⟩,
    (htable ⟨"doc", ""⟩ (by decide) (by decide)).1⟩

end DottedName

/-! ### Index names -/

/-- The written name of a table is cut at the dot behind the schema. -/
theorem TableName.ofIndexName_qualified {table : TableName} (hschema : '.' ∉ table.schema.toList)
    (h : PartitionIndex.parse? table.qualified = none) : ofIndexName table.qualified = table := by
  have hcut : Text.cut "." table.qualified = some (table.schema, table.name) :=
    Text.cut_dot_eq_some_iff.mpr ⟨rfl, hschema⟩
  simp only [ofIndexName, h, hcut]

namespace PartitionIndex

/-- The two forms of a partition's index name. -/
inductive Form where
  /-- Without the schema, which is the default one. -/
  | short
  /-- With the schema in front. -/
  | long
  deriving DecidableEq

/-- The index name of a partition. The short form leaves its schema out. -/
def written (p : PartitionIndex) : Form → String
  | .short => ".partitioned." ++ p.table.name ++ "." ++ p.ident
  | .long => p.table.schema ++ "..partitioned." ++ p.table.name ++ "." ++ p.ident

/-- The form of an index name: a name that starts with the marker has no schema in front. -/
def Form.ofIndexName (indexName : String) : Form :=
  if ".partitioned.".toList <+: indexName.toList then .short else .long

variable {indexName schema rest : String} {p : PartitionIndex}

theorem Form.ofIndexName_eq_short_iff :
    ofIndexName indexName = .short ↔ ∃ rest, indexName = ".partitioned." ++ rest := by
  unfold ofIndexName
  constructor
  · intro h
    split at h
    · next hstart =>
      obtain ⟨cs, hcs⟩ := hstart
      refine ⟨.ofList cs, ?_⟩
      rw [← String.toList_inj, ← hcs]
      simp
    · cases h
  · rintro ⟨rest, rfl⟩
    exact if_pos ⟨rest.toList, by simp⟩

/-- Where the marker of a form stands, the schema and the rest are to its two sides. -/
theorem eq_of_cutMarker (h : cutMarker indexName = some (schema, rest)) :
    Form.ofIndexName indexName = .short ∧ schema = defaultSchema ∧ indexName = marker ++ rest ∨
      Form.ofIndexName indexName = .long ∧ indexName = schema ++ schemaMarker ++ rest := by
  unfold cutMarker at h
  split at h
  · next after hstrip =>
    obtain ⟨rfl, rfl⟩ := Prod.mk.inj (Option.some.inj h)
    have hstart := Text.stripStart_eq_some_iff.mp hstrip
    exact .inl ⟨Form.ofIndexName_eq_short_iff.mpr ⟨after, hstart⟩, rfl, hstart⟩
  · next hstrip =>
    have hlong : Form.ofIndexName indexName ≠ .short := fun hshort => by
      obtain ⟨after, hstart⟩ := Form.ofIndexName_eq_short_iff.mp hshort
      have hsome : Text.stripStart marker indexName = some after :=
        Text.stripStart_eq_some_iff.mpr hstart
      cases hstrip.symm.trans hsome
    refine .inr ⟨?_, Text.eq_append_of_cut h⟩
    cases hform : Form.ofIndexName indexName with
    | short => exact absurd hform hlong
    | long => rfl

/-- What is read in an index name has a schema and a table, and makes up that name in its form. -/
theorem eq_written_of_parse? (h : parse? indexName = some p) :
    p.table.schema ≠ "" ∧ Text.IsPart p.table.name ∧
      indexName = p.written (.ofIndexName indexName) ∧
      (Form.ofIndexName indexName = .short → p.table.schema = defaultSchema) := by
  simp only [parse?, Option.bind_eq_bind, Option.bind_eq_some_iff, Prod.exists] at h
  obtain ⟨schema, rest, hmarker, name, ident, hcut, hp⟩ := h
  obtain ⟨rfl, hname⟩ := Text.cut_dot_eq_some_iff.mp hcut
  split at hp
  · cases hp
  · next hempty =>
    obtain rfl := Option.some.inj hp
    have hparts : schema ≠ "" ∧ name ≠ "" := by simpa [String.isEmpty_iff] using hempty
    refine ⟨hparts.1, ⟨hparts.2, hname⟩, ?_⟩
    rcases eq_of_cutMarker hmarker with ⟨hform, rfl, hwritten⟩ | ⟨hform, hwritten⟩
    · rw [hform]
      refine ⟨?_, fun _ => rfl⟩
      rw [hwritten, ← String.append_assoc, ← String.append_assoc]
      rfl
    · rw [hform]
      refine ⟨?_, fun hshort => ?_⟩
      · rw [hwritten, ← String.append_assoc, ← String.append_assoc]
        rfl
      · cases hshort

/-- **The index names of partitions are read exactly.** A schema and a table without dots are found
with any ident, be it empty, dotted or the name of another partition. Conversely every name that is
read is, in its form, the written name of what was read in it, the schema and the table having
characters and the table no dot; so no two names of one form are read as the same partition. A table
whose schema has no dot is found under its written name, unless that is the name of a partition. -/
theorem parse?_reads_exactly :
    (∀ schema name : String, Text.IsPart schema → Text.IsPart name → ∀ ident : String,
      parse? (schema ++ "..partitioned." ++ name ++ "." ++ ident) =
          some ⟨⟨schema, name⟩, ident⟩ ∧
        parse? (".partitioned." ++ name ++ "." ++ ident) = some ⟨⟨"doc", name⟩, ident⟩ ∧
        ∀ table, isTemplate ⟨table, ident⟩ = true ↔ ident = "") ∧
    (∀ indexName p, parse? indexName = some p →
      p.table.schema ≠ "" ∧ p.table.name ≠ "" ∧ '.' ∉ p.table.name.toList ∧
      indexName = p.written (.ofIndexName indexName) ∧
      (Form.ofIndexName indexName = .short → p.table.schema = "doc")) ∧
    (∀ indexName other p, parse? indexName = some p → parse? other = some p →
      Form.ofIndexName indexName = Form.ofIndexName other → indexName = other) ∧
    ∀ table : TableName, '.' ∉ table.schema.toList → parse? table.qualified = none →
      TableName.ofIndexName table.qualified = table := by
  refine ⟨fun schema name hschema hname ident => ⟨?_, ?_, fun table => ?_⟩, fun indexName p h => ?_,
    fun indexName other p h hother hform => ?_, fun table hschema h => ?_⟩
  · exact parse?_inSchema hschema hname ident
  · exact parse?_inDefaultSchema hname ident
  · exact String.isEmpty_iff
  · obtain ⟨hschema, hname, hwritten, hshort⟩ := eq_written_of_parse? h
    exact ⟨hschema, hname.1, hname.2, hwritten, hshort⟩
  · calc indexName = p.written (.ofIndexName indexName) := (eq_written_of_parse? h).2.2.1
      _ = p.written (.ofIndexName other) := by rw [hform]
      _ = other := (eq_written_of_parse? hother).2.2.1.symm
  · exact TableName.ofIndexName_qualified hschema h

/-- An ident that is made up of a marker and a template's name, a schema that ends in a dot where
the marker begins with two, and a table whose name begins like a marker. -/
theorem parse?_reads_exactly_among_dots :
    parse? "blob..partitioned.t..partitioned.x." =
        some ⟨⟨"blob", "t"⟩, ".partitioned.x."⟩ ∧
      parse? "a.b...partitioned.t.0400" = some ⟨⟨"a.b.", "t"⟩, "0400"⟩ ∧
      (∀ other, parse? other = some ⟨⟨"a.b.", "t"⟩, "0400"⟩ →
        Form.ofIndexName other = .long → other = "a.b...partitioned.t.0400") ∧
      TableName.ofIndexName "doc..partitioned" = ⟨"doc", ".partitioned"⟩ := by
  obtain ⟨hread, -, hsame, htable⟩ := parse?_reads_exactly
  have hdotted : parse? "a.b...partitioned.t.0400" = some ⟨⟨"a.b.", "t"⟩, "0400"⟩ := by
    decide +kernel
  have hlong : Form.ofIndexName "a.b...partitioned.t.0400" = .long := by decide +kernel
  exact ⟨(hread "blob" "t" (by decide) (by decide) ".partitioned.x.").1, hdotted,
    fun other h hform => hsame other _ _ h hdotted (hform.trans hlong.symm),
    htable ⟨"doc", ".partitioned"⟩ (by decide) (by decide +kernel)⟩

end PartitionIndex

end AccessControl
