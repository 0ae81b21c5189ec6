import AccessControl.Proofs.Agreement

/-!
# Records on a table stay on that table

Records on a table are kept under its written name: the schema and the name with a dot between them.
The schema and the name may have dots of their own, so two tables may be written alike. Two
different ones are exactly if the schema of one is that of the other with a dot and a further part,
and the name of the other is this part, a dot and the name of the one. A user with records on one
table may run no statement that needs another table, unless the two are such a pair.

## Main definitions

* `TableName.CutsBefore` — a table is written like another one, and its schema ends earlier
* `PrivilegeSet.OnlyOn` — all records are kept at one scope

## Main results

* `TableName.qualified_eq_iff` — which tables are written alike
* `Statement.authorize_refuses_other_table` — records on a table let no statement pass that needs
  another one
-/

namespace AccessControl

/-! ### Tables that are written alike -/

namespace TableName

variable {a b : TableName}

/-- The schema of `b` is that of `a` with a dot and a further part, and the name of `a` is this
part, a dot and the name of `b`. So both are written alike, and the written name is cut earlier for
`a`. -/
def CutsBefore (a b : TableName) : Prop :=
  ∃ part, b.schema = a.schema ++ "." ++ part ∧ a.name = part ++ "." ++ b.name

theorem toList_qualified (t : TableName) :
    t.qualified.toList = t.schema.toList ++ '.' :: t.name.toList := by
  simp [qualified]

theorem CutsBefore.qualified_eq (h : a.CutsBefore b) : a.qualified = b.qualified := by
  obtain ⟨part, hschema, hname⟩ := h
  rw [qualified, qualified, hschema, hname]
  simp only [String.append_assoc]

/-- Where the schema of `b` goes on behind that of `a`, and the written names are alike from there
on, the tables are the same or the written name is cut earlier for `a`. -/
theorem eq_or_cutsBefore {rest : List Char} (hschema : b.schema.toList = a.schema.toList ++ rest)
    (hname : '.' :: a.name.toList = rest ++ '.' :: b.name.toList) : a = b ∨ a.CutsBefore b := by
  rcases List.cons_eq_append_iff.mp hname with ⟨rfl, hsame⟩ | ⟨part, rfl, hlonger⟩
  · -- both schemas end at the same dot
    have hschemas : a.schema = b.schema := by
      rw [← String.toList_inj, hschema, List.append_nil]
    have hnames : a.name = b.name := by
      rw [← String.toList_inj]
      exact (List.cons.inj hsame).2.symm
    exact .inl (congrArg₂ TableName.mk hschemas hnames)
  · refine .inr ⟨.ofList part, ?_, ?_⟩
    · rw [← String.toList_inj, hschema]
      simp
    · rw [← String.toList_inj, hlonger]
      simp

/-- Two tables are written alike exactly if they are the same, or if the schema of one is that of
the other with a dot and a further part, and the name of the other is this part, a dot and the name
of the one. -/
theorem qualified_eq_iff :
    a.qualified = b.qualified ↔ a = b ∨ a.CutsBefore b ∨ b.CutsBefore a := by
  constructor
  · intro h
    rw [← String.toList_inj, toList_qualified, toList_qualified] at h
    rcases List.append_eq_append_iff.mp h with ⟨rest, hschema, hname⟩ | ⟨rest, hschema, hname⟩
    · rcases eq_or_cutsBefore hschema hname with rfl | hcuts
      · exact .inl rfl
      · exact .inr (.inl hcuts)
    · rcases eq_or_cutsBefore hschema hname with rfl | hcuts
      · exact .inl rfl
      · exact .inr (.inr hcuts)
  · rintro (rfl | h | h)
    · rfl
    · exact h.qualified_eq
    · exact h.qualified_eq.symm

theorem CutsBefore.dot_mem_schema (h : a.CutsBefore b) : '.' ∈ b.schema.toList := by
  obtain ⟨part, hschema, -⟩ := h
  simp [hschema]

/-- Among schemas without a dot, the written name tells the table. -/
theorem eq_of_qualified_eq (ha : '.' ∉ a.schema.toList) (hb : '.' ∉ b.schema.toList)
    (h : a.qualified = b.qualified) : a = b := by
  rcases qualified_eq_iff.mp h with hsame | hcuts | hcuts
  · exact hsame
  · exact absurd hcuts.dot_mem_schema hb
  · exact absurd hcuts.dot_mem_schema ha

end TableName

/-! ### Records at one scope -/

namespace PrivilegeSet

/-- All records are kept at one scope, whatever they do there and for which permission. -/
def OnlyOn (s : PrivilegeSet) (scope : Scope) : Prop :=
  ∀ k record, s.get? k = some record → k.scope = scope

theorem OnlyOn.apply {s : PrivilegeSet} {scope : Scope} (h : s.OnlyOn scope) {p : Privilege}
    (hp : p.key.scope = scope) : (s.apply p).1.OnlyOn scope := by
  intro k record hrecord
  rw [get?_apply] at hrecord
  split at hrecord
  · next hk => rwa [hk]
  · exact h k record hrecord

/-- Records that were written at one scope are kept there. -/
theorem onlyOn_ofList {ps : List Privilege} {scope : Scope} (h : ∀ p ∈ ps, p.key.scope = scope) :
    (ofList ps).OnlyOn scope := by
  unfold ofList
  have hempty : OnlyOn .empty scope := fun _ _ hrecord => by cases hrecord
  exact List.foldlRecOn (motive := (OnlyOn · scope)) ps _ hempty fun s hs p hp => hs.apply (h p hp)

end PrivilegeSet

namespace Statement

variable {s : Statement} {session : Session} {user : User}

theorem authorize_ne_ok_of_needs {scope needed : Scope} (huser : session.restricted? = some user)
    (honly : user.privileges.OnlyOn scope) (hneeds : s.Needs needed) (hother : needed ≠ scope) :
    s.authorize session ≠ .ok () := by
  intro hok
  obtain ⟨d, hdemand, hscope⟩ := hneeds
  obtain ⟨permission, rfl⟩ := Demand.scope?_eq_some_iff.mp hscope
  obtain ⟨record, hrecord, -⟩ := (authorize_eq_ok_iff huser).mp hok _ hdemand
  exact hother (honly _ _ hrecord)

/-- **Records on a table stay on that table.** A user without a role whose records are all on one
table may run no statement that needs a permission on another table, unless the two are written
alike: the schema of one is that of the other with a dot and a further part, and the name of the
other is this part, a dot and the name of the one. -/
theorem authorize_refuses_other_table {a b : TableName} (hne : a ≠ b) (hab : ¬ a.CutsBefore b)
    (hba : ¬ b.CutsBefore a) (huser : session.user = some user) (hregular : user.superuser = false)
    (honly : user.privileges.OnlyOn (.table a.qualified)) (hneeds : b ∈ s.tables) :
    ∃ e, s.authorize session = .error e := by
  have hrestricted := Session.restricted?_eq_some_iff.mpr ⟨huser, hregular⟩
  have hwritten : b.qualified ≠ a.qualified := by
    intro h
    rcases TableName.qualified_eq_iff.mp h with hsame | hcuts | hcuts
    · exact hne hsame.symm
    · exact hba hcuts
    · exact hab hcuts
  have hscope : Scope.table b.qualified ≠ .table a.qualified := by
    simpa [Scope.table] using hwritten
  have hrefused := authorize_ne_ok_of_needs hrestricted honly
    (needs_table_iff.mpr ⟨b, hneeds, rfl⟩) hscope
  cases hanswer : s.authorize session with
  | error e => exact ⟨e, rfl⟩
  | ok => exact absurd hanswer hrefused

/-- Everything is granted on a table, which is read beside another one, whose schema looks like the
written name of the first. -/
theorem authorize_refuses_join_with_other_table :
    let granted : TableName := .ofIndexName "doc.log"
    let other : TableName := .ofIndexName "doc.log..partitioned.new.0400"
    let user := User.regular "ford" (.ofList (Permission.grantable.map fun permission =>
      ⟨.grant, ⟨permission, .table granted.qualified⟩, "crate"⟩))
    let source := Relation.join
      [(.parse "a", .documentTable granted), (.parse "b", .subquery none (.documentTable other))]
    other.schema = granted.qualified ∧
      ∃ e, (Statement.explain (.select source)).authorize ⟨some user, "doc"⟩ = .error e := by
  intro granted other user source
  have honly : user.privileges.OnlyOn (.table granted.qualified) := by
    refine PrivilegeSet.onlyOn_ofList fun p hp => ?_
    obtain ⟨permission, -, rfl⟩ := List.mem_map.mp hp
    rfl
  have hwritten : granted.qualified ≠ other.qualified := by decide +kernel
  refine ⟨by decide +kernel, ?_⟩
  refine authorize_refuses_other_table (b := other) ?_ ?_ ?_ rfl rfl honly ?_
  · exact fun h => hwritten (congrArg TableName.qualified h)
  · exact fun h => hwritten h.qualified_eq
  · exact fun h => hwritten h.qualified_eq.symm
  · exact .tail _ (.head _)

/-- A partition of table `c` in schema `a.b` is refreshed on account of a record on table `b.c` in
schema `a`: both tables are written `a.b.c`. -/
theorem authorize_refresh_of_table_written_alike :
    let granted : TableName := .ofIndexName "a.b.c"
    let refreshed : TableName := .ofIndexName "a.b..partitioned.c.0400"
    let user := User.regular "ford"
      (.ofList [⟨.grant, ⟨.dql, .table granted.qualified⟩, "crate"⟩])
    let statement := Statement.refreshTable ["a.b..partitioned.c.0400"]
    granted ≠ refreshed ∧ user.privileges.OnlyOn (.table granted.qualified) ∧
      refreshed ∈ statement.tables ∧ statement.authorize ⟨some user, "doc"⟩ = .ok () := by
  intro granted refreshed user statement
  refine ⟨by decide +kernel, ?_, .head _, (authorize_eq_ok_iff rfl).mpr (by decide +kernel)⟩
  exact PrivilegeSet.onlyOn_ofList (by simp)

end Statement

end AccessControl
