import AccessControl.Config
import AccessControl.Proofs.Concealment

/-!
# However an object is named, the decision is the same

The schema of an object is found in several places: before the first dot of a written name, in the
first of several parts, in a field of its own. If it is in none of them, it is the schema of the
session. This file shows that errors about one schema are denied together or not at all, whichever
place the schema comes from. An error about what belongs to a table is decided like one about the
table itself, as long as nothing is recorded on the table.

## Main definitions

* `SqlError.DeniedTo` — a session gets a refusal in place of an error
* `SqlError.DeniedTogether` — a session is denied all of some errors, or none of them

## Main results

* `SqlError.deniedTo_iff` — an error is denied to whom its scope is out of sight
* `PrivilegeSet.sees_table` — a table on which nothing is recorded is seen like its schema
* `SqlError.deniedTogether_of_any_name` — all ways to name an object lead to one decision
-/

namespace AccessControl

/-! ### Tables without records -/

theorem Scope.chain_table {table : TableName} (h : '.' ∉ table.schema.toList) :
    (Scope.table table.qualified).chain =
      [.table table.qualified, .schema table.schema, .cluster] := by
  have hcut : Text.cut "." table.qualified = some (table.schema, table.name) :=
    Text.cut_dot_eq_some_iff.mpr ⟨rfl, h⟩
  simp only [chain, Scope.table, hcut]

namespace PrivilegeSet

variable {s : PrivilegeSet} {table : TableName}

/-- A scope is seen like another one that has the same closest records. -/
theorem sees_congr {t : PrivilegeSet} {scope other : Scope}
    (h : ∀ permission ∈ Permission.grantable,
      s.closest? permission scope = t.closest? permission other) :
    s.sees scope = t.sees other := by
  rw [Bool.eq_iff_iff, sees, sees, List.any_eq_true, List.any_eq_true]
  refine exists_congr fun permission => and_congr_right fun hmem => ?_
  rw [h permission hmem]

/-- A scope on which nothing is recorded is seen like the one around it. -/
theorem sees_of_none {scope outer : Scope} (hchain : scope.chain = scope :: outer.chain)
    (hnone : ∀ permission ∈ Permission.grantable, s.get? ⟨permission, scope⟩ = none) :
    s.sees scope = s.sees outer := by
  refine sees_congr fun permission hpermission => ?_
  rw [closest?, hchain, List.findSome?_cons, hnone permission hpermission]
  rfl

/-- Where nothing is recorded on the table, its schema and the cluster decide. -/
theorem sees_table (hschema : '.' ∉ table.schema.toList)
    (hnone : ∀ permission ∈ Permission.grantable,
      s.get? ⟨permission, .table table.qualified⟩ = none) :
    s.sees (.table table.qualified) = s.sees (.schema table.schema) :=
  sees_of_none (Scope.chain_table hschema) hnone

end PrivilegeSet

namespace SqlError

variable {e : SqlError} {scope : Scope} {session : Session}

/-! ### Denials -/

/-- A session gets a refusal in place of the error, which names the user and no more. -/
def DeniedTo (e : SqlError) (session : Session) : Prop :=
  ∃ user, session.user = some user ∧
    e.conceal session = .access (.permissionDenied user.name none)

/-- An error is denied to a user without a role who does not see its scope. -/
theorem deniedTo_iff (h : e.Reveals session.schema scope) :
    e.DeniedTo session ↔
      ∃ user, session.restricted? = some user ∧ user.privileges.sees scope = false := by
  constructor
  · rintro ⟨user, huser, hdenied⟩
    have hhidden : e.HiddenFrom session := by
      refine Classical.byContradiction fun hshown => ?_
      -- an error that is shown is itself, and no refusal
      rw [conceal_eq_self hshown] at hdenied
      subst hdenied
      cases h
    obtain ⟨user', scope', huser', hregular, hreveals, hsees⟩ := hhidden
    obtain rfl := hreveals.unique h
    exact ⟨user', Session.restricted?_eq_some_iff.mpr ⟨huser', hregular⟩, hsees⟩
  · rintro ⟨user, hrestricted, hsees⟩
    obtain ⟨huser, hregular⟩ := Session.restricted?_eq_some_iff.mp hrestricted
    have hhidden : e.HiddenFrom session := ⟨user, scope, huser, hregular, h, hsees⟩
    exact ⟨user, huser, hhidden.conceal_eq huser⟩

/-- A session is denied all of some errors, or none of them. -/
def DeniedTogether (session : Session) (es : List SqlError) : Prop :=
  (∀ e ∈ es, e.DeniedTo session) ∨ ∀ e ∈ es, ¬ e.DeniedTo session

/-- Errors about scopes that the user sees like one another are denied together. -/
theorem deniedTogether_of_sees_eq {es : List SqlError} (seen : Scope)
    (h : ∀ e ∈ es, ∃ scope, e.Reveals session.schema scope ∧
      ∀ user, session.user = some user →
        user.privileges.sees scope = user.privileges.sees seen) :
    DeniedTogether session es := by
  have hiff : ∀ e ∈ es, e.DeniedTo session ↔
      ∃ user, session.restricted? = some user ∧ user.privileges.sees seen = false := by
    intro e he
    obtain ⟨scope, hreveals, hsees⟩ := h e he
    rw [deniedTo_iff hreveals]
    refine exists_congr fun user => and_congr_right fun hrestricted => ?_
    rw [hsees user (Session.restricted?_eq_some_iff.mp hrestricted).1]
  by_cases hdenied : ∃ user, session.restricted? = some user ∧ user.privileges.sees seen = false
  · exact .inl fun e he => (hiff e he).mpr hdenied
  · exact .inr fun e he => mt (hiff e he).mp hdenied

theorem deniedTogether_of_reveals {es : List SqlError} (scope : Scope)
    (h : ∀ e ∈ es, e.Reveals session.schema scope) : DeniedTogether session es :=
  deniedTogether_of_sees_eq scope fun e he => ⟨scope, h e he, fun _ _ => rfl⟩

/-! ### Where the schema is found -/

/-- A name that is cut at its first dot has the same schema as one that is split at all dots. -/
theorem exists_reveals_name (schema name : String) :
    ∃ scope, (tableUnknown name).Reveals schema scope ∧
      (relationUnknown (.parse name)).Reveals schema scope := by
  cases hcut : Text.cut "." name with
  | none =>
    have hdot := Text.cut_dot_eq_none_iff.mp hcut
    rw [DottedName.parse, Text.splitDots_of_not_mem hdot]
    exact ⟨_, .table hdot, .relation (Nat.le_refl 1)⟩
  | some parts =>
    obtain ⟨first, rest⟩ := parts
    obtain ⟨rfl, hfirst⟩ := Text.cut_dot_eq_some_iff.mp hcut
    obtain ⟨second, others, hrest⟩ := List.exists_cons_of_ne_nil (Text.splitDots_ne_nil rest)
    rw [DottedName.parse, Text.splitDots_append hfirst, hrest]
    exact ⟨_, .tableInSchema hfirst, .relationInSchema⟩

/-- **However an object is named, the decision is the same.** For every user, with a default schema
as it is loaded: a table that is unknown by its written name is denied together with the relation of
the same name. So are all errors about a schema without a dot, whichever of its objects they are
about. A table that is named without a schema is denied together with the table of that name in
the default schema, written out. If a user has no record on a table, an error about a column or a
partition of the table is denied together with one about the table. -/
theorem deniedTogether_of_any_name {lookup : String → Option String} {config : Config}
    (hconfig : Config.load lookup = .ok config) (user : Option User) :
    let session : Session := ⟨user, config.schema⟩
    (∀ name, (tableUnknown name).DeniedTo session ↔
      (relationUnknown (.parse name)).DeniedTo session) ∧
    (∀ table : TableName, '.' ∉ table.schema.toList → ∀ function taken collided : String,
      DeniedTogether session
        [tableUnknown table.qualified, relationUnknown (.ofTable table),
          tableAlreadyExists (some table.schema) table.name, functionUnknown table.schema function,
          functionAlreadyExists table.schema taken, aliasCollision table.schema collided]) ∧
    (∀ name : String, '.' ∉ name.toList →
      DeniedTogether session
        [tableUnknown name, relationUnknown ⟨[name]⟩, tableAlreadyExists none name,
          tableUnknown (config.schema ++ "." ++ name),
          tableAlreadyExists (some config.schema) name]) ∧
    ∀ table : TableName, '.' ∉ table.schema.toList →
      (∀ u, user = some u → ∀ permission,
        u.privileges.get? ⟨permission, .table table.qualified⟩ = none) →
      ∀ column ident : String,
        DeniedTogether session
          [columnUnknown table column, partitionUnknown table ident,
            tableUnknown table.qualified] := by
  intro session
  refine ⟨?_, ?_, ?_, ?_⟩
  · intro name
    obtain ⟨scope, htable, hrelation⟩ := exists_reveals_name session.schema name
    rw [deniedTo_iff htable, deniedTo_iff hrelation]
  · intro table hschema function taken collided
    refine deniedTogether_of_reveals (.schema table.schema) ?_
    simp only [List.forall_mem_cons]
    exact ⟨.tableInSchema hschema, .relationInSchema, .takenTableInSchema, .function,
      .takenFunction, .takenAlias, nofun⟩
  · intro name hname
    have hdefault : '.' ∉ config.schema.toList := (Config.schema_of_load hconfig).2
    refine deniedTogether_of_reveals (.schema config.schema) ?_
    simp only [List.forall_mem_cons]
    exact ⟨.table hname, .relation (Nat.le_refl 1), .takenTable, .tableInSchema hdefault,
      .takenTableInSchema, nofun⟩
  · intro table hschema hnone column ident
    refine deniedTogether_of_sees_eq (.schema table.schema) ?_
    have hsees : ∀ u, session.user = some u →
        u.privileges.sees (.table table.qualified) = u.privileges.sees (.schema table.schema) :=
      fun u hu => PrivilegeSet.sees_table hschema fun permission _ => hnone u hu permission
    simp only [List.forall_mem_cons]
    exact ⟨⟨_, .column, hsees⟩, ⟨_, .partition, hsees⟩, ⟨_, .tableInSchema hschema, fun _ _ => rfl⟩,
      nofun⟩

/-- The default schema is configured, with blanks around it. Its tables are seen, but for one, and
those of another schema are not. -/
theorem deniedTogether_of_any_name_in_configured_schema :
    let lookup := fun name => if name = Config.schemaVariable then some " custom\t" else none
    let user := User.regular "ford" (.ofList [⟨.grant, ⟨.dql, .schema "custom"⟩, "crate"⟩,
      ⟨.deny, ⟨.dql, .table "custom.secret"⟩, "crate"⟩])
    let session : Session := ⟨some user, "custom"⟩
    Config.load lookup = .ok ⟨true, "custom", none⟩ ∧
      DeniedTogether session [tableUnknown "t", relationUnknown ⟨["t"]⟩,
        tableAlreadyExists none "t", tableUnknown "custom.t",
        tableAlreadyExists (some "custom") "t"] ∧
      (tableUnknown "t").conceal session = tableUnknown "t" ∧
      DeniedTogether session [columnUnknown ⟨"doc", "log"⟩ "c", partitionUnknown ⟨"doc", "log"⟩ "p",
        tableUnknown "doc.log"] ∧
      (tableUnknown "doc.log").conceal session = .access (.permissionDenied "ford" none) := by
  intro lookup user session
  have hload : Config.load lookup = .ok ⟨true, "custom", none⟩ := by rfl
  have hnone : ∀ u, some user = some u → ∀ permission,
      u.privileges.get? ⟨permission, .table "doc.log"⟩ = none := by
    rintro _ ⟨⟩ permission
    cases permission <;> decide +kernel
  obtain ⟨-, -, hunqualified, htable⟩ := deniedTogether_of_any_name hload (some user)
  exact ⟨hload, hunqualified "t" (by decide), by decide +kernel,
    htable ⟨"doc", "log"⟩ (by decide) hnone "c" "p", by decide +kernel⟩

-- a record on the table is for its columns alone: nothing is told of them, but of the table it is
example :
    let user := User.regular "ford" (.ofList [⟨.grant, ⟨.dql, .schema "custom"⟩, "crate"⟩,
      ⟨.deny, ⟨.dql, .table "custom.secret"⟩, "crate"⟩])
    let session : Session := ⟨some user, "custom"⟩
    (columnUnknown ⟨"custom", "secret"⟩ "c").conceal session =
        .access (.permissionDenied "ford" none) ∧
      (tableUnknown "custom.secret").conceal session = tableUnknown "custom.secret" := by
  decide +kernel

end SqlError

end AccessControl
