import AccessControl.Concealment
import AccessControl.Proofs.Text
import Mathlib.Logic.ExistsUnique

/-!
# What a concealed error tells

A user who does not see the scope of an error is told nothing but that some privilege is missing.
This file says first, apart from the function that finds it, which scope each kind of error is
about, and then that concealment hangs on that scope alone.

## Main definitions

* `SqlError.Reveals` — an error tells whether an object of a scope exists
* `SqlError.HiddenFrom` — a session's user must not learn of an error

## Main results

* `SqlError.scope?_eq_some_iff` — the scope that is found is the scope the error is about
* `SqlError.conceal_hides` — a hidden error is answered by a refusal that depends on the user alone,
  any other error by itself
-/

namespace AccessControl.SqlError

variable {e : SqlError} {schema : String} {scope : Scope} {session : Session} {user : User}

/-- An error tells whether an object of a scope exists. Tables, functions and aliases are looked
for in the schema that is written before them, and in `schema` if none is. -/
inductive Reveals (schema : String) : SqlError → Scope → Prop where
  -- a table name is cut at its first dot, if it has one
  | tableInSchema {first rest : String} (h : '.' ∉ first.toList) :
      Reveals schema (.tableUnknown (first ++ "." ++ rest)) (.schema first)
  | table {name : String} (h : '.' ∉ name.toList) :
      Reveals schema (.tableUnknown name) (.schema schema)
  -- a relation name comes in parts, of which the first of several is the schema
  | relationInSchema {first second : String} {rest : List String} :
      Reveals schema (.relationUnknown ⟨first :: second :: rest⟩) (.schema first)
  | relation {parts : List String} (h : parts.length ≤ 1) :
      Reveals schema (.relationUnknown ⟨parts⟩) (.schema schema)
  | takenTableInSchema {explicit name : String} :
      Reveals schema (.tableAlreadyExists (some explicit) name) (.schema explicit)
  | takenTable {name : String} :
      Reveals schema (.tableAlreadyExists none name) (.schema schema)
  | function {explicit name : String} :
      Reveals schema (.functionUnknown explicit name) (.schema explicit)
  | takenFunction {explicit name : String} :
      Reveals schema (.functionAlreadyExists explicit name) (.schema explicit)
  | takenAlias {explicit name : String} :
      Reveals schema (.aliasCollision explicit name) (.schema explicit)
  -- what belongs to a table
  | column {table : TableName} {column : String} :
      Reveals schema (.columnUnknown table column) (.table table.qualified)
  | partition {table : TableName} {ident : String} :
      Reveals schema (.partitionUnknown table ident) (.table table.qualified)
  -- what belongs to the cluster
  | schemaUnknown {name : String} : Reveals schema (.schemaUnknown name) .cluster
  | analyzer {name : String} : Reveals schema (.analyzerUnknown name) .cluster
  | repository {name : String} : Reveals schema (.repositoryUnknown name) .cluster
  | takenRepository {name : String} : Reveals schema (.repositoryAlreadyExists name) .cluster
  | snapshot {repository name : String} :
      Reveals schema (.snapshotUnknown repository name) .cluster
  | takenSnapshot {repository name : String} :
      Reveals schema (.snapshotAlreadyExists repository name) .cluster

theorem Reveals.scope?_eq (h : e.Reveals schema scope) : e.scope? schema = some scope := by
  cases h with
  | @tableInSchema first rest h =>
    have hcut : Text.cut "." (first ++ "." ++ rest) = some (first, rest) :=
      Text.cut_dot_eq_some_iff.mpr ⟨rfl, h⟩
    simp only [scope?, hcut]
  | table h =>
    have hcut := Text.cut_dot_eq_none_iff.mpr h
    simp only [scope?, hcut]
  | @relation parts h =>
    match parts, h with
    | [], _ | [_], _ => rfl
  | _ => rfl

theorem reveals_tableUnknown (name : String) :
    ∃ scope, (tableUnknown name).Reveals schema scope := by
  cases h : Text.cut "." name with
  | none => exact ⟨_, .table (Text.cut_dot_eq_none_iff.mp h)⟩
  | some parts =>
    obtain ⟨rfl, hfirst⟩ := Text.cut_dot_eq_some_iff.mp h
    exact ⟨_, .tableInSchema hfirst⟩

theorem reveals_relationUnknown (name : DottedName) :
    ∃ scope, (relationUnknown name).Reveals schema scope := by
  obtain ⟨parts⟩ := name
  match parts with
  | [] | [_] => exact ⟨_, .relation (by simp)⟩
  | _ :: _ :: _ => exact ⟨_, .relationInSchema⟩

/-- Every kind of error reveals something, refusals and other errors apart. -/
theorem exists_reveals_iff :
    (∃ scope, e.Reveals schema scope) ↔
      (∀ cause, e ≠ .access cause) ∧ ∀ detail, e ≠ .other detail := by
  constructor
  · rintro ⟨scope, h⟩
    cases h <;> exact ⟨nofun, nofun⟩
  · rintro ⟨haccess, hother⟩
    cases e with
    | tableUnknown name => exact reveals_tableUnknown name
    | relationUnknown name => exact reveals_relationUnknown name
    | tableAlreadyExists explicit name =>
      cases explicit with
      | none => exact ⟨_, .takenTable⟩
      | some explicit => exact ⟨_, .takenTableInSchema⟩
    | access cause => exact absurd rfl (haccess cause)
    | other detail => exact absurd rfl (hother detail)
    | _ => exact ⟨_, by constructor⟩

theorem scope?_eq_some_iff : e.scope? schema = some scope ↔ e.Reveals schema scope := by
  refine ⟨fun h => ?_, Reveals.scope?_eq⟩
  have hreveals : ∃ scope, e.Reveals schema scope := by
    rw [exists_reveals_iff]
    constructor <;> rintro _ rfl <;> cases h
  obtain ⟨found, hfound⟩ := hreveals
  obtain rfl : found = scope := Option.some.inj (hfound.scope?_eq.symm.trans h)
  exact hfound

theorem Reveals.unique {other : Scope} (h : e.Reveals schema scope)
    (h' : e.Reveals schema other) : scope = other :=
  Option.some.inj (h.scope?_eq.symm.trans h'.scope?_eq)

/-- A session's user has no role, and does not see the scope that an error is about. -/
def HiddenFrom (e : SqlError) (session : Session) : Prop :=
  ∃ user scope, session.user = some user ∧ user.superuser = false ∧
    e.Reveals session.schema scope ∧ user.privileges.sees scope = false

/-- A refusal is not hidden: there is nothing left to hide. -/
theorem not_hiddenFrom_access (cause : AccessError) : ¬ (access cause).HiddenFrom session := by
  rintro ⟨_, scope, -, -, h, -⟩
  cases h

theorem Reveals.not_hiddenFrom (h : e.Reveals session.schema scope)
    (huser : session.user = some user) (hsees : user.privileges.sees scope = true) :
    ¬ e.HiddenFrom session := by
  rintro ⟨user', scope', huser', -, h', hhidden⟩
  obtain rfl := h.unique h'
  obtain rfl : user = user' := Option.some.inj (huser.symm.trans huser')
  simp [hsees] at hhidden

/-- All that is told of a hidden error is who must not know it. -/
theorem HiddenFrom.conceal_eq (h : e.HiddenFrom session) (huser : session.user = some user) :
    e.conceal session = .access (.permissionDenied user.name none) := by
  obtain ⟨user', scope, huser', hregular, hreveals, hsees⟩ := h
  obtain rfl : user' = user := Option.some.inj (huser'.symm.trans huser)
  have hrestricted := Session.restricted?_eq_some_iff.mpr ⟨huser, hregular⟩
  simp [conceal, hrestricted, hreveals.scope?_eq, hsees]

theorem conceal_eq_self (h : ¬ e.HiddenFrom session) : e.conceal session = e := by
  unfold conceal
  split
  · next user scope hrestricted hscope =>
    obtain ⟨huser, hregular⟩ := Session.restricted?_eq_some_iff.mp hrestricted
    split
    · rfl
    · next hsees =>
      have hhidden : e.HiddenFrom session :=
        ⟨user, scope, huser, hregular, scope?_eq_some_iff.mp hscope, by simpa using hsees⟩
      exact absurd hhidden h
  · rfl

theorem HiddenFrom.conceal_eq_conceal {other : SqlError} (h : e.HiddenFrom session)
    (h' : other.HiddenFrom session) : e.conceal session = other.conceal session := by
  obtain ⟨user, -, huser, -⟩ := id h
  rw [h.conceal_eq huser, h'.conceal_eq huser]

/-- What has been concealed stays as it is. -/
theorem conceal_conceal (e : SqlError) (session : Session) :
    (e.conceal session).conceal session = e.conceal session := by
  by_cases h : e.HiddenFrom session
  · obtain ⟨user, -, huser, -⟩ := id h
    rw [h.conceal_eq huser]
    exact conceal_eq_self (not_hiddenFrom_access _)
  · rw [conceal_eq_self h, conceal_eq_self h]

/-- **Concealment.** All errors but refusals and other errors are about one scope. If the session's
user has no role and does not see that scope, the answer is a refusal that names the user and
nothing else; in every other case it is the error itself. So any two hidden errors get the same
answer, and an answer is not changed by concealing it once more. -/
theorem conceal_hides (session : Session) :
    (∀ e : SqlError, (∃! scope, e.Reveals session.schema scope) ↔
      (∀ cause, e ≠ .access cause) ∧ ∀ detail, e ≠ .other detail) ∧
    (∀ (e : SqlError) user, session.user = some user → e.HiddenFrom session →
      e.conceal session = .access (.permissionDenied user.name none)) ∧
    (∀ e : SqlError, ¬ e.HiddenFrom session → e.conceal session = e) ∧
    (∀ e₁ e₂ : SqlError, e₁.HiddenFrom session → e₂.HiddenFrom session →
      e₁.conceal session = e₂.conceal session) ∧
    ∀ e : SqlError, (e.conceal session).conceal session = e.conceal session := by
  refine ⟨fun e => ?_, fun e user huser h => h.conceal_eq huser, fun e h => conceal_eq_self h,
    fun e₁ e₂ h₁ h₂ => h₁.conceal_eq_conceal h₂, fun e => conceal_conceal e session⟩
  have hunique : (∃! scope, e.Reveals session.schema scope) ↔
      ∃ scope, e.Reveals session.schema scope :=
    ⟨fun h => h.exists, fun ⟨scope, h⟩ => ⟨scope, h, fun _ h' => h'.unique h⟩⟩
  exact hunique.trans exists_reveals_iff

/-- A user who sees one schema is told of its tables, and cannot tell a table of the default schema
from a repository. -/
theorem conceal_hides_table_and_repository_alike :
    let user := User.regular "ford" (.ofList [⟨.grant, ⟨.dql, .schema "custom"⟩, "crate"⟩])
    let session : Session := ⟨some user, "doc"⟩
    (tableUnknown "t").HiddenFrom session ∧ (repositoryUnknown "r").HiddenFrom session ∧
      ¬ (functionUnknown "custom" "f").HiddenFrom session ∧
      (∃! scope, (tableUnknown "t").Reveals session.schema scope) ∧
      (tableUnknown "t").conceal session = .access (.permissionDenied "ford" none) ∧
      (tableUnknown "t").conceal session = (repositoryUnknown "r").conceal session ∧
      (functionUnknown "custom" "f").conceal session = functionUnknown "custom" "f" := by
  intro user session
  have htable : (tableUnknown "t").HiddenFrom session :=
    ⟨user, .schema "doc", rfl, rfl, .table (by decide), by decide +zetaReduce⟩
  have hrepository : (repositoryUnknown "r").HiddenFrom session :=
    ⟨user, .cluster, rfl, rfl, .repository, by decide +zetaReduce⟩
  have hfunction : ¬ (functionUnknown "custom" "f").HiddenFrom session :=
    Reveals.function.not_hiddenFrom rfl
      (show user.privileges.sees (.schema "custom") = true by decide +zetaReduce)
  obtain ⟨hscope, htold, hself, halike, -⟩ := conceal_hides session
  exact ⟨htable, hrepository, hfunction, (hscope _).mpr ⟨nofun, nofun⟩, htold _ user rfl htable,
    halike _ _ htable hrepository, hself _ hfunction⟩

end AccessControl.SqlError
