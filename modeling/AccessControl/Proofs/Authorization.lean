import AccessControl.Authorization

/-!
# Authorization as a search for the first unmet demand

The checks of a statement stop at the first refusal, along two nested recursions: through EXPLAIN
down to the statement that is explained, and through relations down to the tables that are read.
This file shows that nothing but the flat list of demands matters. A statement is authorized
exactly if every demand is met, and is refused on account of the first one that is not.

## Main definitions

* `Demand.MetBy` — a user's privileges meet a demand
* `Demand.refusal` — why a user is refused who does not meet a demand
* `Demand.judge` — the outcome of demands that are checked one after the other

## Main results

* `Relation.authorize_eq_judge`, `Statement.authorizeFor_eq_judge` — the checks of a user without a
  role are the judgement of the flat list
* `Statement.authorize_decided_by_first_unmet` — what a session may run, and what it is told
-/

namespace AccessControl

namespace Demand

variable {user : User}

/-- Whether the privileges of a user meet a demand. A GRANT kept at exactly the key that is asked
for does; no record makes a superuser, and none stands in for a policy. -/
def MetBy (user : User) : Demand → Prop
  | .requirement (.grant key) =>
    ∃ record, user.privileges.get? key = some record ∧ record.effect = .grant
  | .requirement .superuser | .policy _ => False

instance : DecidablePred (MetBy user)
  | .requirement (.grant _) => decidable_of_iff _ PrivilegeSet.hasEffect_iff
  | .requirement .superuser | .policy _ => .isFalse id

/-- A demand for a grantable permission is met exactly if the permission is held. -/
theorem metBy_grant_iff_holds {key : Privilege.Key} (h : key.permission ≠ .dcl) :
    MetBy user (.requirement (.grant key)) ↔ user.privileges.holds key = true := by
  simp [MetBy, PrivilegeSet.holds, h, PrivilegeSet.hasEffect_iff]

/-- Why a user is refused who does not meet a demand. The refusal names the permission, never the
object. -/
def refusal (user : User) : Demand → AccessError
  | .requirement .superuser => .unauthorized user.name
  | .requirement (.grant key) => .permissionDenied user.name (some key.permission)
  | .policy kind => .unsupportedStatement kind

/-- The outcome of demands that are checked one after the other: the first one that is not met
decides. -/
def judge (user : User) (ds : List Demand) : Except AccessError Unit :=
  match ds.find? fun d => ¬ d.MetBy user with
  | none => .ok ()
  | some d => .error (d.refusal user)

@[simp] theorem judge_nil : judge user [] = .ok () := rfl

theorem judge_singleton (d : Demand) :
    judge user [d] = if d.MetBy user then .ok () else .error (d.refusal user) := by
  by_cases h : d.MetBy user <;> simp [judge, h]

/-- Demands come one part after the other, the second only if the first is met. -/
theorem judge_append (ds es : List Demand) :
    judge user (ds ++ es) = (do judge user ds; judge user es) := by
  unfold judge
  rw [List.find?_append]
  cases ds.find? fun d => ¬ d.MetBy user <;> rfl

theorem judge_cons (d : Demand) (ds : List Demand) :
    judge user (d :: ds) = (do judge user [d]; judge user ds) :=
  judge_append [d] ds

theorem judge_eq_ok_iff {ds : List Demand} :
    judge user ds = .ok () ↔ ∀ d ∈ ds, d.MetBy user := by
  unfold judge
  cases h : ds.find? fun d => ¬ d.MetBy user with
  | none => simpa using h
  | some d =>
    have hmem : d ∈ ds := List.mem_of_find?_eq_some h
    have hunmet : ¬ d.MetBy user := by simpa using List.find?_some h
    simp only [reduceCtorEq, false_iff]
    exact fun hall => hunmet (hall d hmem)

/-- After demands that are met, one that is not is what the user is told. -/
theorem judge_of_first_unmet {met rest : List Demand} {d : Demand}
    (hmet : ∀ e ∈ met, e.MetBy user) (hd : ¬ d.MetBy user) :
    judge user (met ++ d :: rest) = .error (d.refusal user) := by
  rw [judge_append, judge_eq_ok_iff.mpr hmet, judge_cons, judge_singleton, if_neg hd]
  rfl

end Demand

section Checks

variable {user : User} {permission : Permission}

theorem Requirement.check_superuser (hregular : user.superuser = false) :
    Requirement.superuser.check user = Demand.judge user [.requirement .superuser] := by
  simp [Requirement.check, User.requireSuperuser, hregular, Demand.judge_singleton, Demand.MetBy,
    Demand.refusal]

/-- For a user without a role, a requirement is judged like the demand for the same key. -/
theorem Requirement.check_ofPermission (hregular : user.superuser = false)
    (hgrantable : permission ≠ .dcl) (scope : Scope) :
    (Requirement.ofPermission permission scope).check user =
      Demand.judge user [.requirement (.grant ⟨permission, scope⟩)] := by
  have hmet : Demand.MetBy user (.requirement (.grant ⟨permission, scope⟩)) ↔
      user.privileges.holds ⟨permission, scope⟩ = true :=
    Demand.metBy_grant_iff_holds hgrantable
  rw [Requirement.ofPermission, if_neg hgrantable, Demand.judge_singleton]
  simp only [Requirement.check, User.requireGrant, hregular, Bool.false_or, hmet]
  rfl

theorem TableName.check_requirement (hregular : user.superuser = false)
    (hgrantable : permission ≠ .dcl) (table : TableName) :
    (table.requirement permission).check user = Demand.judge user [table.demand permission] :=
  Requirement.check_ofPermission hregular hgrantable _

namespace Relation

mutual

theorem authorize_eq_judge (hregular : user.superuser = false) (hgrantable : permission ≠ .dcl) :
    ∀ r : Relation,
      r.authorize permission user = Demand.judge user (r.leaves.map (TableName.demand permission))
  | .systemTable table => by
    simpa [authorize, leaves] using table.check_requirement hregular hgrantable
  | .documentTable table => by
    simpa [authorize, leaves] using table.check_requirement hregular hgrantable
  | .tableFunction _ backing => by
    simpa [authorize, leaves] using backing.check_requirement hregular hgrantable
  | .join sources => by
    simpa [authorize, leaves] using authorizeSources_eq_judge hregular hgrantable sources
  | .subquery _ body => by
    simpa [authorize, leaves] using authorize_eq_judge hregular hgrantable body

theorem authorizeSources_eq_judge (hregular : user.superuser = false)
    (hgrantable : permission ≠ .dcl) :
    ∀ sources : List (DottedName × Relation),
      authorizeSources permission user sources =
        Demand.judge user ((leavesOfSources sources).map (TableName.demand permission))
  | [] => by simp [authorizeSources, leavesOfSources]
  | (_, source) :: sources => by
    rw [authorizeSources, leavesOfSources, List.map_append, Demand.judge_append,
      authorize_eq_judge hregular hgrantable source,
      authorizeSources_eq_judge hregular hgrantable sources]

end

end Relation

theorem authorizeRefresh_eq_judge (hregular : user.superuser = false) (indexNames : List String) :
    authorizeRefresh user indexNames =
      Demand.judge user (indexNames.map fun name => (TableName.ofIndexName name).demand .dql) := by
  induction indexNames with
  | nil => rfl
  | cons indexName indexNames ih =>
    rw [authorizeRefresh, List.map_cons, Demand.judge_cons, ih,
      TableName.check_requirement hregular (by decide)]

end Checks

namespace Statement

/-- For a user without a role, the checks of a statement are the judgement of its demands. -/
theorem authorizeFor_eq_judge {user : User} (hregular : user.superuser = false) (s : Statement) :
    s.authorizeFor user = Demand.judge user s.demands := by
  induction s with
  | explain inner ih => simpa only [authorizeFor, demands] using ih
  -- relations and lists of indices, by the flattening of each
  | select relation | copyTo relation | update relation | delete relation =>
    exact relation.authorize_eq_judge hregular (by decide)
  | insertQuery table query =>
    rw [authorizeFor, demands, Demand.judge_cons, table.check_requirement hregular (by decide),
      query.authorize_eq_judge hregular (by decide)]
  | refreshTable indexNames => exact authorizeRefresh_eq_judge hregular indexNames
  -- a single requirement: on the user, on a table, on a schema, on the cluster
  | createUser | dropUser | changePrivileges | optimizeTable | reset | kill =>
    exact Requirement.check_superuser hregular
  | alterTable table | addColumn table | openCloseTable table | alterBlobTable table
  | dropTable table | dropBlobTable table | renameTable table | copyFrom table | insertValues table
  | showCreateTable table =>
    exact table.check_requirement hregular (by decide)
  | createTable | createBlobTable | createFunction | dropFunction =>
    exact Requirement.check_ofPermission hregular (by decide) _
  | createAnalyzer | createRepository | dropRepository | createSnapshot | dropSnapshot
  | restoreSnapshot | begin =>
    exact Requirement.check_ofPermission hregular (by decide) _
  | set scope =>
    cases scope with
    | global => exact Requirement.check_superuser hregular
    | session | «local» | unspecified =>
      exact Requirement.check_ofPermission hregular (by decide) _
  | unsupported kind => rfl

theorem authorize_eq_judge {session : Session} {user : User} (s : Statement)
    (h : session.restricted? = some user) :
    s.authorize session = Demand.judge user s.demands := by
  rw [authorize, h]
  exact s.authorizeFor_eq_judge (Session.restricted?_eq_some_iff.mp h).2

theorem authorize_eq_ok_iff {session : Session} {user : User} {s : Statement}
    (h : session.restricted? = some user) :
    s.authorize session = .ok () ↔ ∀ d ∈ s.demands, d.MetBy user := by
  rw [s.authorize_eq_judge h, Demand.judge_eq_ok_iff]

/-- **Authorization is decided by the first unmet demand.** A session without a user and a
superuser's may run every statement. Any other session may run exactly the statements whose every
demand is met by a GRANT of its user, and is refused on account of the first demand that is not. -/
theorem authorize_decided_by_first_unmet (s : Statement) (session : Session) :
    ((session.user = none ∨ ∃ user, session.user = some user ∧ user.superuser = true) →
      s.authorize session = .ok ()) ∧
    ∀ user, session.user = some user → user.superuser = false →
      (s.authorize session = .ok () ↔ ∀ d ∈ s.demands, d.MetBy user) ∧
      ∀ met d rest, s.demands = met ++ d :: rest → (∀ e ∈ met, e.MetBy user) → ¬ d.MetBy user →
        s.authorize session = .error (d.refusal user) := by
  refine ⟨fun h => ?_, fun user huser hregular => ?_⟩
  · rw [authorize, Session.restricted?_eq_none_iff.mpr h]
  · have hjudge := s.authorize_eq_judge (Session.restricted?_eq_some_iff.mpr ⟨huser, hregular⟩)
    refine ⟨by rw [hjudge, Demand.judge_eq_ok_iff], fun met d rest hdemands hmet hd => ?_⟩
    rw [hjudge, hdemands, Demand.judge_of_first_unmet hmet hd]

/-- An explained insertion whose user may write the target and read the first source, but not the
table behind the table function in the second one. -/
theorem authorize_explained_insertion_refused :
    let user := User.regular "ford" (.ofList
      [⟨.grant, ⟨.dml, .table "doc.log"⟩, "crate"⟩, ⟨.grant, ⟨.dql, .table "doc.a"⟩, "crate"⟩])
    let source := Relation.join [(.parse "a", .documentTable ⟨"doc", "a"⟩),
      (.parse "b", .subquery none (.join [(.parse "f", .tableFunction "f" ⟨"sys", "b"⟩)]))]
    let statement := Statement.explain (.explain (.insertQuery ⟨"doc", "log"⟩ source))
    statement.demands =
        [TableName.demand .dml ⟨"doc", "log"⟩, TableName.demand .dql ⟨"doc", "a"⟩] ++
          TableName.demand .dql ⟨"sys", "b"⟩ :: [] ∧
      statement.authorize ⟨some user, "doc"⟩ = .error (.permissionDenied "ford" (some .dql)) ∧
      statement.authorize .anonymous = .ok () := by
  intro user source statement
  have hdemands : statement.demands =
      [TableName.demand .dml ⟨"doc", "log"⟩, TableName.demand .dql ⟨"doc", "a"⟩] ++
        TableName.demand .dql ⟨"sys", "b"⟩ :: [] := rfl
  refine ⟨hdemands, ?_, ?_⟩
  · exact ((authorize_decided_by_first_unmet statement ⟨some user, "doc"⟩).2 user rfl rfl).2
      _ _ _ hdemands (by decide +zetaReduce) (by decide +zetaReduce)
  · exact (authorize_decided_by_first_unmet statement .anonymous).1 (.inl rfl)

end Statement

end AccessControl
