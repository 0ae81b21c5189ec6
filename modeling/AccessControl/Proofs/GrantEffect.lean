import AccessControl.Manager.Node
import AccessControl.Proofs.Authorization
import AccessControl.Proofs.Records
import AccessControl.Proofs.Vetting

/-!
# Grants and revocations take effect

A statement names permissions and objects, and is expanded to records, one for each pair. The
records pass the manager's check, are written by the store for each user, are announced, and reach
the directory, whose users are then checked against the tables of other statements. This file
follows the keys all the way: exactly the keys that a statement covers carry its effect in the end,
whatever was recorded before.

## Main definitions

* `Grant.Covers` — the keys that a statement is about
* `Node.carryOut` — a change of privileges through the manager, and the notification of it

## Main results

* `Grant.effectAt?_applyEach_privileges` — the records of a statement leave its effect at the keys
  that it covers, and nothing else
* `Node.carryOut_users` — each user of a change is found with its records written
* `Node.carryOut_takes_effect` — what is granted is allowed at once, and what is revoked is refused
-/

namespace AccessControl

/-! ### The keys of a statement -/

namespace Grant

variable {g : Grant} {effect : Effect} {grantor schema : String} {p : Privilege}

/-- A statement is about a key: it names the permission, and the scope is an object of its target,
tables that are named without a schema being those of `schema`. -/
def Covers (g : Grant) (schema : String) (k : Privilege.Key) : Prop :=
  k.permission ∈ g.permissions ∧ k.scope.level = g.target.level ∧
    k.scope.object ∈ g.target.objects schema

instance : DecidablePred (g.Covers schema) := fun _ => inferInstanceAs (Decidable (_ ∧ _ ∧ _))

theorem mem_permissionSet_iff {permission : Permission} :
    permission ∈ g.permissionSet ↔ permission ∈ g.permissions := by
  have hall : permission ∈ Permission.all := by cases permission <;> decide
  simp [permissionSet, hall]

theorem mem_privileges_iff :
    p ∈ g.privileges effect grantor schema ↔
      p.effect = effect ∧ p.grantor = grantor ∧ g.Covers schema p.key := by
  obtain ⟨effect', ⟨permission, ⟨level, object⟩⟩, grantor'⟩ := p
  simp only [privileges, List.mem_flatMap, List.mem_map, mem_permissionSet_iff, Covers,
    Privilege.mk.injEq, Privilege.Key.mk.injEq, Scope.mk.injEq]
  constructor
  · rintro ⟨_, hpermission, _, hobject, rfl, ⟨rfl, rfl, rfl⟩, rfl⟩
    exact ⟨rfl, rfl, hpermission, rfl, hobject⟩
  · rintro ⟨rfl, rfl, hpermission, rfl, hobject⟩
    exact ⟨permission, hpermission, object, hobject, rfl, ⟨rfl, rfl, rfl⟩, rfl⟩

/-- A statement is expanded to records at the keys that it covers. -/
theorem mem_keys_privileges_iff {k : Privilege.Key} :
    k ∈ (g.privileges effect grantor schema).map (·.key) ↔ g.Covers schema k := by
  rw [List.mem_map]
  constructor
  · rintro ⟨p, hp, rfl⟩
    exact (mem_privileges_iff.mp hp).2.2
  · intro hcovers
    exact ⟨⟨effect, k, grantor⟩, mem_privileges_iff.mpr ⟨rfl, rfl, hcovers⟩, rfl⟩

/-- The records of a statement leave its effect at the keys that it covers, and nothing else. -/
theorem effectAt?_applyEach_privileges (before : PrivilegeSet) (k : Privilege.Key) :
    (before.applyEach (g.privileges effect grantor schema)).effectAt? k =
      if g.Covers schema k then effect.kept? else before.effectAt? k := by
  have huniform : ∀ p ∈ g.privileges effect grantor schema, p.effect = effect :=
    fun p hp => (mem_privileges_iff.mp hp).1
  rw [PrivilegeSet.effectAt?_applyEach_of_uniform huniform]
  simp only [mem_keys_privileges_iff]

/-- A statement on a table that is named without a schema covers the table of that name in
`schema`, as other statements name it. -/
theorem covers_unqualified {table : String} (hlevel : g.target.level = .table)
    (htable : table ∈ g.target.idents) (hdot : '.' ∉ table.toList) {permission : Permission}
    (hpermission : permission ∈ g.permissions) :
    g.Covers schema ⟨permission, .table (TableName.mk schema table).qualified⟩ := by
  refine ⟨hpermission, hlevel.symm, ?_⟩
  have hqualify : GrantTarget.qualify schema table = (TableName.mk schema table).qualified :=
    if_neg hdot
  simp only [GrantTarget.objects, hlevel]
  exact List.mem_map.mpr ⟨table, htable, congrArg some hqualify⟩

end Grant

namespace Demand

/-- A demand is for a key that a statement is about. -/
def CoveredBy (d : Demand) (g : Grant) (schema : String) : Prop :=
  ∃ key, d = .requirement (.grant key) ∧ g.Covers schema key

theorem metBy_grant_iff {user : User} {key : Privilege.Key} :
    MetBy user (.requirement (.grant key)) ↔ user.privileges.effectAt? key = some .grant := by
  simp [MetBy, PrivilegeSet.effectAt?]

variable {g : Grant} {grantor schema name : String} {before : PrivilegeSet} {d : Demand}

theorem CoveredBy.metBy_granted (h : d.CoveredBy g schema) :
    d.MetBy (.regular name (before.applyEach (g.toGrant grantor schema).privileges)) := by
  obtain ⟨key, rfl, hcovers⟩ := h
  rw [metBy_grant_iff]
  exact (Grant.effectAt?_applyEach_privileges before key).trans (if_pos hcovers)

theorem CoveredBy.not_metBy_revoked (h : d.CoveredBy g schema) :
    ¬ d.MetBy (.regular name (before.applyEach (g.toRevoke grantor schema).privileges)) := by
  obtain ⟨key, rfl, hcovers⟩ := h
  intro hmet
  have hgone : (before.applyEach (g.toRevoke grantor schema).privileges).effectAt? key = none :=
    (Grant.effectAt?_applyEach_privileges before key).trans (if_pos hcovers)
  cases hgone.symm.trans (metBy_grant_iff.mp hmet)

end Demand

/-! ### The users of a change -/

namespace Directory

variable {m : Metadata} {name : String}

/-- A regular user in a list has the records written that are written for the list. -/
theorem IsRegular.get?_applyToAll (h : (ofMetadata m).IsRegular name) {names : List String}
    (hmem : name ∈ names) (ps : List Privilege) :
    ∃ before : PrivilegeSet,
      (ofMetadata { m with privileges := (m.privileges.applyToAll names ps).1 }).get? name =
        some (.regular name (before.applyEach ps)) := by
  obtain ⟨hname, hcontains⟩ := isRegular_ofMetadata_iff.mp h
  have hforce : ∃ before : PrivilegeSet,
      (m.privileges.applyToAll names ps).1.inForce name = before.applyEach ps :=
    PrivilegeSection.inForce_applyToAll_of_mem hmem
  obtain ⟨before, hbefore⟩ := hforce
  refine ⟨before, ?_⟩
  rw [get?_ofMetadata hname, ← hbefore]
  exact if_pos hcontains

end Directory

/-! ### Through the manager and the store -/

namespace Node

/-- A change of privileges that is requested through the manager, and then the notification that is
the latest one by then. -/
def carryOut (n : Node) (m : Manager) (c : PrivilegeChange) : Node × Except AccessError Nat :=
  let (n, answer) := n.request m (.applyPrivileges c.users c.privileges)
  (n.apply n.store.channel.value, answer)

/-- The user of a name in the current snapshot. -/
def user? (n : Node) (name : String) : Option User := n.manager.bind (·.snapshot.find? name)

variable {n : Node} {m : Manager}

/-- A change for regular users is accepted, and each of them is found with its records written. -/
theorem carryOut_users (hstore : n.store.Announced) (hm : n.manager = some m)
    (c : PrivilegeChange)
    (hregular : ∀ name ∈ c.users, (Directory.ofMetadata n.store.metadata).IsRegular name ∧
      m.snapshot.directory.IsRegular name) :
    (∃ affected, (n.carryOut m c).2 = .ok affected) ∧
      ∀ name ∈ c.users, ∃ before : PrivilegeSet,
        (n.carryOut m c).1.user? name = some (.regular name (before.applyEach c.privileges)) := by
  let r : WriteRequest := .applyPrivileges c.users c.privileges
  have hvet : m.vet r = .ok () :=
    Manager.vetNames_eq_ok_iff.mpr fun name hname => (hregular name hname).2
  have hrequest : n.request m r = n.submit r := by rw [request, hvet]
  have hcommits : n.store.metadata.Commits r _ _ := .applyPrivileges fun name hname =>
    (Directory.isRegular_ofMetadata_iff.mp (hregular name hname).1).2
  obtain ⟨hmetadata, hanswer⟩ := Store.submit_of_commits hcommits
  -- after the request, the latest notification is of what was written
  have hlatest := (hstore.submit r).directory
  rw [hmetadata] at hlatest
  have hcarried : n.carryOut m c =
      ({ n with store := (n.store.submit r).1 }.apply (n.store.submit r).1.channel.value,
        (n.store.submit r).2) := by
    unfold carryOut
    rw [hrequest]
    rfl
  rw [hcarried]
  refine ⟨⟨_, hanswer⟩, fun name hname => ?_⟩
  obtain ⟨before, hbefore⟩ := (hregular name hname).1.get?_applyToAll hname c.privileges
  refine ⟨before, ?_⟩
  calc user? _ name
      = (m.apply (n.store.submit r).1.channel.value).snapshot.find? name := by
        simp only [user?, apply, hm, Option.map_some, Option.bind_some]
    _ = (Directory.ofChange (n.store.submit r).1.channel.value).get? name := by
        rw [Snapshot.find?_eq, Manager.apply, Snapshot.directory_advance]
    _ = some (.regular name (before.applyEach c.privileges)) := by rw [hlatest, hbefore]

/-- **Grants and revocations take effect.** In a store after any requests, and with any snapshot, a
statement on users who are regular in both is carried out, and each of the users is found. What was
granted is allowed: every statement that asks for nothing but keys that are covered. What was
revoked is refused: every statement that asks for one of them. It does not matter what was recorded
before. A table that is named without a schema is the table of that name in the default schema. -/
theorem carryOut_takes_effect {start : Store} (hstart : start.IsFresh) (rs : List WriteRequest)
    (hstore : n.store = start.run rs) (hm : n.manager = some m) (g : Grant)
    (grantor schema : String)
    (hregular : ∀ name ∈ g.users, (Directory.ofMetadata n.store.metadata).IsRegular name ∧
      m.snapshot.directory.IsRegular name) :
    let granted := n.carryOut m (g.toGrant grantor schema)
    let revoked := n.carryOut m (g.toRevoke grantor schema)
    ((∃ affected, granted.2 = .ok affected) ∧ ∀ name ∈ g.users, ∃ user,
      granted.1.user? name = some user ∧ ∀ (s : Statement) (session : Session),
        session.user = some user → (∀ d ∈ s.demands, d.CoveredBy g schema) →
          s.authorize session = .ok ()) ∧
    ((∃ affected, revoked.2 = .ok affected) ∧ ∀ name ∈ g.users, ∃ user,
      revoked.1.user? name = some user ∧ ∀ (s : Statement) (session : Session),
        session.user = some user → (∃ d ∈ s.demands, d.CoveredBy g schema) →
          ∃ e, s.authorize session = .error e) ∧
    (g.target.level = .table → ∀ table ∈ g.target.idents, '.' ∉ table.toList →
      ∀ permission ∈ g.permissions,
        (TableName.demand permission ⟨schema, table⟩).CoveredBy g schema) := by
  intro granted revoked
  have hannounced : n.store.Announced := hstore ▸ hstart.announced.run rs
  obtain ⟨hgranted, hgrantedUsers⟩ :=
    carryOut_users hannounced hm (g.toGrant grantor schema) hregular
  obtain ⟨hrevoked, hrevokedUsers⟩ :=
    carryOut_users hannounced hm (g.toRevoke grantor schema) hregular
  refine ⟨⟨hgranted, fun name hname => ?_⟩, ⟨hrevoked, fun name hname => ?_⟩, ?_⟩
  · obtain ⟨before, huser⟩ := hgrantedUsers name hname
    refine ⟨_, huser, fun s session hsession hcovered => ?_⟩
    have hrestricted := Session.restricted?_eq_some_iff.mpr ⟨hsession, rfl⟩
    -- the records of the statement were written last, so a GRANT is left at each covered key
    refine (Statement.authorize_eq_ok_iff hrestricted).mpr fun d hd => ?_
    exact (hcovered d hd).metBy_granted
  · obtain ⟨before, huser⟩ := hrevokedUsers name hname
    refine ⟨_, huser, fun s session hsession ⟨d, hd, hcovered⟩ => ?_⟩
    have hrestricted := Session.restricted?_eq_some_iff.mpr ⟨hsession, rfl⟩
    cases hanswer : s.authorize session with
    | error e => exact ⟨e, rfl⟩
    | ok _ =>
      -- all demands would be met, but nothing is left at the covered key
      have hmet := (Statement.authorize_eq_ok_iff hrestricted).mp hanswer d hd
      exact absurd hmet hcovered.not_metBy_revoked
  · intro hlevel table htable hdot permission hpermission
    exact ⟨_, rfl, Grant.covers_unqualified hlevel htable hdot hpermission⟩

/-- A user who is denied a table, by itself and with the cluster, is granted it by its short name;
the same user, revoked what was never granted, is refused. -/
theorem carryOut_takes_effect_on_denied_table :
    let start := Store.ofMetadata
      ⟨.ofList ["arthur", "ford"], .ofList [("ford", .ofList [⟨.deny, ⟨.dql, .cluster⟩, "crate"⟩])]⟩
    let rs := [WriteRequest.applyPrivileges ["ford"] [⟨.deny, ⟨.dql, .table "doc.t"⟩, "crate"⟩]]
    let n := Node.start (start.run rs) true
    let m := Manager.ofStore (start.run rs)
    let g : Grant := ⟨[.dql], ["ford", "ford"], .tables ["t"]⟩
    let reading := Statement.explain (.select (.documentTable ⟨"doc", "t"⟩))
    (∃ user, (n.carryOut m (g.toGrant "crate" "doc")).1.user? "ford" = some user ∧
      reading.authorize ⟨some user, "sys"⟩ = .ok ()) ∧
    ∃ user, (n.carryOut m (g.toRevoke "crate" "doc")).1.user? "ford" = some user ∧
      ∃ e, reading.authorize ⟨some user, "sys"⟩ = .error e := by
  intro start rs n m g reading
  -- the manager has just started, and knows the users of the store
  have hsnapshot : m.snapshot.directory = .ofMetadata n.store.metadata :=
    (Snapshot.directory_first _).trans ((Store.IsFresh.ofMetadata _).announced.run rs).directory
  have hregular : ∀ name ∈ g.users, (Directory.ofMetadata n.store.metadata).IsRegular name ∧
      m.snapshot.directory.IsRegular name := by
    intro name hname
    obtain rfl : name = "ford" := by simpa [g] using hname
    have hstored : (Directory.ofMetadata n.store.metadata).IsRegular "ford" :=
      Directory.isRegular_ofMetadata_iff.mpr (by decide +kernel)
    exact ⟨hstored, hsnapshot ▸ hstored⟩
  obtain ⟨⟨-, hgranted⟩, ⟨-, hrevoked⟩, hcovered⟩ :=
    carryOut_takes_effect (n := n) (m := m) (.ofMetadata _) rs rfl rfl g "crate" "doc" hregular
  have hdemand : ∀ d ∈ reading.demands, d.CoveredBy g "doc" := by
    intro d hd
    obtain rfl : d = TableName.demand .dql ⟨"doc", "t"⟩ := by
      simpa [reading, Statement.demands, Relation.leaves] using hd
    exact hcovered rfl "t" (.head _) (by decide) .dql (.head _)
  obtain ⟨user, huser, hallowed⟩ := hgranted "ford" (.head _)
  obtain ⟨user', huser', hrefused⟩ := hrevoked "ford" (.head _)
  exact ⟨⟨user, huser, hallowed _ _ rfl hdemand⟩,
    ⟨user', huser', hrefused _ _ rfl ⟨_, .head _, hdemand _ (.head _)⟩⟩⟩

end Node

end AccessControl
