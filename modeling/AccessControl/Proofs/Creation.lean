import AccessControl.Proofs.Vetting

/-!
# What a new user starts with

Users and privileges are sections of their own. A user who is created is given whatever privileges
are kept for the name, and the privileges that are kept for a name that is no user's come from one
place alone: they were there when the store was made, and there was no user of that name since.
Whoever was dropped has left nothing behind.

## Main definitions

* `Store.HadUser` — there was a user of a name at some moment of a run

## Main results

* `Store.get?_run_of_hadUser`, `Store.get?_run_of_not_hadUser` — what is kept for a name that is no
  user's
* `Store.createUser_starts_without_privileges` — what a user who is created starts with
-/

namespace AccessControl.Store

variable {s : Store} {r : WriteRequest} {rs : List WriteRequest} {name : String}

/-- There was a user of the name before the first one of some requests, or after one of them. -/
def HadUser (s : Store) (rs : List WriteRequest) (name : String) : Prop :=
  ∃ before, before <+: rs ∧ (s.run before).metadata.users.contains name = true

theorem hadUser_nil_iff : s.HadUser [] name ↔ s.metadata.users.contains name = true := by
  constructor
  · rintro ⟨before, hbefore, hcontains⟩
    obtain rfl := List.prefix_nil.mp hbefore
    exact hcontains
  · exact fun h => ⟨[], List.nil_prefix, h⟩

theorem hadUser_cons_iff :
    s.HadUser (r :: rs) name ↔
      s.metadata.users.contains name = true ∨ (s.submit r).1.HadUser rs name := by
  constructor
  · rintro ⟨before, hbefore, hcontains⟩
    rcases List.prefix_cons_iff.mp hbefore with rfl | ⟨rest, rfl, hrest⟩
    · exact .inl hcontains
    · exact .inr ⟨rest, hrest, hcontains⟩
  · rintro (h | ⟨before, hbefore, hcontains⟩)
    · exact ⟨[], List.nil_prefix, h⟩
    · exact ⟨r :: before, List.cons_prefix_cons.mpr ⟨rfl, hbefore⟩, hcontains⟩

theorem contains_of_not_hadUser (h : ¬ s.HadUser rs name) :
    s.metadata.users.contains name = false :=
  Bool.eq_false_iff.mpr fun hcontains => h ⟨[], List.nil_prefix, hcontains⟩

/-- What is kept for a name is as in the beginning if there never was a user of the name. -/
theorem get?_run_of_not_hadUser (h : ¬ s.HadUser rs name) :
    (s.run rs).metadata.privileges.get? name = s.metadata.privileges.get? name := by
  induction rs generalizing s with
  | nil => rfl
  | cons r rs ih =>
    -- nothing is written or removed for a name that is no user's
    rw [hadUser_cons_iff, not_or] at h
    exact (ih h.2).trans (get?_submit_of_absent (Bool.eq_false_iff.mpr h.1))

/-- Nothing is kept for a name that is no user's any more. -/
theorem get?_run_of_hadUser (h : s.HadUser rs name)
    (habsent : (s.run rs).metadata.users.contains name = false) :
    (s.run rs).metadata.privileges.get? name = none := by
  induction rs generalizing s with
  | nil => cases habsent.symm.trans (hadUser_nil_iff.mp h)
  | cons r rs ih =>
    by_cases hlater : (s.submit r).1.HadUser rs name
    · exact ih hlater habsent
    · -- the first request dropped the user, and nobody of the name came after that
      have hbefore := (hadUser_cons_iff.mp h).resolve_right hlater
      have hafter := contains_of_not_hadUser hlater
      exact (get?_run_of_not_hadUser hlater).trans (get?_submit_of_removed hbefore hafter)

/-- A user who is created was none before, has the privileges that were kept for the name, and is
announced. -/
theorem submit_createUser_of_ok {affected : Nat}
    (h : (s.submit (.createUser name)).2 = .ok affected) :
    let t := (s.submit (.createUser name)).1
    s.metadata.users.contains name = false ∧ t.metadata.privileges = s.metadata.privileges ∧
      (Directory.ofChange t.channel.value).get? name =
        some (.regular name (t.metadata.privileges.inForce name)) := by
  rcases s.metadata.commits_or_refuses (.createUser name) with ⟨m, n, hcommits⟩ | ⟨e, hrefuses⟩
  · cases hcommits with
    | @createUser _ users hname hadd =>
      have hcommit := (Metadata.Commits.createUser hname hadd).commit_eq
      have hnew : users.contains name = true := by
        rw [UserSection.contains_of_add? hadd]
        simp
      intro t
      simp only [t, submit, hcommit]
      refine ⟨(UserSection.add?_eq_some_iff.mp hadd).1, rfl, ?_⟩
      exact (Directory.get?_ofMetadata hname).trans (if_pos hnew)
  · rw [submit, hrefuses.commit_eq] at h
    cases h

/-- **A new user starts without privileges,** unless the store was made with privileges for the
name, and there was no user of the name since. These are what the user starts with then. -/
theorem createUser_starts_without_privileges {affected : Nat}
    (hcreated : ((s.run rs).submit (.createUser name)).2 = .ok affected) :
    let t := ((s.run rs).submit (.createUser name)).1
    (Directory.ofChange t.channel.value).get? name =
        some (.regular name (t.metadata.privileges.inForce name)) ∧
      (t.metadata.privileges.inForce name = .empty ↔
        s.metadata.privileges.inForce name = .empty ∨ s.HadUser rs name) := by
  intro t
  obtain ⟨habsent, hprivileges, hannounced⟩ := submit_createUser_of_ok hcreated
  refine ⟨hannounced, ?_⟩
  simp only [t, hprivileges]
  -- creating the user wrote no privileges, so it comes down to what the run had left for the name
  by_cases hhad : s.HadUser rs name
  · have hnone : (s.run rs).metadata.privileges.inForce name = .empty := by
      rw [PrivilegeSection.inForce, get?_run_of_hadUser hhad habsent]
      rfl
    simp only [hnone, hhad, or_true]
  · have hkept : (s.run rs).metadata.privileges.inForce name =
        s.metadata.privileges.inForce name := by
      rw [PrivilegeSection.inForce, get?_run_of_not_hadUser hhad]
      rfl
    simp only [hkept, hhad, or_false]

/-- A user whose name the store was made with, with privileges, is dropped and created again. -/
theorem createUser_starts_without_privileges_once_dropped :
    let granted : Privilege := ⟨.grant, ⟨.dql, .cluster⟩, "crate"⟩
    let s := ofMetadata ⟨.ofList ["ford"], .ofList [("ford", .ofList [granted])]⟩
    let t := ((s.run [.dropUser "ford" false]).submit (.createUser "ford")).1
    t.metadata.privileges.inForce "ford" = .empty := by
  intro granted s t
  have hcreated : ((s.run [.dropUser "ford" false]).submit (.createUser "ford")).2 = .ok 1 := by rfl
  have hhad : s.HadUser [.dropUser "ford" false] "ford" :=
    ⟨[], List.nil_prefix, by decide +kernel⟩
  exact (createUser_starts_without_privileges hcreated).2.mpr (.inr hhad)

/-- The store was made with privileges for a name that is no user's. Whoever is created under this
name has them. -/
theorem createUser_starts_with_privileges_kept :
    let granted : Privilege := ⟨.grant, ⟨.dql, .cluster⟩, "crate"⟩
    let s := ofMetadata ⟨.ofList [], .ofList [("ford", .ofList [granted])]⟩
    let t := (s.submit (.createUser "ford")).1
    (s.submit (.createUser "ford")).2 = .ok 1 ∧
      (t.metadata.privileges.inForce "ford").records = [granted] ∧
      (Directory.ofChange t.channel.value).get? "ford" = some (.regular "ford" (.ofList [granted])) := by
  intro granted s t
  exact ⟨by rfl, by decide +kernel, by decide +kernel⟩

end AccessControl.Store
