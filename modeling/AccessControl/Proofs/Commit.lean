import AccessControl.Store.WriteRequest

/-!
# Which requests are accepted

A request is accepted or refused by a few rules, each of which says on its own what it asks of the
metadata. A refusal has one of four reasons; an accepted request leaves the metadata that its rule
gives. The rules are those of `Metadata.commit`, so whoever needs to know what a request can do goes
through them.

## Main definitions

* `Metadata.Commits` — the requests that are accepted, and what becomes of the metadata
* `Metadata.Refuses` — the requests that are refused, and why

## Main results

* `Metadata.commits_or_refuses` — every request meets a rule
* `Metadata.commit_eq_ok_iff`, `Metadata.commit_eq_error_iff` — the rules decide what is committed
-/

namespace AccessControl.Metadata

/-- A request is accepted, leaves this metadata and affects this number of rows. -/
inductive Commits (m : Metadata) : WriteRequest → Metadata → Nat → Prop where
  | createUser {name : String} {users : UserSection} (hname : name ≠ User.superuserName)
      (hadd : m.users.add? name = some users) :
      Commits m (.createUser name) { m with users } 1
  | dropUser {name : String} {ifExists : Bool} {users : UserSection}
      (hremove : m.users.remove? name = some users) :
      Commits m (.dropUser name ifExists) ⟨users, m.privileges.erase name⟩ 1
  -- nobody is there to be dropped, and that is no error
  | dropAbsent {name : String} (habsent : m.users.contains name = false) :
      Commits m (.dropUser name true) m 0
  | applyPrivileges {names : List String} {ps : List Privilege}
      (hnames : ∀ name ∈ names, m.users.contains name = true) :
      Commits m (.applyPrivileges names ps)
        { m with privileges := (m.privileges.applyToAll names ps).1 }
        (m.privileges.applyToAll names ps).2

/-- A request is refused for this reason. -/
inductive Refuses (m : Metadata) : WriteRequest → AccessError → Prop where
  | reservedName :
      Refuses m (.createUser User.superuserName) (.userAlreadyExists User.superuserName)
  | takenName {name : String} (htaken : m.users.contains name = true) :
      Refuses m (.createUser name) (.userAlreadyExists name)
  | absentUser {name : String} (habsent : m.users.contains name = false) :
      Refuses m (.dropUser name false) (.unknownUser name)
  -- the first name that is no user's decides, wherever it stands
  | absentName {before after : List String} {name : String} {ps : List Privilege}
      (hbefore : ∀ other ∈ before, m.users.contains other = true)
      (habsent : m.users.contains name = false) :
      Refuses m (.applyPrivileges (before ++ name :: after) ps) (.unknownUser name)

variable {m m' : Metadata} {r : WriteRequest} {affected : Nat} {e : AccessError}

/-! ### The search for a name that is no user's -/

theorem find?_absent_eq_none_iff {names : List String} :
    (names.find? fun name => !m.users.contains name) = none ↔
      ∀ name ∈ names, m.users.contains name = true := by
  simp [List.find?_eq_none]

theorem find?_absent_eq_some_iff {names : List String} {name : String} :
    (names.find? fun name => !m.users.contains name) = some name ↔
      m.users.contains name = false ∧ ∃ before after, names = before ++ name :: after ∧
        ∀ other ∈ before, m.users.contains other = true := by
  simp [List.find?_eq_some_iff_append]

/-! ### The rules and the store -/

/-- Every request meets a rule. -/
theorem commits_or_refuses (m : Metadata) (r : WriteRequest) :
    (∃ m' affected, m.Commits r m' affected) ∨ ∃ e, m.Refuses r e := by
  cases r with
  | createUser name =>
    by_cases hname : name = User.superuserName
    · subst hname
      exact .inr ⟨_, .reservedName⟩
    · cases hadd : m.users.add? name with
      | none => exact .inr ⟨_, .takenName (UserSection.add?_eq_none_iff.mp hadd)⟩
      | some users => exact .inl ⟨_, _, .createUser hname hadd⟩
  | dropUser name ifExists =>
    cases hremove : m.users.remove? name with
    | none =>
      have habsent := UserSection.remove?_eq_none_iff.mp hremove
      cases ifExists with
      | true => exact .inl ⟨_, _, .dropAbsent habsent⟩
      | false => exact .inr ⟨_, .absentUser habsent⟩
    | some users => exact .inl ⟨_, _, .dropUser hremove⟩
  | applyPrivileges names ps =>
    cases hfind : names.find? fun name => !m.users.contains name with
    | none => exact .inl ⟨_, _, .applyPrivileges (find?_absent_eq_none_iff.mp hfind)⟩
    | some name =>
      obtain ⟨habsent, before, after, rfl, hbefore⟩ := find?_absent_eq_some_iff.mp hfind
      exact .inr ⟨_, .absentName hbefore habsent⟩

theorem Commits.commit_eq (h : m.Commits r m' affected) : m.commit r = .ok (m', affected) := by
  cases h with
  | createUser hname hadd => simp [commit, hname, hadd]
  | dropUser hremove => simp [commit, hremove]
  | dropAbsent habsent => simp [commit, UserSection.remove?_eq_none_iff.mpr habsent]
  | applyPrivileges hnames => simp [commit, find?_absent_eq_none_iff.mpr hnames]

theorem Refuses.commit_eq (h : m.Refuses r e) : m.commit r = .error e := by
  cases h with
  | reservedName => rfl
  | takenName htaken => simp [commit, UserSection.add?_eq_none_iff.mpr htaken]
  | absentUser habsent => simp [commit, UserSection.remove?_eq_none_iff.mpr habsent]
  | @absentName before after name ps hbefore habsent =>
    have hfind := find?_absent_eq_some_iff.mpr ⟨habsent, before, after, rfl, hbefore⟩
    simp only [commit, hfind]

theorem commit_eq_ok_iff : m.commit r = .ok (m', affected) ↔ m.Commits r m' affected := by
  refine ⟨fun h => ?_, Commits.commit_eq⟩
  rcases m.commits_or_refuses r with ⟨m'', affected', hcommits⟩ | ⟨e, hrefuses⟩
  · have hsame := hcommits.commit_eq.symm.trans h
    simp only [Except.ok.injEq, Prod.mk.injEq] at hsame
    obtain ⟨rfl, rfl⟩ := hsame
    exact hcommits
  · cases hrefuses.commit_eq.symm.trans h

theorem commit_eq_error_iff : m.commit r = .error e ↔ m.Refuses r e := by
  refine ⟨fun h => ?_, Refuses.commit_eq⟩
  rcases m.commits_or_refuses r with ⟨m', affected, hcommits⟩ | ⟨e', hrefuses⟩
  · cases hcommits.commit_eq.symm.trans h
  · obtain rfl := Except.error.inj (hrefuses.commit_eq.symm.trans h)
    exact hrefuses

end AccessControl.Metadata
