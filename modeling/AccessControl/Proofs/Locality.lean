import AccessControl.Proofs.WellFormed

/-!
# Requests change whom they name

A request is about the users that it names, and leaves everybody else as they are, in both sections.
Of those it names, only users have their privileges changed: privileges are written for users alone,
and are removed with the user. Privileges that are kept for a name that is no user's stay as they
are, whoever asks for what, until there is a user of the name.

## Main definitions

* `WriteRequest.names` — the users that a request is about

## Main results

* `Metadata.Commits.contains_eq`, `Metadata.Commits.get?_eq` — nobody else is touched
* `Metadata.Commits.get?_eq_of_absent` — what is kept for a name that is no user's stays
* `Metadata.Commits.get?_of_removed` — nothing is kept for a user who is dropped
-/

namespace AccessControl

/-- The users that a request is about. -/
def WriteRequest.names : WriteRequest → List String
  | .createUser name | .dropUser name _ => [name]
  | .applyPrivileges names _ => names

theorem PrivilegeSection.get?_applyToAll_of_not_mem {s : PrivilegeSection} {names : List String}
    {ps : List Privilege} {other : String} (hother : other ∉ names) :
    (s.applyToAll names ps).1.get? other = s.get? other := by
  refine applyToAll_induction (P := fun t => t.get? other = s.get? other) ?_ rfl
  intro t name hname p ht
  have hne : other ≠ name := fun h => hother (h ▸ hname)
  rw [get?_apply, if_neg hne, ht]

namespace Metadata.Commits

variable {m m' : Metadata} {r : WriteRequest} {affected : Nat} {name : String}

/-- A request lets nobody in or go whom it does not name. -/
theorem contains_eq (h : m.Commits r m' affected) (hname : name ∉ r.names) :
    m'.users.contains name = m.users.contains name := by
  cases h with
  | @createUser created users _ hadd =>
    have hne : name ≠ created := List.ne_of_not_mem_cons hname
    simp [UserSection.contains_of_add? hadd, hne]
  | @dropUser dropped ifExists users hremove =>
    have hne : name ≠ dropped := List.ne_of_not_mem_cons hname
    simp [UserSection.contains_of_remove? hremove, hne]
  | dropAbsent | applyPrivileges => rfl

/-- A request leaves the privileges of everybody whom it does not name. -/
theorem get?_eq (h : m.Commits r m' affected) (hname : name ∉ r.names) :
    m'.privileges.get? name = m.privileges.get? name := by
  cases h with
  | createUser | dropAbsent => rfl
  | dropUser =>
    rw [PrivilegeSection.get?_erase, if_neg (List.ne_of_not_mem_cons hname)]
  | applyPrivileges => exact PrivilegeSection.get?_applyToAll_of_not_mem hname

/-- What is kept for a name that is no user's stays, also under a request that names it. -/
theorem get?_eq_of_absent (h : m.Commits r m' affected) (habsent : m.users.contains name = false) :
    m'.privileges.get? name = m.privileges.get? name := by
  by_cases hname : name ∈ r.names
  · cases h with
    | createUser | dropAbsent => rfl
    | dropUser hremove =>
      -- only a user is dropped
      obtain rfl := List.mem_singleton.mp hname
      cases habsent.symm.trans (UserSection.remove?_eq_some_iff.mp hremove).1
    | applyPrivileges hnames => cases habsent.symm.trans (hnames name hname)
  · exact h.get?_eq hname

/-- With a user go the privileges of the user. -/
theorem get?_of_removed (h : m.Commits r m' affected) (hbefore : m.users.contains name = true)
    (hafter : m'.users.contains name = false) : m'.privileges.get? name = none := by
  cases h with
  | createUser _ hadd => simp [UserSection.contains_of_add? hadd, hbefore] at hafter
  | @dropUser dropped ifExists users hremove =>
    have hname : name = dropped := by
      simpa [UserSection.contains_of_remove? hremove, hbefore] using hafter
    rw [PrivilegeSection.get?_erase, if_pos hname]
  | dropAbsent | applyPrivileges => cases hbefore.symm.trans hafter

end Metadata.Commits

/-! ### The store -/

namespace Store

variable {s : Store} {r : WriteRequest} {name : String}

theorem contains_submit (hname : name ∉ r.names) :
    (s.submit r).1.metadata.users.contains name = s.metadata.users.contains name := by
  rcases s.metadata_submit r with hsame | ⟨affected, hcommits⟩
  · rw [hsame]
  · exact hcommits.contains_eq hname

theorem get?_submit (hname : name ∉ r.names) :
    (s.submit r).1.metadata.privileges.get? name = s.metadata.privileges.get? name := by
  rcases s.metadata_submit r with hsame | ⟨affected, hcommits⟩
  · rw [hsame]
  · exact hcommits.get?_eq hname

theorem get?_submit_of_absent (habsent : s.metadata.users.contains name = false) :
    (s.submit r).1.metadata.privileges.get? name = s.metadata.privileges.get? name := by
  rcases s.metadata_submit r with hsame | ⟨affected, hcommits⟩
  · rw [hsame]
  · exact hcommits.get?_eq_of_absent habsent

theorem get?_submit_of_removed (hbefore : s.metadata.users.contains name = true)
    (hafter : (s.submit r).1.metadata.users.contains name = false) :
    (s.submit r).1.metadata.privileges.get? name = none := by
  rcases s.metadata_submit r with hsame | ⟨affected, hcommits⟩
  · rw [hsame, hbefore] at hafter
    cases hafter
  · exact hcommits.get?_of_removed hbefore hafter

end Store

end AccessControl
