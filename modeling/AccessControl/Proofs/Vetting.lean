import AccessControl.Manager.Basic
import AccessControl.Proofs.Locality

/-!
# What the manager lets pass

The manager checks a request against its snapshot, which may be of any directory that was ever
computed. There is one superuser in each of them, under the reserved name. So whatever the snapshot
is of, no request about the superuser passes, but the one to create a user of that name.

## Main definitions

* `Directory.IsRegular` — a name is that of a user without a role
* `Directory.HasOneSuperuser` — the built-in superuser is found, and no other superuser

## Main results

* `Directory.isRegular_ofMetadata_iff` — the regular users of both sections
* `Directory.hasOneSuperuser_rebuild` — every directory that is computed has one superuser
* `Manager.vetNames_eq_ok_iff` — the manager lets pass the names of regular users
* `Manager.vet_superuser` — it lets pass nothing about the superuser that the store would accept
-/

namespace AccessControl

/-! ### Regular users and the superuser -/

namespace Directory

variable {m : Metadata} {name : String}

/-- A name is that of a user without a role. -/
def IsRegular (d : Directory) (name : String) : Prop :=
  ∃ user, d.get? name = some user ∧ user.superuser = false

theorem get?_ofMetadata (hname : name ≠ User.superuserName) :
    (ofMetadata m).get? name =
      if m.users.contains name then some (.regular name (m.privileges.inForce name)) else none := by
  rw [ofMetadata, get?_rebuild, if_neg hname]
  rfl

theorem isRegular_ofMetadata_iff :
    (ofMetadata m).IsRegular name ↔
      name ≠ User.superuserName ∧ m.users.contains name = true := by
  constructor
  · rintro ⟨user, huser, hregular⟩
    have hname : name ≠ User.superuserName := by
      intro hname
      have hsuperuser := (get?_rebuild_eq_some huser).2.mpr hname
      rw [hregular] at hsuperuser
      cases hsuperuser
    rw [get?_ofMetadata hname] at huser
    cases hcontains : m.users.contains name with
    | true => exact ⟨hname, rfl⟩
    | false =>
      rw [hcontains] at huser
      cases huser
  · rintro ⟨hname, hcontains⟩
    exact ⟨_, (get?_ofMetadata hname).trans (if_pos hcontains), rfl⟩

/-- The built-in superuser is found under the reserved name, without records, and there is no other
superuser. -/
structure HasOneSuperuser (d : Directory) : Prop where
  builtin : d.get? User.superuserName = some .builtin
  only : ∀ {name user}, d.get? name = some user → user.superuser = true → name = User.superuserName

theorem hasOneSuperuser_rebuild (users : Option UserSection) (privileges : Option PrivilegeSection) :
    (rebuild users privileges).HasOneSuperuser where
  builtin := by rw [get?_rebuild, if_pos rfl]
  only h hsuperuser := (get?_rebuild_eq_some h).2.mp hsuperuser

/-- The reserved name is never that of a regular user. -/
theorem HasOneSuperuser.not_isRegular {d : Directory} (h : d.HasOneSuperuser) :
    ¬ d.IsRegular User.superuserName := by
  rintro ⟨user, huser, hregular⟩
  obtain rfl := Option.some.inj (h.builtin.symm.trans huser)
  cases hregular

end Directory

/-! ### The check -/

/-- The manager lets pass the names of the users who are regular in its snapshot. -/
theorem Manager.vetNames_eq_ok_iff {snapshot : Snapshot} {names : List String} :
    vetNames snapshot names = .ok () ↔ ∀ name ∈ names, snapshot.directory.IsRegular name := by
  induction names with
  | nil => simp [vetNames]
  | cons name names ih =>
    rw [vetNames, List.forall_mem_cons, Directory.IsRegular, ← Snapshot.find?_eq]
    cases snapshot.find? name with
    | none => simp
    | some user => cases hsuperuser : user.superuser <;> simp [hsuperuser, ih]

/-- Nothing about the superuser passes, but a request to create a user of that name, which is left
to the store. -/
theorem Manager.vet_superuser {m : Manager} (h : m.snapshot.directory.HasOneSuperuser)
    {r : WriteRequest} (hr : User.superuserName ∈ r.names) :
    r = .createUser User.superuserName ∨ ∃ e, m.vet r = .error e := by
  cases r with
  | createUser name =>
    obtain rfl := List.mem_singleton.mp hr
    exact .inl rfl
  | dropUser name ifExists =>
    obtain rfl := List.mem_singleton.mp hr
    right
    rw [vet, Snapshot.find?_eq, h.builtin]
    exact ⟨_, rfl⟩
  | applyPrivileges names ps =>
    right
    cases hvet : vetNames m.snapshot names with
    | error e => exact ⟨e, hvet⟩
    | ok => exact absurd (vetNames_eq_ok_iff.mp hvet _ hr) h.not_isRegular

end AccessControl
