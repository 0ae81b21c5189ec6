import AccessControl.Directory.Snapshot

/-!
# Who is in a directory

A rebuilt directory is fully described by its look-ups: the built-in superuser under its own name,
and every other stored name as a regular user with the privileges kept for that name.

## Main definitions

* `Directory.storedNames` — the names in a section of users that may be absent

## Main results

* `Directory.get?_rebuild` — the look-ups of a rebuilt directory
* `Directory.get?_rebuild_eq_some` — whoever is found has the name that was looked up, and is a
  superuser only under the superuser's name
* `Directory.rebuild_congr` — privileges matter only through the users they give
* `Directory.rebuild_joins_sections` — who is in a rebuilt directory, and how many there are
* `Snapshot.directory_advance` — the snapshot after a directory was computed is of that directory
-/

namespace AccessControl

namespace Directory

variable {users : Option UserSection} {privileges privileges' : Option PrivilegeSection}

theorem get?_addStored (d : Directory) (stored name : String) :
    (addStored privileges d stored).get? name =
      (d.get? name).or (if name = stored then some (storedUser privileges stored) else none) := by
  unfold addStored
  split
  · next h =>
    -- the name is taken, and look-ups are as before
    by_cases hname : name = stored
    · subst hname
      obtain ⟨user, huser⟩ := Option.isSome_iff_exists.mp (show (d.get? name).isSome from h)
      simp [huser]
    · simp [hname]
  · next h =>
    have habsent : d.get? stored = none := by
      simpa [contains, SortedMap.contains, get?] using h
    by_cases hname : name = stored
    · subst hname
      rw [habsent]
      simp [get?, SortedMap.get?_insert]
    · simp [get?, SortedMap.get?_insert, hname]

/-- Of the users in a directory and those of stored names, the former come first. -/
theorem get?_foldl_addStored (stored : List String) (d : Directory) (name : String) :
    (stored.foldl (addStored privileges) d).get? name =
      (d.get? name).or (if name ∈ stored then some (storedUser privileges name) else none) := by
  induction stored generalizing d with
  | nil => simp
  | cons first stored ih =>
    rw [List.foldl_cons, ih, get?_addStored, Option.or_assoc]
    by_cases hfirst : name = first
    · simp [hfirst]
    · simp [hfirst]

/-- The names that are stored; none if the section is absent. -/
def storedNames (users : Option UserSection) : List String := users.elim [] (·.names)

theorem mem_storedNames_iff {name : String} :
    name ∈ storedNames users ↔ users.any (·.contains name) = true := by
  cases users with
  | none => simp [storedNames]
  | some users => exact SortedMap.mem_keys_iff

theorem nodup_storedNames (users : Option UserSection) : (storedNames users).Nodup := by
  cases users with
  | none => exact List.nodup_nil
  | some users => exact users.members.nodup_keys

/-- The look-ups of a rebuilt directory. -/
theorem get?_rebuild (users : Option UserSection) (privileges : Option PrivilegeSection)
    (name : String) :
    (rebuild users privileges).get? name =
      if name = User.superuserName then some .builtin
      else if users.any (·.contains name) then some (storedUser privileges name)
      else none := by
  have hstored : name ∈ users.elim [] (·.names) ↔ users.any (·.contains name) = true :=
    mem_storedNames_iff
  rw [rebuild, get?_foldl_addStored]
  simp only [hstored, builtin, get?, SortedMap.get?_insert]
  split <;> simp

/-- Whoever is found has the name that was looked up, and is a superuser exactly under the
superuser's name. -/
theorem get?_rebuild_eq_some {name : String} {user : User}
    (h : (rebuild users privileges).get? name = some user) :
    user.name = name ∧ (user.superuser = true ↔ name = User.superuserName) := by
  rw [get?_rebuild] at h
  split at h
  · next hname =>
    obtain rfl := Option.some.inj h
    exact ⟨hname.symm, by simp [User.builtin, hname]⟩
  · next hname =>
    split at h
    · obtain rfl := Option.some.inj h
      exact ⟨rfl, by simp [storedUser, User.regular, hname]⟩
    · cases h

/-- A directory is determined by its look-ups. -/
theorem ext_get? {d d' : Directory} (h : ∀ name, d.get? name = d'.get? name) : d = d' :=
  congrArg Directory.mk (SortedMap.ext_get? h)

/-- Sections of privileges that give every stored name the same user, the superuser's apart, give
the same directory. -/
theorem rebuild_congr (h : ∀ name ∈ storedNames users, name ≠ User.superuserName →
      storedUser privileges name = storedUser privileges' name) :
    rebuild users privileges = rebuild users privileges' := by
  refine ext_get? fun name => ?_
  rw [get?_rebuild, get?_rebuild]
  split
  · rfl
  · next hname =>
    split
    · next hstored => rw [h name (mem_storedNames_iff.mpr hstored) hname]
    · rfl

theorem contains_rebuild_iff {name : String} :
    (rebuild users privileges).contains name = true ↔
      name = User.superuserName ∨ name ∈ storedNames users := by
  have hisSome : (rebuild users privileges).contains name =
      ((rebuild users privileges).get? name).isSome := rfl
  rw [hisSome, get?_rebuild, mem_storedNames_iff]
  by_cases hname : name = User.superuserName
  · simp [hname]
  · cases hstored : users.any (·.contains name) <;> simp [hname]

/-- The names in a directory are the superuser's and the other stored ones, each of them once. -/
theorem keys_rebuild_perm (users : Option UserSection) (privileges : Option PrivilegeSection) :
    (rebuild users privileges).byName.keys.Perm
      (User.superuserName :: (storedNames users).filter (· ≠ User.superuserName)) := by
  have hnodup : (User.superuserName ::
      (storedNames users).filter (· ≠ User.superuserName)).Nodup :=
    List.nodup_cons.mpr ⟨by simp, (nodup_storedNames users).filter _⟩
  refine (List.perm_ext_iff_of_nodup (SortedMap.nodup_keys _) hnodup).mpr fun name => ?_
  have hkeys : name ∈ (rebuild users privileges).byName.keys ↔
      name = User.superuserName ∨ name ∈ storedNames users :=
    SortedMap.mem_keys_iff.trans contains_rebuild_iff
  rw [hkeys, List.mem_cons, List.mem_filter]
  by_cases hname : name = User.superuserName <;> simp [hname]

/-- **A directory is the superuser and the join of the two sections.** The names in it are the
superuser's and the stored ones, so there is one user more than there are other stored names. The
superuser is the built-in one, whatever the sections hold under that name. Any other stored name is
that of a user without a role, with the privileges kept for the name, or none. So privileges matter
for other stored names alone: sections that agree on these give the same directory, and what is kept
for a name that is not stored makes nobody known. -/
theorem rebuild_joins_sections (users : Option UserSection)
    (privileges : Option PrivilegeSection) :
    (∀ name, (rebuild users privileges).contains name = true ↔
      name = User.superuserName ∨ name ∈ storedNames users) ∧
    (rebuild users privileges).get? User.superuserName = some .builtin ∧
    (∀ name ∈ storedNames users, name ≠ User.superuserName →
      (rebuild users privileges).get? name =
        some ⟨name, false, (privileges.bind (·.get? name)).getD .empty⟩) ∧
    (rebuild users privileges).size =
      1 + ((storedNames users).filter (· ≠ User.superuserName)).length ∧
    (∀ privileges' : Option PrivilegeSection,
      (∀ name ∈ storedNames users, name ≠ User.superuserName →
        (privileges.bind (·.get? name)).getD .empty =
          (privileges'.bind (·.get? name)).getD .empty) →
      rebuild users privileges = rebuild users privileges') ∧
    ∀ name, name ≠ User.superuserName → name ∉ storedNames users →
      (rebuild users privileges).get? name = none := by
  refine ⟨fun name => contains_rebuild_iff, ?superuser, ?stored, ?size, ?agree, ?orphan⟩
  case superuser => rw [get?_rebuild, if_pos rfl]
  case stored =>
    intro name hstored hname
    rw [get?_rebuild, if_neg hname, if_pos (mem_storedNames_iff.mp hstored)]
    rfl
  case size =>
    have hlength := (keys_rebuild_perm users privileges).length_eq
    rw [SortedMap.length_keys, List.length_cons, Nat.add_comm] at hlength
    exact hlength
  case agree =>
    intro privileges' hagree
    exact rebuild_congr fun name hstored hname =>
      congrArg (User.regular name) (hagree name hstored hname)
  case orphan =>
    intro name hname hstored
    rw [get?_rebuild, if_neg hname, if_neg (mt mem_storedNames_iff.mpr hstored)]

/-- The superuser's name is stored, and privileges are kept for it and for a name that is not. -/
example : (rebuild (some (.ofList ["crate", "ford"]))
    (some (.ofList [("crate", .ofList [⟨.deny, ⟨.dql, .cluster⟩, "ford"⟩]),
      ("zaphod", .ofList [⟨.grant, ⟨.dql, .cluster⟩, "crate"⟩])]))).users =
      [.builtin, .regular "ford" .empty] := by decide +kernel

/-- The directory of both sections. -/
def ofMetadata (m : Metadata) : Directory := rebuild (some m.users) (some m.privileges)

theorem ofChange_initial : ofChange .initial = ofMetadata .empty := rfl

theorem ofChange_ofMetadata (version : Nat) (m : Metadata) :
    ofChange (.ofMetadata version m) = ofMetadata m := rfl

end Directory

namespace Snapshot

theorem find?_eq (s : Snapshot) (name : String) : s.find? name = s.directory.get? name := by
  rw [directory, Directory.get?, SortedMap.get?_mapEntries]
  rfl

/-- A snapshot whose entries are of the users of a directory is of that directory. -/
theorem directory_mapEntries (generation : Nat) (d : Directory) {f : String → User → Entry}
    (hf : ∀ name user, (f name user).user = user) :
    (⟨generation, d.byName.mapEntries f⟩ : Snapshot).directory = d := by
  have hmap : (d.byName.mapEntries f).mapEntries (fun _ entry => entry.user) = d.byName :=
    SortedMap.ext_get? fun name => by
      simp [SortedMap.get?_mapEntries, Function.comp_def, hf]
  rw [directory, hmap]

theorem directory_first (d : Directory) : (first d).directory = d :=
  directory_mapEntries 0 d fun _ _ => rfl

theorem user_nextEntry (previous : Snapshot) (name : String) (user : User) :
    (previous.nextEntry name user).user = user := by
  unfold nextEntry
  split
  · next entry _ =>
    by_cases h : entry.user = user <;> simp [h]
  · rfl

theorem directory_handOn (previous : Snapshot) (d : Directory) :
    (previous.handOn d).directory = d :=
  directory_mapEntries _ d previous.user_nextEntry

/-- Whether or not a new snapshot is published, the current one is of the directory computed. -/
theorem directory_advance (previous : Snapshot) (d : Directory) :
    (previous.advance d).directory = d := by
  unfold advance
  split
  · next h => exact h.symm
  · exact directory_handOn previous d

end Snapshot

end AccessControl
