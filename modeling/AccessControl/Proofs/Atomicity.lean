import AccessControl.Proofs.Store

/-!
# Commits are atomic

A request changes the two sections in place, name by name and record by record, and a refusal takes
nothing back that was written before it. This file carries requests out in this way, and shows that
the store they leave, refused or not, is the one that `Store.submit` gives. So a refusal always
comes before the first write.

## Main definitions

* `Store.Edit` — programs that change a store in place, and may break off
* `Store.perform` — a request that is carried out in place

## Main results

* `Store.run_perform` — in place, a request leaves the same store and gives the same answer
* `Store.submit_atomic` — a refused request writes nothing, one that affects no row changes no user,
  and every other one makes the next version and announces it
-/

namespace AccessControl.Store

/-! ### Requests in place -/

/-- A program that changes a store in place. Where it breaks off, what it has written stays. -/
abbrev Edit := ExceptT AccessError (StateM Store)

/-- The store with another section of users. -/
def setUsers (s : Store) (users : UserSection) : Store :=
  { s with metadata := { s.metadata with users } }

/-- The store with another section of privileges. -/
def setPrivileges (s : Store) (privileges : PrivilegeSection) : Store :=
  { s with metadata := { s.metadata with privileges } }

/-- Add a name, and tell whether it is new. -/
def addUser (name : String) : Edit Bool := do
  let users := (← get).metadata.users
  modify (·.setUsers ⟨users.members.insert name ()⟩)
  return !users.contains name

/-- Remove a name, and tell whether it was there. -/
def removeUser (name : String) : Edit Bool := do
  let users := (← get).metadata.users
  modify (·.setUsers ⟨users.members.erase name⟩)
  return users.contains name

/-- Remove the privileges that are kept for a name. -/
def erasePrivileges (name : String) : Edit Unit :=
  modify fun s => s.setPrivileges (s.metadata.privileges.erase name)

/-- Write one record for one user, and tell whether the user's set changed. -/
def writePrivilege (name : String) (p : Privilege) : Edit Bool := do
  let (privileges, changed) := (← get).metadata.privileges.apply name p
  modify (·.setPrivileges privileges)
  return changed

/-- Write records for one user, and go on counting those that change the user's set. -/
def writePrivileges (name : String) (ps : List Privilege) (counted : Nat) : Edit Nat := do
  let mut affected := counted
  for p in ps do
    if ← writePrivilege name p then
      affected := affected + 1
  return affected

/-- Write records for each of some users, and go on counting. -/
def writeToAll (names : List String) (ps : List Privilege) (counted : Nat) : Edit Nat := do
  let mut affected := counted
  for name in names do
    affected ← writePrivileges name ps affected
  return affected

/-- What a request does to the sections, and the number of rows it affects. -/
def edit : WriteRequest → Edit Nat
  | .createUser name =>
    if name = User.superuserName then
      throw (.userAlreadyExists name)
    else do
      if ← addUser name then
        return 1
      else
        throw (.userAlreadyExists name)
  | .dropUser name ifExists => do
    if ← removeUser name then
      erasePrivileges name
      return 1
    else if ifExists then
      return 0
    else
      throw (.unknownUser name)
  | .applyPrivileges names ps => do
    let users := (← get).metadata.users
    match names.find? fun name => !users.contains name with
    | some unknown => throw (.unknownUser unknown)
    | none => writeToAll names ps 0

/-- Make the next version of the sections as they are now, and announce it. -/
def announce : Edit Unit :=
  modify fun s =>
    ⟨s.version + 1, s.metadata, s.channel.send (.ofMetadata (s.version + 1) s.metadata)⟩

/-- A request that is carried out in place. -/
def perform (r : WriteRequest) : Edit Nat := do
  let affected ← edit r
  if affected > 0 then
    announce
  return affected

variable (s : Store)

/-- One part of an edit comes after the other, unless the first breaks off. -/
theorem run_bind {α β : Type} (x : Edit α) (f : α → Edit β) :
    (x >>= f).run.run s =
      match x.run.run s with
      | (.ok a, t) => (f a).run.run t
      | (.error e, t) => (.error e, t) := by
  cases h : x.run.run s with
  | mk answer t =>
    simp only [ExceptT.run_bind, StateT.run_bind, h]
    cases answer <;> rfl

theorem run_get_bind {α : Type} (f : Store → Edit α) :
    (get >>= f).run.run s = (f s).run.run s := rfl

theorem run_addUser (name : String) :
    (addUser name).run.run s =
      (.ok !s.metadata.users.contains name,
        s.setUsers ⟨s.metadata.users.members.insert name ()⟩) := rfl

theorem run_removeUser (name : String) :
    (removeUser name).run.run s =
      (.ok (s.metadata.users.contains name),
        s.setUsers ⟨s.metadata.users.members.erase name⟩) := rfl

theorem run_writePrivilege (name : String) (p : Privilege) :
    (writePrivilege name p).run.run s =
      (.ok (s.metadata.privileges.apply name p).2,
        s.setPrivileges (s.metadata.privileges.apply name p).1) := rfl

theorem run_writePrivileges (name : String) (ps : List Privilege) (counted : Nat) :
    (writePrivileges name ps counted).run.run s =
      (.ok (counted + (s.metadata.privileges.applyAll name ps).2),
        s.setPrivileges (s.metadata.privileges.applyAll name ps).1) := by
  unfold writePrivileges
  rw [bind_pure]
  induction ps generalizing counted s with
  | nil => rfl
  | cons p ps ih =>
    rw [List.forIn_cons, run_bind, run_bind, run_writePrivilege, PrivilegeSection.applyAll_cons]
    -- the record counts if it changed the set, and the others are written after it
    cases (s.metadata.privileges.apply name p).2 with
    | false =>
      rw [Bool.toNat_false, Nat.zero_add]
      exact ih _ counted
    | true =>
      rw [Bool.toNat_true, ← Nat.add_assoc]
      exact ih _ (counted + 1)

theorem run_writeToAll (names : List String) (ps : List Privilege) (counted : Nat) :
    (writeToAll names ps counted).run.run s =
      (.ok (counted + (s.metadata.privileges.applyToAll names ps).2),
        s.setPrivileges (s.metadata.privileges.applyToAll names ps).1) := by
  unfold writeToAll
  rw [bind_pure]
  induction names generalizing counted s with
  | nil => rfl
  | cons name names ih =>
    rw [List.forIn_cons, run_bind, run_bind, run_writePrivileges,
      PrivilegeSection.applyToAll_cons]
    refine (ih _ _).trans ?_
    rw [Nat.add_assoc]
    rfl

/-- Adding a name that is there changes nothing. -/
theorem setUsers_insert_of_contains {name : String}
    (h : s.metadata.users.contains name = true) :
    s.setUsers ⟨s.metadata.users.members.insert name ()⟩ = s := by
  have hthere : s.metadata.users.members.get? name = some () :=
    Option.eq_some_of_isSome h
  unfold setUsers
  rw [SortedMap.insert_of_get?_eq_some hthere]

/-- Removing a name that is not there changes nothing. -/
theorem setUsers_erase_of_not_contains {name : String}
    (h : s.metadata.users.contains name = false) :
    s.setUsers ⟨s.metadata.users.members.erase name⟩ = s := by
  have habsent : s.metadata.users.members.get? name = none := by
    simpa [UserSection.contains, SortedMap.contains] using h
  unfold setUsers
  rw [SortedMap.erase_of_get?_eq_none habsent]

variable {s}

/-- An accepted request leaves in place what its rule gives. -/
theorem run_edit_of_commits {r : WriteRequest} {m : Metadata} {affected : Nat}
    (h : s.metadata.Commits r m affected) :
    (edit r).run.run s = (.ok affected, { s with metadata := m }) := by
  cases h with
  | @createUser name users hname hadd =>
    obtain ⟨hfresh, rfl⟩ := UserSection.add?_eq_some_iff.mp hadd
    simp only [edit, if_neg hname, run_bind, run_addUser, hfresh]
    rfl
  | @dropUser name ifExists users hremove =>
    obtain ⟨hpresent, rfl⟩ := UserSection.remove?_eq_some_iff.mp hremove
    simp only [edit, run_bind, run_removeUser, hpresent]
    rfl
  | @dropAbsent name habsent =>
    simp only [edit, run_bind, run_removeUser, habsent, setUsers_erase_of_not_contains s habsent]
    rfl
  | @applyPrivileges names ps hnames =>
    have hfind := Metadata.find?_absent_eq_none_iff.mpr hnames
    have hrun := s.run_writeToAll names ps 0
    rw [Nat.zero_add] at hrun
    simp only [edit, run_get_bind, hfind]
    exact hrun

/-- A request that is refused leaves the store as it was: it has not written anything yet, or only
what was there already. -/
theorem run_edit_of_refuses {r : WriteRequest} {e : AccessError}
    (h : s.metadata.Refuses r e) : (edit r).run.run s = (.error e, s) := by
  cases h with
  | reservedName => rfl
  | @takenName name htaken =>
    by_cases hname : name = User.superuserName
    · simp only [edit, if_pos hname]
      rfl
    · simp only [edit, if_neg hname, run_bind, run_addUser, htaken,
        setUsers_insert_of_contains s htaken]
      rfl
  | @absentUser name habsent =>
    simp only [edit, run_bind, run_removeUser, habsent, setUsers_erase_of_not_contains s habsent]
    rfl
  | @absentName before after name ps hbefore habsent =>
    have hfind := Metadata.find?_absent_eq_some_iff.mpr ⟨habsent, before, after, rfl, hbefore⟩
    simp only [edit, run_get_bind, hfind]
    rfl

/-- In place, a request leaves the store that `submit` gives, and gets the same answer. -/
theorem run_perform (s : Store) (r : WriteRequest) :
    (perform r).run.run s = ((s.submit r).2, (s.submit r).1) := by
  rcases s.metadata.commits_or_refuses r with ⟨m, affected, h⟩ | ⟨e, h⟩
  · rw [perform, run_bind, run_edit_of_commits h]
    by_cases haffected : affected = 0
    · subst haffected
      simp only [submit, h.commit_eq]
      rfl
    · simp only [submit, h.commit_eq, haffected, if_false, if_pos (Nat.pos_of_ne_zero haffected)]
      rfl
  · simp only [perform, run_bind, run_edit_of_refuses h, submit, h.commit_eq]

/-! ### What an answer says of the store -/

variable {r : WriteRequest}

theorem submit_of_error {e : AccessError} (h : (s.submit r).2 = .error e) :
    (s.submit r).1 = s := by
  rcases s.submit_cases r with ⟨e', hs⟩ | ⟨m, hs, -⟩ | ⟨m, affected, -, hs⟩
  · rw [hs]
  · rw [hs] at h
    cases h
  · rw [hs] at h
    cases h

theorem submit_of_unaffected (h : (s.submit r).2 = .ok 0) :
    (s.submit r).1.version = s.version ∧ (s.submit r).1.channel = s.channel ∧
      Directory.ofMetadata (s.submit r).1.metadata = .ofMetadata s.metadata := by
  rcases s.submit_cases r with ⟨e', hs⟩ | ⟨m, hs, hsame⟩ | ⟨m, affected, haffected, hs⟩
  · rw [hs] at h
    cases h
  · rw [hs]
    exact ⟨rfl, rfl, hsame⟩
  · rw [hs] at h
    cases h
    exact absurd rfl haffected

theorem submit_of_affected {affected : Nat} (h : (s.submit r).2 = .ok affected)
    (haffected : 0 < affected) :
    (s.submit r).1.version = s.version + 1 ∧
      (s.submit r).1.channel =
        s.channel.send (.ofMetadata (s.version + 1) (s.submit r).1.metadata) := by
  rcases s.submit_cases r with ⟨e', hs⟩ | ⟨m, hs, -⟩ | ⟨m, affected', -, hs⟩
  · rw [hs] at h
    cases h
  · rw [hs] at h
    cases h
    exact absurd haffected (Nat.lt_irrefl 0)
  · rw [hs]
    exact ⟨rfl, rfl⟩

/-- One name that is no user's, wherever it stands, has the whole request refused. -/
theorem submit_applyPrivileges_of_absent {names : List String} (ps : List Privilege) {name : String}
    (hmem : name ∈ names) (habsent : s.metadata.users.contains name = false) :
    ∃ e, s.submit (.applyPrivileges names ps) = (s, .error e) := by
  rcases s.metadata.commits_or_refuses (.applyPrivileges names ps) with
    ⟨m, affected, h⟩ | ⟨e, h⟩
  · cases h with
    | applyPrivileges hnames =>
      have hpresent := hnames name hmem
      rw [habsent] at hpresent
      cases hpresent
  · exact ⟨e, by simp only [submit, h.commit_eq]⟩

/-- **Commits are atomic.** On a store as it is made and after any requests: a request leaves the
same store when it is carried out in place. One that is refused changes nothing, and a single name
that is no user's has a change of privileges refused as a whole. One that affects no row makes no
version and changes no user; any other one makes the next version and announces it with both
sections. So the latest notification always gives the present directory. -/
theorem submit_atomic {start : Store} (hs : start.IsFresh) (rs : List WriteRequest)
    (r : WriteRequest) :
    let s := start.run rs
    let s' := (s.submit r).1
    let answer := (s.submit r).2
    (perform r).run.run s = (answer, s') ∧
    (∀ e, answer = .error e → s' = s) ∧
    (∀ names ps name, r = .applyPrivileges names ps → name ∈ names →
      s.metadata.users.contains name = false → ∃ e, answer = .error e ∧ s' = s) ∧
    (answer = .ok 0 → s'.version = s.version ∧ s'.channel = s.channel ∧
      Directory.ofMetadata s'.metadata = .ofMetadata s.metadata) ∧
    (∀ affected > 0, answer = .ok affected → s'.version = s.version + 1 ∧
      s'.channel = s.channel.send
        ⟨s'.version, some s'.metadata.users, some s'.metadata.privileges⟩) ∧
    Directory.ofChange s.channel.value = .ofMetadata s.metadata := by
  intro s s' answer
  have hannounced : s.Announced := hs.announced.run rs
  refine ⟨s.run_perform r, fun e h => submit_of_error h, ?_, submit_of_unaffected, ?_,
    hannounced.directory⟩
  · rintro names ps name rfl hmem habsent
    obtain ⟨e, hrefused⟩ := submit_applyPrivileges_of_absent ps hmem habsent
    exact ⟨e, congrArg Prod.snd hrefused, congrArg Prod.fst hrefused⟩
  · intro affected hpos h
    obtain ⟨hversion, hchannel⟩ := submit_of_affected h hpos
    refine ⟨hversion, ?_⟩
    rw [hversion]
    exact hchannel

/-- Three requests to a store that keeps an empty set: one of three names is no user's; nothing is
there to be revoked, and only the empty set goes; two users are granted the same. -/
theorem submit_atomic_three_answers :
    let s := (Store.ofMetadata ⟨.ofList ["arthur", "ford"], .ofList [("ford", .empty)]⟩).run
      [.createUser "trillian"]
    let reading : Privilege.Key := ⟨.dql, .cluster⟩
    let partlyUnknown := s.submit (.applyPrivileges ["ford", "zaphod", "arthur"]
      [⟨.grant, reading, "crate"⟩])
    let nothingToRevoke := s.submit (.applyPrivileges ["ford"] [⟨.revoke, reading, "crate"⟩])
    let twoGranted := s.submit (.applyPrivileges ["ford", "arthur"] [⟨.grant, reading, "crate"⟩])
    (∃ e, partlyUnknown.2 = .error e ∧ partlyUnknown.1 = s) ∧
      (nothingToRevoke.1.metadata ≠ s.metadata ∧ nothingToRevoke.1.channel = s.channel) ∧
      twoGranted.1.version = 3 := by
  intro s reading partlyUnknown nothingToRevoke twoGranted
  have hfresh : IsFresh (.ofMetadata ⟨.ofList ["arthur", "ford"], .ofList [("ford", .empty)]⟩) :=
    .ofMetadata _
  obtain ⟨-, -, hunknown, -⟩ := submit_atomic hfresh [.createUser "trillian"]
    (.applyPrivileges ["ford", "zaphod", "arthur"] [⟨.grant, reading, "crate"⟩])
  obtain ⟨-, -, -, hunaffected, -⟩ := submit_atomic hfresh [.createUser "trillian"]
    (.applyPrivileges ["ford"] [⟨.revoke, reading, "crate"⟩])
  obtain ⟨-, -, -, -, haffected, -⟩ := submit_atomic hfresh [.createUser "trillian"]
    (.applyPrivileges ["ford", "arthur"] [⟨.grant, reading, "crate"⟩])
  refine ⟨hunknown _ _ "zaphod" rfl (by decide) (by decide +kernel), ⟨by decide +kernel, ?_⟩, ?_⟩
  · exact (hunaffected (by rfl)).2.1
  · exact (haffected 2 (by decide) (by rfl)).1.trans (by decide +kernel)

end AccessControl.Store
