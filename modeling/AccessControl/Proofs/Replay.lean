import AccessControl.Proofs.Atomicity
import AccessControl.Proofs.History
import Mathlib.Data.List.Dedup

/-!
# Replaying a change of privileges

A change of privileges is carried out for one user after the other, also for a user who is named
several times. All of it comes to one thing: the records are written, once, into the set that is in
force for each of the users, and the set is kept unless it is empty then. Neither the order of the
names nor how often each stands there shows in the sections, and nor does it when the whole request
comes a second time, even if rows are affected again on the way.

## Main definitions

* `PrivilegeSet.stored?` — what a section keeps of a set

## Main results

* `PrivilegeSection.get?_applyToAll_cons` — what is kept for everybody after a change of privileges
* `PrivilegeSection.inForce_applyToAll` — the privileges in force after it
* `Store.submit_applyPrivileges_again` — a change that is submitted again leaves the same sections
-/

namespace AccessControl

/-- What a section keeps of a set that was written: nothing if it is empty. -/
def PrivilegeSet.stored? (s : PrivilegeSet) : Option PrivilegeSet :=
  (some s).filter fun privileges => !privileges.isEmpty

theorem PrivilegeSet.getD_stored? (s : PrivilegeSet) : s.stored?.getD .empty = s := by
  by_cases hempty : s.isEmpty = true
  · rw [eq_empty_of_isEmpty hempty]
    rfl
  · simp [stored?, Option.filter, hempty]

namespace PrivilegeSection

/-- Several records for one user are written into one set, and the set is kept unless it is empty
after the last of them. -/
theorem get?_applyAll_cons (s : PrivilegeSection) (name other : String) (p : Privilege)
    (ps : List Privilege) :
    (s.applyAll name (p :: ps)).1.get? other =
      if other = name then ((s.inForce name).applyEach (p :: ps)).stored? else s.get? other := by
  induction ps generalizing s p with
  | nil => exact s.get?_apply name other p
  | cons q ps ih =>
    rw [applyAll_cons, ih, inForce_apply, if_pos rfl]
    by_cases hother : other = name
    · rw [if_pos hother, if_pos hother]
      rfl
    · rw [if_neg hother, if_neg hother, get?_apply, if_neg hother]

/-- After a change of privileges, each of its users has the records written once into the set that
was in force, and nobody else is touched. -/
theorem get?_applyToAll_cons (s : PrivilegeSection) (names : List String) (p : Privilege)
    (ps : List Privilege) (name : String) :
    (s.applyToAll names (p :: ps)).1.get? name =
      if name ∈ names then ((s.inForce name).applyEach (p :: ps)).stored? else s.get? name := by
  induction names generalizing s with
  | nil => rfl
  | cons first names ih =>
    rw [applyToAll_cons, ih, get?_applyAll_cons, inForce_applyAll]
    by_cases hfirst : name = first
    · -- for a user who is named again later, the records are written once more
      simp [hfirst, PrivilegeSet.applyEach_applyEach]
    · simp [hfirst]

/-- Without any records nothing is written, and an empty set stays where it is. -/
theorem applyToAll_nil (s : PrivilegeSection) (names : List String) :
    (s.applyToAll names []).1 = s := by
  induction names with
  | nil => rfl
  | cons first names ih =>
    rw [applyToAll_cons]
    exact ih

theorem inForce_applyToAll (s : PrivilegeSection) (names : List String) (ps : List Privilege)
    (name : String) :
    (s.applyToAll names ps).1.inForce name =
      if name ∈ names then (s.inForce name).applyEach ps else s.inForce name := by
  cases ps with
  | nil =>
    rw [applyToAll_nil]
    exact (ite_self _).symm
  | cons p ps =>
    rw [inForce, get?_applyToAll_cons]
    split
    · exact PrivilegeSet.getD_stored? _
    · rfl

/-- Once records are written for a user, nothing is kept of an empty set. -/
theorem get?_applyToAll_of_mem {s : PrivilegeSection} {names : List String} {ps : List Privilege}
    {name : String} (hps : ps ≠ []) (hname : name ∈ names) :
    (s.applyToAll names ps).1.get? name = ((s.applyToAll names ps).1.inForce name).stored? := by
  obtain ⟨p, ps, rfl⟩ := List.exists_cons_of_ne_nil hps
  rw [get?_applyToAll_cons, if_pos hname, inForce_applyToAll, if_pos hname]

/-- A change of privileges that is made once more changes nothing. -/
theorem applyToAll_applyToAll (s : PrivilegeSection) (names : List String) (ps : List Privilege) :
    ((s.applyToAll names ps).1.applyToAll names ps).1 = (s.applyToAll names ps).1 := by
  cases ps with
  | nil => exact applyToAll_nil ..
  | cons p ps =>
    refine ext_get? fun name => ?_
    rw [get?_applyToAll_cons, get?_applyToAll_cons s, inForce_applyToAll]
    by_cases hname : name ∈ names
    · rw [if_pos hname, if_pos hname, if_pos hname, PrivilegeSet.applyEach_applyEach]
    · rw [if_neg hname]

/-- It only matters who is named, not how often or in which order. -/
theorem applyToAll_congr {names names' : List String} (h : ∀ name, name ∈ names' ↔ name ∈ names)
    (s : PrivilegeSection) (ps : List Privilege) :
    (s.applyToAll names' ps).1 = (s.applyToAll names ps).1 := by
  cases ps with
  | nil => rw [applyToAll_nil, applyToAll_nil]
  | cons p ps =>
    refine ext_get? fun name => ?_
    simp only [get?_applyToAll_cons, h]

end PrivilegeSection

namespace Store

variable {s : Store} {names : List String} {ps : List Privilege} {affected : Nat}

/-- A change of privileges that is accepted is for users alone. -/
theorem contains_of_submit_applyPrivileges
    (h : (s.submit (.applyPrivileges names ps)).2 = .ok affected) :
    ∀ name ∈ names, s.metadata.users.contains name = true := by
  intro name hname
  cases hcontains : s.metadata.users.contains name with
  | true => rfl
  | false =>
    obtain ⟨e, hrefused⟩ := submit_applyPrivileges_of_absent ps hname hcontains
    cases h.symm.trans (congrArg Prod.snd hrefused)

/-- A change of privileges for users is accepted, and the number of rows that it affects is told. -/
theorem submit_applyPrivileges (hnames : ∀ name ∈ names, s.metadata.users.contains name = true)
    (ps : List Privilege) :
    (s.submit (.applyPrivileges names ps)).1.metadata =
        { s.metadata with privileges := (s.metadata.privileges.applyToAll names ps).1 } ∧
      (s.submit (.applyPrivileges names ps)).2 =
        .ok (s.metadata.privileges.applyToAll names ps).2 :=
  submit_of_commits (.applyPrivileges hnames)

/-- The users who are named are still there the second time. -/
theorem contains_of_applyPrivileges (hnames : ∀ name ∈ names, s.metadata.users.contains name = true)
    (ps : List Privilege) : ∀ name ∈ names,
      (s.submit (.applyPrivileges names ps)).1.metadata.users.contains name = true := by
  rw [(submit_applyPrivileges hnames ps).1]
  exact hnames

/-- A change of privileges that is submitted again is accepted again, and the sections stay. -/
theorem submit_applyPrivileges_twice (h : (s.submit (.applyPrivileges names ps)).2 = .ok affected) :
    let s' := (s.submit (.applyPrivileges names ps)).1
    (∃ again, (s'.submit (.applyPrivileges names ps)).2 = .ok again) ∧
      (s'.submit (.applyPrivileges names ps)).1.metadata = s'.metadata := by
  intro s'
  have hnames := contains_of_submit_applyPrivileges h
  have hfirst := (submit_applyPrivileges hnames ps).1
  obtain ⟨hsecond, hanswer⟩ :=
    submit_applyPrivileges (contains_of_applyPrivileges hnames ps) ps
  refine ⟨⟨_, hanswer⟩, ?_⟩
  rw [hsecond, hfirst, PrivilegeSection.applyToAll_applyToAll]

/-- Two changes of privileges with the same records, for the same users however often and in
whichever order they are named, leave the same sections, accepted or not. -/
theorem metadata_submit_applyPrivileges_congr (s : Store) (ps : List Privilege)
    {names names' : List String} (h : ∀ name, name ∈ names' ↔ name ∈ names) :
    (s.submit (.applyPrivileges names' ps)).1.metadata =
      (s.submit (.applyPrivileges names ps)).1.metadata := by
  by_cases hnames : ∀ name ∈ names, s.metadata.users.contains name = true
  · have hnames' : ∀ name ∈ names', s.metadata.users.contains name = true :=
      fun name hname => hnames name ((h name).mp hname)
    rw [(submit_applyPrivileges hnames ps).1, (submit_applyPrivileges hnames' ps).1,
      PrivilegeSection.applyToAll_congr h]
  · -- whoever is no user has both refused
    obtain ⟨name, hname, habsent⟩ : ∃ name ∈ names, s.metadata.users.contains name = false := by
      simpa using hnames
    obtain ⟨e, hrefused⟩ := submit_applyPrivileges_of_absent ps hname habsent
    obtain ⟨e', hrefused'⟩ := submit_applyPrivileges_of_absent ps ((h name).mpr hname) habsent
    rw [hrefused, hrefused']

/-- **Replaying a change of privileges is harmless.** From any store whatsoever, a change that is
accepted is accepted again, and leaves both sections as they are after the first time, record for
record. Whether it is accepted or not, names that are taken out because they stand there twice, and
names in another order, make no difference to the sections. -/
theorem submit_applyPrivileges_again (s : Store) (names : List String) (ps : List Privilege) :
    let r := WriteRequest.applyPrivileges names ps
    let s' := (s.submit r).1
    (∀ affected, (s.submit r).2 = .ok affected →
      (∃ again, (s'.submit r).2 = .ok again) ∧ (s'.submit r).1.metadata = s'.metadata) ∧
    ∀ names', (∀ name, name ∈ names' ↔ name ∈ names) →
      (s.submit (.applyPrivileges names' ps)).1.metadata = s'.metadata :=
  ⟨fun _ h => submit_applyPrivileges_twice h,
    fun _ h => metadata_submit_applyPrivileges_congr s ps h⟩

/-- A key is granted, revoked and denied by two users, for a user with records under foreign keys
and for one with an empty set: nothing new comes of it the second time, though rows are affected. -/
theorem submit_applyPrivileges_again_affected :
    let reading : Privilege.Key := ⟨.dql, .cluster⟩
    let writing : Privilege.Key := ⟨.dml, .table "doc.t"⟩
    let s : Store := .ofMetadata ⟨.ofList ["arthur", "ford"], .ofList [("arthur", .empty),
      ("ford",
        ⟨.ofList [(reading, ⟨.deny, writing, "crate"⟩), (writing, ⟨.revoke, writing, ""⟩)]⟩)]⟩
    let names := ["ford", "arthur", "ford"]
    let ps : List Privilege := [⟨.grant, reading, "crate"⟩, ⟨.revoke, reading, "crate"⟩,
      ⟨.deny, reading, "zaphod"⟩, ⟨.deny, reading, "trillian"⟩]
    (s.submit (.applyPrivileges names ps)).2 = .ok 9 ∧
      ((s.submit (.applyPrivileges names ps)).1.submit (.applyPrivileges names ps)).1.metadata =
        (s.submit (.applyPrivileges names ps)).1.metadata ∧
      ((s.submit (.applyPrivileges names ps)).1.submit (.applyPrivileges names ps)).2 = .ok 9 ∧
      (s.submit (.applyPrivileges names.dedup ps)).1.metadata =
        (s.submit (.applyPrivileges names ps)).1.metadata := by
  intro reading writing s names ps
  obtain ⟨htwice, hnames⟩ := s.submit_applyPrivileges_again names ps
  have hanswer : (s.submit (.applyPrivileges names ps)).2 = .ok 9 := by decide +kernel
  exact ⟨hanswer, (htwice 9 hanswer).2, by decide +kernel,
    hnames names.dedup fun _ => List.mem_dedup⟩

end Store

end AccessControl
