import AccessControl.Store.Basic
import AccessControl.Proofs.Commit
import AccessControl.Proofs.Directory

/-!
# What a commit changes

A request either is refused, or affects no row and changes nothing that a directory shows, or makes
the next version and announces it. So the notification that was sent last always gives the present
directory, although the metadata may have lost empty sets since it was sent.

## Main definitions

* `PrivilegeSection.inForce` — the privileges in force for a name
* `Store.run` — the store after a list of requests
* `Store.Announced` — the latest notification tells of the present version and directory

## Main results

* `PrivilegeSection.inForce_apply` — what writing a record does to the privileges in force
* `Metadata.directory_commit_unaffected` — without an affected row, the directory stays
* `Store.submit_cases` — everything that a request can do to a store
* `Store.run_induction` — what every request preserves holds after every list of requests
* `Store.Announced.run` — the latest notification is up to date after every list of requests
-/

namespace AccessControl

theorem PrivilegeSet.eq_empty_of_isEmpty {s : PrivilegeSet} (h : s.isEmpty = true) :
    s = .empty := by
  obtain ⟨⟨entries, _⟩⟩ := s
  obtain rfl : entries = [] := by simpa [isEmpty, SortedMap.isEmpty] using h
  rfl

/-- A set that is reported as unchanged is the same set. -/
theorem PrivilegeSet.apply_of_not_changed {s : PrivilegeSet} {p : Privilege}
    (h : (s.apply p).2 = false) : (s.apply p).1 = s := by
  unfold apply at h ⊢
  cases heffect : p.effect
  case grant | deny =>
    simp only [heffect] at h ⊢
    split at h
    · next hsame => rw [if_pos hsame]
    · cases h
  case revoke =>
    simp only [heffect] at h ⊢
    split at h
    · cases h
    · next habsent => rw [if_neg habsent]

/-! ### Counting folds -/

section Count

variable {σ α : Type} {f : σ → α → σ × Nat} {g : σ × Nat → α → σ × Nat}

/-- What was counted before is added to what is counted from here on. -/
theorem foldl_count (hg : ∀ s n a, g (s, n) a = ((f s a).1, n + (f s a).2)) (as : List α) (s : σ)
    (n : Nat) : as.foldl g (s, n) = ((as.foldl g (s, 0)).1, n + (as.foldl g (s, 0)).2) := by
  induction as generalizing s n with
  | nil => simp
  | cons a as ih =>
    rw [List.foldl_cons, List.foldl_cons, hg, hg, ih _ (n + _), ih _ (0 + _)]
    simp only [Nat.zero_add, Nat.add_assoc]

end Count

namespace PrivilegeSection

/-- The privileges in force for a name: the set that is kept for it, or none. -/
def inForce (s : PrivilegeSection) (name : String) : PrivilegeSet := (s.get? name).getD .empty

/-- Writing a record changes the privileges in force for its user alone, empty sets or not. -/
theorem inForce_apply (s : PrivilegeSection) (name other : String) (p : Privilege) :
    (s.apply name p).1.inForce other =
      if other = name then ((s.inForce name).apply p).1 else s.inForce other := by
  unfold inForce
  rw [get?_apply]
  split
  · -- an empty set is not kept, and is what is in force then
    by_cases hempty : (((s.get? name).getD .empty).apply p).1.isEmpty = true
    · rw [PrivilegeSet.eq_empty_of_isEmpty hempty]
      rfl
    · simp [Option.filter, hempty]
  · rfl

theorem inForce_apply_of_not_changed {s : PrivilegeSection} {name : String} {p : Privilege}
    (h : (s.apply name p).2 = false) : (s.apply name p).1.inForce = s.inForce := by
  funext other
  rw [inForce_apply]
  split
  · next hother =>
    subst hother
    exact PrivilegeSet.apply_of_not_changed h
  · rfl

theorem applyAll_cons (s : PrivilegeSection) (name : String) (p : Privilege) (ps : List Privilege) :
    s.applyAll name (p :: ps) =
      (((s.apply name p).1.applyAll name ps).1,
        (s.apply name p).2.toNat + ((s.apply name p).1.applyAll name ps).2) := by
  let write (s : PrivilegeSection) (p : Privilege) := ((s.apply name p).1, (s.apply name p).2.toNat)
  unfold applyAll
  rw [List.foldl_cons, foldl_count (f := write)]
  · simp only [Nat.zero_add]
  · exact fun _ _ _ => rfl

theorem applyToAll_cons (s : PrivilegeSection) (name : String) (names : List String)
    (ps : List Privilege) :
    s.applyToAll (name :: names) ps =
      (((s.applyAll name ps).1.applyToAll names ps).1,
        (s.applyAll name ps).2 + ((s.applyAll name ps).1.applyToAll names ps).2) := by
  unfold applyToAll
  rw [List.foldl_cons, foldl_count (f := fun s name => applyAll s name ps)]
  · simp only [Nat.zero_add]
  · exact fun _ _ _ => rfl

theorem inForce_applyAll_of_unaffected {s : PrivilegeSection} {name : String} {ps : List Privilege}
    (h : (s.applyAll name ps).2 = 0) : (s.applyAll name ps).1.inForce = s.inForce := by
  induction ps generalizing s with
  | nil => rfl
  | cons p ps ih =>
    rw [applyAll_cons] at h ⊢
    obtain ⟨hfirst, hrest⟩ := Nat.add_eq_zero_iff.mp h
    have hchanged : (s.apply name p).2 = false := by simpa using hfirst
    exact (ih hrest).trans (inForce_apply_of_not_changed hchanged)

theorem inForce_applyToAll_of_unaffected {s : PrivilegeSection} {names : List String}
    {ps : List Privilege} (h : (s.applyToAll names ps).2 = 0) :
    (s.applyToAll names ps).1.inForce = s.inForce := by
  induction names generalizing s with
  | nil => rfl
  | cons name names ih =>
    rw [applyToAll_cons] at h ⊢
    obtain ⟨hfirst, hrest⟩ := Nat.add_eq_zero_iff.mp h
    exact (ih hrest).trans (inForce_applyAll_of_unaffected hfirst)

end PrivilegeSection

namespace Metadata

variable {m m' : Metadata} {r : WriteRequest}

/-- A request that affects no row leaves every user as it is. -/
theorem directory_commit_unaffected (h : m.commit r = .ok (m', 0)) :
    Directory.ofMetadata m' = Directory.ofMetadata m := by
  generalize hcount : 0 = affected at h
  cases commit_eq_ok_iff.mp h with
  | createUser | dropUser => cases hcount
  | dropAbsent => rfl
  | @applyPrivileges names ps =>
    -- empty sets may be gone, and are what is in force for their users all the same
    have hforce := PrivilegeSection.inForce_applyToAll_of_unaffected hcount.symm
    refine Directory.rebuild_congr fun name _ _ => ?_
    exact congrArg (User.regular name) (congrFun hforce name)

end Metadata

namespace Store

/-- Everything that a request can do to a store: nothing, changes that no directory shows, or the
next version with its notification. -/
theorem submit_cases (s : Store) (r : WriteRequest) :
    (∃ e, s.submit r = (s, .error e)) ∨
    (∃ m, s.submit r = ({ s with metadata := m }, .ok 0) ∧
      Directory.ofMetadata m = Directory.ofMetadata s.metadata) ∨
    ∃ m affected, affected ≠ 0 ∧ s.submit r =
      (⟨s.version + 1, m, s.channel.send (.ofMetadata (s.version + 1) m)⟩, .ok affected) := by
  unfold submit
  split
  · next e _ => exact .inl ⟨e, rfl⟩
  · next m affected hcommit =>
    by_cases haffected : affected = 0
    · subst haffected
      exact .inr (.inl ⟨m, rfl, Metadata.directory_commit_unaffected hcommit⟩)
    · exact .inr (.inr ⟨m, affected, haffected, if_neg haffected⟩)

theorem submit_of_commits {s : Store} {r : WriteRequest} {m : Metadata} {affected : Nat}
    (h : s.metadata.Commits r m affected) :
    (s.submit r).1.metadata = m ∧ (s.submit r).2 = .ok affected := by
  unfold submit
  rw [h.commit_eq]
  by_cases haffected : affected = 0 <;> simp [haffected]

/-- A store as it is made: without users, or with metadata to start from. -/
inductive IsFresh : Store → Prop where
  | new : IsFresh .new
  | ofMetadata (m : Metadata) : IsFresh (.ofMetadata m)

/-- The latest notification tells of the present version, and calls for the present directory. -/
structure Announced (s : Store) : Prop where
  version : s.channel.value.version = s.version
  directory : Directory.ofChange s.channel.value = Directory.ofMetadata s.metadata

theorem IsFresh.announced {s : Store} (h : s.IsFresh) : s.Announced := by
  cases h with
  | new => exact ⟨rfl, Directory.ofChange_initial⟩
  | ofMetadata m => exact ⟨rfl, Directory.ofChange_ofMetadata 1 m⟩

theorem Announced.submit {s : Store} (h : s.Announced) (r : WriteRequest) :
    (s.submit r).1.Announced := by
  rcases s.submit_cases r with ⟨e, hs⟩ | ⟨m, hs, hdirectory⟩ | ⟨m, affected, -, hs⟩
  · rwa [hs]
  · rw [hs]
    exact ⟨h.version, h.directory.trans hdirectory.symm⟩
  · rw [hs]
    exact ⟨rfl, Directory.ofChange_ofMetadata _ m⟩

/-! ### Lists of requests -/

/-- The metadata after a request, which is what it was unless the request is accepted. -/
theorem metadata_submit (s : Store) (r : WriteRequest) :
    (s.submit r).1.metadata = s.metadata ∨
      ∃ affected, s.metadata.Commits r (s.submit r).1.metadata affected := by
  rcases s.metadata.commits_or_refuses r with ⟨m, affected, h⟩ | ⟨e, h⟩
  · rw [(submit_of_commits h).1]
    exact .inr ⟨affected, h⟩
  · exact .inl (by rw [submit, h.commit_eq])

/-- The store after requests that are submitted one after the other. -/
def run (s : Store) (rs : List WriteRequest) : Store := rs.foldl (fun s r => (s.submit r).1) s

/-- **Run lemma.** What every request preserves holds after every list of requests. -/
theorem run_induction {P : Store → Prop} (hsubmit : ∀ s r, P s → P (s.submit r).1) {s : Store}
    (h : P s) (rs : List WriteRequest) : P (s.run rs) := by
  induction rs generalizing s with
  | nil => exact h
  | cons r rs ih => exact ih (hsubmit s r h)

theorem Announced.run {s : Store} (h : s.Announced) (rs : List WriteRequest) :
    (s.run rs).Announced :=
  run_induction (fun _ r hs => hs.submit r) h rs

end Store

end AccessControl
