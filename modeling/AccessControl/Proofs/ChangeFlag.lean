import AccessControl.Metadata.Encoding
import AccessControl.Proofs.Replay
import AccessControl.Proofs.Revocation

/-!
# What is told of a change

Writing a record tells whether the user's set has changed, and of the set this is true to the letter.
The section may change beyond that: an empty set that it keeps for the user, as sections from outside
may do, is gone after any record, and a REVOKE that finds nothing to remove does not tell. The store
makes a new version by what is told, so such a section is no longer the one it last announced.

A section that keeps no empty set stays without, and what is told of it is the whole truth.

## Main definitions

* `PrivilegeSection.KeepsEmpty` — an empty set is kept for a name
* `WriteRequest.WritesFor` — a request writes a record for a user

## Main results

* `PrivilegeSet.apply_eq_self_iff` — of a set, what is told is true
* `PrivilegeSection.apply_eq_self_iff` — a section is the same if nothing is told and no empty set
  was kept for the user
* `PrivilegeSection.apply_tells_of_change` — so of records, requests and whole runs
-/

namespace AccessControl

theorem PrivilegeSet.stored?_empty : empty.stored? = none := rfl

theorem PrivilegeSet.stored?_of_ne {s : PrivilegeSet} (h : s ≠ .empty) : s.stored? = some s := by
  simp [stored?, Option.filter, mt eq_empty_of_isEmpty h]

/-- A set is the same after a record if and only if no change is told. -/
theorem PrivilegeSet.apply_eq_self_iff {s : PrivilegeSet} {p : Privilege} :
    (s.apply p).1 = s ↔ (s.apply p).2 = false := by
  refine ⟨fun hsame => ?_, apply_of_not_changed⟩
  -- the record's key is as the record leaves it, and was so before
  have hkept : s.effectAt? p.key = p.effect.kept? := by
    rw [← hsame, effectAt?_apply, if_pos rfl]
  exact Bool.eq_false_iff.mpr fun hchanged => changed_apply_iff.mp hchanged hkept

/-- A record is written for this user, whether or not the request is refused. -/
def WriteRequest.WritesFor : WriteRequest → String → Prop
  | .applyPrivileges names ps, name => name ∈ names ∧ ps ≠ []
  | .createUser _, _ | .dropUser _ _, _ => False

namespace PrivilegeSection

variable {s : PrivilegeSection} {name other : String} {names : List String} {p : Privilege}
  {ps : List Privilege}

/-- An empty set is kept for a name, where none might be kept as well. -/
def KeepsEmpty (s : PrivilegeSection) (name : String) : Prop := s.get? name = some .empty

instance (s : PrivilegeSection) : DecidablePred s.KeepsEmpty := fun _ =>
  inferInstanceAs (Decidable (_ = _))

/-- What is in force for a user is what is kept, unless that is an empty set. -/
theorem stored?_inForce_eq_iff : (s.inForce name).stored? = s.get? name ↔ ¬ s.KeepsEmpty name := by
  unfold inForce KeepsEmpty
  cases s.get? name with
  | none => exact ⟨fun _ => nofun, fun _ => PrivilegeSet.stored?_empty⟩
  | some set =>
    by_cases hempty : set = .empty
    · simp [hempty, PrivilegeSet.stored?_empty]
    · simp [hempty, PrivilegeSet.stored?_of_ne hempty]

/-! ### Records -/

/-- After a record for a user, no empty set is kept for this user. -/
theorem keepsEmpty_apply (h : (s.apply name p).1.KeepsEmpty other) :
    other ≠ name ∧ s.KeepsEmpty other := by
  unfold KeepsEmpty at h
  rw [get?_apply] at h
  split at h
  · have hnonempty := (Option.filter_eq_some_iff.mp h).2
    cases hnonempty
  · next hother => exact ⟨hother, h⟩

/-- A section is the same after a record if and only if no change of the set is told, and no empty
set was kept for the user. -/
theorem apply_eq_self_iff :
    (s.apply name p).1 = s ↔ (s.apply name p).2 = false ∧ ¬ s.KeepsEmpty name := by
  have hset : (s.apply name p).2 = false ↔ ((s.inForce name).apply p).1 = s.inForce name :=
    PrivilegeSet.apply_eq_self_iff.symm
  rw [hset]
  constructor
  · intro hsame
    refine ⟨?_, fun hempty => (keepsEmpty_apply (hsame.symm ▸ hempty)).1 rfl⟩
    have hforce := s.inForce_apply name name p
    rwa [hsame, if_pos rfl, eq_comm] at hforce
  · rintro ⟨hsame, hkept⟩
    refine ext_get? fun other => ?_
    rw [get?_apply]
    split
    · next hother =>
      subst hother
      have hstored : (((s.inForce other).apply p).1).stored? = s.get? other := by
        rw [hsame, stored?_inForce_eq_iff.mpr hkept]
      exact hstored
    · rfl

/-! ### Requests -/

/-- A section is the same after records that affect no row, if and only if it kept no empty set for
any of the users. -/
theorem applyToAll_eq_self_iff (h : (s.applyToAll names ps).2 = 0) :
    (s.applyToAll names ps).1 = s ↔ ∀ name, name ∈ names ∧ ps ≠ [] → ¬ s.KeepsEmpty name := by
  have hforce := inForce_applyToAll_of_unaffected h
  constructor
  · rintro hsame name ⟨hname, hps⟩
    have hstored := get?_applyToAll_of_mem (s := s) hps hname
    rw [hsame] at hstored
    exact stored?_inForce_eq_iff.mp hstored.symm
  · intro hkept
    cases ps with
    | nil => exact applyToAll_nil s names
    | cons p ps =>
      refine ext_get? fun name => ?_
      by_cases hname : name ∈ names
      · have hstored := get?_applyToAll_of_mem (s := s) (List.cons_ne_nil p ps) hname
        rw [hstored, hforce, stored?_inForce_eq_iff.mpr (hkept name ⟨hname, List.cons_ne_nil p ps⟩)]
      · rw [get?_applyToAll_cons, if_neg hname]

theorem keepsEmpty_applyToAll (h : (s.applyToAll names ps).1.KeepsEmpty other) :
    s.KeepsEmpty other := by
  have hkept : (s.applyToAll names ps).1.KeepsEmpty other → s.KeepsEmpty other :=
    applyToAll_induction (P := fun t => t.KeepsEmpty other → s.KeepsEmpty other)
      (fun _ _ _ _ ht hkept => ht (keepsEmpty_apply hkept).2) id
  exact hkept h

end PrivilegeSection

namespace Store

variable {s : Store} {r : WriteRequest}

/-- No request makes the section keep an empty set. -/
theorem keepsEmpty_submit {name : String}
    (h : (s.submit r).1.metadata.privileges.KeepsEmpty name) :
    s.metadata.privileges.KeepsEmpty name := by
  rcases s.metadata_submit r with hsame | ⟨affected, hcommits⟩
  · rwa [hsame] at h
  · generalize (s.submit r).1.metadata = m at h hcommits
    cases hcommits with
    | createUser | dropAbsent => exact h
    | dropUser =>
      unfold PrivilegeSection.KeepsEmpty at h
      rw [PrivilegeSection.get?_erase] at h
      split at h
      · cases h
      · exact h
    | applyPrivileges => exact PrivilegeSection.keepsEmpty_applyToAll h

/-- A request that affects no row leaves the same section, if and only if it writes no record for a
user for whom an empty set is kept. -/
theorem privileges_submit_of_unaffected_iff (h : (s.submit r).2 = .ok 0) :
    (s.submit r).1.metadata.privileges = s.metadata.privileges ↔
      ∀ name, r.WritesFor name → ¬ s.metadata.privileges.KeepsEmpty name := by
  rcases s.metadata.commits_or_refuses r with ⟨m, affected, hcommits⟩ | ⟨e, hrefuses⟩
  · obtain ⟨hmetadata, hanswer⟩ := submit_of_commits hcommits
    have hunaffected : affected = 0 := Except.ok.inj (hanswer.symm.trans h)
    rw [hmetadata]
    cases hcommits with
    | createUser | dropUser => cases hunaffected
    | dropAbsent => exact ⟨fun _ _ => False.elim, fun _ => rfl⟩
    | applyPrivileges => exact PrivilegeSection.applyToAll_eq_self_iff hunaffected
  · rw [submit, hrefuses.commit_eq] at h
    cases h

end Store

/-- **What is told of a change.** A record changes a section if and only if a change is told or an
empty set was kept for the user. A request that affects no row leaves the section as it was if and
only if it writes no record for a user for whom an empty set is kept. So of a store that starts with
a section without empty sets, a request that affects no row leaves the section, and the octets that
are written for it, exactly as they were, after whatever requests. -/
theorem PrivilegeSection.apply_tells_of_change (s : PrivilegeSection) (name : String)
    (p : Privilege) (store : Store) (rs : List WriteRequest) (r : WriteRequest) :
    ((s.apply name p).1 ≠ s ↔ (s.apply name p).2 = true ∨ s.KeepsEmpty name) ∧
    ((store.submit r).2 = .ok 0 →
      ((store.submit r).1.metadata.privileges = store.metadata.privileges ↔
        ∀ name, r.WritesFor name → ¬ store.metadata.privileges.KeepsEmpty name)) ∧
    ((∀ name, ¬ store.metadata.privileges.KeepsEmpty name) →
      ((store.run rs).submit r).2 = .ok 0 →
        ((store.run rs).submit r).1.metadata.privileges = (store.run rs).metadata.privileges ∧
        PrivilegeSection.format.encode ((store.run rs).submit r).1.metadata.privileges =
          PrivilegeSection.format.encode (store.run rs).metadata.privileges) := by
  refine ⟨?_, Store.privileges_submit_of_unaffected_iff, fun hstore hanswer => ?_⟩
  · rw [ne_eq, apply_eq_self_iff, not_and_or, not_not, Bool.not_eq_false]
  · have hrun : ∀ name, ¬ (store.run rs).metadata.privileges.KeepsEmpty name :=
      Store.run_induction (P := fun s => ∀ name, ¬ s.metadata.privileges.KeepsEmpty name)
        (fun _ _ hs name hkept => hs name (Store.keepsEmpty_submit hkept)) hstore rs
    have hsame := (Store.privileges_submit_of_unaffected_iff hanswer).mpr fun name _ => hrun name
    exact ⟨hsame, congrArg _ hsame⟩

/-- A GRANT that is there already and a REVOKE that finds nothing affect no row. They leave the
section as it was where an empty set is kept for somebody else, and in a store that started empty. -/
theorem PrivilegeSection.apply_tells_of_change_empty_set_of_another :
    let granted : Privilege := ⟨.grant, ⟨.dql, .cluster⟩, "crate"⟩
    let again : Privilege := { granted with grantor := "arthur" }
    let absent : Privilege := ⟨.revoke, ⟨.dml, .table "doc.t"⟩, "crate"⟩
    let kept := (empty.set "arthur" .empty).set "ford" (.ofList [granted])
    let s : Store := .ofMetadata ⟨.ofList ["arthur", "ford"], kept⟩
    let rs : List WriteRequest := [.createUser "ford", .applyPrivileges ["ford"] [granted]]
    let r : WriteRequest := .applyPrivileges ["ford"] [again, absent]
    kept.KeepsEmpty "arthur" ∧ (s.submit r).2 = .ok 0 ∧
      (s.submit r).1.metadata.privileges = kept ∧
      ((Store.new.run rs).submit r).2 = .ok 0 ∧
      ((Store.new.run rs).submit r).1.metadata.privileges =
        (Store.new.run rs).metadata.privileges := by
  intro granted again absent kept s rs r
  obtain ⟨-, hsubmit, -⟩ := apply_tells_of_change kept "ford" again s rs r
  obtain ⟨-, -, hrun⟩ := apply_tells_of_change kept "ford" again .new rs r
  have hanswer : (s.submit r).2 = .ok 0 := by decide +kernel
  have hanswer' : ((Store.new.run rs).submit r).2 = .ok 0 := by decide +kernel
  refine ⟨by decide +kernel, hanswer, (hsubmit hanswer).mpr ?_, hanswer',
    (hrun (fun _ => nofun) hanswer').1⟩
  rintro name ⟨hname, -⟩
  obtain rfl := List.mem_singleton.mp hname
  decide +kernel

/-- A REVOKE that finds nothing in an empty set changes the section, and does not tell. The store
that is asked for it affects no row, and keeps and writes another section from then on. -/
theorem PrivilegeSection.apply_drops_empty_set_untold :
    let absent : Privilege := ⟨.revoke, ⟨.dql, .cluster⟩, "crate"⟩
    let kept := empty.set "ford" .empty
    let s : Store := .ofMetadata ⟨.ofList ["ford"], kept⟩
    let r : WriteRequest := .applyPrivileges ["ford"] [absent]
    kept.apply "ford" absent = (empty, false) ∧ kept ≠ empty ∧
      (s.submit r).2 = .ok 0 ∧ s.metadata.privileges = kept ∧
      (s.submit r).1.metadata.privileges = empty ∧
      PrivilegeSection.format.encode empty ≠ PrivilegeSection.format.encode kept := by
  decide +kernel

end AccessControl
