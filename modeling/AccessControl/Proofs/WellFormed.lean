import AccessControl.Proofs.Store

/-!
# Well-formed metadata

Metadata that was read from outside may hold anything: privileges of a name that is no user's, an
empty set, a record under a foreign key or one that revokes. The store itself writes nothing of the
kind, and it does not spoil what is in order.

## Main definitions

* `PrivilegeSet.Sound` — every record is kept under its own key, and none revokes
* `Metadata.WellFormed` — privileges are kept for users alone, who are not the built-in superuser,
  and every set that is kept is sound and has a record

## Main results

* `Metadata.WellFormed.commit` — an accepted request leaves well-formed metadata
* `Store.metadata_wellFormed` — so do all requests, one after the other
-/

namespace AccessControl

/-! ### Sets of records -/

namespace PrivilegeSet

/-- Every record is kept under its own key, and none revokes. -/
def Sound (s : PrivilegeSet) : Prop :=
  ∀ k record, s.get? k = some record → record.key = k ∧ record.effect ≠ .revoke

theorem sound_iff {s : PrivilegeSet} :
    s.Sound ↔ ∀ e ∈ s.byKey.entries, e.2.key = e.1 ∧ e.2.effect ≠ .revoke :=
  ⟨fun h e he => h e.1 e.2 (SortedMap.mem_entries_iff.mp he),
    fun h k record hk => h (k, record) (SortedMap.mem_entries_iff.mpr hk)⟩

instance : DecidablePred Sound := fun _ => decidable_of_iff' _ sound_iff

theorem sound_empty : Sound .empty := fun _ _ h => by cases h

/-- What is left at a record's key is the record itself, unless it revokes, or was there before. -/
theorem written_eq_some {p record : Privilege} {old : Option Privilege}
    (h : written p old = some record) : old = some record ∨ p.effect ≠ .revoke ∧ record = p := by
  unfold written at h
  cases heffect : p.effect
  case revoke =>
    rw [heffect] at h
    cases h
  case grant | deny =>
    simp only [heffect] at h
    split at h
    · exact .inl h
    · exact .inr ⟨nofun, (Option.some.inj h).symm⟩

theorem Sound.apply {s : PrivilegeSet} (h : s.Sound) (p : Privilege) : (s.apply p).1.Sound := by
  intro k record hrecord
  rw [get?_apply] at hrecord
  split at hrecord
  · next hk =>
    -- the record's own key, where the record is kept, or an old one that had the same effect
    subst hk
    rcases written_eq_some hrecord with hold | ⟨heffect, rfl⟩
    · exact h _ _ hold
    · exact ⟨rfl, heffect⟩
  · exact h k record hrecord

end PrivilegeSet

/-! ### Folds of writes -/

namespace PrivilegeSection

variable {P : PrivilegeSection → Prop} {s : PrivilegeSection} {ps : List Privilege}

theorem applyAll_induction {name : String} (happly : ∀ s p, P s → P (s.apply name p).1)
    (h : P s) : P (s.applyAll name ps).1 := by
  induction ps generalizing s with
  | nil => exact h
  | cons p ps ih =>
    rw [applyAll_cons]
    exact ih (happly s p h)

/-- What every record preserves that is written for one of the names holds after all of them. -/
theorem applyToAll_induction {names : List String}
    (happly : ∀ s, ∀ name ∈ names, ∀ p, P s → P (s.apply name p).1) (h : P s) :
    P (s.applyToAll names ps).1 := by
  induction names generalizing s with
  | nil => exact h
  | cons name names ih =>
    rw [applyToAll_cons]
    have hfirst : P (s.applyAll name ps).1 :=
      applyAll_induction (fun s p => happly s name List.mem_cons_self p) h
    exact ih (fun s other hother => happly s other (List.mem_cons_of_mem _ hother)) hfirst

/-- A set that is kept after a record was written is the one that was kept before, or has the
record written into it and is not empty. -/
theorem get?_apply_eq_some {name other : String} {p : Privilege} {set : PrivilegeSet}
    (h : (s.apply name p).1.get? other = some set) :
    s.get? other = some set ∨
      other = name ∧ set.isEmpty = false ∧ set = ((s.inForce name).apply p).1 := by
  rw [get?_apply] at h
  split at h
  · next hother =>
    obtain ⟨hset, hnonempty⟩ := Option.filter_eq_some_iff.mp h
    exact .inr ⟨hother, by simpa using hnonempty, (Option.some.inj hset).symm⟩
  · exact .inl h

end PrivilegeSection

/-! ### Both sections -/

namespace Metadata

/-- The metadata is as the store writes it. -/
structure WellFormed (m : Metadata) : Prop where
  superuser_absent : m.users.contains User.superuserName = false
  isUser : ∀ {name set}, m.privileges.get? name = some set → m.users.contains name = true
  nonempty : ∀ {name set}, m.privileges.get? name = some set → set.isEmpty = false
  sound : ∀ {name set}, m.privileges.get? name = some set → set.Sound

theorem wellFormed_iff {m : Metadata} :
    m.WellFormed ↔ m.users.contains User.superuserName = false ∧
      ∀ e ∈ m.privileges.entries,
        m.users.contains e.1 = true ∧ e.2.isEmpty = false ∧ e.2.Sound := by
  constructor
  · intro h
    refine ⟨h.superuser_absent, fun e he => ?_⟩
    have hfound := SortedMap.mem_entries_iff.mp he
    exact ⟨h.isUser hfound, h.nonempty hfound, h.sound hfound⟩
  · rintro ⟨hsuperuser, hentries⟩
    have hfound {name set} (h : m.privileges.get? name = some set) :=
      hentries (name, set) (SortedMap.mem_entries_iff.mpr h)
    exact ⟨hsuperuser, fun h => (hfound h).1, fun h => (hfound h).2.1, fun h => (hfound h).2.2⟩

instance : DecidablePred WellFormed := fun _ => decidable_of_iff' _ wellFormed_iff

theorem wellFormed_empty : WellFormed .empty := by decide

-- what is read from outside need not be well-formed: here an empty set is kept
example : ¬ WellFormed ⟨.ofList ["ford"], .ofList [("ford", .empty)]⟩ := by decide +kernel

variable {m m' : Metadata} {r : WriteRequest} {affected : Nat}

/-- The privileges in force are sound for every name, users or not. -/
theorem WellFormed.sound_inForce (h : m.WellFormed) (name : String) :
    (m.privileges.inForce name).Sound := by
  unfold PrivilegeSection.inForce
  cases hset : m.privileges.get? name with
  | none => exact PrivilegeSet.sound_empty
  | some set => exact h.sound hset

theorem WellFormed.apply (h : m.WellFormed) {name : String}
    (hname : m.users.contains name = true) (p : Privilege) :
    WellFormed { m with privileges := (m.privileges.apply name p).1 } := by
  refine ⟨h.superuser_absent, fun hset => ?_, fun hset => ?_, fun hset => ?_⟩
  -- each set was there before, or is the one that was written, of a user and with a record in it
  all_goals
    rcases PrivilegeSection.get?_apply_eq_some hset with hbefore | ⟨rfl, hnonempty, rfl⟩
  · exact h.isUser hbefore
  · exact hname
  · exact h.nonempty hbefore
  · exact hnonempty
  · exact h.sound hbefore
  · exact (h.sound_inForce _).apply p

theorem WellFormed.applyToAll (h : m.WellFormed) {names : List String}
    (hnames : ∀ name ∈ names, m.users.contains name = true) (ps : List Privilege) :
    WellFormed { m with privileges := (m.privileges.applyToAll names ps).1 } :=
  PrivilegeSection.applyToAll_induction (P := fun s => WellFormed { m with privileges := s })
    (fun _ name hname p hs => hs.apply (hnames name hname) p) h

theorem WellFormed.createUser (h : m.WellFormed) {name : String} {users : UserSection}
    (hname : name ≠ User.superuserName) (hadd : m.users.add? name = some users) :
    WellFormed { m with users } := by
  have hcontains := UserSection.contains_of_add? hadd
  -- no privileges change, and the users that have some are still there
  refine ⟨?_, fun hset => ?_, h.nonempty, h.sound⟩
  · simp [hcontains, hname.symm, h.superuser_absent]
  · simp [hcontains, h.isUser hset]

/-- With a user go the privileges of the user, and nobody else's. -/
theorem WellFormed.dropUser (h : m.WellFormed) {name : String} {users : UserSection}
    (hremove : m.users.remove? name = some users) :
    WellFormed ⟨users, m.privileges.erase name⟩ := by
  have hcontains := UserSection.contains_of_remove? hremove
  -- a set that is still there belongs to somebody else, who is still a user
  have hbefore {other set} (hset : (m.privileges.erase name).get? other = some set) :
      other ≠ name ∧ m.privileges.get? other = some set := by
    simpa [PrivilegeSection.get?_erase] using hset
  refine ⟨?_, fun hset => ?_, fun hset => h.nonempty (hbefore hset).2,
    fun hset => h.sound (hbefore hset).2⟩
  · simp [hcontains, h.superuser_absent]
  · obtain ⟨hother, hset⟩ := hbefore hset
    simp [hcontains, hother, h.isUser hset]

/-- **Step lemma.** An accepted request leaves well-formed metadata well-formed. -/
theorem WellFormed.commit (h : m.WellFormed) (hr : m.Commits r m' affected) : m'.WellFormed := by
  cases hr with
  | createUser hname hadd => exact h.createUser hname hadd
  | dropUser hremove => exact h.dropUser hremove
  | dropAbsent => exact h
  | @applyPrivileges names ps hnames => exact h.applyToAll hnames ps

end Metadata

namespace Store

theorem wellFormed_submit {s : Store} (h : s.metadata.WellFormed) (r : WriteRequest) :
    (s.submit r).1.metadata.WellFormed := by
  rcases s.metadata_submit r with hsame | ⟨affected, hcommits⟩
  · rwa [hsame]
  · exact h.commit hcommits

theorem wellFormed_run {s : Store} (h : s.metadata.WellFormed) (rs : List WriteRequest) :
    (s.run rs).metadata.WellFormed :=
  run_induction (P := fun s => s.metadata.WellFormed) (fun _ r h => wellFormed_submit h r) h rs

/-- **The store keeps its metadata well-formed.** A store that starts empty has well-formed metadata
after any requests, accepted or refused. Every single request preserves it, from any state of the
store; so a store that starts with well-formed metadata keeps it well-formed, too. -/
theorem metadata_wellFormed :
    (∀ rs, (new.run rs).metadata.WellFormed) ∧
    (∀ (s : Store) (r : WriteRequest), s.metadata.WellFormed →
      (s.submit r).1.metadata.WellFormed) ∧
    ∀ (m : Metadata) (rs : List WriteRequest), m.WellFormed →
      ((ofMetadata m).run rs).metadata.WellFormed :=
  ⟨fun rs => wellFormed_run Metadata.wellFormed_empty rs, fun _ r h => wellFormed_submit h r,
    fun _ rs h => wellFormed_run h rs⟩

/-- A record is written, replaced and taken back, a user with privileges is dropped, and nobody may
be called like the superuser: everything stays in order. -/
theorem metadata_wellFormed_of_ford :
    let reading : Privilege.Key := ⟨.dql, .cluster⟩
    let m : Metadata := ⟨.ofList ["arthur", "ford"],
      .ofList [("ford", .ofList [⟨.grant, reading, "crate"⟩])]⟩
    let rs : List WriteRequest :=
      [.applyPrivileges ["ford", "arthur"] [⟨.deny, reading, "crate"⟩, ⟨.revoke, reading, "crate"⟩,
        ⟨.grant, ⟨.dml, .schema "doc"⟩, "crate"⟩],
        .createUser "crate", .dropUser "ford" false]
    m.WellFormed ∧ ((ofMetadata m).run rs).metadata.WellFormed ∧
      (((ofMetadata m).run rs).submit (.dropUser "arthur" true)).1.metadata.WellFormed := by
  intro reading m rs
  have hm : m.WellFormed := by decide +kernel
  obtain ⟨-, hsubmit, hrun⟩ := metadata_wellFormed
  exact ⟨hm, hrun m rs hm, hsubmit _ _ (hrun m rs hm)⟩

end Store

end AccessControl
