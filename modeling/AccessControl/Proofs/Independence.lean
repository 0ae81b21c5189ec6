import AccessControl.Proofs.Locality

/-!
# Independent requests commute

What a request does depends on nothing but the users that it names: whether they are there, and
which privileges are kept for them. Two stores that agree about those answer alike, and agree about
them afterwards. So of two requests that name nobody in common neither notices the other, and they
may come in either order.

The notifications need not be the same. A request may remove an empty set without affecting a row;
the other request announces the set if it comes first, and does not if it comes second.

## Main definitions

* `WriteRequest.Independent` — two requests name nobody in common
* `PrivilegeSection.AgreeOn`, `Metadata.AgreeOn` — metadata is alike as far as some users go
* `Store.versionsMade` — whether an answer comes with a new version

## Main results

* `Metadata.AgreeOn.commits`, `Metadata.AgreeOn.refuses` — metadata that agrees about whom a request
  names meets the request alike
* `Store.agreeOn_submit_submit` — both orders of two independent requests leave the same to whomever
  the second one does not name
* `Store.submit_comm` — independent requests commute
-/

namespace AccessControl

/-- Two requests name nobody in common. -/
def WriteRequest.Independent (r r' : WriteRequest) : Prop := ∀ name ∈ r.names, name ∉ r'.names

namespace WriteRequest

instance : DecidableRel Independent := fun r r' =>
  inferInstanceAs (Decidable (∀ name ∈ r.names, name ∉ r'.names))

theorem Independent.symm {r r' : WriteRequest} (h : r.Independent r') : r'.Independent r :=
  fun name hname' hname => h name hname hname'

end WriteRequest

/-! ### Agreement about some users -/

/-- Two sections keep the same privileges for some users. -/
def PrivilegeSection.AgreeOn (P : String → Prop) (s t : PrivilegeSection) : Prop :=
  ∀ name, P name → s.get? name = t.get? name

namespace PrivilegeSection.AgreeOn

variable {P : String → Prop} {s t : PrivilegeSection} {name : String}

theorem apply (h : AgreeOn P s t) (hname : P name) (p : Privilege) :
    (s.apply name p).2 = (t.apply name p).2 ∧
      AgreeOn P (s.apply name p).1 (t.apply name p).1 := by
  constructor
  · unfold PrivilegeSection.apply
    rw [h name hname]
  · intro other hother
    rw [get?_apply, get?_apply, h name hname, h other hother]

theorem applyAll (h : AgreeOn P s t) (hname : P name) (ps : List Privilege) :
    (s.applyAll name ps).2 = (t.applyAll name ps).2 ∧
      AgreeOn P (s.applyAll name ps).1 (t.applyAll name ps).1 := by
  induction ps generalizing s t with
  | nil => exact ⟨rfl, h⟩
  | cons p ps ih =>
    obtain ⟨hchanged, hfirst⟩ := h.apply hname p
    obtain ⟨hcount, hrest⟩ := ih hfirst
    rw [applyAll_cons, applyAll_cons, hchanged, hcount]
    exact ⟨rfl, hrest⟩

/-- Records for users about whom two sections agree change the sections alike. -/
theorem applyToAll {names : List String} (h : AgreeOn P s t) (hnames : ∀ name ∈ names, P name)
    (ps : List Privilege) :
    (s.applyToAll names ps).2 = (t.applyToAll names ps).2 ∧
      AgreeOn P (s.applyToAll names ps).1 (t.applyToAll names ps).1 := by
  induction names generalizing s t with
  | nil => exact ⟨rfl, h⟩
  | cons name names ih =>
    obtain ⟨hcount, hfirst⟩ := h.applyAll (hnames name List.mem_cons_self) ps
    obtain ⟨hcounts, hrest⟩ :=
      ih hfirst fun other hother => hnames other (List.mem_cons_of_mem _ hother)
    rw [applyToAll_cons, applyToAll_cons, hcount, hcounts]
    exact ⟨rfl, hrest⟩

end PrivilegeSection.AgreeOn

namespace Metadata

/-- Metadata is alike as far as some users go: the same of them are there, with the same privileges
kept for them. -/
structure AgreeOn (P : String → Prop) (m n : Metadata) : Prop where
  contains : ∀ name, P name → m.users.contains name = n.users.contains name
  privileges : m.privileges.AgreeOn P n.privileges

namespace AgreeOn

variable {P Q : String → Prop} {m m' n o : Metadata} {r : WriteRequest} {affected : Nat}
  {e : AccessError}

theorem symm (h : AgreeOn P m n) : AgreeOn P n m :=
  ⟨fun name hname => (h.contains name hname).symm, fun name hname => (h.privileges name hname).symm⟩

theorem trans (h : AgreeOn P m n) (h' : AgreeOn P n o) : AgreeOn P m o :=
  ⟨fun name hname => (h.contains name hname).trans (h'.contains name hname),
    fun name hname => (h.privileges name hname).trans (h'.privileges name hname)⟩

/-- Metadata that agrees about everybody is the same. -/
theorem eq_of_forall (h : AgreeOn P m n) (h' : AgreeOn Q m n) (hall : ∀ name, P name ∨ Q name) :
    m = n := by
  obtain ⟨users, privileges⟩ := m
  obtain ⟨users', privileges'⟩ := n
  congr
  · refine UserSection.ext_contains fun name => ?_
    exact (hall name).elim (h.contains name) (h'.contains name)
  · refine PrivilegeSection.ext_get? fun name => ?_
    exact (hall name).elim (h.privileges name) (h'.privileges name)

/-- Whomever a request names is a user in both or in neither. -/
theorem contains_named (h : AgreeOn P m n) (hnames : ∀ name ∈ r.names, P name) :
    ∀ name ∈ r.names, n.users.contains name = m.users.contains name :=
  fun name hname => (h.contains name (hnames name hname)).symm

/-- **Step lemma.** Metadata that agrees about the users whom a request names accepts it with the
same number of affected rows, and agrees afterwards about whomever it agreed about before. -/
theorem commits (h : AgreeOn P m n) (hnames : ∀ name ∈ r.names, P name)
    (hm : m.Commits r m' affected) : ∃ n', n.Commits r n' affected ∧ AgreeOn P m' n' := by
  have hcontains := h.contains_named hnames
  cases hm with
  | @createUser name users hname hadd =>
    have habsent := UserSection.add?_eq_some_iff.mp hadd
    have hadd' := UserSection.add?_eq_some_iff.mpr
      ⟨(hcontains name List.mem_cons_self).trans habsent.1, rfl⟩
    refine ⟨_, .createUser hname hadd', fun other hother => ?_, h.privileges⟩
    rw [UserSection.contains_of_add? hadd, UserSection.contains_of_add? hadd',
      h.contains other hother]
  | @dropUser name ifExists users hremove =>
    have hpresent := UserSection.remove?_eq_some_iff.mp hremove
    have hremove' := UserSection.remove?_eq_some_iff.mpr
      ⟨(hcontains name List.mem_cons_self).trans hpresent.1, rfl⟩
    refine ⟨_, .dropUser hremove', fun other hother => ?_, fun other hother => ?_⟩
    · rw [UserSection.contains_of_remove? hremove, UserSection.contains_of_remove? hremove',
        h.contains other hother]
    · rw [PrivilegeSection.get?_erase, PrivilegeSection.get?_erase, h.privileges other hother]
  | @dropAbsent name habsent =>
    exact ⟨n, .dropAbsent ((hcontains name List.mem_cons_self).trans habsent), h⟩
  | @applyPrivileges names ps hpresent =>
    have hpresent' : ∀ name ∈ names, n.users.contains name = true :=
      fun name hname => (hcontains name hname).trans (hpresent name hname)
    have hagree : ∀ name ∈ names, P name := hnames
    obtain ⟨hcount, hprivileges⟩ := h.privileges.applyToAll hagree ps
    rw [hcount]
    exact ⟨_, .applyPrivileges hpresent', h.contains, hprivileges⟩

/-- Metadata that agrees about the users whom a request names refuses it for the same reason. -/
theorem refuses (h : AgreeOn P m n) (hnames : ∀ name ∈ r.names, P name) (hm : m.Refuses r e) :
    n.Refuses r e := by
  have hcontains := h.contains_named hnames
  cases hm with
  | reservedName => exact .reservedName
  | takenName htaken => exact .takenName ((hcontains _ List.mem_cons_self).trans htaken)
  | absentUser habsent => exact .absentUser ((hcontains _ List.mem_cons_self).trans habsent)
  | absentName hbefore habsent =>
    -- the names before the first absent one are there in both, so it is the first in both
    refine .absentName (fun other hother => ?_) ?_
    · exact (hcontains other (List.mem_append_left _ hother)).trans (hbefore other hother)
    · exact (hcontains _ (List.mem_append_right _ List.mem_cons_self)).trans habsent

end AgreeOn

end Metadata

/-! ### The store -/

namespace Store

variable {P : String → Prop} {s t : Store} {r r' : WriteRequest}

/-- Stores that agree about the users whom a request names give it the same answer, and agree
afterwards about whomever they agreed about before. -/
theorem submit_of_agreeOn (h : Metadata.AgreeOn P s.metadata t.metadata)
    (hnames : ∀ name ∈ r.names, P name) :
    (s.submit r).2 = (t.submit r).2 ∧
      Metadata.AgreeOn P (s.submit r).1.metadata (t.submit r).1.metadata := by
  rcases s.metadata.commits_or_refuses r with ⟨m, affected, hs⟩ | ⟨e, hs⟩
  · obtain ⟨n, ht, hafter⟩ := h.commits hnames hs
    obtain ⟨hs, hanswer⟩ := submit_of_commits hs
    obtain ⟨ht, hanswer'⟩ := submit_of_commits ht
    rw [hanswer, hanswer', hs, ht]
    exact ⟨rfl, hafter⟩
  · have ht := h.refuses hnames hs
    rw [submit, hs.commit_eq, submit, ht.commit_eq]
    exact ⟨rfl, h⟩

/-- A request leaves everybody as they are whom it does not name. -/
theorem agreeOn_submit (s : Store) (r : WriteRequest) :
    Metadata.AgreeOn (· ∉ r.names) (s.submit r).1.metadata s.metadata :=
  ⟨fun _ hname => contains_submit hname, fun _ hname => get?_submit hname⟩

/-- A request is given the same answer before and after one that is independent of it. -/
theorem answer_submit_submit (s : Store) (h : r.Independent r') :
    ((s.submit r').1.submit r).2 = (s.submit r).2 :=
  (submit_of_agreeOn (s.agreeOn_submit r') h).1

/-- Both orders of two independent requests leave the same to whomever the second one does not
name. -/
theorem agreeOn_submit_submit (s : Store) (h : r.Independent r') :
    Metadata.AgreeOn (· ∉ r'.names) ((s.submit r).1.submit r').1.metadata
      ((s.submit r').1.submit r).1.metadata :=
  -- the first request does the same to them in either order, and the second one nothing
  ((s.submit r).1.agreeOn_submit r').trans (submit_of_agreeOn (s.agreeOn_submit r') h).2.symm

/-- The number of versions that a request with this answer makes. -/
def versionsMade : Except AccessError Nat → Nat
  | .error _ | .ok 0 => 0
  | .ok (_ + 1) => 1

theorem version_submit (s : Store) (r : WriteRequest) :
    (s.submit r).1.version = s.version + versionsMade (s.submit r).2 := by
  rcases s.submit_cases r with ⟨e, h⟩ | ⟨m, h, -⟩ | ⟨m, affected, haffected, h⟩
  · rw [h]
    rfl
  · rw [h]
    rfl
  · obtain ⟨more, rfl⟩ := Nat.exists_eq_succ_of_ne_zero haffected
    rw [h]
    rfl

/-- **Independent requests commute.** From any store whatsoever, two requests that name nobody in
common are given the same answers in either order, be it a number of affected rows or an error, and
leave the same users, the same privileges and the same version. -/
theorem submit_comm (s : Store) {r r' : WriteRequest} (h : r.Independent r') :
    ((s.submit r').1.submit r).2 = (s.submit r).2 ∧
    ((s.submit r).1.submit r').2 = (s.submit r').2 ∧
    ((s.submit r).1.submit r').1.metadata = ((s.submit r').1.submit r).1.metadata ∧
    ((s.submit r).1.submit r').1.version = ((s.submit r').1.submit r).1.version := by
  have hanswer := s.answer_submit_submit h
  have hanswer' := s.answer_submit_submit h.symm
  refine ⟨hanswer, hanswer', ?_, ?_⟩
  · -- nobody is named by both
    have hnobody : ∀ name, name ∉ r'.names ∨ name ∉ r.names := fun name =>
      Decidable.not_and_iff_not_or_not.mp fun hboth => h name hboth.2 hboth.1
    exact (s.agreeOn_submit_submit h).eq_of_forall (s.agreeOn_submit_submit h.symm).symm hnobody
  · simp only [version_submit, hanswer, hanswer']
    exact Nat.add_right_comm ..

/-- Nothing is left to revoke from one user, who loses an empty set, while another one is dropped.
The order shows in the notification alone. -/
theorem submit_comm_revoke_drop :
    let reading : Privilege.Key := ⟨.dql, .cluster⟩
    let s : Store := .ofMetadata ⟨.ofList ["arthur", "ford"],
      .ofList [("arthur", .ofList [⟨.grant, reading, "crate"⟩]), ("ford", .empty)]⟩
    let r : WriteRequest := .applyPrivileges ["ford", "ford"] [⟨.revoke, reading, "crate"⟩]
    let r' : WriteRequest := .dropUser "arthur" false
    r.Independent r' ∧
      ((s.submit r').1.submit r).2 = (s.submit r).2 ∧
      ((s.submit r).1.submit r').2 = (s.submit r').2 ∧
      ((s.submit r).1.submit r').1.metadata = ((s.submit r').1.submit r).1.metadata ∧
      ((s.submit r).1.submit r').1.version = ((s.submit r').1.submit r).1.version ∧
      (s.submit r).1.metadata ≠ s.metadata ∧ ((s.submit r).1.submit r').1.version = 2 ∧
      ((s.submit r).1.submit r').1.channel ≠ ((s.submit r').1.submit r).1.channel := by
  intro reading s r r'
  have hindependent : r.Independent r' := by decide
  obtain ⟨hanswer, hanswer', hmetadata, hversion⟩ := s.submit_comm hindependent
  exact ⟨hindependent, hanswer, hanswer', hmetadata, hversion, by decide +kernel,
    by decide +kernel, by decide +kernel⟩

end Store

end AccessControl
