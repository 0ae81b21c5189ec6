import AccessControl.Privilege.Set

/-!
# Metadata of users

The metadata has two sections: the names of the users, and the privileges of users by name. Each is
a value of its own, and a change notification carries the sections that are present.

## Main definitions

* `UserSection`, `PrivilegeSection` — the two sections
* `PrivilegeSection.apply` — write one record for one user, keeping no empty sets
* `Metadata` — both sections
* `Change` — a notification: a version and the sections that are present
-/

namespace AccessControl

structure UserSection where
  members : SortedSet String
  deriving DecidableEq

namespace UserSection

def empty : UserSection := ⟨.empty⟩

instance : Inhabited UserSection := ⟨empty⟩

/-- The section of the names in a list. -/
def ofList (names : List String) : UserSection := ⟨.ofKeys names⟩

def names (s : UserSection) : List String := s.members.keys

def size (s : UserSection) : Nat := s.members.size

def isEmpty (s : UserSection) : Bool := s.members.isEmpty

def contains (s : UserSection) (name : String) : Bool := s.members.contains name

/-- The section with one more name; none if it is there already. -/
def add? (s : UserSection) (name : String) : Option UserSection :=
  if s.contains name then none else some ⟨s.members.insert name ()⟩

/-- The section without a name; none if it is not there. -/
def remove? (s : UserSection) (name : String) : Option UserSection :=
  if s.contains name then some ⟨s.members.erase name⟩ else none

theorem add?_eq_some_iff {s t : UserSection} {name : String} :
    s.add? name = some t ↔ s.contains name = false ∧ t = ⟨s.members.insert name ()⟩ := by
  unfold add?
  cases s.contains name <;> simp [eq_comm]

theorem add?_eq_none_iff {s : UserSection} {name : String} :
    s.add? name = none ↔ s.contains name = true := by
  unfold add?
  cases s.contains name <;> simp

theorem remove?_eq_some_iff {s t : UserSection} {name : String} :
    s.remove? name = some t ↔ s.contains name = true ∧ t = ⟨s.members.erase name⟩ := by
  unfold remove?
  cases s.contains name <;> simp [eq_comm]

theorem remove?_eq_none_iff {s : UserSection} {name : String} :
    s.remove? name = none ↔ s.contains name = false := by
  unfold remove?
  cases s.contains name <;> simp

/-- Adding a name adds nothing else. -/
theorem contains_of_add? {s t : UserSection} {name : String} (h : s.add? name = some t)
    (other : String) : t.contains other = (other = name || s.contains other) := by
  obtain ⟨-, rfl⟩ := add?_eq_some_iff.mp h
  by_cases hn : other = name <;> simp [contains, SortedMap.contains, SortedMap.get?_insert, hn]

/-- Removing a name removes nothing else. -/
theorem contains_of_remove? {s t : UserSection} {name : String} (h : s.remove? name = some t)
    (other : String) : t.contains other = (other ≠ name && s.contains other) := by
  obtain ⟨-, rfl⟩ := remove?_eq_some_iff.mp h
  by_cases hn : other = name <;> simp [contains, SortedMap.contains, SortedMap.get?_erase, hn]

/-- A section of users is determined by whom it contains. -/
theorem ext_contains {s t : UserSection} (h : ∀ name, s.contains name = t.contains name) :
    s = t := by
  obtain ⟨members⟩ := s
  obtain ⟨others⟩ := t
  have hget : ∀ name, members.get? name = others.get? name := by
    intro name
    have hsome : (members.get? name).isSome = (others.get? name).isSome := h name
    -- an entry carries no value, so all there is to know is whether it is there
    cases hm : members.get? name <;> cases ho : others.get? name <;> simp [hm, ho] at hsome ⊢
  rw [SortedMap.ext_get? hget]

end UserSection

/-- The privileges of users, by name. -/
structure PrivilegeSection where
  byUser : SortedMap String PrivilegeSet
  deriving DecidableEq

namespace PrivilegeSection

def empty : PrivilegeSection := ⟨.empty⟩

instance : Inhabited PrivilegeSection := ⟨empty⟩

/-- The section that a list of names with their sets writes. -/
def ofList (entries : List (String × PrivilegeSet)) : PrivilegeSection := ⟨.ofList entries⟩

/-- The names with their sets, ascending. -/
def entries (s : PrivilegeSection) : List (String × PrivilegeSet) := s.byUser.entries

/-- The set kept for a name, if there is one. -/
def get? (s : PrivilegeSection) (name : String) : Option PrivilegeSet := s.byUser.get? name

/-- Keep a set for a name, in place of the one that was there. -/
def set (s : PrivilegeSection) (name : String) (privileges : PrivilegeSet) : PrivilegeSection :=
  ⟨s.byUser.insert name privileges⟩

/-- Remove the set kept for a name. -/
def erase (s : PrivilegeSection) (name : String) : PrivilegeSection := ⟨s.byUser.erase name⟩

/-- Write one record for one user, and tell whether the user's set changed. A set that is empty
afterwards is not kept. -/
def apply (s : PrivilegeSection) (name : String) (p : Privilege) : PrivilegeSection × Bool :=
  let (privileges, changed) := ((s.get? name).getD .empty).apply p
  (if privileges.isEmpty then s.erase name else s.set name privileges, changed)

theorem get?_set (s : PrivilegeSection) (name other : String) (privileges : PrivilegeSet) :
    (s.set name privileges).get? other = if other = name then some privileges else s.get? other :=
  SortedMap.get?_insert ..

theorem get?_erase (s : PrivilegeSection) (name other : String) :
    (s.erase name).get? other = if other = name then none else s.get? other :=
  SortedMap.get?_erase ..

/-- Writing a record for a user touches no other user's set, and never leaves an empty one. -/
theorem get?_apply (s : PrivilegeSection) (name other : String) (p : Privilege) :
    (s.apply name p).1.get? other =
      if other = name then
        some (((s.get? name).getD .empty).apply p).1 |>.filter fun privileges => !privileges.isEmpty
      else s.get? other := by
  unfold apply
  dsimp only
  -- the set is either gone, being empty, or kept in its new form
  split
  · next h => simp [get?_erase, Option.filter, h]
  · next h => simp [get?_set, Option.filter, h]

/-- A section of privileges is determined by what it keeps for each name. -/
theorem ext_get? {s t : PrivilegeSection} (h : ∀ name, s.get? name = t.get? name) : s = t :=
  congrArg mk (SortedMap.ext_get? h)

end PrivilegeSection

/-- The two sections. -/
structure Metadata where
  users : UserSection
  privileges : PrivilegeSection
  deriving DecidableEq

def Metadata.empty : Metadata := ⟨.empty, .empty⟩

/-- A change notification. -/
structure Change where
  /-- The version of the store that it tells of; 0 before any write. -/
  version : Nat
  /-- The users, if that section is present. -/
  users : Option UserSection
  /-- The privileges, if that section is present. -/
  privileges : Option PrivilegeSection
  deriving DecidableEq

namespace Change

/-- The notification before any write: no section is present. -/
def initial : Change := ⟨0, none, none⟩

/-- The notification of a version with both sections. -/
def ofMetadata (version : Nat) (m : Metadata) : Change := ⟨version, some m.users, some m.privileges⟩

end Change

end AccessControl
