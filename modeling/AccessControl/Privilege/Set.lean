import AccessControl.Privilege.Basic
import AccessControl.SortedMap

/-!
# The privileges of a user

A user's privileges are records kept by key. Writing a GRANT or a DENY replaces a record of the
other effect and leaves one of the same effect, with its grantor, as it is; writing a REVOKE
removes the record. A set that was read from outside may hold a record under a foreign key; checks
go by the key, listings by the record.

## Main definitions

* `PrivilegeSet` — records by key
* `PrivilegeSet.apply` — the effect of one record on the set
* `PrivilegeSet.holds` — whether a permission is granted at exactly one scope
* `PrivilegeSet.sees` — whether a scope is visible: some permission's most specific record along
  the chain of scopes is a GRANT

## Main results

* `PrivilegeSet.get?_apply` — writing a record touches its own key alone, and what it leaves there
-/

namespace AccessControl

/-- The privilege records of a user, by key. -/
structure PrivilegeSet where
  byKey : SortedMap Privilege.Key Privilege
  deriving DecidableEq

namespace PrivilegeSet

def empty : PrivilegeSet := ⟨.empty⟩

instance : EmptyCollection PrivilegeSet := ⟨empty⟩

instance : Inhabited PrivilegeSet := ⟨empty⟩

/-- The records, in the order of the keys they are kept under. -/
def records (s : PrivilegeSet) : List Privilege := s.byKey.values

def size (s : PrivilegeSet) : Nat := s.byKey.size

def isEmpty (s : PrivilegeSet) : Bool := s.byKey.isEmpty

/-- The record at a key. -/
def get? (s : PrivilegeSet) (k : Privilege.Key) : Option Privilege := s.byKey.get? k

/-- Whether the record at a key, if there is one, has the given effect. -/
def hasEffect (s : PrivilegeSet) (k : Privilege.Key) (e : Effect) : Bool :=
  match s.get? k with
  | some record => record.effect = e
  | none => false

/-- The set after a record is written, and whether it changed. -/
def apply (s : PrivilegeSet) (p : Privilege) : PrivilegeSet × Bool :=
  match p.effect with
  | .revoke =>
    if (s.get? p.key).isSome then (⟨s.byKey.erase p.key⟩, true) else (s, false)
  | .grant | .deny =>
    if s.hasEffect p.key p.effect then (s, false) else (⟨s.byKey.insert p.key p⟩, true)

/-- What writing a record leaves at its key, where `old` was kept: nothing after a REVOKE, otherwise
the old record if it has the same effect, and the new one if it has not. -/
def written (p : Privilege) (old : Option Privilege) : Option Privilege :=
  match p.effect with
  | .revoke => none
  | .grant | .deny => if old.any (·.effect = p.effect) then old else some p

theorem hasEffect_eq_any (s : PrivilegeSet) (k : Privilege.Key) (e : Effect) :
    s.hasEffect k e = (s.get? k).any (·.effect = e) := by
  unfold hasEffect
  cases s.get? k <;> rfl

theorem hasEffect_iff {s : PrivilegeSet} {k : Privilege.Key} {e : Effect} :
    s.hasEffect k e = true ↔ ∃ record, s.get? k = some record ∧ record.effect = e := by
  rw [hasEffect_eq_any]
  cases s.get? k <;> simp

/-- Writing a record touches its own key alone. -/
theorem get?_apply (s : PrivilegeSet) (p : Privilege) (k : Privilege.Key) :
    (s.apply p).1.get? k = if k = p.key then written p (s.get? k) else s.get? k := by
  by_cases hk : k = p.key
  · subst hk
    unfold apply written
    simp only [hasEffect_eq_any, if_true]
    cases p.effect
    -- a GRANT or a DENY stays out of the way of a record of its own effect
    case grant | deny =>
      dsimp only
      split <;> simp [get?, SortedMap.get?_insert]
    -- a REVOKE finds a record to remove, or there is none to begin with
    case revoke =>
      dsimp only
      split
      · simp [get?, SortedMap.get?_erase]
      · next h => simpa using h
  · simp only [hk, if_false]
    unfold apply
    cases p.effect
    all_goals
      dsimp only
      split <;> simp [get?, SortedMap.get?_insert, SortedMap.get?_erase, hk]

/-- A set is determined by what it keeps at each key. -/
theorem ext_get? {s t : PrivilegeSet} (h : ∀ k, s.get? k = t.get? k) : s = t :=
  congrArg mk (SortedMap.ext_get? h)

/-- The records are what is kept at the keys. -/
theorem mem_records_iff {s : PrivilegeSet} {record : Privilege} :
    record ∈ s.records ↔ ∃ k, s.get? k = some record := by
  simp only [records, SortedMap.values, List.mem_map, Prod.exists, get?,
    ← SortedMap.mem_entries_iff, exists_eq_right]

/-- The set that results from writing records one after the other. -/
def ofList (ps : List Privilege) : PrivilegeSet := ps.foldl (fun s p => (s.apply p).1) empty

/-- Whether a permission is granted at exactly this scope. Access control is never granted by a
record. -/
def holds (s : PrivilegeSet) (k : Privilege.Key) : Bool :=
  k.permission ≠ .dcl && s.hasEffect k .grant

/-- The most specific record of a permission along the chain of a scope. -/
def closest? (s : PrivilegeSet) (p : Permission) (scope : Scope) : Option Privilege :=
  scope.chain.findSome? fun outer => s.get? ⟨p, outer⟩

/-- Whether a scope is visible: the most specific record of some permission other than access
control is a GRANT. -/
def sees (s : PrivilegeSet) (scope : Scope) : Bool :=
  Permission.grantable.any fun p =>
    match s.closest? p scope with
    | some record => record.effect = .grant
    | none => false

end PrivilegeSet

end AccessControl
