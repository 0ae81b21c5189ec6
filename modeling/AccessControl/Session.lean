import AccessControl.Name
import AccessControl.User

/-!
# Sessions

A session keeps the user it was opened for and the schema of names written without one. A session
without a user, opened while authentication is off, passes every check; so does a superuser's.

## Main definitions

* `Session` — sessions
* `Session.restricted?` — the user that checks apply to
-/

namespace AccessControl

/-- Whom statements run for, and in which schema. -/
structure Session where
  /-- The user; none while authentication is off. -/
  user : Option User
  /-- The schema of names written without one. -/
  schema : String
  deriving DecidableEq

namespace Session

/-- A session without a user, in the default schema. -/
def anonymous : Session := ⟨none, defaultSchema⟩

/-- The user that checks apply to: none without a user or for a superuser. -/
def restricted? (s : Session) : Option User := s.user.filter fun u => !u.superuser

theorem restricted?_eq_some_iff {s : Session} {u : User} :
    s.restricted? = some u ↔ s.user = some u ∧ u.superuser = false := by
  simp [restricted?, Option.filter_eq_some_iff]

/-- Checks are skipped without a user and for a superuser. -/
theorem restricted?_eq_none_iff {s : Session} :
    s.restricted? = none ↔ s.user = none ∨ ∃ u, s.user = some u ∧ u.superuser = true := by
  cases h : s.user <;> simp [restricted?, h, Option.filter_eq_none_iff]

end Session

end AccessControl
