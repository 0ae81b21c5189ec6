import AccessControl.Binary.Format
import AccessControl.Store.WriteRequest

/-!
# Metadata as octets

The sections and the write requests are kept and sent as octets.

## Main definitions

* `UserSection.format`, `PrivilegeSection.format`, `WriteRequest.format` — their formats
-/

namespace AccessControl

open Binary

namespace Privilege

/-- A key: permission, level, object. -/
def Key.format : Format Privilege.Key :=
  (Format.pair (.cases Permission.all) (.pair (.cases Level.all) (.option .text))).convert
    (fun (permission, level, object) => ⟨permission, ⟨level, object⟩⟩)
    fun k => (k.permission, k.scope.level, k.scope.object)

/-- A record: effect, key, grantor. -/
def format : Format Privilege :=
  (Format.pair (.cases Effect.all) (.pair Key.format .text)).convert
    (fun (effect, key, grantor) => ⟨effect, key, grantor⟩) fun p => (p.effect, p.key, p.grantor)

end Privilege

/-- A set of privileges: its records by key. A record need not be about the key it is read under. -/
def PrivilegeSet.format : Format PrivilegeSet :=
  (Format.map Privilege.Key.format Privilege.format).convert (⟨·⟩) (·.byKey)

/-- The users: the set of their names. -/
def UserSection.format : Format UserSection := (Format.set .text).convert (⟨·⟩) (·.members)

/-- The privileges: the sets by user. -/
def PrivilegeSection.format : Format PrivilegeSection :=
  (Format.map .text PrivilegeSet.format).convert (⟨·⟩) (·.byUser)

namespace WriteRequest

/-- Dropping a user: name and whether it may be absent. -/
def dropFormat : Format (String × Bool) := .pair .text .bool

/-- Writing privileges: users and records. -/
def applyFormat : Format (List String × List Privilege) := .pair (.list .text) (.list Privilege.format)

/-- A request: the number of its case, then its fields. -/
def format : Format WriteRequest where
  write
    | .createUser name => writeWord Format.caseWidth 0 ++ Format.text.write name
    | .dropUser name ifExists => writeWord Format.caseWidth 1 ++ dropFormat.write (name, ifExists)
    | .applyPrivileges users privileges =>
      writeWord Format.caseWidth 2 ++ applyFormat.write (users, privileges)
  read := do
    match ← word Format.caseWidth with
    | 0 => return .createUser (← Format.text.read)
    | 1 =>
      let (name, ifExists) ← dropFormat.read
      return .dropUser name ifExists
    | 2 =>
      let (users, privileges) ← applyFormat.read
      return .applyPrivileges users privileges
    | n => throw (.unknownCase n 3)

end WriteRequest

end AccessControl
