import AccessControl.Directory.Snapshot
import AccessControl.Store.Basic

/-!
# The manager of a node

The manager keeps the current snapshot of the directory. It vets a request by that snapshot and
passes it on to the store; it learns of the outcome by the store's notifications alone, so the
snapshot may lag behind.

## Main definitions

* `Manager` — the holder of the current snapshot
* `Manager.ofStore` — a manager that starts from the store's latest notification
* `Manager.vet` — the check of a request against the snapshot
* `Manager.apply` — the manager after a notification
-/

namespace AccessControl

/-- The holder of the current snapshot. -/
structure Manager where
  /-- The snapshot that readers are given. -/
  snapshot : Snapshot
  deriving DecidableEq

namespace Manager

/-- A manager that starts from the store's latest notification. -/
def ofStore (s : Store) : Manager := ⟨.first (.ofChange s.channel.value)⟩

/-- The manager after a notification. -/
def apply (m : Manager) (c : Change) : Manager := ⟨m.snapshot.advance (.ofChange c)⟩

/-- Fails unless every name is that of a regular user in the snapshot; the first one that is not
decides. -/
def vetNames (snapshot : Snapshot) : List String → Except AccessError Unit
  | [] => .ok ()
  | name :: names =>
    match snapshot.find? name with
    | none => .error (.unknownUser name)
    | some user =>
      if user.superuser then .error (.superuserPrivileges name) else vetNames snapshot names

/-- Fails if the snapshot rules a request out. Creating a user is left to the store. -/
def vet (m : Manager) : WriteRequest → Except AccessError Unit
  | .createUser _ => .ok ()
  | .dropUser name _ =>
    match m.snapshot.find? name with
    | some user => if user.superuser then .error (.superuserDrop name) else .ok ()
    | none => .ok ()
  | .applyPrivileges names _ => vetNames m.snapshot names

end Manager

end AccessControl
