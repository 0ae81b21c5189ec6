import AccessControl.Directory.Basic

/-!
# Published snapshots

Readers hold on to the snapshot that was current when they looked. Each snapshot that is published
has a generation, one more than the snapshot before. A user who is the same in the next snapshot is
handed on: the entry keeps the generation in which this very user appeared. So an entry's identity
is its name with that generation, and a snapshot's identity is its generation.

## Main definitions

* `Snapshot`, `Snapshot.Entry` — a directory whose entries know since when they are there
* `Snapshot.first` — the snapshot of a directory that has no predecessor
* `Snapshot.handOn` — the next snapshot, taking over the entries of unchanged users
* `Snapshot.advance` — the snapshot that is current after a directory was computed: the same if the
  directory is
* `Snapshot.directory` — the directory of a snapshot
-/

namespace AccessControl

/-- A user in a snapshot. -/
structure Snapshot.Entry where
  /-- The generation of the snapshot in which the user appeared as it is. -/
  since : Nat
  user : User
  deriving DecidableEq

/-- A published directory. -/
structure Snapshot where
  /-- The number of snapshots published before. -/
  generation : Nat
  byName : SortedMap String Snapshot.Entry
  deriving DecidableEq

namespace Snapshot

/-- The directory of a snapshot. -/
def directory (s : Snapshot) : Directory := ⟨s.byName.mapEntries fun _ entry => entry.user⟩

/-- The entry of a name, if there is one. -/
def get? (s : Snapshot) (name : String) : Option Entry := s.byName.get? name

/-- The user of a name, if there is one. -/
def find? (s : Snapshot) (name : String) : Option User := (s.get? name).map (·.user)

/-- The snapshot of a directory that has no predecessor. -/
def first (d : Directory) : Snapshot := ⟨0, d.byName.mapEntries fun _ user => ⟨0, user⟩⟩

/-- The entry for a user in the snapshot after `previous`: the previous one if the user is the
same, else a new one. -/
def nextEntry (previous : Snapshot) (name : String) (user : User) : Entry :=
  match previous.get? name with
  | some entry => if entry.user = user then entry else ⟨previous.generation + 1, user⟩
  | none => ⟨previous.generation + 1, user⟩

/-- The snapshot of a directory after `previous`, which takes over the entries of the users that
are the same. -/
def handOn (previous : Snapshot) (d : Directory) : Snapshot :=
  ⟨previous.generation + 1, d.byName.mapEntries previous.nextEntry⟩

/-- The snapshot that is current once a directory was computed: a new one only if it differs. -/
def advance (previous : Snapshot) (d : Directory) : Snapshot :=
  if d = previous.directory then previous else previous.handOn d

/-- The names whose entries in `s` are those of `previous`. -/
def shared (s previous : Snapshot) : List String :=
  (s.byName.entries.filter fun (name, entry) => previous.get? name = some entry).map (·.1)

end Snapshot

end AccessControl
