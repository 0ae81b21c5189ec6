import AccessControl.Store.Channel
import AccessControl.Store.WriteRequest

/-!
# The metadata store

The store holds the metadata with a version, commits requests, and notifies its subscribers of every
commit that affected a row.

## Main definitions

* `Store` — the store
* `Store.new`, `Store.ofMetadata` — an empty store, and one that starts with metadata
* `Store.submit` — the store after a request, and the answer
-/

namespace AccessControl

/-- The metadata store. -/
structure Store where
  /-- The number of commits that affected a row, the metadata it started with counting as one. -/
  version : Nat
  metadata : Metadata
  channel : Channel Change
  deriving DecidableEq

namespace Store

/-- A store without users. -/
def new : Store := ⟨0, .empty, .new .initial⟩

/-- A store that starts with metadata, and has notified of it. -/
def ofMetadata (m : Metadata) : Store := ⟨1, m, (Channel.new .initial).send (.ofMetadata 1 m)⟩

/-- The store after a request, and the number of affected rows or why the request is refused. A new
version is made, and told of, only if a row was affected. -/
def submit (s : Store) (r : WriteRequest) : Store × Except AccessError Nat :=
  match s.metadata.commit r with
  | .error e => (s, .error e)
  | .ok (metadata, affected) =>
    -- the metadata is kept in either case: an empty set may be gone though no row was affected
    if affected = 0 then ({ s with metadata }, .ok 0)
    else
      let version := s.version + 1
      (⟨version, metadata, s.channel.send (.ofMetadata version metadata)⟩, .ok affected)

end Store

end AccessControl
