import AccessControl.Manager.Listener

/-!
# A node

A node holds a store, and may run a manager with or without a listener. The store lives as long as
its owner or a manager holds it; then its channel closes, and only the last value remains.

## Main definitions

* `Node` — the store, the manager and the listener of a node
* `Node.start`, `Node.restart` — a node with a manager, and a new manager on the same store
* `Node.request`, `Node.submit` — requests through the manager, and straight to the store
* `Node.listen`, `Node.settle` — one step of the listener, and its steps until it rests
-/

namespace AccessControl

/-- A store with the manager and the listener on it. -/
structure Node where
  store : Store
  /-- Whether the store's owner holds it. -/
  held : Bool
  /-- The manager, which holds the store too. -/
  manager : Option Manager
  listener : Option Listener
  deriving DecidableEq

namespace Node

/-- A node on which nothing runs. -/
def ofStore (s : Store) : Node := ⟨s, true, none, none⟩

/-- Whether anybody holds the store. -/
def live (n : Node) : Bool := n.held || n.manager.isSome

/-- Subscribe a new listener. -/
def attachListener (n : Node) : Node :=
  { n with listener := some (.subscribed n.store.channel) }

/-- Start a new manager from the store's latest notification. -/
def attachManager (n : Node) : Node := { n with manager := some (.ofStore n.store) }

/-- Replace the manager and the listener, if any, by a new manager with or without a listener. The
listener subscribes before the manager starts. -/
def launch (n : Node) (listening : Bool) : Node :=
  let n := { n with listener := none }
  (if listening then n.attachListener else n).attachManager

/-- A node with a manager on a store. -/
def start (s : Store) (listening : Bool) : Node := (ofStore s).launch listening

/-- The node with a new manager on the same store; none if the owner has let go of the store. -/
def restart (n : Node) (listening : Bool) : Option Node :=
  if n.held then some (n.launch listening) else none

/-- The manager is let go. -/
def dropManager (n : Node) : Node := { n with manager := none }

/-- The owner lets go of the store. -/
def dropStore (n : Node) : Node := { n with held := false }

/-- The node after a request straight to the store, and the answer. -/
def submit (n : Node) (r : WriteRequest) : Node × Except AccessError Nat :=
  let (store, answer) := n.store.submit r
  ({ n with store }, answer)

/-- The node after a request through a manager, and the answer: the manager's refusal, or the
store's answer. -/
def request (n : Node) (m : Manager) (r : WriteRequest) : Node × Except AccessError Nat :=
  match m.vet r with
  | .error e => (n, .error e)
  | .ok () => n.submit r

/-- The node after a notification is applied by hand. -/
def apply (n : Node) (c : Change) : Node := { n with manager := n.manager.map (·.apply c) }

/-- The node after one step of its listener. -/
def listen (n : Node) : Node :=
  match n.listener with
  | none => n
  | some l =>
    let (l, manager) := l.step n.store.channel n.live n.manager
    { n with manager, listener := some l }

/-- The node after its listener has run until it waits or is finished. While nothing else happens,
three steps bring it there: at most it wakes up, reads and applies. -/
def settle (n : Node) : Node := n.listen.listen.listen

/-- Whether the listener is finished, if there is one. -/
def listenerFinished? (n : Node) : Option Bool := n.listener.map (·.phase = .finished)

end Node

end AccessControl
