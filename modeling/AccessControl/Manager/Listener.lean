import AccessControl.Manager.Basic

/-!
# The listener

The listener brings the store's notifications to the manager. It takes the latest value of the
channel, has the manager apply it, and waits for a newer one. It ends when it finds the manager
gone, or waits on a channel that nobody can send on.

## Main definitions

* `Listener`, `Listener.Phase` — what the listener has seen, and what it does next
* `Listener.step` — one step, beside the store's channel and the manager
-/

namespace AccessControl

/-- What the listener does next. -/
inductive Listener.Phase where
  /-- Take the latest value. -/
  | reading
  /-- Have the manager apply a value. -/
  | applying (c : Change)
  /-- Wait for a value that was not seen. -/
  | waiting
  /-- Nothing any more. -/
  | finished
  deriving DecidableEq

/-- The listener's place on the channel and in its loop. -/
structure Listener where
  receiver : Receiver
  phase : Listener.Phase
  deriving DecidableEq

namespace Listener

/-- A listener that has just subscribed. -/
def subscribed (c : Channel Change) : Listener := ⟨c.subscribe, .reading⟩

/-- One step of the listener, which may also change the manager. The store counts as `live` as long
as somebody can send on its channel. -/
def step (l : Listener) (c : Channel Change) (live : Bool) (manager : Option Manager) :
    Listener × Option Manager :=
  match l.phase with
  | .reading => (⟨c.subscribe, .applying c.value⟩, manager)
  | .applying change =>
    match manager with
    | some m => ({ l with phase := .waiting }, some (m.apply change))
    | none => ({ l with phase := .finished }, none)
  | .waiting =>
    -- a value that was not seen is taken even from a channel that nobody can send on any more
    if c.hasNews l.receiver then (⟨c.subscribe, .reading⟩, manager)
    else if live then (l, manager)
    else ({ l with phase := .finished }, manager)
  | .finished => (l, manager)

end Listener

end AccessControl
