/-!
# Channels that hold the latest value

A channel holds the value sent last. A receiver remembers how many values had been sent when it
looked, so it can tell whether there is a newer one; values sent in between are passed over.

## Main definitions

* `Channel`, `Channel.send` — the latest value, and the number of values sent
* `Receiver`, `Channel.subscribe`, `Channel.hasNews` — what a receiver has seen
-/

namespace AccessControl

/-- The value sent last, and how many were sent. -/
structure Channel (α : Type) where
  /-- The value sent last, at first the one the channel was made with. -/
  value : α
  /-- The number of values sent since the channel was made. -/
  sent : Nat
  deriving DecidableEq

/-- How many of a channel's values a receiver has seen, passed over ones included. -/
structure Receiver where
  /-- The number of values that had been sent when the receiver looked. -/
  seen : Nat
  deriving DecidableEq

namespace Channel

variable {α : Type}

/-- A channel that holds a first value. -/
def new (first : α) : Channel α := ⟨first, 0⟩

/-- The channel after a value is sent. -/
def send (c : Channel α) (a : α) : Channel α := ⟨a, c.sent + 1⟩

/-- A receiver that has seen the present value. -/
def subscribe (c : Channel α) : Receiver := ⟨c.sent⟩

/-- Whether a value was sent that a receiver has not seen. -/
def hasNews (c : Channel α) (r : Receiver) : Bool := r.seen ≠ c.sent

theorem hasNews_subscribe (c : Channel α) : c.hasNews c.subscribe = false := by
  simp [hasNews, subscribe]

/-- What is sent is news to every receiver of before. -/
theorem hasNews_send {c : Channel α} {r : Receiver} (h : r.seen ≤ c.sent) (a : α) :
    (c.send a).hasNews r = true := by
  have hne : r.seen ≠ c.sent + 1 := by omega
  exact decide_eq_true hne

end Channel

end AccessControl
