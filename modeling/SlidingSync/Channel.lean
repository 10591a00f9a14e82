import SlidingSync.Event

/-!
# Listeners and channels

A listener is anything that takes events one by one and can report itself closed. A `Channel` is
the listener that keeps events for a receiver in a queue of bounded length: what does not fit is
left out and counted.
-/

namespace SlidingSync

class Listener (α : Type) where
  receive : α → Event → α
  isClosed : α → Bool

structure Channel where
  capacity : Nat
  queue : List Event := []
  /-- Number of events that found the queue full. No run comes near the `2 ^ 64` of a counter. -/
  dropped : Nat := 0
  receiverGone : Bool := false

namespace Channel

/-- An empty channel for `capacity` events; it has room for one at least. -/
def new (capacity : Nat) : Channel where
  capacity := max capacity 1

def send (c : Channel) (event : Event) : Channel :=
  if c.receiverGone then c
  else if c.queue.length < c.capacity then { c with queue := c.queue ++ [event] }
  else { c with dropped := c.dropped + 1 }

/-- Up to `count` events from the queue, oldest first, and the channel without them. -/
def take (c : Channel) (count : Nat) : List Event × Channel :=
  (c.queue.take count, { c with queue := c.queue.drop count })

/-- The channel after its receiver has gone, with what it had not received. -/
def close (c : Channel) : Channel :=
  { c with queue := [], receiverGone := true }

end Channel

instance : Listener Channel where
  receive := Channel.send
  isClosed := Channel.receiverGone

end SlidingSync
