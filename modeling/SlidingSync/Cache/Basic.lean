import SlidingSync.Channel
import SlidingSync.Error
import SlidingSync.Room

/-!
# The cache

The cache holds a summary of every room and the listeners that want to hear of new events. Events
are applied one by one: first the summary of the room changes, then every registered listener gets
the event, in the order of their handles. A listener that is closed after a delivery is no longer
registered.

Listeners that are no longer registered stay known to the cache, since whoever subscribed them may
still look at what they hold; they get no more events.
-/

namespace SlidingSync

structure Subscription (α : Type) where
  listener : α
  registered : Bool

/-- Room summaries, and listeners with state `α` by handle. -/
structure Cache (α : Type) where
  phase : Phase := .uninitialized
  rooms : SortedMap RoomId RoomSummary := .empty
  subscriptions : SortedMap Nat (Subscription α) := .empty
  /-- No run comes near the `2 ^ 64` subscriptions after which a counter would start anew. -/
  nextHandle : Nat := 0

structure Delivery where
  handle : Nat
  event : Event

variable {α : Type}

namespace Subscription

def deliver [Listener α] (s : Subscription α) (event : Event) : Subscription α :=
  if s.registered then
    let listener := Listener.receive s.listener event
    ⟨listener, !Listener.isClosed listener⟩
  else s

end Subscription

namespace Cache

/-- Handles of the registered listeners in ascending order. -/
def registeredHandles (c : Cache α) : List Nat :=
  (c.subscriptions.entries.filter fun entry => entry.2.registered).map (·.1)

def roomCount (c : Cache α) : Nat :=
  c.rooms.size

def listenerCount (c : Cache α) : Nat :=
  c.registeredHandles.length

def load? (c : Cache α) (id : RoomId) : Option Room :=
  (c.rooms.get? id).map fun summary => ⟨id, summary⟩

def assign (c : Cache α) (room : Room) : Cache α :=
  { c with rooms := c.rooms.insert room.id room.summary }

def snapshot (c : Cache α) : List Room :=
  c.rooms.entries.map fun entry => ⟨entry.1, entry.2⟩

/-- The handle of a new listener and the cache that has it registered. Handles are never reused. -/
def subscribe (c : Cache α) (listener : α) : Nat × Cache α :=
  (c.nextHandle,
    { c with
      subscriptions := c.subscriptions.insert c.nextHandle ⟨listener, true⟩
      nextHandle := c.nextHandle + 1 })

/-- Whether a listener was registered under the handle, and the cache without it. -/
def unsubscribe (c : Cache α) (handle : Nat) : Bool × Cache α :=
  match c.subscriptions.get? handle with
  | some s =>
      (s.registered,
        { c with subscriptions := c.subscriptions.insert handle { s with registered := false } })
  | none => (false, c)

/-- The listener that got the handle, registered or not. -/
def listener? (c : Cache α) (handle : Nat) : Option α :=
  (c.subscriptions.get? handle).map (·.listener)

/-- The cache after whoever subscribed the listener has changed it. -/
def modifyListener (c : Cache α) (handle : Nat) (f : α → α) : Cache α :=
  match c.subscriptions.get? handle with
  | some s =>
      { c with
        subscriptions := c.subscriptions.insert handle { s with listener := f s.listener } }
  | none => c

def applyEvent (c : Cache α) (event : Event) : Cache α :=
  let summary := (c.rooms.get? event.room).getD {}
  { c with rooms := c.rooms.insert event.room (summary.apply event) }

def notify [Listener α] (c : Cache α) (event : Event) : Cache α :=
  { c with subscriptions := c.subscriptions.map fun _ s => s.deliver event }

/-- The cache when the event has changed its room, and who is to be given the event then. -/
def takeIn (c : Cache α) (event : Event) : Cache α × List Nat :=
  let changed := c.applyEvent event
  (changed, changed.registeredHandles)

/-- One event: the room's summary first, then the listeners. -/
def accept [Listener α] (c : Cache α) (event : Event) : Cache α × List Delivery :=
  let taken := c.takeIn event
  (taken.1.notify event, taken.2.map fun handle => ⟨handle, event⟩)

def acceptAll [Listener α] (c : Cache α) : List Event → Cache α × List Delivery
  | [] => (c, [])
  | event :: rest =>
      let step := c.accept event
      let later := step.1.acceptAll rest
      (later.1, step.2 ++ later.2)

structure Ingestion (α : Type) where
  outcome : Except SyncError Unit
  cache : Cache α
  deliveries : List Delivery

/-- Raw events of one room, in stream order. Only a live cache takes events. -/
def ingest [Listener α] (c : Cache α) (room : RoomId) (events : List Payload)
    (position : Int64) : Ingestion α :=
  if c.phase = .live then
    let run := c.acceptAll (events.map fun json => Event.parse room json position)
    ⟨.ok (), run.1, run.2⟩
  else ⟨.error (.notLive c.phase), c, []⟩

end Cache

end SlidingSync
