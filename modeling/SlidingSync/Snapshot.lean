import SlidingSync.Cache.Population

/-!
# Snapshots

A snapshot holds the rooms that storage knows, and serves as storage for the population of a
cache. An event batch is what arrives for one room in one go.
-/

namespace SlidingSync

structure SnapshotRoom where
  room : RoomId
  /-- Missing while the room has no events. -/
  latestEvent : Option Payload := none
  state : List Payload := []

structure Snapshot where
  rooms : List SnapshotRoom

/-- Events of one room that arrived together. -/
structure EventBatch where
  room : RoomId
  position : Int64 := 0
  events : List Payload

namespace Snapshot

/-- The latest event of every room that has one. -/
def latestEvents (s : Snapshot) : List StoredEvent :=
  s.rooms.filterMap fun room => room.latestEvent.map (.ofRaw room.room)

def stateOf (types : List String) (room : SnapshotRoom) : List StoredEvent :=
  (room.state.map (.ofRaw room.room)).filter fun stored => types.contains stored.eventType

/-- State events of these types by room, without rooms that have none; the last entry of a room
counts. -/
def currentState (s : Snapshot) (types : List String) : SortedMap RoomId (List StoredEvent) :=
  s.rooms.foldl
    (fun m room =>
      let events := stateOf types room
      if events.isEmpty then m else m.insert room.room events)
    .empty

def storage {α : Type} (s : Snapshot) : Storage α :=
  .answering (.ok s.latestEvents) fun types => .ok (s.currentState types).entries

end Snapshot

end SlidingSync
