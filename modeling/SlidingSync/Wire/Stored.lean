import SlidingSync.Snapshot
import SlidingSync.Wire.Request

/-!
# Stored rooms and events on the wire

How cached rooms, stored events, snapshots and event batches are written and read.
-/

namespace SlidingSync

structure StoredEvent.Draft where
  room : Option RoomId := none
  eventType : Option String := none
  stateKey : Option String := none
  json : Option Payload := none

def StoredEvent.record : Record StoredEvent.Draft StoredEvent where
  fields :=
    [ .always "room_id" RoomId.codec (·.room) fun d room => { d with room := some room },
      .always "type" .string (·.eventType) fun d type => { d with eventType := some type },
      .optional "state_key" .string (·.stateKey) fun d key => { d with stateKey := key },
      .always "json" .payload (·.json) fun d json => { d with json := some json } ]
  blank := {}
  finish d := do return ⟨← d.room, ← d.eventType, d.stateKey, ← d.json⟩

structure Room.Draft where
  id : Option RoomId := none
  summary : RoomSummary := {}

def Room.record : Record Room.Draft Room where
  fields :=
    [ .always "room_id" RoomId.codec (·.id) fun d id => { d with id := some id },
      .always "name" .string (·.summary.name) fun d name => { d with summary.name := name },
      .always "last_message_timestamp" .natural (·.summary.lastTimestamp) fun d time =>
        { d with summary.lastTimestamp := time },
      .always "last_event_json" .payload (·.summary.lastEvent) fun d json =>
        { d with summary.lastEvent := json } ]
  blank := {}
  finish d := d.id.map (⟨·, d.summary⟩)

structure SnapshotRoom.Draft where
  room : Option RoomId := none
  latestEvent : Option Payload := none
  state : List Payload := []

def SnapshotRoom.record : Record SnapshotRoom.Draft SnapshotRoom where
  fields :=
    [ .always "room_id" RoomId.codec (·.room) fun d room => { d with room := some room },
      .optional "latest_event" .payload (·.latestEvent) fun d event =>
        { d with latestEvent := event },
      .always "state" (.list .payload) (·.state) fun d state => { d with state := state } ]
  blank := {}
  finish d := d.room.map (⟨·, d.latestEvent, d.state⟩)

def Snapshot.record : Record (Option (List SnapshotRoom)) Snapshot where
  fields :=
    [.always "rooms" (.list SnapshotRoom.record.codec) (·.rooms) fun _ rooms => some rooms]
  blank := none
  finish d := d.map Snapshot.mk

structure EventBatch.Draft where
  room : Option RoomId := none
  position : Int64 := 0
  events : Option (List Payload) := none

def EventBatch.record : Record EventBatch.Draft EventBatch where
  fields :=
    [ .always "room_id" RoomId.codec (·.room) fun d room => { d with room := some room },
      .always "latest_pos" .integer (·.position) fun d position => { d with position := position },
      .always "events" (.list .payload) (·.events) fun d events =>
        { d with events := some events } ]
  blank := {}
  finish d := do return ⟨← d.room, d.position, ← d.events⟩

end SlidingSync
