import SlidingSync.Identifier
import SlidingSync.Json.Basic

/-!
# Events

Events reach the cache as raw JSON, and storage keeps them with their type and state key beside
the JSON. Reading an event never fails: what is missing or of another shape reads as empty.
-/

namespace SlidingSync

def roomNameType : String :=
  "m.room.name"

def canonicalAliasType : String :=
  "m.room.canonical_alias"

/-- An event as storage keeps it. -/
structure StoredEvent where
  room : RoomId
  eventType : String
  stateKey : Option String := none
  json : Payload

/-- An event as listeners get it. -/
structure Event where
  room : RoomId
  eventType : String
  /-- Absent for events that are no state. -/
  stateKey : Option String
  content : Payload
  /-- Stream position of the batch that the event came in. -/
  position : Int64
  /-- Milliseconds since the epoch. -/
  timestamp : UInt64
  json : Payload

namespace Event

/-- The time of a raw event, nought when it has none. -/
def timestampOf (json : Payload) : UInt64 :=
  ((json.get? "origin_server_ts").bind Payload.natural?).getD 0

def contentOf (json : Payload) : Payload :=
  (json.get? "content").getD .null

def stateKeyOf (json : Payload) : Option String :=
  (json.get? "state_key").bind Payload.string?

def parse (room : RoomId) (json : Payload) (position : Int64) : Event where
  room := room
  eventType := json.textAt "type"
  stateKey := stateKeyOf json
  content := contentOf json
  position := position
  timestamp := timestampOf json
  json := json

/-- The event of a stored one; type and state key are those beside the JSON. -/
def ofStored (stored : StoredEvent) : Event where
  room := stored.room
  eventType := stored.eventType
  stateKey := stored.stateKey
  content := contentOf stored.json
  position := 0
  timestamp := timestampOf stored.json
  json := stored.json

/-- Whether the event is state of the whole room and of this type. -/
def isRoomState (event : Event) (eventType : String) : Bool :=
  event.eventType == eventType && event.stateKey == some ""

/-- The text in a field of the content, empty when there is none. -/
def contentText (event : Event) (field : String) : String :=
  event.content.textAt field

end Event

def StoredEvent.ofRaw (room : RoomId) (json : Payload) : StoredEvent where
  room := room
  eventType := json.textAt "type"
  stateKey := Event.stateKeyOf json
  json := json

end SlidingSync
