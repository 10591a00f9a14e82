import SlidingSync.Event
import SlidingSync.RoomList
import SlidingSync.Text.Lowercase

/-!
# Rooms and their order

A room summary is what the cache knows of a room. Lists filter rooms by their summaries and sort
them by a sequence of sort keys; the room ID decides between rooms that no key tells apart, so the
order of rooms with different IDs is strict.
-/

namespace SlidingSync

structure RoomSummary where
  /-- The room's name, else its alias, else empty. -/
  name : String := ""
  /-- Time of the latest event in milliseconds. -/
  lastTimestamp : UInt64 := 0
  lastEvent : Payload := .null

structure Room where
  id : RoomId
  summary : RoomSummary := {}

/--
The summary after a state event has had its say about the name. A name always
wins, an alias only fills an empty name.
-/
def RoomSummary.applyName (summary : RoomSummary) (event : Event) : RoomSummary :=
  if event.isRoomState roomNameType then { summary with name := event.contentText "name" }
  else if event.isRoomState canonicalAliasType && summary.name.isEmpty then
    { summary with name := event.contentText "alias" }
  else summary

def RoomSummary.apply (summary : RoomSummary) (event : Event) : RoomSummary :=
  { summary.applyName event with
    lastTimestamp := event.timestamp
    lastEvent := event.json }

/--
Whether the filters accept the room. Only the name is looked at, without regard
to case; the other conditions depend on what the cache does not hold.
-/
def RoomFilters.accepts (filters : RoomFilters) (room : Room) : Bool :=
  match filters.roomNameLike with
  | some like => Text.occursIn (Text.lowercase like) (Text.lowercase room.summary.name)
  | none => true

/--
Order by one key: later rooms first by recency, names without regard to case.
Counts of unread messages are not known here and tell no rooms apart.
-/
def SortKey.compareRooms : SortKey → Room → Room → Ordering
  | .recency, a, b => compare b.summary.lastTimestamp a.summary.lastTimestamp
  | .name, a, b => compare (Text.lowercase a.summary.name) (Text.lowercase b.summary.name)
  | .highlightCount, _, _ => .eq
  | .notificationCount, _, _ => .eq

namespace Room

/-- Order by the first key that tells the rooms apart, else by room ID. -/
def compareBy (keys : List SortKey) (a b : Room) : Ordering :=
  keys.foldr (fun key rest => (key.compareRooms a b).then rest) (compare a.id b.id)

/-- Rooms in order; rooms that are equal throughout keep their places. -/
def sortBy (keys : List SortKey) (rooms : List Room) : List Room :=
  rooms.mergeSort fun a b => (compareBy keys a b).isLE

/-- Sort keys of identifiers, or the first that is not known. -/
def sortKeys (identifiers : List String) : Except RequestFault (List SortKey) :=
  match firstUnknownSort identifiers with
  | some unknown => .error (.unknownSort unknown)
  | none => .ok (identifiers.filterMap SortKey.ofIdentifier?)

structure Sorting where
  outcome : Except RequestFault Unit
  rooms : List Room

/-- Put rooms in the order that the identifiers ask for. They stay as they are when one is unknown. -/
def sortInPlace (identifiers : List String) (rooms : List Room) : Sorting :=
  match sortKeys identifiers with
  | .ok keys => ⟨.ok (), sortBy keys rooms⟩
  | .error fault => ⟨.error fault, rooms⟩

def sort (identifiers : List String) (rooms : List Room) : Except RequestFault (List Room) :=
  let sorting := sortInPlace identifiers rooms
  sorting.outcome.map fun () => sorting.rooms

/-- The rooms that the filters accept; no filters accept every room. -/
def filter (filters : Option RoomFilters) (rooms : List Room) : List Room :=
  match filters with
  | some filters => rooms.filter filters.accepts
  | none => rooms

def indexOf? (order : List RoomId) (room : RoomId) : Option Nat :=
  order.findIdx? (· == room)

end Room

def RoomList.order (list : RoomList) (rooms : List Room) : Except RequestFault (List RoomId) :=
  (Room.sort list.sort (Room.filter list.filters rooms)).map fun sorted => sorted.map (·.id)

end SlidingSync
