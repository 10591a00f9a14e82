import SlidingSync.Cache.Basic
import SlidingSync.Calendar
import SlidingSync.Session
import SlidingSync.Wire.ListOp

/-!
# Reports

The texts in which configurations, caches, rooms and session updates are shown.
-/

namespace SlidingSync

def Config.lines (c : Config) : List String :=
  [ "server_name: " ++ c.serverName.text,
    "log: " ++ c.log,
    "listener_queue_capacity: " ++ toString c.listenerQueueCapacity.toNat,
    "timeline_limit: default " ++ toString c.defaultTimelineLimit.toNat ++ " / max "
      ++ toString c.maxTimelineLimit.toNat,
    "snapshot_path: " ++ c.snapshotPath.getD "(unset)" ]

def Phase.title : Phase → String
  | .uninitialized => "Uninitialized"
  | .populating => "Populating"
  | .live => "Live"

def Cache.summary {α : Type} (c : Cache α) : String :=
  "GlobalCache \x7b phase: " ++ c.phase.title ++ ", rooms: " ++ toString c.roomCount
    ++ ", listeners: " ++ toString c.listenerCount ++ " \x7d"

/-- A room at its position: its ID, its name and the time of its latest event. -/
def Room.line (index : Nat) (room : Room) : String :=
  let name := if room.summary.name.isEmpty then "(unnamed)" else room.summary.name
  let time := (Date.textOfMillis? room.summary.lastTimestamp.toNat).getD "-"
  Text.padLeft ' ' 4 index ++ "  " ++ room.id.text ++ "  " ++ name ++ "  " ++ time

/-- What a session tells its client: rooms first, then the operations list by list. -/
def SessionUpdate.lines (u : SessionUpdate) : List String :=
  u.subscribed.map (fun room => "SUBSCRIBE " ++ room.text)
    ++ u.unsubscribed.map (fun room => "UNSUBSCRIBE " ++ room.text)
    ++ u.lists.entries.flatMap fun entry =>
        entry.2.map fun op => entry.1 ++ ": " ++ ListOp.codec.encodeText op

def Event.deliveredLine (event : Event) (stateKey : String) : String :=
  event.room.text ++ ": state " ++ event.eventType ++ " (" ++ stateKey ++ ") delivered"

end SlidingSync
