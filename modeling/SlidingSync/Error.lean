import SlidingSync.Cache.Phase
import SlidingSync.RoomList
import SlidingSync.Wire.Fault

/-!
# Errors

Every way in which an operation of the proxy fails, by its cause. `SyncError.kind` sorts causes by
who is at fault, and `SyncError.message?` words them.
-/

namespace SlidingSync

inductive ConfigFault
  | queueCapacityZero
  | maxTimelineZero
  | defaultAboveMaximum (default maximum : UInt64)
  | fileMissing (path : String)
  | snapshotUnset
  /-- The sources cannot be read as a configuration. -/
  | unreadable
  deriving DecidableEq, Repr

/-- The fault in words, where it has words of its own. -/
def ConfigFault.message? : ConfigFault → Option String
  | .queueCapacityZero => some "listener_queue_capacity must be at least 1"
  | .maxTimelineZero => some "max_timeline_limit must be at least 1"
  | .defaultAboveMaximum default maximum =>
      some ("default_timeline_limit " ++ toString default.toNat
        ++ " exceeds max_timeline_limit " ++ toString maximum.toNat)
  | .fileMissing path => some ("configuration file " ++ path ++ " does not exist")
  | .snapshotUnset => some "snapshot_path is not set"
  | .unreadable => none

inductive SyncError
  | config (fault : ConfigFault)
  /-- Storage answered a query with a failure. -/
  | storage (text : String)
  | snapshotUnreadable (path : String)
  | stateWithoutLatest (room : RoomId)
  | listNotRequested (name : String)
  | roomNotRequested (room : RoomId)
  | notLive (phase : Phase)
  | alreadyPopulated (phase : Phase)
  | badRequest (fault : RequestFault)
  | undecodable (fault : DecodeFault)
  | fileUnreadable (path : String)
  deriving DecidableEq

inductive ErrorKind
  | config
  | storage
  | invariant
  | notRequested
  | invalidState
  | badRequest
  | serialization
  | io
  deriving DecidableEq, Repr

def ErrorKind.name : ErrorKind → String
  | .config => "Config"
  | .storage => "Storage"
  | .invariant => "Invariant"
  | .notRequested => "NotRequested"
  | .invalidState => "InvalidState"
  | .badRequest => "BadRequest"
  | .serialization => "Serialization"
  | .io => "Io"

namespace SyncError

def kind : SyncError → ErrorKind
  | .config _ => .config
  | .storage _ => .storage
  | .snapshotUnreadable _ => .storage
  | .stateWithoutLatest _ => .invariant
  | .listNotRequested _ => .notRequested
  | .roomNotRequested _ => .notRequested
  | .notLive _ => .invalidState
  | .alreadyPopulated _ => .invalidState
  | .badRequest _ => .badRequest
  | .undecodable _ => .serialization
  | .fileUnreadable _ => .io

/-- Whether the caller asked for what was never configured. -/
def isNotRequested (e : SyncError) : Bool :=
  e.kind == .notRequested

/-- The error in words, where the words are settled here. -/
def message? : SyncError → Option String
  | .config fault => fault.message?.map ("Configuration error: " ++ ·)
  | .storage text => some ("Storage error: " ++ text)
  | .snapshotUnreadable _ => none
  | .stateWithoutLatest room =>
      some ("Invariant violated: room " ++ room.text ++ " has state events but no latest event")
  | .listNotRequested name => some ("Not requested: list '" ++ name ++ "'")
  | .roomNotRequested room => some ("Not requested: room subscription for " ++ room.text)
  | .notLive phase =>
      some ("Invalid state: cannot ingest events while cache is " ++ phase.text)
  | .alreadyPopulated phase =>
      some ("Invalid state: cache population requires an uninitialized cache, found "
        ++ phase.text)
  | .badRequest fault => some (RequestFault.heading ++ fault.message)
  | .undecodable fault => fault.message?
  | .fileUnreadable _ => none

end SyncError

end SlidingSync
