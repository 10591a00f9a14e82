import SlidingSync.Error

/-!
# Configuration

The settings of the proxy and what makes them acceptable.
-/

namespace SlidingSync

structure Config where
  serverName : ServerName
  log : String
  /-- Length of the queue of each channel. -/
  listenerQueueCapacity : UInt64
  /-- Timeline limit where a subscription gives none. -/
  defaultTimelineLimit : UInt64
  maxTimelineLimit : UInt64
  snapshotPath : Option String
  deriving DecidableEq

namespace Config

def defaultLog : String :=
  "warn,matrixon_sliding=info,matrixon_sliding_proxy=info"

def ofServer (serverName : ServerName) : Config where
  serverName := serverName
  log := defaultLog
  listenerQueueCapacity := 256
  defaultTimelineLimit := 20
  maxTimelineLimit := 50
  snapshotPath := none

def fault? (c : Config) : Option ConfigFault :=
  if c.listenerQueueCapacity = 0 then some .queueCapacityZero
  else if c.maxTimelineLimit = 0 then some .maxTimelineZero
  else if c.maxTimelineLimit < c.defaultTimelineLimit then
    some (.defaultAboveMaximum c.defaultTimelineLimit c.maxTimelineLimit)
  else none

def validate (c : Config) : Except ConfigFault Unit :=
  match c.fault? with
  | some fault => .error fault
  | none => .ok ()

/-- The limit, or the default when it is not set. -/
def effectiveTimelineLimit (c : Config) (limit : UInt64) : UInt64 :=
  if limit = 0 then c.defaultTimelineLimit else limit

def requireSnapshot (c : Config) : Except ConfigFault String :=
  match c.snapshotPath with
  | some path => .ok path
  | none => .error .snapshotUnset

end Config

end SlidingSync
