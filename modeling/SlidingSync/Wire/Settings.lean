import SlidingSync.Config
import SlidingSync.Wire.Record

/-!
# Configurations on the wire

How a configuration is written and read. Only the name of the server has to be given.
-/

namespace SlidingSync

/-- The settings that have been read, as changes to those of a server that sets nothing. -/
structure Config.Draft where
  serverName : Option ServerName := none
  settings : Config → Config := id

def Config.Draft.also (d : Config.Draft) (change : Config → Config) : Config.Draft :=
  { d with settings := change ∘ d.settings }

def Config.record : Record Config.Draft Config where
  fields :=
    [ .always "server_name" (.checked ServerName.parse (·.text)) (·.serverName) fun d server =>
        { d with serverName := some server },
      .always "log" .string (·.log) fun d log => d.also fun c => { c with log := log },
      .always "listener_queue_capacity" .natural (·.listenerQueueCapacity) fun d capacity =>
        d.also fun c => { c with listenerQueueCapacity := capacity },
      .always "default_timeline_limit" .natural (·.defaultTimelineLimit) fun d limit =>
        d.also fun c => { c with defaultTimelineLimit := limit },
      .always "max_timeline_limit" .natural (·.maxTimelineLimit) fun d limit =>
        d.also fun c => { c with maxTimelineLimit := limit },
      .optional "snapshot_path" .string (·.snapshotPath) fun d path =>
        d.also fun c => { c with snapshotPath := path } ]
  blank := {}
  finish d := d.serverName.map fun server => d.settings (.ofServer server)

end SlidingSync
