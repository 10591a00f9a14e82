import SlidingSync.Config
import SlidingSync.Files
import SlidingSync.Settings.Environment
import SlidingSync.Toml.Reader

/-!
# Loading a configuration

A configuration comes from a TOML file, when one is named, and from the environment. The tables of
the file are profiles: what the table `global` gives counts over what the table `default` gives,
and the environment counts over both.
-/

namespace SlidingSync

namespace Settings

def text? (s : Settings) (key : String) : Except ConfigFault (Option String) :=
  match s.get? key with
  | none => .ok none
  | some (.string text) => .ok (some text)
  | some _ => .error .unreadable

/-- The natural number below `2 ^ 64` that a key gives, when it gives anything. -/
def natural? (s : Settings) (key : String) : Except ConfigFault (Option UInt64) :=
  match s.get? key with
  | none => .ok none
  | some (.integer n) =>
      if 0 ≤ n ∧ n < UInt64.size then .ok (some (UInt64.ofNat n.toNat)) else .error .unreadable
  | some _ => .error .unreadable

/-- The configuration that settings make up; keys that it does not know are ignored. -/
def config (s : Settings) : Except ConfigFault Config := do
  let some name ← s.text? "server_name" | .error .unreadable
  let serverName ← (ServerName.parse name).mapError fun _ => .unreadable
  let base := Config.ofServer serverName
  return {
    serverName := serverName
    log := (← s.text? "log").getD base.log
    listenerQueueCapacity :=
      (← s.natural? "listener_queue_capacity").getD base.listenerQueueCapacity
    defaultTimelineLimit := (← s.natural? "default_timeline_limit").getD base.defaultTimelineLimit
    maxTimelineLimit := (← s.natural? "max_timeline_limit").getD base.maxTimelineLimit
    snapshotPath := ← s.text? "snapshot_path" }

/-- The profile of a name, written in upper or lower case; a profile that is not there is empty. -/
def profile (profiles : List (String × Settings)) (name : String) : Settings :=
  ((profiles.reverse.find? fun entry => entry.1.toLower == name).map (·.2)).getD []

/-- The profiles that a file gives. Every value outside a table has to be a table itself. -/
def profiles (file : Settings) : Except ConfigFault (List (String × Settings)) :=
  file.mapM fun entry =>
    match entry.2 with
    | .table entries => .ok (entry.1, entries)
    | .moment _ => .ok (entry.1, [])
    | _ => .error .unreadable

/-- The settings of a file: what is global counts over the defaults. -/
def ofFile (text : String) : Except ConfigFault Settings := do
  let some file := Toml.parse text | .error .unreadable
  let profiles ← profiles file
  return (profile profiles "default").overriddenBy (profile profiles "global")

/-- The settings of the file at the path. A folder gives none. -/
def ofPath (files : Files) (path : String) : Except ConfigFault Settings :=
  match files path with
  | .nothing => .error (.fileMissing path)
  | .folder => .ok []
  | .file none => .error .unreadable
  | .file (some text) => ofFile text

end Settings

def Config.load (files : Files) (environment : Environment) (path : Option String) :
    Except ConfigFault Config := do
  let file ←
    match path with
    | some path => Settings.ofPath files path
    | none => .ok []
  let config ← (file.overriddenBy environment.settings).config
  config.validate
  return config

end SlidingSync
