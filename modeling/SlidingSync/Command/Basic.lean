import SlidingSync.Config
import SlidingSync.Files
import SlidingSync.Snapshot
import SlidingSync.Wire.Stored

/-!
# Commands

What commands have in common: the errors they end with, and the cache that they fill from the
snapshot of the configuration.
-/

namespace SlidingSync

inductive Task
  | acceptingUser (text : String)
  | readingRequest (path : String)
  | parsingRequest
  | readingBatches (path : String)
  | openingSnapshot (path : String)
  | populating
  deriving DecidableEq, Repr

def Task.text : Task → String
  | .acceptingUser text => "invalid user ID " ++ text
  | .readingRequest path => "reading request " ++ path
  | .parsingRequest => "parsing request"
  | .readingBatches path => "reading event batches " ++ path
  | .openingSnapshot path => "opening snapshot " ++ path
  | .populating => "populating global cache"

inductive CommandFault
  | identifier (fault : IdentifierFault)
  | sync (error : SyncError)
  deriving DecidableEq

/-- How a command failed, with the task that it was about when that says more than the fault. -/
structure CommandError where
  task : Option Task := none
  fault : CommandFault
  deriving DecidableEq

namespace CommandError

def ofSync (error : SyncError) : CommandError :=
  ⟨none, .sync error⟩

def during (task : Task) (error : SyncError) : CommandError :=
  ⟨some task, .sync error⟩

end CommandError

def Files.decode {α : Type} (files : Files) (path : String) (codec : Codec α) :
    Except SyncError α :=
  match files.text? path with
  | none => .error (.fileUnreadable path)
  | some text => (codec.decodeText text).mapError .undecodable

def Snapshot.open (files : Files) (path : String) : Except SyncError Snapshot :=
  match files.text? path with
  | none => .error (.snapshotUnreadable path)
  | some text => (Snapshot.record.codec.decodeText text).mapError .undecodable

/-- A new cache filled from the snapshot of the configuration. -/
def Cache.ofConfig {α : Type} (files : Files) (config : Config) :
    Except CommandError (Cache α) := do
  let path ← config.requireSnapshot.mapError fun fault => .ofSync (.config fault)
  let snapshot ← (Snapshot.open files path).mapError (.during (.openingSnapshot path))
  let population := Cache.populate ({} : Cache α) snapshot.storage
  match population.outcome with
  | .ok () => return population.cache
  | .error e => .error (.during .populating e)

end SlidingSync
