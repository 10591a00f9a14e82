import SlidingSync.Command.Basic
import SlidingSync.Report

/-!
# Replaying batches

Recorded event batches run through a live cache with one simulated client. The client hears of
events through a channel, as a session does, and takes them after each batch; what its session
tells it is collected in lines.
-/

namespace SlidingSync

structure Replay where
  cache : Cache Channel
  handle : Nat
  session : Session
  lines : List String

namespace Replay

/-- The line of a state event that the client's view of the room includes. -/
def deliveredLines (session : Session) (event : Event) : List String :=
  match session.roomView event.room, event.stateKey with
  | some view, some key =>
      if view.requiredState.includes event.eventType key then [event.deliveredLine key] else []
  | _, _ => []

/-- The replay after the client has taken one event from its channel. -/
def follow (r : Replay) (event : Event) : Except SyncError Replay :=
  match r.session.handleEvent r.cache.snapshot event.room with
  | (.error e, _) => .error e
  | (.ok update, session) =>
      .ok
        { r with
          session := session
          lines := r.lines ++ update.lines ++ deliveredLines session event }

def drain (r : Replay) : Except SyncError Replay :=
  match r.cache.listener? r.handle with
  | none => .ok r
  | some channel =>
      let emptied := r.cache.modifyListener r.handle fun c => (c.take c.queue.length).2
      channel.queue.foldlM follow { r with cache := emptied }

def step (r : Replay) (batch : EventBatch) : Except SyncError Replay :=
  let ingestion := r.cache.ingest batch.room batch.events batch.position
  match ingestion.outcome with
  | .error e => .error e
  | .ok () => drain { r with cache := ingestion.cache }

/-- The replay at its start, when the client has been answered its request. -/
def start (config : Config) (cache : Cache Channel) (user : UserId) (request : Request) :
    Except SyncError Replay :=
  let (handle, cache) := cache.subscribe (Channel.new config.listenerQueueCapacity.toNat)
  match (Session.new user config).handleRequest cache.snapshot request with
  | (.error e, _) => .error e
  | (.ok update, session) => .ok ⟨cache, handle, session, update.lines⟩

def run (config : Config) (cache : Cache Channel) (user : UserId) (request : Request)
    (batches : List EventBatch) : Except SyncError (List String) := do
  let started ← start config cache user request
  let ended ← batches.foldlM step started
  return ended.lines

end Replay

def replay (files : Files) (config : Config) (eventsPath requestPath user : String) :
    Except CommandError (List String) := do
  let userId ← (UserId.parse user).mapError fun fault =>
    ⟨some (.acceptingUser user), .identifier fault⟩
  let text ←
    match files.text? requestPath with
    | some text => .ok text
    | none => .error (.during (.readingRequest requestPath) (.fileUnreadable requestPath))
  let request ← (Request.record.codec.decodeText text).mapError fun fault =>
    .during .parsingRequest (.undecodable fault)
  let batches ← (files.decode eventsPath (.list EventBatch.record.codec)).mapError
    (.during (.readingBatches eventsPath))
  let cache ← Cache.ofConfig files config
  (Replay.run config cache userId request batches).mapError .ofSync

end SlidingSync
