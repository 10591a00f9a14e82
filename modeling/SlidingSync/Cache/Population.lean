import SlidingSync.Cache.Basic

/-!
# Population

A new cache is filled once from storage: with the latest event of every room, then with the state
events that name rooms. While storage answers the cache is neither new nor live, and storage may
itself call the cache; when a query fails or the answers do not fit together the cache is emptied
and is new again.
-/

namespace SlidingSync

/-- Storage as the cache sees it: its answers, and what it does to the cache on the way. -/
structure Storage (α : Type) where
  latestEvents : Cache α → Except SyncError (List StoredEvent) × Cache α
  currentState : List String → Cache α →
    Except SyncError (List (RoomId × List StoredEvent)) × Cache α

/-- Storage that answers from what it holds and leaves the cache alone. -/
def Storage.answering {α : Type} (latest : Except SyncError (List StoredEvent))
    (state : List String → Except SyncError (List (RoomId × List StoredEvent))) : Storage α where
  latestEvents cache := (latest, cache)
  currentState types cache := (state types, cache)

variable {α : Type}

structure Population (α : Type) where
  outcome : Except SyncError Unit
  cache : Cache α
  /-- Event types of the state query, when it was asked. -/
  queriedTypes : Option (List String)

def nameTypes : List String :=
  [roomNameType, canonicalAliasType]

namespace Cache

/-- The cache on its way to be filled. Only a new cache can be filled. -/
def beginPopulation (c : Cache α) : Except SyncError (Cache α) :=
  if c.phase = .uninitialized then .ok { c with phase := .populating }
  else .error (.alreadyPopulated c.phase)

def finishPopulation (c : Cache α) : Cache α :=
  { c with phase := .live }

/-- The cache emptied after it could not be filled. -/
def abortPopulation (c : Cache α) : Cache α :=
  { c with phase := .uninitialized, rooms := .empty }

def loadLatest (c : Cache α) (stored : StoredEvent) : Cache α :=
  c.assign ⟨stored.room,
    { lastTimestamp := Event.timestampOf stored.json, lastEvent := stored.json }⟩

/-- The cache with the name that state events give their rooms, room after room. -/
def loadState (c : Cache α) :
    List (RoomId × List StoredEvent) → Except SyncError Unit × Cache α
  | [] => (.ok (), c)
  | (id, events) :: rest =>
      match c.rooms.get? id with
      | some summary =>
          let named := events.foldl (fun s stored => s.applyName (.ofStored stored)) summary
          (c.assign ⟨id, named⟩).loadState rest
      | none => (.error (.stateWithoutLatest id), c)

def loadRooms (c : Cache α) (storage : Storage α) : Population α :=
  match storage.latestEvents c with
  | (.error e, c) => ⟨.error e, c, none⟩
  | (.ok latest, c) =>
      match storage.currentState nameTypes (latest.foldl loadLatest c) with
      | (.error e, c) => ⟨.error e, c, some nameTypes⟩
      | (.ok state, c) =>
          let loaded := c.loadState state
          ⟨loaded.1, loaded.2, some nameTypes⟩

def populate (c : Cache α) (storage : Storage α) : Population α :=
  match c.beginPopulation with
  | .error e => ⟨.error e, c, none⟩
  | .ok begun =>
      let loaded := begun.loadRooms storage
      match loaded.outcome with
      | .ok () => { loaded with cache := loaded.cache.finishPopulation }
      | .error _ => { loaded with cache := loaded.cache.abortPopulation }

end Cache

end SlidingSync
