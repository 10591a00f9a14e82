import SlidingSync.RoomList

/-!
# Requests

Clients send requests piece by piece. `Request.merge` puts a new body into the request that is in
force and reports, as a `RequestDelta`, which rooms and lists it changed.
-/

namespace SlidingSync

/-- A request body, or the request that is in force after merging bodies. -/
structure Request where
  lists : SortedMap String RoomList := .empty
  subscriptions : SortedMap RoomId RoomSubscription := .empty
  /-- Rooms whose subscription ends with this body. -/
  unsubscribe : List RoomId := []
  deriving DecidableEq

/-- A list before and after a merge. It has no `prev` when it is new and no `curr` when deleted. -/
structure ListDelta where
  prev : Option RoomList
  curr : Option RoomList
  deriving DecidableEq

structure RequestDelta where
  subs : List RoomId := []
  unsubs : List RoomId := []
  /-- Lists that are new, changed or deleted. -/
  lists : SortedMap String ListDelta := .empty
  deriving DecidableEq

def ListDelta.sortChanged (delta : ListDelta) : Bool :=
  match delta.prev with
  | some prev => prev.sortChanged delta.curr
  | none => true

/--
A list after a body that names it: what the body gives replaces what was there,
and a list without sort identifiers is sorted by recency.
-/
def RoomList.merge (existing : Option RoomList) (next : RoomList) : RoomList :=
  let old := existing.getD {}
  let sort := if next.sort.isEmpty then old.sort else next.sort
  { ranges := if next.ranges.isEmpty then old.ranges else next.ranges
    sort := if sort.isEmpty then [SortKey.recency.identifier] else sort
    filters := if next.filters.isSome then next.filters else old.filters
    subscription := if next.subscription.isEmpty then old.subscription else next.subscription
    deleted := false }

namespace Request

/-- Subscriptions in force, with the rooms subscribed and unsubscribed on the way. -/
structure Subscribing where
  inForce : SortedMap RoomId RoomSubscription
  subs : List RoomId
  unsubs : List RoomId

/-- A room that the body unsubscribes. A room that it also subscribes is left to that step. -/
def unsubscribeRoom (body : Request) (s : Subscribing) (room : RoomId) : Subscribing :=
  if body.subscriptions.contains room then s
  else if s.inForce.contains room then
    { s with
      inForce := s.inForce.erase room
      unsubs := if s.unsubs.contains room then s.unsubs else s.unsubs ++ [room] }
  else s

/--
A room that the body subscribes. One that it also unsubscribes stays subscribed
when it was and stays absent when it was not.
-/
def subscribeRoom (body : Request) (s : Subscribing) (entry : RoomId × RoomSubscription) :
    Subscribing :=
  if s.inForce.contains entry.1 then { s with inForce := s.inForce.insert entry.1 entry.2 }
  else if body.unsubscribe.contains entry.1 then s
  else { s with inForce := s.inForce.insert entry.1 entry.2, subs := s.subs ++ [entry.1] }

/-- Subscriptions after the body: its departures first, then its arrivals by room ID. -/
def mergeSubscriptions (prev : SortedMap RoomId RoomSubscription) (body : Request) : Subscribing :=
  let left := body.unsubscribe.foldl (unsubscribeRoom body) ⟨prev, [], []⟩
  body.subscriptions.entries.foldl (subscribeRoom body) left

structure Listing where
  inForce : SortedMap String RoomList
  changed : SortedMap String ListDelta

def mergeList (l : Listing) (entry : String × RoomList) : Listing :=
  let existing := l.inForce.get? entry.1
  if entry.2.deleted then
    match existing with
    | some _ =>
        { inForce := l.inForce.erase entry.1
          changed := l.changed.insert entry.1 ⟨existing, none⟩ }
    | none => l
  else
    let merged := RoomList.merge existing entry.2
    { inForce := l.inForce.insert entry.1 merged
      changed :=
        if existing = some merged then l.changed
        else l.changed.insert entry.1 ⟨existing, some merged⟩ }

def mergeLists (prev : SortedMap String RoomList) (body : Request) : Listing :=
  body.lists.entries.foldl mergeList ⟨prev, .empty⟩

/-- The request in force after `body`, and what the body changed. -/
def merge (prev : Option Request) (body : Request) : Request × RequestDelta :=
  let old := prev.getD {}
  let subscribing := mergeSubscriptions old.subscriptions body
  let listing := mergeLists old.lists body
  ({ lists := listing.inForce, subscriptions := subscribing.inForce, unsubscribe := [] },
    { subs := subscribing.subs, unsubs := subscribing.unsubs, lists := listing.changed })

/-- The fault of the first list, by name, that has one. -/
def listFault? (r : Request) (maximum : UInt64) : Option RequestFault :=
  r.lists.entries.findSome? fun entry => (entry.2.fault? maximum).map (.inList entry.1)

def subscriptionFault? (r : Request) (maximum : UInt64) : Option RequestFault :=
  r.subscriptions.entries.findSome? fun entry =>
    if maximum < entry.2.timelineLimit then
      some (.inSubscription entry.1 entry.2.timelineLimit maximum)
    else none

/-- Refuse limits above `maximum` and unknown sort identifiers. -/
def validate (r : Request) (maximum : UInt64) : Except RequestFault Unit :=
  match (r.listFault? maximum).or (r.subscriptionFault? maximum) with
  | some fault => .error fault
  | none => .ok ()

end Request

end SlidingSync
