import SlidingSync.Config
import SlidingSync.Request
import SlidingSync.Room

/-!
# Sessions

A session is the state of one client: the request in force and the order in which each of its
lists was last shown. Requests and events turn into list operations. A request that is refused
leaves the session as it was.
-/

namespace SlidingSync

structure SessionUpdate where
  lists : SortedMap String (List ListOp) := .empty
  subscribed : List RoomId := []
  unsubscribed : List RoomId := []
  deriving DecidableEq

def SessionUpdate.isEmpty (u : SessionUpdate) : Bool :=
  u.lists.isEmpty && u.subscribed.isEmpty && u.unsubscribed.isEmpty

structure RoomView where
  timelineLimit : UInt64
  requiredState : StateFilter
  deriving DecidableEq

abbrev ListOrders :=
  SortedMap String (List RoomId)

structure Session where
  user : UserId
  defaultTimelineLimit : UInt64
  maxTimelineLimit : UInt64
  request : Option Request := none
  orders : ListOrders := .empty
  deriving DecidableEq

namespace Session

def new (user : UserId) (config : Config) : Session where
  user := user
  defaultTimelineLimit := config.defaultTimelineLimit
  maxTimelineLimit := config.maxTimelineLimit

/-- Operations of one list on their way, with the orders shown so far. -/
structure Progress where
  lists : SortedMap String (List ListOp)
  orders : ListOrders

/--
Operations for a list that is new or changed: its old windows are invalid when
it is sorted or filtered in another way, and every window is sent anew.
-/
def listChangeOps (delta : ListDelta) (curr : RoomList) (order : List RoomId) : List ListOp :=
  let stale :=
    match delta.prev with
    | some prev =>
        if delta.sortChanged || prev.filters != curr.filters then
          prev.ranges.windows.map .invalidate
        else []
    | none => []
  stale ++ List.zipWith .sync curr.ranges.windows (curr.ranges.slices order)

/-- The lists that a request changed, one after the other. A deleted list has no order. -/
def showChanges (rooms : List Room) (p : Progress) :
    List (String × ListDelta) → Except RequestFault Unit × Progress
  | [] => (.ok (), p)
  | (name, delta) :: rest =>
      match delta.curr with
      | none => showChanges rooms { p with orders := p.orders.erase name } rest
      | some curr =>
          match curr.order rooms with
          | .error fault => (.error fault, p)
          | .ok order =>
              showChanges rooms
                { lists := p.lists.insert name (listChangeOps delta curr order)
                  orders := p.orders.insert name order } rest

/-- The answer to a request body over the rooms of the cache, and the session after it. -/
def handleRequest (s : Session) (rooms : List Room) (body : Request) :
    Except SyncError SessionUpdate × Session :=
  match body.validate s.maxTimelineLimit with
  | .error fault => (.error (.badRequest fault), s)
  | .ok () =>
      let (merged, delta) := Request.merge s.request body
      match showChanges rooms ⟨.empty, s.orders⟩ delta.lists.entries with
      | (.error fault, p) => (.error (.badRequest fault), { s with orders := p.orders })
      | (.ok (), p) =>
          (.ok { lists := p.lists, subscribed := delta.subs, unsubscribed := delta.unsubs },
            { s with request := some merged, orders := p.orders })

/--
Operations for one list when a room may have changed: the room moved within the
order, entered it or left it.
-/
def roomChangeOps (list : RoomList) (room : RoomId) (old : Option (List RoomId))
    (order : List RoomId) : List ListOp :=
  match old.bind (Room.indexOf? · room), Room.indexOf? order room with
  | some source, some target => list.ranges.moveOps source target order
  | none, some target => list.ranges.enterOps target ((old.map List.length).getD 0) order
  | some source, none => list.ranges.leaveOps source order
  | none, none => []

def showEvent (rooms : List Room) (room : RoomId) (p : Progress) :
    List (String × RoomList) → Except RequestFault Unit × Progress
  | [] => (.ok (), p)
  | (name, list) :: rest =>
      match list.order rooms with
      | .error fault => (.error fault, p)
      | .ok order =>
          let ops := roomChangeOps list room (p.orders.get? name) order
          showEvent rooms room
            { lists := if ops.isEmpty then p.lists else p.lists.insert name ops
              orders := p.orders.insert name order } rest

/-- What an event of the room tells the client, and the session after it. -/
def handleEvent (s : Session) (rooms : List Room) (room : RoomId) :
    Except SyncError SessionUpdate × Session :=
  match s.request with
  | none => (.ok {}, s)
  | some request =>
      match showEvent rooms room ⟨.empty, s.orders⟩ request.lists.entries with
      | (.error fault, p) => (.error (.badRequest fault), { s with orders := p.orders })
      | (.ok (), p) => (.ok { lists := p.lists }, { s with orders := p.orders })

/-- Whether a list last showed the room inside one of its windows. -/
def shows (s : Session) (name : String) (list : RoomList) (room : RoomId) : Bool :=
  match (s.orders.get? name).bind (Room.indexOf? · room) with
  | some index => list.ranges.inside index
  | none => false

/-- Subscriptions that cover the room: its own first, then those of the lists that show it. -/
def covering (s : Session) (room : RoomId) : List RoomSubscription :=
  match s.request with
  | none => []
  | some request =>
      (request.subscriptions.get? room).toList ++
        (request.lists.entries.filter fun entry => s.shows entry.1 entry.2 room).map
          (·.2.subscription)

/-- What the client gets of the room, none when nothing covers it. -/
def roomView (s : Session) (room : RoomId) : Option RoomView :=
  match s.covering room with
  | [] => none
  | first :: rest =>
      let union := rest.foldl RoomSubscription.combine first
      some
        { timelineLimit :=
            if union.timelineLimit = 0 then s.defaultTimelineLimit else union.timelineLimit
          requiredState := union.compile s.user }

end Session

namespace Request

def requireList (r : Request) (name : String) : Except SyncError RoomList :=
  match r.lists.get? name with
  | some list => .ok list
  | none => .error (.listNotRequested name)

def requireSubscription (r : Request) (room : RoomId) : Except SyncError RoomSubscription :=
  match r.subscriptions.get? room with
  | some s => .ok s
  | none => .error (.roomNotRequested room)

end Request

end SlidingSync
