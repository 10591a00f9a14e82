import SlidingSync.Proofs.Cache.Rooms
import SlidingSync.Proofs.Client.Windows
import SlidingSync.Proofs.Session.Steps

/-! # A client and its session

The client applies whatever its session tells it, list by list. `Session.Agrees` relates a session
and its client to rooms: each list in force was last shown in its order over these rooms, and the
client has that order in every window. An answer to a body brings any two of them to agree over
the rooms of the moment; an event of one room does when no other room has changed since.
-/

namespace SlidingSync

/-! ## Clients -/

/-- Rows of a client by list. There are none after an edit of a row that was not there. -/
abbrev Client :=
  String → Option Rows

namespace Client

def new : Client :=
  fun _ => some fun _ => []

def follow (c : Client) (ranges : String → Ranges) (update : SessionUpdate) : Client := fun name =>
  (c name).bind fun rows => rows.applyAll (ranges name) ((update.lists.get? name).getD [])

/-- The client after its session has been at work; an error tells it nothing. -/
def hear (c : Client) (ranges : String → Ranges) : Except SyncError SessionUpdate → Client
  | .ok update => c.follow ranges update
  | .error _ => c

theorem hear_ok {c : Client} {name : String} {rows : Rows} (h : c name = some rows)
    (ranges : String → Ranges) (update : SessionUpdate) :
    c.hear ranges (.ok update) name =
      rows.applyAll (ranges name) ((update.lists.get? name).getD []) := by
  change (c name).bind _ = _
  rw [h, Option.bind_some]

end Client

namespace Rows

theorem applyAll_invalidate (r : Ranges) (windows : List Window) (rows : Rows) :
    ∃ rows', rows.applyAll r (windows.map .invalidate) = some rows' := by
  induction windows generalizing rows with
  | nil => exact ⟨rows, rfl⟩
  | cons w rest ih => exact ih (Function.update rows w [])

/-- A list that is sent anew is shown whatever rows the client had before. -/
theorem applyAll_listChangeOps (rows : Rows) (delta : ListDelta) (curr : RoomList)
    (order : List RoomId) :
    ∃ rows', rows.applyAll curr.ranges (Session.listChangeOps delta curr order) = some rows' ∧
      rows'.Show curr.ranges order := by
  have hstale : ∀ (windows : List Window),
      ∃ rows', rows.applyAll curr.ranges
          (windows.map .invalidate ++ List.zipWith .sync curr.ranges.windows
            (curr.ranges.slices order)) = some rows' ∧ rows'.Show curr.ranges order := by
    intro windows
    obtain ⟨left, hleft⟩ := applyAll_invalidate curr.ranges windows rows
    obtain ⟨rows', happly, hshow, -⟩ :=
      @applyAll_flatMap curr.ranges left curr.ranges.windows curr.ranges.nodup_windows
        (fun w => [.sync w (w.view order)]) (fun w => w.view order) fun _ _ _ _ => rfl
    refine ⟨rows', ?_, hshow⟩
    rw [applyAll_append, hleft, Option.bind_some, Ranges.slices_eq, List.zipWith_map_right,
      List.zipWith_self, List.map_eq_flatMap]
    exact happly
  unfold Session.listChangeOps
  cases delta.prev with
  | none => exact hstale []
  | some prev =>
      dsimp only
      split
      · exact hstale prev.ranges.windows
      · exact hstale []

end Rows

namespace Session

/-- The request in force, without any list before the first one. -/
def inForce (s : Session) : Request :=
  s.request.getD {}

/-- The ranges of the list in force, none at all when there is no such list. -/
def rangesOf (s : Session) (name : String) : Ranges :=
  ((s.inForce.lists.get? name).map (·.ranges)).getD .empty

theorem rangesOf_eq {s : Session} {name : String} {list : RoomList}
    (h : s.inForce.lists.get? name = some list) : s.rangesOf name = list.ranges := by
  unfold rangesOf
  rw [h]
  rfl

theorem inForce_handleRequest {s : Session} (known : s.SortsKnown) {body : Request}
    (h : body.validate s.maxTimelineLimit = .ok ()) (rooms : List Room) :
    (s.handleRequest rooms body).2.inForce = (Request.merge s.request body).1 := by
  rw [handleRequest_accepted known h]
  rfl

/-- What a session holds of one list, and its client, over rooms. -/
structure AgreesOn (s : Session) (rooms : List Room) (rows : Rows) (name : String)
    (list : RoomList) : Prop where
  order : s.orders.get? name = some (list.sorted rooms)
  shown : rows.Show list.ranges (list.sorted rooms)

/-- Session and client hold all lists in force as they are over the rooms. -/
structure Agrees (s : Session) (rooms : List Room) (c : Client) : Prop where
  sortsKnown : s.SortsKnown
  /-- No edit was of a row that the client did not have. -/
  holds : ∀ name, ∃ rows, c name = some rows ∧
    ∀ list, s.inForce.lists.get? name = some list → s.AgreesOn rooms rows name list

theorem agrees_new (user : UserId) (config : Config) (rooms : List Room) :
    (new user config).Agrees rooms Client.new where
  sortsKnown := fun _ h => by simp [new] at h
  holds := fun _ => ⟨fun _ => [], rfl, fun _ h => by simp [inForce, new] at h⟩

variable {s : Session} {rooms rooms' : List Room} {c : Client}

/-! ## Answers -/

/-- A body that changes a list has it sent anew, and one that does not leaves it as it was. -/
theorem Agrees.handleRequest (h : s.Agrees rooms c) (body : Request) :
    (s.handleRequest rooms body).2.Agrees rooms
      (c.hear (s.handleRequest rooms body).2.rangesOf (s.handleRequest rooms body).1) := by
  cases hv : body.validate s.maxTimelineLimit with
  | error fault =>
      rw [handleRequest_refused hv]
      exact h
  | ok _ =>
      rw [handleRequest_accepted h.sortsKnown hv]
      constructor
      · intro request hrequest
        cases hrequest
        exact Request.sortsKnown_merge h.sortsKnown.inForce (Request.sortsKnown_of_validate hv)
      · intro name
        obtain ⟨rows, hrows, hlists⟩ := h.holds name
        obtain ⟨hops, horder⟩ := Prod.mk.inj (s.shown_get? rooms body name)
        rw [Client.hear_ok hrows, hops]
        by_cases hsame :
            (s.request.getD {}).lists.get? name = (Request.merge s.request body).1.lists.get? name
        · rw [hsame, ListDelta.between_self] at horder ⊢
          refine ⟨rows, rfl, ?_⟩
          intro list hlist
          have hagrees := hlists list (hsame.trans hlist)
          exact ⟨horder.trans hagrees.order, hagrees.shown⟩
        · rw [ListDelta.between, if_neg hsame] at horder ⊢
          cases hcurr : (Request.merge s.request body).1.lists.get? name with
          | none =>
              refine ⟨rows, rfl, ?_⟩
              intro list hlist
              rw [inForce, Option.getD_some, hcurr] at hlist
              contradiction
          | some curr =>
              rw [hcurr] at horder
              obtain ⟨rows', happly, hshow⟩ := rows.applyAll_listChangeOps
                ⟨(s.request.getD {}).lists.get? name, some curr⟩ curr (curr.sorted rooms)
              refine ⟨rows', ?_, ?_⟩
              · have hranges : rangesOf
                    { s with
                      request := some (Request.merge s.request body).1
                      orders := (s.shown rooms body).orders } name = curr.ranges := rangesOf_eq hcurr
                rw [hranges]
                exact happly
              · intro list hlist
                cases hcurr.symm.trans hlist
                exact ⟨horder, hshow⟩

/-- After an event only the event's room is looked at, so it must be the only one that changed. -/
theorem Agrees.handleEvent (h : s.Agrees rooms c) {room : RoomId}
    (distinct : (rooms.map (·.id)).Nodup) (distinct' : (rooms'.map (·.id)).Nodup)
    (others : (rooms.filter fun r => r.id != room) = rooms'.filter fun r => r.id != room) :
    (s.handleEvent rooms' room).2.Agrees rooms'
      (c.hear (s.handleEvent rooms' room).2.rangesOf (s.handleEvent rooms' room).1) := by
  rw [handleEvent_eq h.sortsKnown]
  refine ⟨h.sortsKnown, ?_⟩
  intro name
  obtain ⟨rows, hrows, hlists⟩ := h.holds name
  obtain ⟨hops, horder⟩ := Prod.mk.inj (s.noticed_get? rooms' room name)
  rw [Client.hear_ok hrows, hops]
  cases hlist : s.inForce.lists.get? name with
  | none =>
      change (s.request.getD {}).lists.get? name = none at hlist
      refine ⟨rows, ?_, ?_⟩
      · rw [hlist]
        rfl
      · intro list hin
        cases hlist.symm.trans hin
  | some list =>
      have hagrees := hlists list hlist
      obtain ⟨rows', happly, hshow⟩ := hagrees.shown.applyAll_roomChangeOps
        (RoomList.nodup_sorted distinct) (RoomList.nodup_sorted distinct')
        (RoomList.filter_sorted_congr room distinct distinct' (.of_eq others))
      change (s.request.getD {}).lists.get? name = some list at hlist
      rw [hlist] at horder
      refine ⟨rows', ?_, ?_⟩
      · have hranges : Session.rangesOf { s with orders := (s.noticed rooms' room).orders } name =
            list.ranges := rangesOf_eq hlist
        rw [hranges, hlist, hagrees.order]
        dsimp only [Option.elim, showRoomOf]
        split
        · next hempty =>
          rw [List.isEmpty_iff.mp hempty] at happly
          exact happly
        · exact happly
      · intro list' hin
        cases hlist.symm.trans hin
        exact ⟨horder, hshow⟩

end Session

/-! ## Cache, session and client -/

structure Exchange (α : Type) where
  cache : Cache α
  session : Session
  client : Client

namespace Exchange

variable {α : Type}

def start (cache : Cache α) (user : UserId) (config : Config) : Exchange α where
  cache := cache
  session := Session.new user config
  client := Client.new

def request (x : Exchange α) (body : Request) : Exchange α :=
  let answer := x.session.handleRequest x.cache.snapshot body
  { x with
    session := answer.2
    client := x.client.hear answer.2.rangesOf answer.1 }

def notice (x : Exchange α) (event : Event) : Exchange α :=
  let answer := x.session.handleEvent x.cache.snapshot event.room
  { x with
    session := answer.2
    client := x.client.hear answer.2.rangesOf answer.1 }

/--
The client has edited no row that it did not have, and in every window of every
list in force it has the rooms that stand there in the list's order over the cache.
-/
def Kept (x : Exchange α) : Prop :=
  ∀ name, ∃ rows, x.client name = some rows ∧
    ∀ list, x.session.inForce.lists.get? name = some list →
      ∃ order, list.order x.cache.snapshot = .ok order ∧
        ∀ w ∈ list.ranges.windows, rows w = w.view order

/-- Session and client are as they are over the cache. -/
def Agrees (x : Exchange α) : Prop :=
  x.session.Agrees x.cache.snapshot x.client

theorem Agrees.kept {x : Exchange α} (h : x.Agrees) : x.Kept := by
  intro name
  obtain ⟨rows, hrows, hlists⟩ := h.holds name
  refine ⟨rows, hrows, ?_⟩
  intro list hlist
  have hknown := h.sortsKnown.inForce name list hlist
  exact ⟨_, RoomList.order_eq_sorted hknown _, (hlists list hlist).shown⟩

theorem agrees_start (cache : Cache α) (user : UserId) (config : Config) :
    (start cache user config).Agrees :=
  Session.agrees_new user config cache.snapshot

theorem Agrees.request {x : Exchange α} (h : x.Agrees) (body : Request) : (x.request body).Agrees :=
  Session.Agrees.handleRequest h body

/-- The session may lag behind the cache in the event's room, but in no other. -/
theorem Agrees.notice {x : Exchange α} (h : x.Agrees) (cache : Cache α) (event : Event)
    (same : ∀ id, id ≠ event.room → x.cache.rooms.get? id = cache.rooms.get? id) :
    (Exchange.notice { x with cache := cache } event).Agrees :=
  Session.Agrees.handleEvent h x.cache.nodup_snapshot cache.nodup_snapshot
    (Cache.snapshot_others_congr same)

end Exchange

end SlidingSync
