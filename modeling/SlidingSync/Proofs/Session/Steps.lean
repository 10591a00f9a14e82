import SlidingSync.Session
import SlidingSync.Proofs.Order.Sorting
import SlidingSync.Proofs.Request.Validity

/-! # Steps of a session

The walks of a session over its lists can stop half way at a list with an unknown sort identifier.
A session never holds such a list: a body is refused when it names one, and merging takes sort
identifiers over whole. Under this invariant a walk is a fold over the lists, and what it tells
and stores for a list is read off that list alone.
-/

namespace SlidingSync

namespace Session

/-- The request in force has no unknown sort identifier. -/
def SortsKnown (s : Session) : Prop :=
  ∀ request, s.request = some request → request.SortsKnown

theorem SortsKnown.inForce {s : Session} (h : s.SortsKnown) : (s.request.getD {}).SortsKnown := by
  cases hr : s.request with
  | none => exact fun _ _ hlist => by simp at hlist
  | some request => exact h request hr

/-! ## The walk after a request -/

/-- One list that a request changed, shown in its order. -/
def showChange (rooms : List Room) (p : Progress) (entry : String × ListDelta) : Progress :=
  match entry.2.curr with
  | none => { p with orders := p.orders.erase entry.1 }
  | some curr =>
      { lists := p.lists.insert entry.1 (listChangeOps entry.2 curr (curr.sorted rooms))
        orders := p.orders.insert entry.1 (curr.sorted rooms) }

theorem showChanges_eq_foldl (rooms : List Room) (p : Progress)
    {entries : List (String × ListDelta)}
    (known : ∀ e ∈ entries, ∀ curr, e.2.curr = some curr → curr.SortKnown) :
    showChanges rooms p entries = (.ok (), entries.foldl (showChange rooms) p) := by
  induction entries generalizing p with
  | nil => rfl
  | cons entry rest ih =>
      obtain ⟨name, delta⟩ := entry
      have hrest := fun p => ih p fun e he => known e (List.mem_cons_of_mem _ he)
      unfold showChanges
      rw [List.foldl_cons]
      cases hcurr : delta.curr with
      | none =>
          dsimp only
          rw [hrest]
          simp only [showChange, hcurr]
      | some curr =>
          have hknown := known (name, delta) List.mem_cons_self curr hcurr
          dsimp only
          rw [RoomList.order_eq_sorted hknown]
          dsimp only
          rw [hrest]
          simp only [showChange, hcurr]

/-- What an accepted body leads to, list by list. -/
def shown (s : Session) (rooms : List Room) (body : Request) : Progress :=
  (Request.merge s.request body).2.lists.entries.foldl (showChange rooms) ⟨.empty, s.orders⟩

/-- Operations and order of a list after the walk over changed lists has met it. -/
def showChangeOf (rooms : List Room) (seen : Option (List ListOp) × Option (List RoomId))
    (delta : ListDelta) : Option (List ListOp) × Option (List RoomId) :=
  match delta.curr with
  | none => (seen.1, none)
  | some curr => (some (listChangeOps delta curr (curr.sorted rooms)), some (curr.sorted rooms))

/-- What a walk over changed lists does to one list is decided by what changed there. -/
theorem shown_get? (s : Session) (rooms : List Room) (body : Request) (name : String) :
    ((s.shown rooms body).lists.get? name, (s.shown rooms body).orders.get? name) =
      (ListDelta.between ((s.request.getD {}).lists.get? name)
        ((Request.merge s.request body).1.lists.get? name)).elim
        (none, s.orders.get? name) (showChangeOf rooms (none, s.orders.get? name)) := by
  let view := fun p : Progress => (p.lists.get? name, p.orders.get? name)
  have hit : ∀ p delta, view (showChange rooms p (name, delta)) =
      showChangeOf rooms (view p) delta := by
    intro p delta
    unfold showChange showChangeOf
    cases delta.curr <;> simp [view, SortedMap.get?_erase]
  have miss : ∀ p (entry : String × ListDelta), entry.1 ≠ name →
      view (showChange rooms p entry) = view p := by
    intro p entry hne
    have hname : name ≠ entry.1 := Ne.symm hne
    unfold showChange
    cases entry.2.curr <;> simp [view, SortedMap.get?_erase, SortedMap.get?_insert, hname]
  have walk := SortedMap.view_foldl view (showChangeOf rooms) hit miss
    (Request.merge s.request body).2.lists ⟨.empty, s.orders⟩
  refine walk.trans ?_
  change (((Request.mergeLists _ body).changed.get? name).elim _ _) = _
  rw [Request.mergeLists_changed]
  rfl

theorem sortKnown_of_delta {s : Session} (known : s.SortsKnown) {body : Request}
    (hbody : body.SortsKnown) {name : String} {delta : ListDelta} {curr : RoomList}
    (hdelta : (Request.merge s.request body).2.lists.get? name = some delta)
    (hcurr : delta.curr = some curr) : curr.SortKnown := by
  change (Request.mergeLists _ body).changed.get? name = some delta at hdelta
  rw [Request.mergeLists_changed] at hdelta
  rw [ListDelta.eq_of_between hdelta] at hcurr
  exact Request.sortsKnown_merge known.inForce hbody name curr hcurr

theorem handleRequest_refused {s : Session} {body : Request} {fault : RequestFault}
    (h : body.validate s.maxTimelineLimit = .error fault) (rooms : List Room) :
    s.handleRequest rooms body = (.error (.badRequest fault), s) := by
  unfold handleRequest
  rw [h]

theorem handleRequest_accepted {s : Session} (known : s.SortsKnown) {body : Request}
    (h : body.validate s.maxTimelineLimit = .ok ()) (rooms : List Room) :
    s.handleRequest rooms body =
      (.ok
        { lists := (s.shown rooms body).lists
          subscribed := (Request.merge s.request body).2.subs
          unsubscribed := (Request.merge s.request body).2.unsubs },
        { s with
          request := some (Request.merge s.request body).1
          orders := (s.shown rooms body).orders }) := by
  have hbody := Request.sortsKnown_of_validate h
  have hwalk : showChanges rooms ⟨.empty, s.orders⟩ (Request.merge s.request body).2.lists.entries =
      (.ok (), s.shown rooms body) :=
    showChanges_eq_foldl rooms ⟨.empty, s.orders⟩ fun e he curr hcurr =>
      sortKnown_of_delta known hbody (SortedMap.mem_entries_iff.mp he) hcurr
  unfold handleRequest
  rw [h]
  dsimp only
  rw [hwalk]

/-! ## The walk after an event -/

def showRoom (rooms : List Room) (room : RoomId) (p : Progress) (entry : String × RoomList) :
    Progress :=
  let order := entry.2.sorted rooms
  let ops := roomChangeOps entry.2 room (p.orders.get? entry.1) order
  { lists := if ops.isEmpty then p.lists else p.lists.insert entry.1 ops
    orders := p.orders.insert entry.1 order }

theorem showEvent_eq_foldl (rooms : List Room) (room : RoomId) (p : Progress)
    {entries : List (String × RoomList)} (known : ∀ e ∈ entries, e.2.SortKnown) :
    showEvent rooms room p entries = (.ok (), entries.foldl (showRoom rooms room) p) := by
  induction entries generalizing p with
  | nil => rfl
  | cons entry rest ih =>
      obtain ⟨name, list⟩ := entry
      have hrest := fun p => ih p fun e he => known e (List.mem_cons_of_mem _ he)
      unfold showEvent
      rw [List.foldl_cons, RoomList.order_eq_sorted (known (name, list) List.mem_cons_self)]
      dsimp only
      rw [hrest]
      rfl

/-- What an event of the room leads to, list by list. -/
def noticed (s : Session) (rooms : List Room) (room : RoomId) : Progress :=
  (s.request.getD {}).lists.entries.foldl (showRoom rooms room) ⟨.empty, s.orders⟩

/-- Operations and order of a list after the walk that follows an event has met it. -/
def showRoomOf (rooms : List Room) (room : RoomId)
    (seen : Option (List ListOp) × Option (List RoomId)) (list : RoomList) :
    Option (List ListOp) × Option (List RoomId) :=
  let ops := roomChangeOps list room seen.2 (list.sorted rooms)
  (if ops.isEmpty then seen.1 else some ops, some (list.sorted rooms))

theorem noticed_get? (s : Session) (rooms : List Room) (room : RoomId) (name : String) :
    ((s.noticed rooms room).lists.get? name, (s.noticed rooms room).orders.get? name) =
      ((s.request.getD {}).lists.get? name).elim (none, s.orders.get? name)
        (showRoomOf rooms room (none, s.orders.get? name)) := by
  let view := fun p : Progress => (p.lists.get? name, p.orders.get? name)
  have hit : ∀ p list, view (showRoom rooms room p (name, list)) =
      showRoomOf rooms room (view p) list := by
    intro p list
    unfold showRoom showRoomOf
    dsimp only [view]
    split <;> simp
  have miss : ∀ p (entry : String × RoomList), entry.1 ≠ name →
      view (showRoom rooms room p entry) = view p := by
    intro p entry hne
    have hname : name ≠ entry.1 := Ne.symm hne
    unfold showRoom
    dsimp only [view]
    split <;> simp [SortedMap.get?_insert, hname]
  exact SortedMap.view_foldl view (showRoomOf rooms room) hit miss (s.request.getD {}).lists
    ⟨.empty, s.orders⟩

theorem handleEvent_eq {s : Session} (known : s.SortsKnown) (rooms : List Room) (room : RoomId) :
    s.handleEvent rooms room =
      (.ok { lists := (s.noticed rooms room).lists },
        { s with orders := (s.noticed rooms room).orders }) := by
  cases hr : s.request with
  | none =>
      cases s
      cases hr
      rfl
  | some request =>
      have hwalk : showEvent rooms room ⟨.empty, s.orders⟩ request.lists.entries =
          (.ok (), s.noticed rooms room) := by
        unfold noticed
        rw [hr]
        exact showEvent_eq_foldl rooms room ⟨.empty, s.orders⟩ fun e he =>
          known request hr e.1 e.2 (SortedMap.mem_entries_iff.mp he)
      unfold handleEvent
      rw [hr]
      dsimp only
      rw [hwalk]

/-! ## The same event once more -/

/-- An event changes nothing of a session but the orders. -/
theorem handleEvent_frame (s : Session) (rooms : List Room) (room : RoomId) :
    ∃ orders, (s.handleEvent rooms room).2 = { s with orders := orders } := by
  unfold handleEvent
  split
  · exact ⟨s.orders, rfl⟩
  · split
    · exact ⟨_, rfl⟩
    · exact ⟨_, rfl⟩

theorem roomChangeOps_self (list : RoomList) (room : RoomId) (order : List RoomId) :
    roomChangeOps list room (some order) order = [] := by
  unfold roomChangeOps
  rw [Option.bind_some]
  cases Room.indexOf? order room with
  | none => rfl
  | some source =>
      change list.ranges.moveOps source source order = []
      unfold Ranges.moveOps Ranges.moves
      rw [if_pos rfl]
      rfl

/-- Over rooms that have not changed since, an event finds every list as it was left. -/
theorem handleEvent_again {s : Session} (known : s.SortsKnown) (rooms : List Room) (room : RoomId) :
    (s.handleEvent rooms room).2.handleEvent rooms room =
      (.ok {}, (s.handleEvent rooms room).2) := by
  let next : Session := { s with orders := (s.noticed rooms room).orders }
  have hnext : (s.handleEvent rooms room).2 = next := by
    rw [handleEvent_eq known]
  have hquiet : ∀ name, ((next.noticed rooms room).lists.get? name,
      (next.noticed rooms room).orders.get? name) = (none, next.orders.get? name) := by
    intro name
    have hbefore := congrArg Prod.snd (s.noticed_get? rooms room name)
    rw [next.noticed_get? rooms room name]
    change ((s.request.getD {}).lists.get? name).elim _ _ = _
    cases hlist : (s.request.getD {}).lists.get? name with
    | none => rfl
    | some list =>
        rw [hlist] at hbefore
        have hstored : next.orders.get? name = some (list.sorted rooms) := hbefore
        rw [hstored, Option.elim_some]
        unfold showRoomOf
        rw [roomChangeOps_self]
        rfl
  have hlists : (next.noticed rooms room).lists = .empty := by
    apply SortedMap.ext_get?
    intro name
    rw [SortedMap.get?_empty]
    exact congrArg Prod.fst (hquiet name)
  have horders : (next.noticed rooms room).orders = next.orders := by
    apply SortedMap.ext_get?
    intro name
    exact congrArg Prod.snd (hquiet name)
  have hknown : next.SortsKnown := known
  rw [hnext, handleEvent_eq hknown, hlists, horders]

theorem handleEvent_settles {s : Session} (known : s.SortsKnown) (rooms : List Room)
    (room : RoomId) :
    ∃ update next, s.handleEvent rooms room = (.ok update, next) ∧
      next.handleEvent rooms room = (.ok {}, next) ∧ next.SortsKnown := by
  have hagain := handleEvent_again known rooms room
  rw [handleEvent_eq known] at hagain ⊢
  exact ⟨_, _, rfl, hagain, known⟩

end Session

end SlidingSync
