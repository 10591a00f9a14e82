import SlidingSync.Proofs.Client.Backlog

/-! # Rooms that are missed

An event looks at the whole cache but tells the client of its own room only, and the order over the
whole cache is stored as shown. When the event of a second room waits meanwhile, what that room has
changed in the order is stored with it, and handling the second event finds nothing new: the client
never hears of it. So a backlog is harmless under every cache and request exactly when no event
comes in while one of another room waits.
-/

namespace SlidingSync

/-! ## Schedules in which an event is overtaken -/

/-- When a schedule is not orderly, an event comes in first while one of another room waits. -/
theorem Shape.exists_overtaking {rooms : List RoomId} {schedule : List Shape}
    (one : OneRoom rooms) (h : ¬ Orderly rooms schedule) :
    ∃ before room count after first rest,
      schedule = before ++ .ingest room (count + 1) :: after ∧
        left rooms before = first :: rest ∧ first ≠ room := by
  induction schedule generalizing rooms with
  | nil => exact absurd trivial h
  | cons shape later ih =>
      by_cases hfits : shape.Fits rooms
      · have hlater : ¬ Orderly (shape.after rooms) later := fun horderly => h ⟨hfits, horderly⟩
        obtain ⟨before, room, count, after, first, rest, hsplit, hleft, hne⟩ :=
          ih (one.after hfits) hlater
        exact ⟨shape :: before, room, count, after, first, rest, by rw [hsplit]; rfl, hleft, hne⟩
      · cases shape with
        | handle => exact absurd trivial hfits
        | ingest room count =>
            obtain ⟨hcount, hother⟩ := not_or.mp hfits
            cases rooms with
            | nil => exact absurd (fun _ hin => by simp at hin) hother
            | cons first rest =>
                have hne : first ≠ room := by
                  rintro rfl
                  exact hother fun other hin => one other hin first List.mem_cons_self
                obtain ⟨n, rfl⟩ := Nat.exists_eq_succ_of_ne_zero hcount
                exact ⟨[], room, n, later, first, rest, rfl, rfl, hne⟩

/-! ## One list of rooms by name -/

namespace Overtaken

def topRows : Window :=
  ⟨0, 9⟩

/-- The rooms with a z in their names. -/
def watched : RoomList where
  ranges := ⟨[topRows], rfl, rfl⟩
  sort := [SortKey.name.identifier]
  filters := some { roomNameLike := some "z" }

def listName : String :=
  "main"

def body : Request where
  lists := SortedMap.empty.insert listName watched

/-- An event that names nothing. -/
def chat : Payload :=
  ⟨.object [("type", .string "m.room.message")], by decide +kernel⟩

/-- An event that names its room z. -/
def naming : Payload :=
  ⟨.object [("content", .object [("name", .string "z")]), ("state_key", .string ""),
    ("type", .string roomNameType)], by decide +kernel⟩

theorem validate_body (maximum : UInt64) : body.validate maximum = .ok () := by
  have hfault : watched.fault? maximum = none := by
    unfold RoomList.fault?
    rw [if_neg (UInt64.not_lt.mpr (UInt64.le_iff_toNat_le.mpr (Nat.zero_le _)))]
    decide +kernel
  have hlists : body.listFault? maximum = none := by
    change List.findSome? _ [(listName, watched)] = none
    simp [hfault]
  unfold Request.validate
  rw [hlists]
  rfl

theorem merge_body : (Request.merge none body).1.lists.get? listName = some watched := by
  decide +kernel

/-! ## Names and the order of the list -/

variable {α : Type}

theorem refused_unnamed : Text.occursIn (Text.lowercase "z") (Text.lowercase "") = false := by
  decide +kernel

theorem accepted_z : Text.occursIn (Text.lowercase "z") (Text.lowercase "z") = true := by
  decide +kernel

/-- A room that is not known has no name, so the names alone decide what the list holds. -/
theorem mem_sorted_watched {c : Cache α} {id : RoomId} :
    id ∈ watched.sorted c.snapshot ↔
      Text.occursIn (Text.lowercase "z") (Text.lowercase (c.nameOf id)) = true := by
  rw [RoomList.mem_sorted]
  change (∃ room ∈ c.snapshot.filter _, room.id = id) ↔ _
  unfold Cache.nameOf
  constructor
  · rintro ⟨room, hroom, rfl⟩
    obtain ⟨hin, haccepts⟩ := List.mem_filter.mp hroom
    rw [Cache.mem_snapshot.mp hin]
    exact haccepts
  · intro haccepts
    cases hget : c.rooms.get? id with
    | none =>
        rw [hget] at haccepts
        exact absurd haccepts (by rw [Option.getD_none, refused_unnamed]; exact Bool.false_ne_true)
    | some summary =>
        rw [hget] at haccepts
        exact ⟨⟨id, summary⟩, List.mem_filter.mpr ⟨Cache.mem_snapshot.mpr hget, haccepts⟩, rfl⟩

theorem sorted_eq_nil {c : Cache α} (names : ∀ id, c.nameOf id = "") :
    watched.sorted c.snapshot = [] := by
  apply List.eq_nil_iff_forall_not_mem.mpr
  intro id hid
  rw [mem_sorted_watched, names, refused_unnamed] at hid
  contradiction

theorem sorted_eq_singleton {c : Cache α} {room : RoomId}
    (names : ∀ id, c.nameOf id = if id = room then "z" else "") :
    watched.sorted c.snapshot = [room] := by
  have hmem : ∀ id, id ∈ watched.sorted c.snapshot ↔ id ∈ [room] := by
    intro id
    rw [mem_sorted_watched, names, List.mem_singleton]
    by_cases hid : id = room
    · rw [if_pos hid, accepted_z]
      exact iff_of_true rfl hid
    · rw [if_neg hid, refused_unnamed]
      exact iff_of_false Bool.false_ne_true hid
  have hnodup : (watched.sorted c.snapshot).Nodup := RoomList.nodup_sorted c.nodup_snapshot
  exact List.perm_singleton.mp
    ((List.perm_ext_iff_of_nodup hnodup (List.nodup_singleton room)).mpr hmem)

variable [Listener α]

theorem nameOf_acceptAll_chat (room : RoomId) (count : Nat) (c : Cache α) (id : RoomId) :
    (c.acceptAll (List.replicate count (Event.parse room chat 0))).1.nameOf id = c.nameOf id := by
  induction count generalizing c with
  | zero => rfl
  | succ count ih =>
      rw [List.replicate_succ, Cache.acceptAll_cons, ih, Cache.nameOf_accept]
      split
      · next hid => rw [hid]; rfl
      · rfl

theorem nameOf_acceptAll_naming (room : RoomId) (count : Nat) (c : Cache α) (id : RoomId) :
    (c.acceptAll (List.replicate (count + 1) (Event.parse room naming 0))).1.nameOf id =
      if id = room then "z" else c.nameOf id := by
  induction count generalizing c with
  | zero =>
      rw [List.replicate_one, Cache.acceptAll_cons]
      exact Cache.nameOf_accept c _ id
  | succ count ih =>
      rw [List.replicate_succ, Cache.acceptAll_cons, ih, Cache.nameOf_accept]
      by_cases hid : id = room
      · rw [if_pos hid, if_pos hid]
      · rw [if_neg hid, if_neg hid]
        exact if_neg hid

/-! ## A client that hears of nothing -/

/-- The client shows no room in the list; its session takes the list to have been shown so. -/
structure Unaware (x : Exchange α) (stored : List RoomId) : Prop where
  sortsKnown : x.session.SortsKnown
  inForce : x.session.inForce.lists.get? listName = some watched
  stored : x.session.orders.get? listName = some stored
  blank : ∃ rows, x.client listName = some rows ∧ rows topRows = []

omit [Listener α] in
theorem Unaware.notice {x : Exchange α} {stored : List RoomId} (h : Unaware x stored)
    (event : Event) (quiet : Session.roomChangeOps watched event.room (some stored)
      (watched.sorted x.cache.snapshot) = []) :
    Unaware (x.notice event) (watched.sorted x.cache.snapshot) := by
  have hinForce : (x.session.request.getD {}).lists.get? listName = some watched := h.inForce
  obtain ⟨hops, horder⟩ := Prod.mk.inj
    (x.session.noticed_get? x.cache.snapshot event.room listName)
  rw [hinForce, h.stored] at hops horder
  have hnone : (x.session.noticed x.cache.snapshot event.room).lists.get? listName = none := by
    rw [hops]
    dsimp only [Option.elim, Session.showRoomOf]
    rw [quiet]
    rfl
  obtain ⟨rows, hrows, hblank⟩ := h.blank
  unfold Exchange.notice
  rw [Session.handleEvent_eq h.sortsKnown]
  refine ⟨h.sortsKnown, h.inForce, horder, rows, ?_, hblank⟩
  dsimp only
  rw [Client.hear_ok hrows, hnone]
  rfl

theorem quiet_other {room event : RoomId} (hne : event ≠ room) :
    Session.roomChangeOps watched event (some []) [room] = [] := by
  have hindex : Room.indexOf? [room] event = none := by
    simp [Room.indexOf?, Ne.symm hne]
  unfold Session.roomChangeOps
  rw [hindex]
  rfl

omit [Listener α] in
theorem Unaware.withCache {x : Exchange α} {stored : List RoomId} (h : Unaware x stored)
    (cache : Cache α) : Unaware { x with cache := cache } stored :=
  ⟨h.sortsKnown, h.inForce, h.stored, h.blank⟩

/-- The move of this shape whose events name nothing. -/
def inert : Shape → Move
  | .ingest room count => .ingest room (List.replicate count chat) 0
  | .handle => .handle

theorem shape_inert (shape : Shape) : (inert shape).shape = shape := by
  cases shape with
  | ingest room count => simp [inert, Move.shape]
  | handle => rfl

theorem map_shape_inert (schedule : List Shape) :
    (schedule.map inert).map Move.shape = schedule := by
  rw [List.map_map]
  exact (List.map_congr_left fun shape _ => shape_inert shape).trans (List.map_id schedule)

theorem move_inert_ingest {x : Backlog α} (live : x.exchange.cache.phase = .live) (room : RoomId)
    (count : Nat) :
    let parsed := List.replicate count (Event.parse room chat 0)
    x.move (inert (.ingest room count)) =
      { exchange := { x.exchange with cache := (x.exchange.cache.acceptAll parsed).1 }
        waiting := x.waiting ++ parsed } := by
  unfold inert
  rw [Backlog.move_ingest live, List.map_replicate]

theorem nameOf_move_inert {x : Backlog α} (live : x.exchange.cache.phase = .live) (shape : Shape)
    (id : RoomId) :
    (x.move (inert shape)).exchange.cache.nameOf id = x.exchange.cache.nameOf id := by
  cases shape with
  | ingest room count =>
      rw [move_inert_ingest live]
      exact nameOf_acceptAll_chat room count x.exchange.cache id
  | handle =>
      cases hw : x.waiting with
      | nil => rw [inert, Backlog.move_handle_nil hw]
      | cons event rest =>
          rw [inert, Backlog.move_handle_cons hw]
          rfl

/-! ## Before and after the room is overtaken -/

/-- No room has a name. -/
structure Before (x : Backlog α) : Prop where
  live : x.exchange.cache.phase = .live
  names : ∀ id, x.exchange.cache.nameOf id = ""
  unaware : Unaware x.exchange []

/--
The room alone has a name. The session has stored an order with it, or is yet to
handle an event of another room.
-/
structure Missed (x : Backlog α) (room : RoomId) : Prop where
  live : x.exchange.cache.phase = .live
  names : ∀ id, x.exchange.cache.nameOf id = if id = room then "z" else ""
  unaware : Unaware x.exchange [room] ∨
    Unaware x.exchange [] ∧ ∃ first rest, x.rooms = first :: rest ∧ first ≠ room

theorem Before.move {x : Backlog α} (h : Before x) (shape : Shape) :
    Before (x.move (inert shape)) where
  live := (x.phase_move _).trans h.live
  names := fun id => (nameOf_move_inert h.live shape id).trans (h.names id)
  unaware := by
    cases shape with
    | ingest room count =>
        rw [move_inert_ingest h.live]
        exact h.unaware.withCache _
    | handle =>
        cases hw : x.waiting with
        | nil =>
            rw [inert, Backlog.move_handle_nil hw]
            exact h.unaware
        | cons event rest =>
            have horder := sorted_eq_nil h.names
            have hnotice := h.unaware.notice event (by rw [horder]; rfl)
            rw [horder] at hnotice
            rw [inert, Backlog.move_handle_cons hw]
            exact hnotice

theorem Before.foldl {x : Backlog α} (h : Before x) (schedule : List Shape) :
    Before ((schedule.map inert).foldl Backlog.move x) := by
  induction schedule generalizing x with
  | nil => exact h
  | cons shape rest ih => exact ih (h.move shape)

theorem Before.overtake {x : Backlog α} (h : Before x) {first room : RoomId} {rest : List RoomId}
    (waits : x.rooms = first :: rest) (other : first ≠ room) (count : Nat) :
    Missed (x.move (.ingest room (List.replicate (count + 1) naming) 0)) room := by
  have hrooms := Backlog.rooms_move h.live (.ingest room (List.replicate (count + 1) naming) 0)
  rw [waits] at hrooms
  refine ⟨(x.phase_move _).trans h.live, ?_, .inr ⟨?_, first, _, hrooms, other⟩⟩
  · intro id
    rw [Backlog.move_ingest h.live, List.map_replicate, nameOf_acceptAll_naming, h.names]
  · rw [Backlog.move_ingest h.live]
    exact h.unaware.withCache _

theorem Missed.move {x : Backlog α} {room : RoomId} (h : Missed x room) (shape : Shape) :
    Missed (x.move (inert shape)) room where
  live := (x.phase_move _).trans h.live
  names := fun id => (nameOf_move_inert h.live shape id).trans (h.names id)
  unaware := by
    have horder := sorted_eq_singleton h.names
    have hrooms := Backlog.rooms_move h.live (inert shape)
    rw [shape_inert] at hrooms
    cases shape with
    | ingest other count =>
        rw [move_inert_ingest h.live] at hrooms ⊢
        refine h.unaware.imp (fun hstored => hstored.withCache _) ?_
        rintro ⟨hempty, first, rest, hwaits, hne⟩
        rw [hwaits] at hrooms
        exact ⟨hempty.withCache _, first, _, hrooms, hne⟩
    | handle =>
        cases hw : x.waiting with
        | nil =>
            rw [inert, Backlog.move_handle_nil hw]
            exact h.unaware
        | cons event rest =>
            rw [inert, Backlog.move_handle_cons hw]
            refine .inl ?_
            rcases h.unaware with hstored | ⟨hempty, first, later, hwaits, hne⟩
            · have hnotice := hstored.notice event (by
                rw [horder]
                exact Session.roomChangeOps_self _ _ _)
              rwa [horder] at hnotice
            · have hfirst : event.room = first := by
                unfold Backlog.rooms at hwaits
                rw [hw] at hwaits
                exact (List.cons.inj hwaits).1
              have hnotice := hempty.notice event (by
                rw [horder, hfirst]
                exact quiet_other hne)
              rwa [horder] at hnotice

theorem Missed.foldl {x : Backlog α} {room : RoomId} (h : Missed x room) (schedule : List Shape) :
    Missed ((schedule.map inert).foldl Backlog.move x) room := by
  induction schedule generalizing x with
  | nil => exact h
  | cons shape rest ih => exact ih (h.move shape)

omit [Listener α] in
/-- The client should have the room in its first row. -/
theorem Missed.not_kept {x : Backlog α} {room : RoomId} (h : Missed x room)
    (done : x.waiting = []) : ¬ x.exchange.Kept := by
  intro hkept
  have hunaware : Unaware x.exchange [room] := by
    rcases h.unaware with hstored | ⟨-, first, rest, hwaits, -⟩
    · exact hstored
    · unfold Backlog.rooms at hwaits
      rw [done] at hwaits
      contradiction
  obtain ⟨rows, hrows, hlists⟩ := hkept listName
  obtain ⟨order, horder, hshown⟩ := hlists watched hunaware.inForce
  obtain ⟨rows', hrows', hblank⟩ := hunaware.blank
  have hsame : rows' = rows := Option.some.inj (hrows'.symm.trans hrows)
  have hknown : firstUnknownSort watched.sort = none := by decide +kernel
  have hsorted : order = [room] := by
    rw [RoomList.order_eq_sorted hknown, sorted_eq_singleton h.names] at horder
    exact (Except.ok.inj horder).symm
  have hview := hshown topRows List.mem_cons_self
  rw [← hsame, hblank, hsorted] at hview
  contradiction

/-! ## Schedules that miss a room -/

variable (α) in
omit [Listener α] in
def noRooms : Cache α where
  phase := .live

omit [Listener α] in
theorem before_start (user : UserId) (config : Config) :
    Before (Backlog.start (noRooms α) user config body) := by
  have hagrees := (Exchange.agrees_start (noRooms α) user config).request body
  have hnew := (Session.agrees_new user config []).sortsKnown
  have hinForce : (Backlog.start (noRooms α) user config body).exchange.session.inForce.lists.get?
      listName = some watched := by
    have hmerged := Session.inForce_handleRequest hnew (validate_body _) (noRooms α).snapshot
    change ((Session.new user config).handleRequest (noRooms α).snapshot body).2.inForce.lists.get?
      listName = _
    rw [hmerged]
    exact merge_body
  obtain ⟨rows, hrows, hlists⟩ := hagrees.holds listName
  have hlist := hlists watched hinForce
  have hnone : watched.sorted (noRooms α).snapshot = [] := sorted_eq_nil fun _ => rfl
  refine ⟨rfl, fun _ => rfl, hagrees.sortsKnown, hinForce, hlist.order.trans ?_, rows, hrows, ?_⟩
  · exact congrArg some hnone
  · rw [hlist.shown topRows List.mem_cons_self]
    exact congrArg topRows.view hnone

/-- Moves of a schedule in which one batch names its room. -/
def fill (before : List Shape) (room : RoomId) (count : Nat) (after : List Shape) : List Move :=
  before.map inert ++ .ingest room (List.replicate (count + 1) naming) 0 :: after.map inert

theorem map_shape_fill (before : List Shape) (room : RoomId) (count : Nat) (after : List Shape) :
    (fill before room count after).map Move.shape =
      before ++ .ingest room (count + 1) :: after := by
  unfold fill
  rw [List.map_append, List.map_cons, map_shape_inert, map_shape_inert, Move.shape,
    List.length_replicate]

theorem not_kept_of_overtaken (user : UserId) (config : Config) {before after : List Shape}
    {first room : RoomId} {rest : List RoomId} {count : Nat}
    (waits : Shape.left [] before = first :: rest) (other : first ≠ room)
    (drained : Shape.left [] (before ++ .ingest room (count + 1) :: after) = []) :
    ¬ (Backlog.run (noRooms α) user config body
        (fill before room count after)).exchange.Kept := by
  have hstart : Before (Backlog.start (noRooms α) user config body) := before_start user config
  have hwaits := Backlog.rooms_foldl hstart.live (before.map inert)
  rw [map_shape_inert] at hwaits
  have hmissed := ((hstart.foldl before).overtake (hwaits.trans waits) other count).foldl after
  have hdone : (Backlog.run (noRooms α) user config body
      (fill before room count after)).waiting = [] :=
    Backlog.waiting_run rfl user config body (by rwa [map_shape_fill])
  unfold Backlog.run fill at hdone ⊢
  rw [List.foldl_append, List.foldl_cons] at hdone ⊢
  exact hmissed.not_kept hdone

def lobby : RoomId :=
  ⟨"!lobby:s", by decide +kernel⟩

def attic : RoomId :=
  ⟨"!attic:s", by decide +kernel⟩

def guest : UserId :=
  ⟨"@guest:s", by decide +kernel⟩

def standard : Config :=
  .ofServer ⟨"s", by decide +kernel⟩

/-- Both events are handled in the order they came in, and yet the client is not up to date. -/
theorem missed_when_overtaken :
    let moves : List Move :=
      [.ingest lobby [chat] 0, .ingest attic [naming] 0, .handle, .handle]
    let x := Backlog.run (noRooms Channel) guest standard body moves
    (noRooms Channel).phase = .live ∧ body.validate standard.maxTimelineLimit = .ok () ∧
      x.waiting = [] ∧ ¬ x.exchange.Kept := by
  have hdrained : Shape.left [] [.ingest lobby 1, .ingest attic 1, .handle, .handle] = [] := rfl
  have hother : lobby ≠ attic := by decide +kernel
  have hshape := map_shape_fill [.ingest lobby 1] attic 0 [.handle, .handle]
  have hmissed := @not_kept_of_overtaken Channel _ guest standard [.ingest lobby 1]
    [.handle, .handle] lobby attic [] 0 rfl hother hdrained
  have hdone := @Backlog.waiting_run Channel _ (noRooms Channel) rfl guest standard body
    (fill [.ingest lobby 1] attic 0 [.handle, .handle]) ((congrArg _ hshape).trans hdrained)
  exact ⟨rfl, validate_body _, hdone, hmissed⟩

end Overtaken

/-! ## When a backlog is harmless -/

namespace Backlog

variable {α : Type} [Listener α]

/--
Schedules that leave no event unhandled bring every client up to date, whatever
is in the cache, the request and the events, exactly when no event comes in while
one of another room waits.
-/
theorem kept_iff_orderly (user : UserId) (config : Config) {schedule : List Shape}
    (drained : Shape.left [] schedule = []) :
    Shape.Orderly [] schedule ↔
      ∀ (cache : Cache α) (body : Request) (moves : List Move), cache.phase = .live →
        body.validate config.maxTimelineLimit = .ok () → moves.map Move.shape = schedule →
          (run cache user config body moves).exchange.Kept := by
  constructor
  · rintro horderly cache body moves hlive - rfl
    exact kept_of_orderly hlive user config body horderly drained
  · intro hkept
    by_contra hlate
    obtain ⟨before, room, count, after, first, rest, rfl, hwaits, hne⟩ :=
      Shape.exists_overtaking (fun _ ha => by simp at ha) hlate
    have hshape := Overtaken.map_shape_fill before room count after
    exact Overtaken.not_kept_of_overtaken user config hwaits hne drained
      (hkept (Overtaken.noRooms α) Overtaken.body (Overtaken.fill before room count after) rfl
        (Overtaken.validate_body _) hshape)

open Overtaken in
theorem kept_when_handled_between :
    Shape.left [] [.ingest lobby 2, .handle, .handle, .ingest attic 1, .handle] = [] ∧
      ∀ (cache : Cache Channel) (body : Request) (moves : List Move), cache.phase = .live →
        body.validate standard.maxTimelineLimit = .ok () →
          moves.map Move.shape =
            [.ingest lobby 2, .handle, .handle, .ingest attic 1, .handle] →
          (run cache guest standard body moves).exchange.Kept :=
  ⟨rfl, (kept_iff_orderly guest standard rfl).mp (by decide +kernel)⟩

end Backlog

end SlidingSync
