import SlidingSync.Proofs.Client.Exchange

/-! # Sessions with a backlog

A session may take note of events later than they are ingested: they wait in a queue, and each is
handled over the cache as it has become by then. As long as all events that wait are of one room,
that room is the only one in which the session lags behind, and handling the next event brings the
client up to date.
-/

namespace SlidingSync

inductive Move
  | ingest (room : RoomId) (events : List Payload) (position : Int64)
  | handle

/-- A move as far as the queue is concerned. -/
inductive Shape
  | ingest (room : RoomId) (count : Nat)
  | handle
  deriving DecidableEq

def Move.shape : Move → Shape
  | .ingest room events _ => .ingest room events.length
  | .handle => .handle

namespace Shape

/-- Rooms of the waiting events after a move. -/
def after (rooms : List RoomId) : Shape → List RoomId
  | .ingest room count => rooms ++ List.replicate count room
  | .handle => rooms.tail

def left (rooms : List RoomId) (schedule : List Shape) : List RoomId :=
  schedule.foldl after rooms

/-- An event that comes in finds no event of another room waiting. -/
def Fits (rooms : List RoomId) : Shape → Prop
  | .ingest room count => count = 0 ∨ ∀ other ∈ rooms, other = room
  | .handle => True

/-- No event of the schedule comes in while one of another room waits. -/
def Orderly : List RoomId → List Shape → Prop
  | _, [] => True
  | rooms, shape :: rest => shape.Fits rooms ∧ Orderly (shape.after rooms) rest

instance (rooms : List RoomId) : (shape : Shape) → Decidable (shape.Fits rooms)
  | .ingest room count => inferInstanceAs (Decidable (count = 0 ∨ ∀ other ∈ rooms, other = room))
  | .handle => .isTrue trivial

instance decidableOrderly : (rooms : List RoomId) → (schedule : List Shape) →
    Decidable (Orderly rooms schedule)
  | _, [] => .isTrue trivial
  | rooms, shape :: rest =>
      have := decidableOrderly (shape.after rooms) rest
      inferInstanceAs (Decidable (shape.Fits rooms ∧ Orderly (shape.after rooms) rest))

/-- The waiting events are of one room. -/
def OneRoom (rooms : List RoomId) : Prop :=
  ∀ a ∈ rooms, ∀ b ∈ rooms, a = b

theorem OneRoom.after {rooms : List RoomId} (h : OneRoom rooms) {shape : Shape}
    (fits : shape.Fits rooms) : OneRoom (shape.after rooms) := by
  cases shape with
  | handle => exact fun a ha b hb => h a (List.mem_of_mem_tail ha) b (List.mem_of_mem_tail hb)
  | ingest room count =>
      change OneRoom (rooms ++ List.replicate count room)
      rcases fits with rfl | hfits
      · rw [List.replicate_zero, List.append_nil]
        exact h
      · have hall : ∀ other ∈ rooms ++ List.replicate count room, other = room := by
          intro other hother
          rcases List.mem_append.mp hother with hin | hin
          · exact hfits other hin
          · exact List.eq_of_mem_replicate hin
        intro a ha b hb
        rw [hall a ha, hall b hb]

end Shape

structure Backlog (α : Type) where
  exchange : Exchange α
  waiting : List Event := []

namespace Backlog

variable {α : Type} [Listener α]

/-- Events that are ingested wait; the session handles the one that has waited longest. -/
def move (x : Backlog α) : Move → Backlog α
  | .ingest room events position =>
      let ingestion := x.exchange.cache.ingest room events position
      match ingestion.outcome with
      | .ok () =>
          { exchange := { x.exchange with cache := ingestion.cache }
            waiting := x.waiting ++ events.map fun json => Event.parse room json position }
      | .error _ => x
  | .handle =>
      match x.waiting with
      | [] => x
      | event :: rest => { exchange := x.exchange.notice event, waiting := rest }

omit [Listener α] in
/-- A new user's session that has answered a body. -/
def start (cache : Cache α) (user : UserId) (config : Config) (body : Request) : Backlog α where
  exchange := (Exchange.start cache user config).request body

/-- A new user's session that has answered a body, after some moves. -/
def run (cache : Cache α) (user : UserId) (config : Config) (body : Request) (moves : List Move) :
    Backlog α :=
  moves.foldl move (start cache user config body)

omit [Listener α] in
def rooms (x : Backlog α) : List RoomId :=
  x.waiting.map (·.room)

theorem move_ingest {x : Backlog α} (live : x.exchange.cache.phase = .live) (room : RoomId)
    (events : List Payload) (position : Int64) :
    let parsed := events.map fun json => Event.parse room json position
    x.move (.ingest room events position) =
      { exchange := { x.exchange with cache := (x.exchange.cache.acceptAll parsed).1 }
        waiting := x.waiting ++ parsed } := by
  unfold move
  dsimp only
  rw [Cache.ingest_of_live live]

theorem move_handle_nil {x : Backlog α} (h : x.waiting = []) : x.move .handle = x := by
  unfold move
  dsimp only
  rw [h]

theorem move_handle_cons {x : Backlog α} {event : Event} {rest : List Event}
    (h : x.waiting = event :: rest) :
    x.move .handle = { exchange := x.exchange.notice event, waiting := rest } := by
  unfold move
  dsimp only
  rw [h]

theorem phase_move (x : Backlog α) (m : Move) :
    (x.move m).exchange.cache.phase = x.exchange.cache.phase := by
  cases m with
  | handle =>
      cases hw : x.waiting with
      | nil => rw [move_handle_nil hw]
      | cons event rest =>
          rw [move_handle_cons hw]
          rfl
  | ingest room events position =>
      by_cases hlive : x.exchange.cache.phase = .live
      · rw [move_ingest hlive]
        exact x.exchange.cache.acceptAll_phase _
      · unfold move
        dsimp only
        rw [Cache.ingest_of_not_live hlive]

theorem rooms_move {x : Backlog α} (live : x.exchange.cache.phase = .live) (m : Move) :
    (x.move m).rooms = m.shape.after x.rooms := by
  cases m with
  | handle =>
      unfold rooms
      cases hw : x.waiting with
      | nil =>
          rw [move_handle_nil hw, hw]
          rfl
      | cons event rest =>
          rw [move_handle_cons hw]
          rfl
  | ingest room events position =>
      rw [move_ingest live]
      unfold rooms
      rw [List.map_append, List.map_map]
      change _ ++ events.map (fun _ => room) = _ ++ List.replicate events.length room
      rw [List.map_const']

theorem rooms_foldl {x : Backlog α} (live : x.exchange.cache.phase = .live) (moves : List Move) :
    (moves.foldl move x).rooms = Shape.left x.rooms (moves.map Move.shape) := by
  induction moves generalizing x with
  | nil => rfl
  | cons m rest ih =>
      rw [List.foldl_cons, ih ((phase_move x m).trans live), rooms_move live]
      rfl

theorem waiting_run {cache : Cache α} (live : cache.phase = .live) (user : UserId)
    (config : Config) (body : Request) {moves : List Move}
    (drained : Shape.left [] (moves.map Move.shape) = []) :
    (run cache user config body moves).waiting = [] := by
  have hrooms : (run cache user config body moves).rooms = [] :=
    (rooms_foldl live moves).trans drained
  exact List.map_eq_nil_iff.mp hrooms

/-! ## Lagging behind in one room -/

/--
The client is up to date with what the cache was at some moment, and the cache has
changed since in rooms of waiting events only, which are one room.
-/
structure Trails (x : Backlog α) (seen : Cache α) : Prop where
  agrees : Exchange.Agrees { x.exchange with cache := seen }
  oneRoom : Shape.OneRoom x.rooms
  waits : ∀ id, id ∉ x.rooms → seen.rooms.get? id = x.exchange.cache.rooms.get? id

variable {x : Backlog α} {seen : Cache α}

theorem Trails.ingest (h : x.Trails seen) (live : x.exchange.cache.phase = .live) {room : RoomId}
    {events : List Payload} {position : Int64}
    (fits : (Move.ingest room events position).shape.Fits x.rooms) :
    (x.move (.ingest room events position)).Trails seen := by
  have hrooms := rooms_move live (.ingest room events position)
  have hone := h.oneRoom.after fits
  rw [← hrooms] at hone
  refine ⟨?_, hone, ?_⟩
  · rw [move_ingest live]
    exact h.agrees
  · intro id hid
    rw [hrooms] at hid
    change id ∉ x.rooms ++ List.replicate events.length room at hid
    rw [List.mem_append, not_or] at hid
    rw [move_ingest live, h.waits id hid.1]
    refine (Cache.acceptAll_get?_of_ne ?_ x.exchange.cache).symm
    intro event hevent
    obtain ⟨json, hjson, rfl⟩ := List.mem_map.mp hevent
    rintro rfl
    have hpos := List.length_pos_of_mem hjson
    exact hid.2 (List.mem_replicate.mpr ⟨by omega, rfl⟩)

theorem Trails.handle (h : x.Trails seen) : ∃ seen', (x.move .handle).Trails seen' := by
  cases hw : x.waiting with
  | nil =>
      rw [move_handle_nil hw]
      exact ⟨seen, h⟩
  | cons event rest =>
      have hrooms : x.rooms = event.room :: rest.map (·.room) := by
        unfold rooms
        rw [hw]
        rfl
      have hone := h.oneRoom
      rw [hrooms] at hone
      have hsame : ∀ id, id ≠ event.room →
          seen.rooms.get? id = x.exchange.cache.rooms.get? id := by
        intro id hid
        refine h.waits id fun hin => hid ?_
        rw [hrooms] at hin
        exact hone id hin event.room List.mem_cons_self
      rw [move_handle_cons hw]
      refine ⟨x.exchange.cache, h.agrees.notice x.exchange.cache event hsame, ?_, fun _ _ => rfl⟩
      intro a ha b hb
      exact hone a (List.mem_cons_of_mem _ ha) b (List.mem_cons_of_mem _ hb)

theorem Trails.move (h : x.Trails seen) (live : x.exchange.cache.phase = .live) {m : Move}
    (fits : m.shape.Fits x.rooms) : ∃ seen', (x.move m).Trails seen' := by
  cases m with
  | ingest room events position => exact ⟨seen, h.ingest live fits⟩
  | handle => exact h.handle

theorem Trails.foldl (h : x.Trails seen) (live : x.exchange.cache.phase = .live) {moves : List Move}
    (orderly : Shape.Orderly x.rooms (moves.map Move.shape)) :
    ∃ seen', (moves.foldl Backlog.move x).Trails seen' := by
  induction moves generalizing x seen with
  | nil => exact ⟨seen, h⟩
  | cons m rest ih =>
      obtain ⟨fits, horderly⟩ := orderly
      obtain ⟨seen', hnext⟩ := h.move live fits
      refine ih hnext ((phase_move x m).trans live) ?_
      rwa [rooms_move live]

omit [Listener α] in
/-- Nothing waits, so the cache is as the client last saw it. -/
theorem Trails.kept (h : x.Trails seen) (done : x.waiting = []) : x.exchange.Kept := by
  have hrooms : seen.rooms = x.exchange.cache.rooms := by
    apply SortedMap.ext_get?
    intro id
    refine h.waits id ?_
    unfold rooms
    rw [done]
    exact List.not_mem_nil
  have hagrees := h.agrees
  unfold Exchange.Agrees at hagrees
  rw [Cache.snapshot_congr hrooms] at hagrees
  exact Exchange.Agrees.kept hagrees

theorem kept_of_orderly {cache : Cache α} (live : cache.phase = .live) (user : UserId)
    (config : Config) (body : Request) {moves : List Move}
    (orderly : Shape.Orderly [] (moves.map Move.shape))
    (drained : Shape.left [] (moves.map Move.shape) = []) :
    (run cache user config body moves).exchange.Kept := by
  have hstart : (start cache user config body).Trails cache :=
    ⟨(Exchange.agrees_start cache user config).request body, fun _ ha => by simp [rooms, start] at ha,
      fun _ _ => rfl⟩
  obtain ⟨seen, hend⟩ := hstart.foldl live orderly
  exact hend.kept (waiting_run live user config body drained)

end Backlog

end SlidingSync
