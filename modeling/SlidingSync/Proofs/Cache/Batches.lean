import SlidingSync.Snapshot
import SlidingSync.Proofs.Cache.Naming

/-! # Batches

A batch is of one room and leaves all others alone, and it does to its room what its events do one
after the other. So a cache that takes batches comes to rooms that follow their own events: neither
where the batches of a room are cut nor how they lie among those of other rooms can be seen in the
end.
-/

namespace SlidingSync

namespace EventBatch

/-- The events of a room in some batches, in the order in which they come. -/
def eventsOf (batches : List EventBatch) (id : RoomId) : List Payload :=
  (batches.filter fun batch => batch.room = id).flatMap (·.events)

theorem eventsOf_cons (batch : EventBatch) (rest : List EventBatch) (id : RoomId) :
    eventsOf (batch :: rest) id =
      if batch.room = id then batch.events ++ eventsOf rest id else eventsOf rest id := by
  unfold eventsOf
  rw [List.filter_cons]
  simp only [decide_eq_true_eq]
  split
  · rw [List.flatMap_cons]
  · rfl

theorem eventsOf_of_others {batches : List EventBatch} {id : RoomId}
    (others : ∀ batch ∈ batches, id ≠ batch.room) : eventsOf batches id = [] := by
  have hnone : (batches.filter fun batch => batch.room = id) = [] := by
    apply List.filter_eq_nil_iff.mpr
    intro batch hbatch
    simpa using Ne.symm (others batch hbatch)
  unfold eventsOf
  rw [hnone, List.flatMap_nil]

/-- A room with one batch has the events of that batch. -/
theorem eventsOf_of_mem {batches : List EventBatch} (distinct : (batches.map (·.room)).Nodup)
    {batch : EventBatch} (h : batch ∈ batches) : eventsOf batches batch.room = batch.events := by
  induction batches with
  | nil => simp at h
  | cons first rest ih =>
      obtain ⟨hother, hrest⟩ := List.nodup_cons.mp distinct
      rw [eventsOf_cons]
      rcases List.mem_cons.mp h with rfl | hin
      · have hlater : ∀ b ∈ rest, batch.room ≠ b.room := by
          intro b hb hroom
          exact hother (List.mem_map.mpr ⟨b, hb, hroom.symm⟩)
        rw [if_pos rfl, eventsOf_of_others hlater, List.append_nil]
      · have hne : first.room ≠ batch.room := by
          intro hroom
          exact hother (List.mem_map.mpr ⟨batch, hin, hroom.symm⟩)
        rw [if_neg hne, ih hrest hin]

end EventBatch

/-- Neither the room nor the position that an event came with is kept. -/
theorem RoomSummary.learn_parse (known : Option RoomSummary) (id : RoomId) (jsons : List Payload)
    (position position' : Int64) :
    learn known (jsons.map fun json => Event.parse id json position) =
      learn known (jsons.map fun json => Event.parse id json position') := by
  unfold learn
  rw [List.foldl_map, List.foldl_map]
  rfl

namespace Cache

variable {α : Type} [Listener α]

def ingestAll (c : Cache α) (batches : List EventBatch) : Cache α :=
  batches.foldl (fun c batch => (c.ingest batch.room batch.events batch.position).cache) c

variable {c : Cache α} {id room : RoomId} {batches : List EventBatch}

/-! ## One batch -/

theorem phase_ingest (live : c.phase = .live) (room : RoomId) (events : List Payload)
    (position : Int64) : (c.ingest room events position).cache.phase = .live := by
  rw [ingest_of_live live]
  exact (acceptAll_phase c _).trans live

theorem ingest_get?_of_ne (h : id ≠ room) (c : Cache α) (events : List Payload)
    (position : Int64) :
    (c.ingest room events position).cache.rooms.get? id = c.rooms.get? id := by
  by_cases live : c.phase = .live
  · rw [ingest_of_live live]
    refine acceptAll_get?_of_ne ?_ c
    intro event hevent
    obtain ⟨json, -, rfl⟩ := List.mem_map.mp hevent
    exact h
  · rw [ingest_of_not_live live]

theorem ingest_get?_room (live : c.phase = .live) (room : RoomId) (events : List Payload)
    (position : Int64) :
    (c.ingest room events position).cache.rooms.get? room =
      RoomSummary.learn (c.rooms.get? room)
        (events.map fun json => Event.parse room json 0) := by
  have hown : ∀ event ∈ events.map fun json => Event.parse room json position,
      decide (event.room = room) = true := by
    intro event hevent
    obtain ⟨json, -, rfl⟩ := List.mem_map.mp hevent
    exact decide_eq_true rfl
  rw [ingest_of_live live]
  dsimp only
  rw [acceptAll_get?, List.filter_eq_self.mpr hown, RoomSummary.learn_parse _ _ _ position 0]

/-- A batch in two parts comes to the same as in one, with the same deliveries. -/
theorem ingest_append (live : c.phase = .live) (room : RoomId) (first second : List Payload)
    (position : Int64) :
    c.ingest room (first ++ second) position =
      let left := c.ingest room first position
      let right := left.cache.ingest room second position
      ⟨.ok (), right.cache, left.deliveries ++ right.deliveries⟩ := by
  have hleft := phase_ingest live room first position
  dsimp only
  rw [ingest_of_live hleft, ingest_of_live live, ingest_of_live live, List.map_append]
  dsimp only
  rw [acceptAll_append]

/-! ## All batches -/

/-- Every room follows its own events. -/
theorem ingestAll_get? (live : c.phase = .live) (batches : List EventBatch) (id : RoomId) :
    (c.ingestAll batches).rooms.get? id =
      RoomSummary.learn (c.rooms.get? id)
        ((EventBatch.eventsOf batches id).map fun json => Event.parse id json 0) := by
  induction batches generalizing c with
  | nil => rfl
  | cons batch rest ih =>
      have hnext := phase_ingest live batch.room batch.events batch.position
      change ((c.ingest batch.room batch.events batch.position).cache.ingestAll rest).rooms.get?
        id = _
      rw [ih hnext, EventBatch.eventsOf_cons]
      by_cases hroom : batch.room = id
      · subst hroom
        rw [ingest_get?_room live, if_pos rfl, List.map_append]
        unfold RoomSummary.learn
        rw [List.foldl_append]
      · rw [ingest_get?_of_ne (Ne.symm hroom), if_neg hroom]

theorem ingestAll_get?_of_ne (others : ∀ batch ∈ batches, id ≠ batch.room) (c : Cache α) :
    (c.ingestAll batches).rooms.get? id = c.rooms.get? id := by
  induction batches generalizing c with
  | nil => rfl
  | cons batch rest ih =>
      have hbatch := ingest_get?_of_ne (others batch List.mem_cons_self) c batch.events
        batch.position
      exact (ih (fun b hb => others b (List.mem_cons_of_mem _ hb)) _).trans hbatch

theorem ingestAll_get?_of_mem (live : c.phase = .live)
    (distinct : (batches.map (·.room)).Nodup) {before : List Payload} {last : Payload}
    {position : Int64} (h : ⟨room, position, before ++ [last]⟩ ∈ batches) :
    (c.ingestAll batches).rooms.get? room =
      some ⟨Event.renameAll ((before ++ [last]).map fun json => Event.parse room json position)
          (c.nameOf room), Event.timestampOf last, last⟩ := by
  have hevents : EventBatch.eventsOf batches room = before ++ [last] :=
    EventBatch.eventsOf_of_mem distinct h
  rw [ingestAll_get? live, hevents, RoomSummary.learn_parse _ _ _ 0 position, List.map_append,
    List.map_singleton, RoomSummary.learn_concat]
  rfl

/-! ## What batches come to -/

/--
A live cache takes every batch. A batch that is cut in two leaves the same cache, with the
same listeners, after the same deliveries. Batches with the same events for each room lead to
the same rooms, however they are cut and interleaved. And a batch changes no room but its own,
an empty one none at all.
-/
theorem rooms_follow_own_events (live : c.phase = .live) :
    (∀ (room : RoomId) (first second : List Payload) (position : Int64),
        let whole := c.ingest room (first ++ second) position
        let left := c.ingest room first position
        let right := left.cache.ingest room second position
        whole.outcome = .ok () ∧ left.outcome = .ok () ∧ right.outcome = .ok () ∧
          whole.cache = right.cache ∧ whole.deliveries = left.deliveries ++ right.deliveries) ∧
      (∀ batches batches' : List EventBatch,
        (∀ id, EventBatch.eventsOf batches id = EventBatch.eventsOf batches' id) →
          (c.ingestAll batches).rooms = (c.ingestAll batches').rooms) ∧
      (∀ (room id : RoomId) (events : List Payload) (position : Int64), id ≠ room →
        (c.ingest room events position).cache.rooms.get? id = c.rooms.get? id) ∧
      ∀ (room : RoomId) (position : Int64), c.ingest room [] position = ⟨.ok (), c, []⟩ := by
  refine ⟨?_, ?_, ?_, ?_⟩
  · intro room first second position
    have hwhole := ingest_append live room first second position
    have hleft := ingest_of_live live room first position
    have hright := ingest_of_live (phase_ingest live room first position) room second position
    dsimp only
    rw [hwhole]
    exact ⟨rfl, by rw [hleft], by rw [hright], rfl, rfl⟩
  · intro batches batches' same
    apply SortedMap.ext_get?
    intro id
    rw [ingestAll_get? live, ingestAll_get? live, same]
  · intro room id events position hne
    exact ingest_get?_of_ne hne c events position
  · intro room position
    exact ingest_of_live live room [] position

/-- A live cache with one listener, which has room for one event. -/
def oneListener : Cache Channel :=
  (Cache.subscribe { phase := .live } (.new 1)).2

def porch : RoomId :=
  ⟨"!porch:s", by decide +kernel⟩

def pantry : RoomId :=
  ⟨"!pantry:s", by decide +kernel⟩

def title : Payload :=
  ⟨.object [("content", .object [("name", .string "Home")]), ("state_key", .string ""),
    ("type", .string roomNameType)], by decide +kernel⟩

theorem same_rooms_when_interleaved :
    let batches : List EventBatch := [⟨porch, 1, [title, .null]⟩, ⟨pantry, 2, [title]⟩]
    let batches' : List EventBatch :=
      [⟨porch, 5, [title]⟩, ⟨pantry, 6, []⟩, ⟨pantry, 7, [title]⟩, ⟨porch, 8, [.null]⟩]
    oneListener.phase = .live ∧
      (∀ id, EventBatch.eventsOf batches id = EventBatch.eventsOf batches' id) ∧
      (oneListener.ingestAll batches).rooms = (oneListener.ingestAll batches').rooms ∧
      pantry ≠ porch ∧
      (oneListener.ingest porch [title] 5).cache.rooms.get? pantry =
        oneListener.rooms.get? pantry := by
  intro batches batches'
  have hlive : oneListener.phase = .live := rfl
  have hne : pantry ≠ porch := by decide +kernel
  have hsame : ∀ id, EventBatch.eventsOf batches id = EventBatch.eventsOf batches' id := by
    intro id
    simp only [batches, batches', EventBatch.eventsOf_cons]
    by_cases hporch : porch = id
    · subst hporch
      simp [hne]
    · simp [hporch]
  have hrooms := rooms_follow_own_events hlive
  exact ⟨hlive, hsame, hrooms.2.1 batches batches' hsame, hne,
    hrooms.2.2.1 porch pantry [title] 5 hne⟩

end Cache

end SlidingSync
