import SlidingSync.Cache.Basic
import Mathlib.Data.List.Nodup

/-! # Rooms of a cache

No room stands twice in a snapshot, and events change nothing but the summaries of their rooms.
What the cache knows of the other rooms is the same list of rooms in every snapshot. What it knows
of a room after some events is a fold over those of the events that are of the room.
-/

namespace SlidingSync

def RoomSummary.learn (known : Option RoomSummary) (events : List Event) : Option RoomSummary :=
  events.foldl (fun known event => some ((known.getD {}).apply event)) known

namespace Cache

variable {α β : Type}

theorem nodup_snapshot (c : Cache α) : (c.snapshot.map (·.id)).Nodup := by
  have hids : c.snapshot.map (·.id) = c.rooms.keys := by
    unfold snapshot SortedMap.keys
    rw [List.map_map]
    rfl
  rw [hids]
  refine c.rooms.pairwise_keys.imp ?_
  rintro a b hlt rfl
  simp at hlt

theorem mem_snapshot {c : Cache α} {room : Room} :
    room ∈ c.snapshot ↔ c.rooms.get? room.id = some room.summary := by
  rw [← SortedMap.mem_entries_iff]
  unfold snapshot
  rw [List.mem_map]
  constructor
  · rintro ⟨entry, hentry, rfl⟩
    exact hentry
  · intro hentry
    exact ⟨_, hentry, rfl⟩

theorem snapshot_others (c : Cache α) (room : RoomId) :
    (c.snapshot.filter fun r => r.id != room) =
      (c.rooms.erase room).entries.map fun entry => ⟨entry.1, entry.2⟩ := by
  unfold snapshot SortedMap.erase
  rw [List.filter_map]
  congr 1
  apply List.filter_congr
  intro entry _
  change (entry.1 != room) = (compare room entry.1 != .eq)
  rw [Bool.eq_iff_iff, bne_iff_ne, bne_iff_ne, ne_eq, ne_eq, Std.compare_eq_iff_eq, eq_comm]

/-- Caches that know the same of all other rooms list them alike. -/
theorem snapshot_others_congr {c : Cache α} {c' : Cache β} {room : RoomId}
    (same : ∀ id, id ≠ room → c.rooms.get? id = c'.rooms.get? id) :
    (c.snapshot.filter fun r => r.id != room) = c'.snapshot.filter fun r => r.id != room := by
  have herase : c.rooms.erase room = c'.rooms.erase room := by
    apply SortedMap.ext_get?
    intro id
    rw [SortedMap.get?_erase, SortedMap.get?_erase]
    by_cases hid : id = room
    · rw [if_pos hid, if_pos hid]
    · rw [if_neg hid, if_neg hid]
      exact same id hid
  rw [snapshot_others, snapshot_others, herase]

theorem snapshot_congr {c : Cache α} {c' : Cache β} (same : c.rooms = c'.rooms) :
    c.snapshot = c'.snapshot := by
  unfold snapshot
  rw [same]

/-! ## Events -/

variable [Listener α]

theorem accept_rooms (c : Cache α) (event : Event) :
    (c.accept event).1.rooms =
      c.rooms.insert event.room (((c.rooms.get? event.room).getD {}).apply event) :=
  rfl

theorem acceptAll_cons (c : Cache α) (event : Event) (rest : List Event) :
    (c.acceptAll (event :: rest)).1 = ((c.accept event).1.acceptAll rest).1 :=
  rfl

theorem acceptAll_append (c : Cache α) (first second : List Event) :
    c.acceptAll (first ++ second) =
      (((c.acceptAll first).1.acceptAll second).1,
        (c.acceptAll first).2 ++ ((c.acceptAll first).1.acceptAll second).2) := by
  induction first generalizing c with
  | nil => rfl
  | cons event rest ih =>
      have hrest := ih (c.accept event).1
      simp only [List.cons_append, acceptAll, hrest, List.append_assoc]

theorem acceptAll_get? (c : Cache α) (events : List Event) (id : RoomId) :
    (c.acceptAll events).1.rooms.get? id =
      RoomSummary.learn (c.rooms.get? id) (events.filter fun event => event.room = id) := by
  induction events generalizing c with
  | nil => rfl
  | cons event rest ih =>
      rw [acceptAll_cons, ih, accept_rooms, SortedMap.get?_insert]
      by_cases hroom : event.room = id
      · subst hroom
        rw [if_pos rfl, List.filter_cons_of_pos (by simp)]
        rfl
      · rw [if_neg (Ne.symm hroom), List.filter_cons_of_neg (by simpa using hroom)]

theorem acceptAll_rooms_congr {c c' : Cache α} (same : c.rooms = c'.rooms) (events : List Event) :
    (c.acceptAll events).1.rooms = (c'.acceptAll events).1.rooms := by
  apply SortedMap.ext_get?
  intro id
  rw [acceptAll_get?, acceptAll_get?, same]

theorem acceptAll_get?_of_ne {events : List Event} {id : RoomId}
    (others : ∀ event ∈ events, id ≠ event.room) (c : Cache α) :
    (c.acceptAll events).1.rooms.get? id = c.rooms.get? id := by
  have hnone : (events.filter fun event => event.room = id) = [] := by
    apply List.filter_eq_nil_iff.mpr
    intro event hevent
    simpa using Ne.symm (others event hevent)
  rw [acceptAll_get?, hnone]
  rfl

/-- The name of a room, empty when the room is not known. -/
def nameOf (c : Cache α) (id : RoomId) : String :=
  ((c.rooms.get? id).getD {}).name

theorem nameOf_accept (c : Cache α) (event : Event) (id : RoomId) :
    (c.accept event).1.nameOf id =
      if id = event.room then (((c.rooms.get? event.room).getD {}).applyName event).name
      else c.nameOf id := by
  unfold nameOf
  rw [accept_rooms, SortedMap.get?_insert]
  by_cases hid : id = event.room
  · rw [if_pos hid, if_pos hid]
    rfl
  · rw [if_neg hid, if_neg hid]

theorem acceptAll_phase (c : Cache α) (events : List Event) :
    (c.acceptAll events).1.phase = c.phase := by
  induction events generalizing c with
  | nil => rfl
  | cons event rest ih => exact ih (c.accept event).1

theorem ingest_of_live {c : Cache α} (live : c.phase = .live) (room : RoomId)
    (events : List Payload) (position : Int64) :
    c.ingest room events position =
      let run := c.acceptAll (events.map fun json => Event.parse room json position)
      ⟨.ok (), run.1, run.2⟩ :=
  if_pos live

theorem ingest_of_not_live {c : Cache α} (h : c.phase ≠ .live) (room : RoomId)
    (events : List Payload) (position : Int64) :
    c.ingest room events position = ⟨.error (.notLive c.phase), c, []⟩ :=
  if_neg h

end Cache

end SlidingSync
