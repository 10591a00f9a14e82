import SlidingSync.Proofs.Order.Position
import SlidingSync.Proofs.Order.Sorting
import SlidingSync.Proofs.Request.Validity

/-! # One room changes its place

Whatever happens to a single room of the cache, a list shows the other rooms in the order they had.
A session relies on it: after an event it looks for the event's room in the old order and in the
new one, and takes the rest of the two orders to be the same.
-/

namespace SlidingSync

/-- An order, and an order that differs from it in the place of one room at most. -/
inductive Displaced (room : RoomId) (old : List RoomId) : List RoomId → Prop
  | stays : room ∉ old → Displaced room old old
  | moves {source target : Nat} : old[source]? = some room → target < old.length →
      Displaced room old ((old.eraseIdx source).insertIdx target room)
  | enters {target : Nat} : room ∉ old → target ≤ old.length →
      Displaced room old (old.insertIdx target room)
  | leaves {source : Nat} : old[source]? = some room → Displaced room old (old.eraseIdx source)

namespace Room

variable {room : RoomId} {old order : List RoomId}

/-- Orders that agree once the room is taken out of both differ in its place only. -/
theorem displaced_of_filter_eq (distinct : old.Nodup) (distinct' : order.Nodup)
    (others : old.filter (· != room) = order.filter (· != room)) : Displaced room old order := by
  cases hsource : indexOf? old room with
  | none =>
      have hold := eq_filter_of_indexOf?_none distinct hsource
      have habsent := not_mem_of_indexOf?_none distinct hsource
      cases htarget : indexOf? order room with
      | none =>
          have horder := eq_filter_of_indexOf?_none distinct' htarget
          have hsame : order = old := by rw [horder, ← others, ← hold]
          rw [hsame]
          exact .stays habsent
      | some target =>
          have hinsert := insertIdx_filter distinct' htarget
          have hlength := length_filter_of_indexOf? distinct' htarget
          rw [← others, ← hold] at hinsert hlength
          rw [← hinsert]
          exact .enters habsent (by omega)
  | some source =>
      have hroom := (indexOf?_eq_some_iff distinct).mp hsource
      have herase := eraseIdx_of_indexOf? distinct hsource
      cases htarget : indexOf? order room with
      | none =>
          have horder := eq_filter_of_indexOf?_none distinct' htarget
          have hleft : order = old.eraseIdx source := by rw [horder, ← others, ← herase]
          rw [hleft]
          exact .leaves hroom
      | some target =>
          have hinsert := insertIdx_filter distinct' htarget
          have hlength := length_filter_of_indexOf? distinct' htarget
          have hlength' := length_filter_of_indexOf? distinct hsource
          rw [← others] at hinsert hlength
          rw [← hinsert, ← herase]
          exact .moves hroom (by omega)

/-- Rooms that agree on all but one are the same once that one is left out, in some order. -/
theorem perm_others {rooms rooms' : List Room} (distinct : (rooms.map (·.id)).Nodup)
    (distinct' : (rooms'.map (·.id)).Nodup)
    (agree : ∀ r : Room, r.id ≠ room → (r ∈ rooms ↔ r ∈ rooms')) :
    (rooms.filter fun r => r.id != room).Perm (rooms'.filter fun r => r.id != room) := by
  have hnodup := (List.Nodup.of_map _ distinct).filter fun r => r.id != room
  have hnodup' := (List.Nodup.of_map _ distinct').filter fun r => r.id != room
  refine (List.perm_ext_iff_of_nodup hnodup hnodup').mpr ?_
  intro r
  rw [List.mem_filter, List.mem_filter]
  simp only [bne_iff_ne]
  exact and_congr_left (agree r)

end Room

namespace RoomList

/--
Two maps of rooms, each handed over in any order, agree on all rooms but one. A list whose sort
identifiers are known orders both, the two orders are equal without that room, and so one is the
other with the room moved, put in or taken out.
-/
theorem order_displaced {list : RoomList} (known : list.SortKnown) {room : RoomId}
    {rooms rooms' : List Room} (distinct : (rooms.map (·.id)).Nodup)
    (distinct' : (rooms'.map (·.id)).Nodup)
    (agree : ∀ r : Room, r.id ≠ room → (r ∈ rooms ↔ r ∈ rooms')) :
    ∃ old order, list.order rooms = .ok old ∧ list.order rooms' = .ok order ∧
      old.filter (· != room) = order.filter (· != room) ∧ Displaced room old order := by
  have hothers : (list.sorted rooms).filter (· != room) = (list.sorted rooms').filter (· != room) :=
    filter_sorted_congr room distinct distinct' (Room.perm_others distinct distinct' agree)
  have hplace : Displaced room (list.sorted rooms) (list.sorted rooms') :=
    Room.displaced_of_filter_eq (nodup_sorted distinct) (nodup_sorted distinct') hothers
  exact ⟨list.sorted rooms, list.sorted rooms', order_eq_sorted known rooms,
    order_eq_sorted known rooms', hothers, hplace⟩

/-! ### A house whose gallery gets another name -/

def gallery : RoomId :=
  ⟨"!gallery:s", by decide +kernel⟩

def upstairs : List Room :=
  [⟨⟨"!alcove:s", by decide +kernel⟩, { name := "alcove" }⟩,
    ⟨⟨"!study:s", by decide +kernel⟩, { name := "Study" }⟩,
    ⟨⟨"!terrace:s", by decide +kernel⟩, { name := "Terrace" }⟩]

/-- By name, one key given twice and a neutral one before it; the study is filtered out. -/
def alphabetical : RoomList where
  sort := ["by_highlight_count", "by_name", "by_name"]
  filters := some { roomNameLike := some "A" }

theorem displaced_by_rename :
    let house : List Room := ⟨gallery, { name := "Gallery" }⟩ :: upstairs
    let house' : List Room :=
      upstairs.reverse ++ [⟨gallery, { name := "Ballroom", lastTimestamp := 7 }⟩]
    alphabetical.SortKnown ∧ (house.map (·.id)).Nodup ∧ (house'.map (·.id)).Nodup ∧
      (∀ r : Room, r.id ≠ gallery → (r ∈ house ↔ r ∈ house')) ∧
      ∃ old order, alphabetical.order house = .ok old ∧ alphabetical.order house' = .ok order ∧
        old.filter (· != gallery) = order.filter (· != gallery) ∧ Displaced gallery old order := by
  intro house house'
  have known : alphabetical.SortKnown := by
    unfold SortKnown
    decide +kernel
  have distinct : (house.map (·.id)).Nodup := by decide +kernel
  have distinct' : (house'.map (·.id)).Nodup := by decide +kernel
  have agree : ∀ r : Room, r.id ≠ gallery → (r ∈ house ↔ r ∈ house') := by
    intro r hr
    have hmiss : ∀ summary : RoomSummary, r ≠ ⟨gallery, summary⟩ := by
      intro summary heq
      exact hr (by rw [heq])
    simp [house, house', hmiss]
  exact ⟨known, distinct, distinct', agree, order_displaced known distinct distinct' agree⟩

end RoomList

end SlidingSync
