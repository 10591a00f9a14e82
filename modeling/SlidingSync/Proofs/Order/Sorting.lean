import SlidingSync.Room
import Mathlib.Data.List.Nodup

/-! # Sorted rooms

Rooms with different IDs are never equal in an order, so a list of rooms has one sorted form only:
sorting does not depend on how the rooms were handed over, and dropping rooms commutes with it.
`RoomList.sorted` is the order of a list as a total function; a list whose sort identifiers are
all known is shown in that order.
-/

namespace SlidingSync

/-! ## Comparing rooms -/

instance SortKey.transCmp_compareRooms (key : SortKey) : Std.TransCmp key.compareRooms := by
  cases key with
  | recency =>
      let byTime := compareOn fun room : Room => room.summary.lastTimestamp
      exact inferInstanceAs (Std.TransCmp fun a b => byTime b a)
  | name =>
      exact inferInstanceAs
        (Std.TransCmp (compareOn fun room : Room => Text.lowercase room.summary.name))
  | highlightCount => exact inferInstanceAs (Std.TransCmp (compareOn fun _ : Room => false))
  | notificationCount => exact inferInstanceAs (Std.TransCmp (compareOn fun _ : Room => false))

namespace Room

instance transCmp_compareBy (keys : List SortKey) : Std.TransCmp (compareBy keys) := by
  induction keys with
  | nil => exact inferInstanceAs (Std.TransCmp (compareOn Room.id))
  | cons key rest ih =>
      exact inferInstanceAs (Std.TransCmp (compareLex key.compareRooms (compareBy rest)))

theorem id_eq_of_compareBy {keys : List SortKey} {a b : Room} (h : compareBy keys a b = .eq) :
    a.id = b.id := by
  induction keys with
  | nil => exact Std.LawfulEqOrd.eq_of_compare h
  | cons key rest ih => exact ih (Ordering.then_eq_eq.mp h).2

/-- Rooms stand strictly before all later ones. -/
def Sorted (keys : List SortKey) (rooms : List Room) : Prop :=
  rooms.Pairwise fun a b => compareBy keys a b = .lt

theorem compareBy_swap (keys : List SortKey) (a b : Room) :
    compareBy keys a b = (compareBy keys b a).swap :=
  Std.OrientedCmp.eq_swap

theorem compareBy_isLE_trans (keys : List SortKey) {a b c : Room}
    (hab : (compareBy keys a b).isLE = true) (hbc : (compareBy keys b c).isLE = true) :
    (compareBy keys a c).isLE = true :=
  Std.TransCmp.isLE_trans hab hbc

theorem sorted_sortBy (keys : List SortKey) {rooms : List Room}
    (distinct : (rooms.map (·.id)).Nodup) : Sorted keys (sortBy keys rooms) := by
  have htotal : ∀ a b, ((compareBy keys a b).isLE || (compareBy keys b a).isLE) = true := by
    intro a b
    rw [compareBy_swap keys a b]
    cases compareBy keys b a <;> rfl
  have hle : (sortBy keys rooms).Pairwise fun a b => (compareBy keys a b).isLE = true :=
    @List.pairwise_mergeSort Room (fun a b => (compareBy keys a b).isLE)
      (fun _ _ _ => compareBy_isLE_trans keys) htotal rooms
  have hids : (sortBy keys rooms).Pairwise fun a b => a.id ≠ b.id :=
    List.pairwise_map.mp ((List.mergeSort_perm rooms _).map _ |>.nodup_iff.mpr distinct)
  refine (hle.and hids).imp ?_
  intro a b hab
  cases hc : compareBy keys a b with
  | lt => rfl
  | eq => exact absurd (id_eq_of_compareBy hc) hab.2
  | gt => simp [hc] at hab

/-- Rooms have one sorted form only. -/
theorem Sorted.unique {keys : List SortKey} {l₁ l₂ : List Room} (h₁ : Sorted keys l₁)
    (h₂ : Sorted keys l₂) (hp : l₁.Perm l₂) : l₁ = l₂ := by
  refine hp.eq_of_pairwise ?_ h₁ h₂
  intro a b _ _ hab hba
  rw [compareBy_swap, hba] at hab
  contradiction

theorem sortBy_congr (keys : List SortKey) {l₁ l₂ : List Room}
    (distinct : (l₁.map (·.id)).Nodup) (hp : l₁.Perm l₂) : sortBy keys l₁ = sortBy keys l₂ :=
  (sorted_sortBy keys distinct).unique
    (sorted_sortBy keys ((hp.map _).nodup_iff.mp distinct))
    ((List.mergeSort_perm l₁ _).trans (hp.trans (List.mergeSort_perm l₂ _).symm))

theorem filter_sortBy (keys : List SortKey) (p : Room → Bool) {rooms : List Room}
    (distinct : (rooms.map (·.id)).Nodup) :
    (sortBy keys rooms).filter p = sortBy keys (rooms.filter p) := by
  have hfiltered : ((rooms.filter p).map (·.id)).Nodup :=
    distinct.sublist (List.filter_sublist.map _)
  exact Sorted.unique ((sorted_sortBy keys distinct).filter p) (sorted_sortBy keys hfiltered)
    (((List.mergeSort_perm rooms _).filter p).trans (List.mergeSort_perm _ _).symm)

theorem filter_comm (filters : Option RoomFilters) (p : Room → Bool) (rooms : List Room) :
    (filter filters rooms).filter p = filter filters (rooms.filter p) := by
  cases filters with
  | none => rfl
  | some filters =>
      simp only [filter, List.filter_filter]
      congr 1
      funext room
      exact Bool.and_comm _ _

theorem filter_sublist (filters : Option RoomFilters) (rooms : List Room) :
    (filter filters rooms).Sublist rooms := by
  cases filters with
  | none => exact List.Sublist.refl rooms
  | some filters => exact List.filter_sublist

theorem filter_perm (filters : Option RoomFilters) {rooms rooms' : List Room}
    (same : rooms.Perm rooms') : (filter filters rooms).Perm (filter filters rooms') := by
  cases filters with
  | none => exact same
  | some filters => exact same.filter _

end Room

namespace RoomList

/-! ## The order of a list -/

/-- Rooms in the order of a list, identifiers that are not known counting for nothing. -/
def sorted (list : RoomList) (rooms : List Room) : List RoomId :=
  (Room.sortBy (list.sort.filterMap SortKey.ofIdentifier?)
    (Room.filter list.filters rooms)).map (·.id)

theorem order_eq_sorted {list : RoomList} (known : firstUnknownSort list.sort = none)
    (rooms : List Room) : list.order rooms = .ok (list.sorted rooms) := by
  unfold order Room.sort Room.sortInPlace Room.sortKeys
  rw [known]
  rfl

variable {list : RoomList} {rooms rooms' : List Room}

theorem mem_sorted {id : RoomId} :
    id ∈ list.sorted rooms ↔ ∃ room ∈ Room.filter list.filters rooms, room.id = id := by
  unfold sorted
  rw [List.mem_map]
  simp only [Room.sortBy, List.mem_mergeSort]

theorem nodup_sorted (distinct : (rooms.map (·.id)).Nodup) : (list.sorted rooms).Nodup := by
  have hfiltered : ((Room.filter list.filters rooms).map (·.id)).Nodup :=
    distinct.sublist ((Room.filter_sublist list.filters rooms).map _)
  exact ((List.mergeSort_perm _ _).map _).nodup_iff.mpr hfiltered

theorem filter_sorted (distinct : (rooms.map (·.id)).Nodup) (p : RoomId → Bool) :
    (list.sorted rooms).filter p = list.sorted (rooms.filter fun room => p room.id) := by
  have hfiltered : ((Room.filter list.filters rooms).map (·.id)).Nodup :=
    distinct.sublist ((Room.filter_sublist list.filters rooms).map _)
  unfold sorted
  rw [List.filter_map, Room.filter_sortBy _ _ hfiltered, Room.filter_comm]
  rfl

/-- The order depends on the rooms alone, not on how they were handed over. -/
theorem sorted_congr (distinct : (rooms.map (·.id)).Nodup) (same : rooms.Perm rooms') :
    list.sorted rooms = list.sorted rooms' := by
  have hfiltered : ((Room.filter list.filters rooms).map (·.id)).Nodup :=
    distinct.sublist ((Room.filter_sublist list.filters rooms).map _)
  unfold sorted
  rw [Room.sortBy_congr _ hfiltered (Room.filter_perm list.filters same)]

/-- When only one room may differ, the orders agree on all the others. -/
theorem filter_sorted_congr (room : RoomId) (distinct : (rooms.map (·.id)).Nodup)
    (distinct' : (rooms'.map (·.id)).Nodup)
    (others : (rooms.filter fun r => r.id != room).Perm (rooms'.filter fun r => r.id != room)) :
    (list.sorted rooms).filter (· != room) = (list.sorted rooms').filter (· != room) := by
  have hothers : ((rooms.filter fun r => r.id != room).map (·.id)).Nodup :=
    distinct.sublist (List.filter_sublist.map _)
  rw [filter_sorted distinct, filter_sorted distinct', sorted_congr hothers others]

end RoomList

end SlidingSync
