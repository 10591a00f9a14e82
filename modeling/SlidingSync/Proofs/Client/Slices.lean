import SlidingSync.Session
import SlidingSync.Proofs.Client.Rows
import SlidingSync.Proofs.Order.Position
import Mathlib.Data.List.Sort

/-! # What windows show

A client is sent what its windows cut out of an order, and a room counts as shown when its position
lies inside a window. Both are the same choice of positions: a window cuts out the positions that it
contains, and as windows ascend without a common index, their slices one after the other are the
positions inside any of them.
-/

namespace SlidingSync

variable {α : Type}

/-! ## Choosing positions -/

/-- The elements at the positions that are wanted, each with its position, in their order. -/
def rowsAt (wanted : Nat → Bool) (order : List α) : List (α × Nat) :=
  order.zipIdx.filter fun row => wanted row.2

theorem mem_rowsAt {wanted : Nat → Bool} {order : List α} {a : α} {index : Nat} :
    (a, index) ∈ rowsAt wanted order ↔ order[index]? = some a ∧ wanted index = true := by
  unfold rowsAt
  rw [List.mem_filter, List.mk_mem_zipIdx_iff_getElem?]

theorem rowsAt_map {β : Type} (wanted : Nat → Bool) (f : α → β) (order : List α) :
    rowsAt wanted (order.map f) = (rowsAt wanted order).map fun row => (f row.1, row.2) := by
  unfold rowsAt
  rw [List.zipIdx_map, List.filter_map]
  rfl

theorem pairwise_zipIdx (order : List α) : order.zipIdx.Pairwise fun a b => a.2 < b.2 := by
  have hindices : (order.zipIdx.map (·.2)).Pairwise (· < ·) := by
    rw [List.zipIdx_map_snd]
    exact List.pairwise_lt_range'
  exact List.pairwise_map.mp hindices

theorem pairwise_rowsAt (wanted : Nat → Bool) (order : List α) :
    (rowsAt wanted order).Pairwise fun a b => a.2 < b.2 :=
  (pairwise_zipIdx order).filter _

/-- Rows in the order of their positions are the same list when they are the same rows. -/
theorem eq_of_ascending_rows {rows rows' : List (α × Nat)}
    (h : rows.Pairwise fun a b => a.2 < b.2) (h' : rows'.Pairwise fun a b => a.2 < b.2)
    (same : ∀ a index, (a, index) ∈ rows ↔ (a, index) ∈ rows') : rows = rows' := by
  have hirrefl : Std.Irrefl fun a b : α × Nat => a.2 < b.2 := ⟨fun a => Nat.lt_irrefl a.2⟩
  have hantisymm : Std.Antisymm fun a b : α × Nat => a.2 < b.2 :=
    ⟨fun a b hab hba => absurd hba (Nat.lt_asymm hab)⟩
  exact h.eq_of_mem_iff h' fun row => same row.1 row.2

/-- A stretch of the rows is a choice of consecutive positions. -/
theorem take_drop_zipIdx (order : List α) (first count : Nat) :
    (order.zipIdx.drop first).take count =
      rowsAt (fun index => decide (first ≤ index ∧ index < first + count)) order := by
  have hstretch : ((order.zipIdx.drop first).take count).Pairwise fun a b => a.2 < b.2 :=
    (pairwise_zipIdx order).sublist ((List.take_sublist _ _).trans (List.drop_sublist _ _))
  refine eq_of_ascending_rows hstretch (pairwise_rowsAt _ order) ?_
  intro a index
  rw [mem_rowsAt, List.mem_iff_getElem?, decide_eq_true_eq]
  constructor
  · rintro ⟨row, hrow⟩
    rw [List.getElem?_take] at hrow
    split at hrow
    · next hcount =>
      rw [List.getElem?_drop, List.getElem?_zipIdx, Option.map_eq_some_iff] at hrow
      obtain ⟨b, hb, heq⟩ := hrow
      obtain ⟨rfl, rfl⟩ := Prod.mk.inj heq
      simp only [Nat.zero_add]
      exact ⟨hb, by omega, by omega⟩
    · contradiction
  · rintro ⟨ha, hfirst, hlast⟩
    refine ⟨index - first, ?_⟩
    have hcount : index - first < count := by omega
    have hindex : first + (index - first) = index := by omega
    rw [List.getElem?_take_of_lt hcount, List.getElem?_drop, List.getElem?_zipIdx, hindex, ha]
    simp

/-! ## Slices -/

namespace Window

theorem rowsAt_contains (w : Window) (order : List α) :
    rowsAt w.contains order =
      (order.zipIdx.drop w.first.toNat).take (w.last.toNat + 1 - w.first.toNat) := by
  rw [take_drop_zipIdx]
  congr 1
  funext index
  rw [Bool.eq_iff_iff, contains_iff, decide_eq_true_eq]
  omega

theorem slice_eq_rowsAt (w : Window) (order : List α) :
    w.slice order = (rowsAt w.contains order).map (·.1) := by
  rw [slice_eq_view, rowsAt_contains, List.map_take, List.map_drop, List.zipIdx_map_fst]
  rfl

/-- The positions that a window is cut to lie in the order, from the first to the last. -/
theorem reach?_within {w : Window} {length first last : Nat}
    (h : w.reach? length = some (first, last)) :
    0 < length ∧ first ≤ last ∧ last < length := by
  unfold reach? at h
  split at h
  · contradiction
  · next hshown =>
    cases h
    rw [not_or, UInt64.not_lt, UInt64.le_iff_toNat_le] at hshown
    omega

end Window

namespace Ranges

theorem flatten_slices (r : Ranges) (order : List α) :
    (r.slices order).flatten = (rowsAt r.inside order).map (·.1) := by
  have hascending : (r.windows.flatMap fun w => rowsAt w.contains order).Pairwise
      fun a b => a.2 < b.2 := by
    refine List.pairwise_flatMap.mpr ⟨fun w _ => pairwise_rowsAt w.contains order, ?_⟩
    refine r.pairwise_windows.imp ?_
    rintro v w hgap ⟨a, i⟩ ha ⟨b, j⟩ hb
    have hi := Window.contains_iff.mp (mem_rowsAt.mp ha).2
    have hj := Window.contains_iff.mp (mem_rowsAt.mp hb).2
    dsimp only
    omega
  have hrows : (r.windows.flatMap fun w => rowsAt w.contains order) = rowsAt r.inside order := by
    refine eq_of_ascending_rows hascending (pairwise_rowsAt r.inside order) ?_
    intro a index
    simp only [List.mem_flatMap, mem_rowsAt, inside, List.any_eq_true]
    constructor
    · rintro ⟨w, hw, ha, hin⟩
      exact ⟨ha, w, hw, hin⟩
    · rintro ⟨ha, w, hw, hin⟩
      exact ⟨w, hw, ha, hin⟩
  have hslices : r.slices order = r.windows.map fun w => (rowsAt w.contains order).map (·.1) :=
    List.map_congr_left fun w _ => w.slice_eq_rowsAt order
  rw [hslices, ← List.flatMap_def, ← List.map_flatMap, hrows]

/-! ## Rooms -/

variable {order : List RoomId}

theorem nodup_flatten_slices (r : Ranges) (distinct : order.Nodup) :
    (r.slices order).flatten.Nodup := by
  have hsublist : ((rowsAt r.inside order).map (·.1)).Sublist order := by
    have hrows := (List.filter_sublist (p := fun row => r.inside row.2) (l := order.zipIdx)).map
      (·.1)
    rwa [List.zipIdx_map_fst] at hrows
  rw [flatten_slices]
  exact distinct.sublist hsublist

theorem mem_slices_iff (r : Ranges) (distinct : order.Nodup) (room : RoomId) :
    (∃ entry ∈ r.slices order, room ∈ entry) ↔
      ∃ index, Room.indexOf? order room = some index ∧ r.inside index = true := by
  rw [← List.mem_flatten, flatten_slices, List.mem_map]
  constructor
  · rintro ⟨⟨_, index⟩, hrow, rfl⟩
    obtain ⟨hroom, hin⟩ := mem_rowsAt.mp hrow
    exact ⟨index, (Room.indexOf?_eq_some_iff distinct).mpr hroom, hin⟩
  · rintro ⟨index, hindex, hin⟩
    exact ⟨(room, index), mem_rowsAt.mpr ⟨(Room.indexOf?_eq_some_iff distinct).mp hindex, hin⟩, rfl⟩

theorem shows_iff_of_order {s : Session} {name : String} (last : s.orders.get? name = some order)
    (list : RoomList) (room : RoomId) :
    s.shows name list room = true ↔
      ∃ index, Room.indexOf? order room = some index ∧ list.ranges.inside index = true := by
  unfold Session.shows
  rw [last, Option.bind_some]
  cases Room.indexOf? order room <;> simp

/--
Each window is sent the rooms at the positions that it has, as far as the order goes. Together the
slices are the order at the positions inside any window, so no room is sent twice, and a room is
sent exactly when its position is inside, which is when a session counts it as shown. What a window
is cut to are positions of the order, and all of them are sent.
-/
theorem slices_show_positions_inside (distinct : order.Nodup) (r : Ranges) :
    r.slices order = r.windows.map (fun w =>
        (rowsAt (fun index => w.first.toNat ≤ index && index ≤ w.last.toNat) order).map (·.1)) ∧
      (r.slices order).flatten = (rowsAt r.inside order).map (·.1) ∧
      (r.slices order).flatten.Nodup ∧
      (∀ room, (∃ entry ∈ r.slices order, room ∈ entry) ↔
        ∃ index, Room.indexOf? order room = some index ∧ r.inside index = true) ∧
      (∀ (s : Session) (name : String) (list : RoomList), s.orders.get? name = some order →
        list.ranges = r → ∀ room, s.shows name list room = true ↔
          ∃ entry ∈ r.slices order, room ∈ entry) ∧
      ∀ (w : Window) (first last : Nat), w.reach? order.length = some (first, last) →
        0 < order.length ∧ first ≤ last ∧ last < order.length ∧
          (w.slice order).length = last + 1 - first := by
  refine ⟨?_, flatten_slices r order, nodup_flatten_slices r distinct, mem_slices_iff r distinct,
    ?_, ?_⟩
  · exact List.map_congr_left fun w _ => w.slice_eq_rowsAt order
  · rintro s name list last rfl room
    rw [shows_iff_of_order last, mem_slices_iff list.ranges distinct]
  · intro w first last hreach
    obtain ⟨hlength, hfirst, hlast⟩ := Window.reach?_within hreach
    refine ⟨hlength, hfirst, hlast, ?_⟩
    unfold Window.slice
    rw [hreach, List.length_take, List.length_drop]
    omega

/-! ### Three windows, the last up to the greatest index -/

def terrace : List RoomId :=
  [⟨"!balcony:s", by decide +kernel⟩, ⟨"!parlour:s", by decide +kernel⟩,
    ⟨"!veranda:s", by decide +kernel⟩, ⟨"!arbour:s", by decide +kernel⟩]

def shutters : Ranges :=
  ⟨[⟨0, 1⟩, ⟨3, 6⟩, ⟨7, 18446744073709551615⟩], by decide, by decide⟩

theorem gap_room_in_no_slice :
    terrace.Nodup ∧
      shutters.slices terrace = [[terrace[0], terrace[1]], [terrace[3]], []] ∧
      (∀ entry ∈ shutters.slices terrace, terrace[2] ∉ entry) := by
  have distinct : terrace.Nodup := by decide +kernel
  obtain ⟨hslices, -, -, hsent, -⟩ := slices_show_positions_inside distinct shutters
  refine ⟨distinct, by rw [hslices]; rfl, fun entry hentry hroom => ?_⟩
  obtain ⟨index, hindex, hin⟩ := (hsent terrace[2]).mp ⟨entry, hentry, hroom⟩
  have hplace : Room.indexOf? terrace terrace[2] = some 2 := by decide +kernel
  rw [hplace] at hindex
  cases hindex
  exact absurd hin (by decide)

end Ranges

end SlidingSync
