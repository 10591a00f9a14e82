import SlidingSync.Command.Inspect
import SlidingSync.Proofs.Cache.Rooms
import SlidingSync.Proofs.Client.Slices
import SlidingSync.Proofs.Order.Canonical
import SlidingSync.Proofs.Request.WindowSets

/-! # The lines of an inspection

An inspection counts its rows where a list cuts its order, and looks every room up once more before
it writes the line. Both come to the same rows: the count stops at the greatest word, which only the
window of all positions could notice, and every room that was sorted is still known.
-/

namespace SlidingSync

namespace Window

variable {α : Type}

/-- The count of rows is that of the window, or more than there are rows. -/
theorem take_length (w : Window) (upright : w.first ≤ w.last) (rows : List α)
    (counted : w.first = 0 → w.last.toNat + 1 = UInt64.size → rows.length < UInt64.size) :
    (rows.drop w.first.toNat).take w.length =
      (rows.drop w.first.toNat).take (w.last.toNat + 1 - w.first.toNat) := by
  have hle := UInt64.le_iff_toNat_le.mp upright
  have hlast : w.last.toNat < UInt64.size := w.last.toNat_lt
  unfold length
  by_cases hall : w.last.toNat - w.first.toNat + 1 = UInt64.size
  · have hfirst : w.first.toNat = 0 := by omega
    have hrows := counted (UInt64.toNat_inj.mp hfirst) (by omega)
    apply List.take_eq_take_iff.mpr
    rw [List.length_drop]
    omega
  · congr 1
    omega

end Window

namespace Room

theorem sort_known (keys : List SortKey) (rooms : List Room) :
    sort (keys.map SortKey.identifier) rooms = .ok (sortBy keys rooms) := by
  unfold sort
  rw [sortInPlace_known]
  rfl

end Room

namespace Cache

variable {α : Type}

theorem load?_of_mem_snapshot {c : Cache α} {room : Room} (h : room ∈ c.snapshot) :
    c.load? room.id = some room := by
  unfold load?
  rw [mem_snapshot.mp h]
  rfl

theorem length_snapshot (c : Cache α) : c.snapshot.length = c.roomCount := by
  unfold snapshot
  rw [List.length_map]
  rfl

/-- Rooms of the cache in any order give a line for each position in the window. -/
theorem windowLines_eq {c : Cache α} {order : List Room} (known : order.Perm c.snapshot)
    {w : Window} (upright : w.first ≤ w.last)
    (counted : w.first = 0 → w.last.toNat + 1 = UInt64.size → c.roomCount < UInt64.size) :
    c.windowLines (order.map (·.id)) w =
      (rowsAt w.contains order).map fun row => row.1.line row.2 := by
  have hlength : (order.map (·.id)).zipIdx.length = c.roomCount := by
    rw [List.length_zipIdx, List.length_map, known.length_eq, length_snapshot]
  have hrows : ((order.map (·.id)).zipIdx.drop w.first.toNat).take w.length =
      (rowsAt w.contains order).map fun row => (row.1.id, row.2) := by
    rw [w.take_length upright _ (hlength ▸ counted), ← w.rowsAt_contains, rowsAt_map]
  have hline : ∀ row ∈ rowsAt w.contains order,
      (c.load? row.1.id).map (·.line row.2) = some (row.1.line row.2) := by
    intro row hrow
    have hmem : row.1 ∈ order := List.mem_of_getElem? (mem_rowsAt.mp hrow).1
    rw [load?_of_mem_snapshot (known.mem_iff.mp hmem), Option.map_some]
  unfold windowLines
  dsimp only
  rw [hrows, List.filterMap_map, ← List.filterMap_eq_map]
  exact List.filterMap_congr hline

end Cache

theorem inspect_eq {files : Files} {config : Config} {cache : Cache Channel}
    (populated : Cache.ofConfig files config = .ok cache) (keys : List SortKey) (w : Window) :
    inspect files config (keys.map SortKey.identifier) w =
      .ok (cache.windowLines ((Room.sortBy keys cache.snapshot).map (·.id)) w) := by
  unfold inspect
  simp only [populated, Room.sort_known, Except.mapError, bind, Except.bind]
  rfl

theorem Ranges.exists_of_window {w : Window} (upright : w.first ≤ w.last) :
    ∃ r, ofWindows [w] = .ok r ∧ r.windows = [w] := by
  have hwell : WellFormed [w] := ⟨by simpa using upright, List.pairwise_singleton _ w⟩
  obtain ⟨r, hr⟩ := exists_ofWindows_iff.mpr hwell
  exact ⟨r, hr, List.perm_singleton.mp (ofWindows_eq_ok_iff.mp hr)⟩

/--
An inspection has a line for each position that lies in the window and below the number of rooms,
in ascending order: that of the room at this position when the rooms of the cache are sorted, with
its summary as the cache has it. The rooms are those that a list with this window shows. Only the
window of all positions needs to know that rooms can be counted in a word.
-/
theorem inspect_prints_window {files : Files} {config : Config} {cache : Cache Channel}
    (populated : Cache.ofConfig files config = .ok cache) (keys : List SortKey) {w : Window}
    (upright : w.first ≤ w.last)
    (counted : w.first = 0 → w.last.toNat + 1 = UInt64.size → cache.roomCount < UInt64.size) :
    ∃ sorted : List Room, sorted.Perm cache.snapshot ∧ sorted.Pairwise (Room.Precedes keys) ∧
      let shown := rowsAt (fun index => w.first.toNat ≤ index && index ≤ w.last.toNat) sorted
      inspect files config (keys.map SortKey.identifier) w =
          .ok (shown.map fun row => row.1.line row.2) ∧
        (∀ row ∈ shown, cache.load? row.1.id = some row.1) ∧
        ∃ r, Ranges.ofWindows [w] = .ok r ∧
          r.slices (sorted.map (·.id)) = [shown.map fun row => row.1.id] := by
  have hperm : (Room.sortBy keys cache.snapshot).Perm cache.snapshot := List.mergeSort_perm _ _
  have hsorted := Room.sorted_iff.mp (Room.sorted_sortBy keys cache.nodup_snapshot)
  refine ⟨Room.sortBy keys cache.snapshot, hperm, hsorted, ?_, ?_, ?_⟩
  · rw [inspect_eq populated, Cache.windowLines_eq hperm upright counted]
    rfl
  · intro row hrow
    have hmem := List.mem_of_getElem? (mem_rowsAt.mp hrow).1
    exact Cache.load?_of_mem_snapshot (hperm.mem_iff.mp hmem)
  · obtain ⟨r, hr, hwindows⟩ := Ranges.exists_of_window upright
    refine ⟨r, hr, ?_⟩
    unfold Ranges.slices
    rw [hwindows, List.map_singleton, Window.slice_eq_rowsAt, rowsAt_map, List.map_map]
    rfl

/-! ### All positions of a cache with two rooms -/

namespace Inspection

def lodgeText : String :=
  "\x7b\"rooms\":[\x7b\"room_id\":\"!loft:s\",\"latest_event\":\x7b\"origin_server_ts\":5\x7d\x7d," ++
    "\x7b\"room_id\":\"!barn:s\",\"latest_event\":\x7b\"origin_server_ts\":9\x7d\x7d]\x7d"

def lodgeFiles : Files := fun path =>
  if path = "lodge.json" then .file (some lodgeText) else .nothing

def lodgeConfig : Config :=
  { Config.ofServer ⟨"lodge", by decide +kernel⟩ with snapshotPath := some "lodge.json" }

def lodge : Cache Channel :=
  (Cache.ofConfig lodgeFiles lodgeConfig).toOption.getD {}

theorem cache_of_lodge : Cache.ofConfig lodgeFiles lodgeConfig = .ok lodge := by
  have hread : ((Cache.ofConfig lodgeFiles lodgeConfig).toOption : Option (Cache Channel)).isSome =
      true := by
    decide +kernel
  unfold lodge
  cases hcache : (Cache.ofConfig lodgeFiles lodgeConfig : Except CommandError (Cache Channel)) with
  | error e =>
      rw [hcache] at hread
      contradiction
  | ok cache => rfl

theorem two_lines_in_widest_window :
    Cache.ofConfig lodgeFiles lodgeConfig = .ok lodge ∧ lodge.roomCount < UInt64.size ∧
      inspect lodgeFiles lodgeConfig ["by_recency"] ⟨0, 18446744073709551615⟩ =
        .ok ["   0  !barn:s  (unnamed)  1970-01-01 00:00:00",
          "   1  !loft:s  (unnamed)  1970-01-01 00:00:00"] := by
  have counted : lodge.roomCount < UInt64.size := by decide +kernel
  obtain ⟨sorted, hperm, hsorted, hlines, -⟩ := inspect_prints_window cache_of_lodge [.recency]
    (w := ⟨0, 18446744073709551615⟩) (by decide) fun _ _ => counted
  have hexpected : Room.Sorted [.recency] lodge.snapshot := by
    unfold Room.Sorted
    decide +kernel
  have horder : sorted = lodge.snapshot := (Room.sorted_iff.mpr hsorted).unique hexpected hperm
  refine ⟨cache_of_lodge, counted, ?_⟩
  rw [horder] at hlines
  refine hlines.trans ?_
  decide +kernel

end Inspection

end SlidingSync
