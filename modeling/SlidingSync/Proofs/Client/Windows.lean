import SlidingSync.Session
import SlidingSync.Proofs.Client.Rows
import SlidingSync.Proofs.Order.Position
import Mathlib.Data.List.InsertIdx

/-! # Windows while one room moves

Take one room out of an order: a window behind it loses its top row, a window around it loses the
room's own row, a window before it loses nothing, and what is left in the window can be read off
the order without the room. Two orders that differ in one room agree once it is taken out, so a
window goes from one to the other by one removal and one insertion. `Ranges.shiftOps` are these,
window by window, for a room that goes from one position to another; a room that is new comes from
behind the end, and a room that is gone went there. `Ranges.moveOps`, `Ranges.enterOps` and
`Ranges.leaveOps` are the three cases.
-/

namespace SlidingSync

namespace Window

variable {α : Type} {w : Window} {order order' : List α} {p p' : Nat}

/-! ## What a window shows -/

/-- The position of the window nearest to `p`. -/
def nearest (w : Window) (p : Nat) : Nat :=
  min (max p w.first.toNat) w.last.toNat

/-- All but one of the rows of a window, read off an order without one room. -/
def core (w : Window) (base : List α) : List α :=
  (base.drop w.first.toNat).take (w.last.toNat - w.first.toNat)

theorem contains_nearest (upright : w.first.toNat ≤ w.last.toNat) (p : Nat) :
    w.contains (w.nearest p) = true := by
  rw [contains_iff]
  unfold nearest
  omega

theorem max_eq_nearest (upright : w.first.toNat ≤ w.last.toNat) (h : p ≤ w.last.toNat) :
    max p w.first.toNat = w.nearest p := by
  unfold nearest
  omega

theorem clamp_eq (upright : w.first.toNat ≤ w.last.toNat) (p : Nat) :
    w.clamp p = UInt64.ofNat (w.nearest p) := by
  unfold clamp nearest
  by_cases hbefore : p < w.first.toNat
  · have hnear : min (max p w.first.toNat) w.last.toNat = w.first.toNat := by omega
    rw [if_pos hbefore, hnear, UInt64.ofNat_toNat]
  · rw [if_neg hbefore]
    by_cases hbehind : w.last.toNat < p
    · have hnear : min (max p w.first.toNat) w.last.toNat = w.last.toNat := by omega
      rw [if_pos hbehind, hnear, UInt64.ofNat_toNat]
    · have hnear : min (max p w.first.toNat) w.last.toNat = p := by omega
      rw [if_neg hbehind, hnear]

theorem getElem?_view (w : Window) (order : List α) (row : Nat) :
    (w.view order)[row]? =
      if row < w.last.toNat + 1 - w.first.toNat then order[w.first.toNat + row]? else none := by
  unfold view
  rw [List.getElem?_take, List.getElem?_drop]

theorem getElem?_core (w : Window) (base : List α) (row : Nat) :
    (w.core base)[row]? =
      if row < w.last.toNat - w.first.toNat then base[w.first.toNat + row]? else none := by
  unfold core
  rw [List.getElem?_take, List.getElem?_drop]

theorem length_view (w : Window) (order : List α) :
    (w.view order).length =
      min (w.last.toNat + 1 - w.first.toNat) (order.length - w.first.toNat) := by
  simp [view]

theorem length_core (w : Window) (base : List α) :
    (w.core base).length = min (w.last.toNat - w.first.toNat) (base.length - w.first.toNat) := by
  simp [core]

/-- Without the room at `p` the window keeps its rows but one, that nearest to `p`. -/
theorem eraseIdx_view (upright : w.first.toNat ≤ w.last.toNat) (p : Nat) (order : List α) :
    (w.view order).eraseIdx (w.nearest p - w.first.toNat) = w.core (order.eraseIdx p) := by
  apply List.ext_getElem?
  intro row
  unfold nearest
  rw [List.getElem?_eraseIdx, getElem?_core, getElem?_view, getElem?_view, List.getElem?_eraseIdx]
  by_cases hrow : row < w.last.toNat - w.first.toNat
  · rw [if_pos hrow]
    by_cases hbefore : w.first.toNat + row < p
    · rw [if_pos hbefore, if_pos (by omega), if_pos (by omega)]
    · rw [if_neg hbefore, if_neg (by omega), if_pos (by omega)]
      rfl
  · rw [if_neg hrow, if_neg (by omega), if_neg (by omega)]

/-- The room nearest to `p` completes the window. -/
theorem insertIdx_core (upright : w.first.toNat ≤ w.last.toNat) (hnear : w.nearest p < order.length) :
    (w.core (order.eraseIdx p)).insertIdx (w.nearest p - w.first.toNat) order[w.nearest p] =
      w.view order := by
  have hat := contains_iff.mp (contains_nearest upright p)
  have hrow : w.nearest p - w.first.toNat < (w.view order).length := by
    rw [length_view]
    omega
  have hroom : (w.view order)[w.nearest p - w.first.toNat] = order[w.nearest p] := by
    apply Option.some.inj
    rw [← List.getElem?_eq_getElem, getElem?_view, if_pos (by omega), ← List.getElem?_eq_getElem]
    congr 1
    omega
  rw [← eraseIdx_view upright, ← hroom, List.insertIdx_eraseIdx_getElem hrow]

/-- A window does not see a room that moves behind it, or before it. -/
theorem view_eq_of_outside (same : order.eraseIdx p = order'.eraseIdx p')
    (outside : w.last.toNat < min p p' ∨ max p p' < w.first.toNat) :
    w.view order = w.view order' := by
  have hget : ∀ k, (if k < p then order[k]? else order[k + 1]?) =
      if k < p' then order'[k]? else order'[k + 1]? := by
    intro k
    rw [← List.getElem?_eraseIdx, same, List.getElem?_eraseIdx]
  apply List.ext_getElem?
  intro row
  rw [getElem?_view, getElem?_view]
  by_cases hrow : row < w.last.toNat + 1 - w.first.toNat
  · rw [if_pos hrow, if_pos hrow]
    rcases outside with hbehind | hbefore
    · have hk := hget (w.first.toNat + row)
      rwa [if_pos (by omega), if_pos (by omega)] at hk
    · have hk := hget (w.first.toNat + row - 1)
      have hsucc : w.first.toNat + row - 1 + 1 = w.first.toNat + row := by omega
      rwa [if_neg (by omega), if_neg (by omega), hsucc] at hk
  · rw [if_neg hrow, if_neg hrow]

theorem nearest_of_last_le (h : w.last.toNat ≤ p) : w.nearest p = w.last.toNat := by
  unfold nearest
  omega

/-- A window that the order ends before, or in, has its rows without the room at `p`. -/
theorem core_eq_view (upright : w.first.toNat ≤ w.last.toNat) (short : order.length ≤ w.nearest p) :
    w.core (order.eraseIdx p) = w.view order := by
  have hlength := length_view w order
  rw [← eraseIdx_view upright]
  exact List.eraseIdx_of_length_le (by omega)

/-! ## What a window is told -/

/-- A room that goes from `source` to `target` passes the window. -/
def passed (w : Window) (source target : Nat) : Bool :=
  source != target && w.first.toNat ≤ max source target && min source target ≤ w.last.toNat

theorem passed_iff {source target : Nat} : w.passed source target = true ↔
    source ≠ target ∧ w.first.toNat ≤ max source target ∧ min source target ≤ w.last.toNat := by
  simp [passed, and_assoc]

theorem passed_comm (w : Window) (source target : Nat) :
    w.passed source target = w.passed target source := by
  unfold passed
  rw [Nat.max_comm, Nat.min_comm, bne_comm]

theorem view_eq_of_not_passed {source target : Nat}
    (same : order.eraseIdx source = order'.eraseIdx target)
    (still : source = target → order = order') (hpassed : ¬ w.passed source target = true) :
    w.view order = w.view order' := by
  by_cases hstay : source = target
  · rw [still hstay]
  · refine view_eq_of_outside same ?_
    rw [passed_iff] at hpassed
    omega

/-- Removal of the row nearest to where the room was, if the order had got that far. -/
def gone? (w : Window) (source oldLength : Nat) : Option ListOp :=
  if w.nearest source < oldLength then some (.delete (UInt64.ofNat (w.nearest source))) else none

/-- Insertion of the row nearest to where the room is, if the order gets that far. -/
def come? (w : Window) (target : Nat) (order : List RoomId) : Option ListOp :=
  order[w.nearest target]?.map fun room => .insert (UInt64.ofNat (w.nearest target)) room

def shiftOps (w : Window) (source target oldLength : Nat) (order : List RoomId) : List ListOp :=
  (w.gone? source oldLength).toList ++ (w.come? target order).toList

end Window

namespace Ranges

/-- A position behind an order of `length` rooms and behind every window. -/
def behind (length : Nat) : Nat :=
  length + UInt64.size

/-- Operations for a room that went from `source` to `target`; the others kept their order. -/
def shiftOps (r : Ranges) (source target oldLength : Nat) (order : List RoomId) : List ListOp :=
  (r.windows.filter (·.passed source target)).flatMap fun w =>
    w.shiftOps source target oldLength order

variable {r : Ranges} {w : Window} {order : List RoomId} {source target length index : Nat}

theorem deleteOp?_eq (hw : w ∈ r.windows) (hindex : w.contains index = true) :
    r.deleteOp? index = some (.delete (UInt64.ofNat index)) :=
  if_pos (inside_of_contains hw hindex)

theorem insertOp?_eq (hw : w ∈ r.windows) (hindex : w.contains index = true) (room : RoomId) :
    r.insertOp? index room = some (.insert (UInt64.ofNat index) room) :=
  if_pos (inside_of_contains hw hindex)

theorem lt_behind (length : Nat) : length < behind length :=
  Nat.lt_add_of_pos_right (by decide)

theorem eraseIdx_behind (order : List RoomId) : order.eraseIdx (behind order.length) = order :=
  List.eraseIdx_of_length_le (Nat.le_of_lt (lt_behind _))

theorem last_lt_behind (w : Window) (length : Nat) : w.last.toNat < behind length :=
  Nat.lt_of_lt_of_le w.last.toNat_lt (Nat.le_add_left _ _)

theorem nearest_behind (w : Window) (length : Nat) : w.nearest (behind length) = w.last.toNat :=
  Window.nearest_of_last_le (Nat.le_of_lt (last_lt_behind w length))

theorem passed_behind (hw : w ∈ r.windows) (hsource : source ≤ length) :
    w.passed source (behind length) = true ↔ source ≤ w.last.toNat := by
  have hup := first_le_last hw
  have hlast := last_lt_behind w length
  have hbehind := lt_behind length
  rw [Window.passed_iff]
  omega

/-- Operations that agree with those of a shift in every window it passes are those of the shift. -/
theorem eq_shiftOps {touched : Window → Bool} {ops : Window → List ListOp}
    (same : ∀ w ∈ r.windows, touched w = w.passed source target)
    (each : ∀ w ∈ r.windows, w.passed source target = true →
      ops w = w.shiftOps source target length order) :
    (r.windows.filter touched).flatMap ops = r.shiftOps source target length order := by
  unfold shiftOps
  rw [List.filter_congr same]
  refine List.flatMap_congr ?_
  intro w hw
  obtain ⟨hmem, hpassed⟩ := List.mem_filter.mp hw
  exact each w hmem hpassed

theorem shiftOps_self (r : Ranges) (source length : Nat) (order : List RoomId) :
    r.shiftOps source source length order = [] := by
  have hnone : ∀ w ∈ r.windows, ¬ w.passed source source = true := by
    intro w _ hpassed
    exact (Window.passed_iff.mp hpassed).1 rfl
  unfold shiftOps
  rw [List.filter_eq_nil_iff.mpr hnone]
  rfl

theorem moveOps_eq_shiftOps (hsource : source < length) (htarget : target < length)
    (hlength : order.length = length) :
    r.moveOps source target order = r.shiftOps source target length order := by
  unfold moveOps moves
  by_cases hstay : source = target
  · subst hstay
    rw [if_pos rfl, shiftOps_self]
    rfl
  · rw [if_neg hstay]
    dsimp only
    rw [List.flatMap_map]
    refine eq_shiftOps ?_ ?_
    · intro w hw
      have hup := UInt64.le_iff_toNat_le.mpr (first_le_last hw)
      have hne : (source != target) = true := bne_iff_ne.mpr hstay
      unfold Window.passed
      rw [hne, decide_eq_true hup, Bool.true_and]
    · intro w hw hpassed
      have hup := first_le_last hw
      obtain ⟨-, hfirst, hlast⟩ := Window.passed_iff.mp hpassed
      have hgone : w.nearest source < length := by
        unfold Window.nearest
        omega
      have hcome : w.nearest target < order.length := by
        unfold Window.nearest
        omega
      rw [Window.clamp_eq hup, Window.clamp_eq hup]
      dsimp only
      rw [Rows.toNat_ofNat_of_contains (Window.contains_nearest hup target)]
      simp [Window.shiftOps, Window.gone?, Window.come?, hgone, hcome]

theorem enterOps_eq_shiftOps (htarget : target ≤ length) (hlength : order.length = length + 1) :
    r.enterOps target length order = r.shiftOps (behind length) target length order := by
  refine eq_shiftOps ?_ ?_
  · intro w hw
    rw [Bool.eq_iff_iff, Window.passed_comm, passed_behind hw htarget, decide_eq_true_iff]
  · intro w hw hpassed
    have hup := first_le_last hw
    have htouch : target ≤ w.last.toNat := by
      rwa [Window.passed_comm, passed_behind hw htarget] at hpassed
    have hlast : w.contains w.last.toNat = true := Window.contains_iff.mpr ⟨hup, Nat.le_refl _⟩
    have hat := Window.contains_nearest hup target
    rw [Window.max_eq_nearest hup htouch]
    dsimp only
    unfold Window.shiftOps Window.gone? Window.come?
    rw [nearest_behind]
    cases hroom : order[w.nearest target]? with
    | some room =>
        simp only [insertOp?_eq hw hat, deleteOp?_eq hw hlast]
        split <;> rfl
    | none =>
        -- The order ends before the window begins.
        have hshort := List.getElem?_eq_none_iff.mp hroom
        have hnear := (Window.contains_iff.mp hat).2
        have hfull : ¬ w.last.toNat < length := by omega
        simp only [if_neg hfull]
        rfl

theorem leaveOps_eq_shiftOps (hsource : source ≤ order.length) :
    r.leaveOps source order =
      r.shiftOps source (behind order.length) (order.length + 1) order := by
  refine eq_shiftOps ?_ ?_
  · intro w hw
    rw [Bool.eq_iff_iff, passed_behind hw hsource, decide_eq_true_iff]
  · intro w hw hpassed
    have hup := first_le_last hw
    have htouch : source ≤ w.last.toNat := (passed_behind hw hsource).mp hpassed
    have hlast : w.contains w.last.toNat = true := Window.contains_iff.mpr ⟨hup, Nat.le_refl _⟩
    have hat := Window.contains_nearest hup source
    rw [Window.max_eq_nearest hup htouch]
    dsimp only
    unfold Window.shiftOps Window.gone? Window.come?
    rw [nearest_behind]
    by_cases hgone : order.length < w.nearest source
    · -- The order ended before the window begins.
      have hnear := (Window.contains_iff.mp hat).2
      rw [if_pos hgone, if_neg (by omega), List.getElem?_eq_none (by omega)]
      rfl
    · rw [if_neg hgone, if_pos (by omega), deleteOp?_eq hw hat]
      cases hroom : order[w.last.toNat]? with
      | some room => simp only [insertOp?_eq hw hlast, Option.map_some]
      | none => rfl

end Ranges

/-! ## One window after its operations -/

namespace Rows

variable {r : Ranges} {w : Window} {rows : Rows} {old order : List RoomId} {source target : Nat}

theorem applyAll_singleton (r : Ranges) (rows : Rows) (op : ListOp) :
    rows.applyAll r [op] = rows.apply r op := by
  rw [applyAll_cons]
  exact Option.bind_fun_some _

theorem applyAll_nil_of_eq {content : List RoomId} (h : rows w = content) :
    rows.applyAll r [] = some (Function.update rows w content) := by
  rw [← h, Function.update_eq_self, applyAll_nil]

theorem applyAll_gone? (hw : w ∈ r.windows) (hrows : rows w = w.view old) :
    rows.applyAll r (w.gone? source old.length).toList =
      some (Function.update rows w (w.core (old.eraseIdx source))) := by
  have hup := Ranges.first_le_last hw
  have hat := Window.contains_nearest hup source
  have hin := Window.contains_iff.mp hat
  unfold Window.gone?
  by_cases hgone : w.nearest source < old.length
  · have hrow : w.nearest source - w.first.toNat < (rows w).length := by
      rw [hrows, Window.length_view]
      omega
    rw [if_pos hgone, Option.toList_some, applyAll_singleton, apply_delete rows hw hat hrow, hrows,
      Window.eraseIdx_view hup]
  · rw [if_neg hgone, Option.toList_none]
    exact applyAll_nil_of_eq (hrows.trans (Window.core_eq_view hup (by omega)).symm)

theorem applyAll_come? (hw : w ∈ r.windows) (hrows : rows w = w.core (order.eraseIdx target)) :
    rows.applyAll r (w.come? target order).toList =
      some (Function.update rows w (w.view order)) := by
  have hup := Ranges.first_le_last hw
  have hat := Window.contains_nearest hup target
  have hin := Window.contains_iff.mp hat
  unfold Window.come?
  by_cases hcome : w.nearest target < order.length
  · have hrow : w.nearest target - w.first.toNat ≤ (rows w).length := by
      have hlength := @List.length_eraseIdx _ order target
      rw [hrows, Window.length_core]
      split at hlength <;> omega
    rw [List.getElem?_eq_getElem hcome, Option.map_some, Option.toList_some, applyAll_singleton,
      apply_insert rows hw hat _ hrow, hrows, Window.insertIdx_core hup hcome]
  · rw [List.getElem?_eq_none (by omega), Option.map_none, Option.toList_none]
    exact applyAll_nil_of_eq (hrows.trans (Window.core_eq_view hup (by omega)))

/-- The window loses the row nearest to `source` and gains that nearest to `target`. -/
theorem applyAll_shiftOps (hw : w ∈ r.windows) (hrows : rows w = w.view old)
    (same : old.eraseIdx source = order.eraseIdx target) :
    rows.applyAll r (w.shiftOps source target old.length order) =
      some (Function.update rows w (w.view order)) := by
  have hbetween : Function.update rows w (w.core (old.eraseIdx source)) w =
      w.core (order.eraseIdx target) := by
    rw [Function.update_self, same]
  unfold Window.shiftOps
  rw [applyAll_append, applyAll_gone? hw hrows, Option.bind_some, applyAll_come? hw hbetween,
    Function.update_idem]

end Rows

/-! ## All windows after an operation -/

namespace Rows.Show

variable {r : Ranges} {rows : Rows} {old order : List RoomId} {source target : Nat}

/-- The room went from `source` to `target`, and the orders agree once it is taken out. -/
theorem applyAll_shiftOps (h : rows.Show r old)
    (same : old.eraseIdx source = order.eraseIdx target) (still : source = target → old = order) :
    ∃ rows', rows.applyAll r (r.shiftOps source target old.length order) = some rows' ∧
      rows'.Show r order := by
  let passed : Window → Bool := fun w => w.passed source target
  obtain ⟨rows', happly, hdone, hothers⟩ :=
    applyAll_flatMap (r.nodup_windows.filter passed)
      (fun w => w.shiftOps source target old.length order) (fun w => w.view order) (by
        intro w hw rows' hsame
        have hmem := List.mem_of_mem_filter hw
        exact Rows.applyAll_shiftOps hmem (hsame.trans (h w hmem)) same)
  refine ⟨rows', happly, ?_⟩
  intro w hw
  by_cases hpassed : w.passed source target = true
  · exact hdone w (List.mem_filter.mpr ⟨hw, hpassed⟩)
  · have hnotin : w ∉ r.windows.filter passed := fun hin => hpassed (List.mem_filter.mp hin).2
    rw [hothers w hnotin, h w hw]
    exact Window.view_eq_of_not_passed same still hpassed

end Rows.Show

/-! ## One room that may have changed -/

/-- The operations are those of a shift: a room that is not in an order stands behind its end. -/
theorem Session.roomChangeOps_eq_shiftOps (list : RoomList) {room : RoomId}
    {old order : List RoomId} (distinct : old.Nodup) (distinct' : order.Nodup)
    (others : old.filter (· != room) = order.filter (· != room)) :
    ∃ source target, old.eraseIdx source = order.eraseIdx target ∧
      (source = target → old = order) ∧
      Session.roomChangeOps list room (some old) order =
        list.ranges.shiftOps source target old.length order := by
  unfold Session.roomChangeOps
  rw [Option.bind_some]
  cases hsource : Room.indexOf? old room with
  | none =>
      have hold := Room.eq_filter_of_indexOf?_none distinct hsource
      cases htarget : Room.indexOf? order room with
      | none =>
          have horder := Room.eq_filter_of_indexOf?_none distinct' htarget
          have hsame : old = order := by rw [hold, horder, others]
          exact ⟨0, 0, by rw [hsame], fun _ => hsame, (Ranges.shiftOps_self ..).symm⟩
      | some target =>
          have hnew := Room.eraseIdx_of_indexOf? distinct' htarget
          have hlength := Room.length_filter_of_indexOf? distinct' htarget
          rw [← others, ← hold] at hnew hlength
          have hbehind := Ranges.lt_behind old.length
          have htargetLe : target ≤ old.length := by omega
          exact ⟨Ranges.behind old.length, target, by rw [hnew, Ranges.eraseIdx_behind],
            fun _ => by omega, Ranges.enterOps_eq_shiftOps htargetLe hlength.1.symm⟩
  | some source =>
      have hbase := Room.eraseIdx_of_indexOf? distinct hsource
      have hlength := Room.length_filter_of_indexOf? distinct hsource
      rw [others] at hbase hlength
      cases htarget : Room.indexOf? order room with
      | none =>
          rw [← Room.eq_filter_of_indexOf?_none distinct' htarget] at hbase hlength
          have hbehind := Ranges.lt_behind order.length
          refine ⟨source, Ranges.behind order.length, by rw [hbase, Ranges.eraseIdx_behind],
            fun _ => by omega, ?_⟩
          rw [← hlength.1]
          exact Ranges.leaveOps_eq_shiftOps (by omega)
      | some target =>
          have hnew := Room.eraseIdx_of_indexOf? distinct' htarget
          have hlength' := Room.length_filter_of_indexOf? distinct' htarget
          refine ⟨source, target, hbase.trans hnew.symm, ?_,
            Ranges.moveOps_eq_shiftOps hlength.2 (by omega) (by omega)⟩
          intro hstay
          rw [← Room.insertIdx_filter distinct hsource, others, hstay,
            Room.insertIdx_filter distinct' htarget]

/-- When only one room may have changed, its operations lead from one order to the next. -/
theorem Rows.Show.applyAll_roomChangeOps {list : RoomList} {rows : Rows} {old order : List RoomId}
    (h : rows.Show list.ranges old) {room : RoomId} (distinct : old.Nodup)
    (distinct' : order.Nodup) (others : old.filter (· != room) = order.filter (· != room)) :
    ∃ rows', rows.applyAll list.ranges (Session.roomChangeOps list room (some old) order) =
        some rows' ∧ rows'.Show list.ranges order := by
  obtain ⟨source, target, hsame, hstill, hops⟩ :=
    Session.roomChangeOps_eq_shiftOps list distinct distinct' others
  rw [hops]
  exact h.applyAll_shiftOps hsame hstill

end SlidingSync
