import SlidingSync.Proofs.Client.Windows
import Mathlib.Data.List.Perm.Basic

/-! # Changes that a client hears of

When one room changes its place a client is told as much as it needs: what it gets leads every
window to its new rows, a window gets one removal and one insertion at most, and a window whose rows
stay gets nothing. The last point needs an order without repetition: on the way of the room every
position has another room than before.
-/

namespace SlidingSync

/-! ## Operations of one window -/

def ListOp.row? : ListOp → Option Nat
  | .insert index _ => some index.toNat
  | .delete index => some index.toNat
  | .sync _ _ | .invalidate _ => none

/-- The operation edits a row of the window. -/
def Window.receives (w : Window) (op : ListOp) : Bool :=
  op.row?.any w.contains

/-- At most one removal, followed by at most one insertion. -/
def ListOp.Brief (ops : List ListOp) : Prop :=
  ∃ (gone : Option UInt64) (come : Option (UInt64 × RoomId)),
    ops = (gone.map delete).toList ++ (come.map fun entry => insert entry.1 entry.2).toList

/-- The operations do what a change from one order to the other asks for, and no more. -/
structure Ranges.Exact (r : Ranges) (ops : List ListOp) (old order : List RoomId) : Prop where
  /-- Whoever has the rows of the old order can follow all operations, to the rows of the new. -/
  carries : ∀ rows : Rows, rows.Show r old →
    ∃ rows', rows.applyAll r ops = some rows' ∧ rows'.Show r order
  brief : ∀ w ∈ r.windows, ListOp.Brief (ops.filter w.receives)
  needed : ∀ w ∈ r.windows, ops.filter w.receives ≠ [] ↔ w.view old ≠ w.view order
  placed : ∀ op ∈ ops, ∃ w ∈ r.windows, w.receives op = true

namespace Window

variable {r : Ranges} {w v : Window} {old order : List RoomId} {source target length index : Nat}
  {op : ListOp}

theorem row?_of_mem_shiftOps (upright : w.first.toNat ≤ w.last.toNat)
    (h : op ∈ w.shiftOps source target length order) :
    ∃ row, op.row? = some row ∧ w.contains row = true := by
  have hrow : ∀ p, (UInt64.ofNat (w.nearest p)).toNat = w.nearest p :=
    fun p => Rows.toNat_ofNat_of_contains (contains_nearest upright p)
  rcases List.mem_append.mp h with h | h
  · obtain ⟨-, hop⟩ := Option.ite_none_right_eq_some.mp (Option.mem_toList.mp h)
    obtain rfl := Option.some.inj hop
    exact ⟨w.nearest source, congrArg some (hrow source), contains_nearest upright source⟩
  · obtain ⟨room, -, rfl⟩ := Option.map_eq_some_iff.mp (Option.mem_toList.mp h)
    exact ⟨w.nearest target, congrArg some (hrow target), contains_nearest upright target⟩

theorem shiftOps_eq_nil_iff : w.shiftOps source target length order = [] ↔
    length ≤ w.nearest source ∧ order.length ≤ w.nearest target := by
  unfold shiftOps gone? come?
  rw [List.append_eq_nil_iff, Option.toList_eq_nil_iff, Option.toList_eq_nil_iff,
    Option.map_eq_none_iff, List.getElem?_eq_none_iff]
  simp

theorem brief_shiftOps (w : Window) (source target length : Nat) (order : List RoomId) :
    ListOp.Brief (w.shiftOps source target length order) := by
  refine ⟨if w.nearest source < length then some (UInt64.ofNat (w.nearest source)) else none,
    order[w.nearest target]?.map fun room => (UInt64.ofNat (w.nearest target), room), ?_⟩
  unfold shiftOps gone? come?
  rw [Option.map_map]
  congr 2
  split <;> rfl

/-- Windows of one list have no row in common. -/
theorem filter_receives_shiftOps (hw : w ∈ r.windows) (hv : v ∈ r.windows) :
    (v.shiftOps source target length order).filter w.receives =
      if v = w then v.shiftOps source target length order else [] := by
  have hup := Ranges.first_le_last hv
  by_cases hsame : v = w
  · subst hsame
    rw [if_pos rfl, List.filter_eq_self]
    intro op hop
    obtain ⟨row, hrow, hin⟩ := row?_of_mem_shiftOps hup hop
    simp [receives, hrow, hin]
  · rw [if_neg hsame, List.filter_eq_nil_iff]
    intro op hop hreceives
    obtain ⟨row, hrow, hin⟩ := row?_of_mem_shiftOps hup hop
    have hin' : w.contains row = true := by simpa [receives, hrow] using hreceives
    have hat := Ranges.windowAt?_eq hv hin
    rw [Ranges.windowAt?_eq hw hin'] at hat
    exact hsame (Option.some.inj hat).symm

/-! ## Rows that differ -/

/-- A room that passes the window passes its position nearest to where it came from. -/
theorem nearest_between (upright : w.first.toNat ≤ w.last.toNat)
    (hpassed : w.passed source target = true) :
    min source target ≤ w.nearest source ∧ w.nearest source ≤ max source target := by
  have hpassed := passed_iff.mp hpassed
  unfold nearest
  omega

theorem view_ne (hin : w.contains index = true) (hne : old[index]? ≠ order[index]?) :
    w.view old ≠ w.view order := by
  intro hsame
  have hat := contains_iff.mp hin
  have hget := congrArg (fun rows => rows[index - w.first.toNat]?) hsame
  have hindex : w.first.toNat + (index - w.first.toNat) = index := by omega
  rw [getElem?_view, getElem?_view, if_pos (by omega), if_pos (by omega), hindex] at hget
  exact hne hget

end Window

namespace Room

variable {old order : List RoomId} {source target index : Nat}

/-- A room that moves down pulls all others on its way up. -/
theorem getElem?_ne_of_down (distinct : old.Nodup) (distinct' : order.Nodup)
    (same : old.eraseIdx source = order.eraseIdx target) (hdown : source < target)
    (hfrom : source ≤ index) (hto : index ≤ target)
    (hin : index < old.length ∨ index < order.length) : old[index]? ≠ order[index]? := by
  intro heq
  have hiff : old.length ≤ index ↔ order.length ≤ index := by
    rw [← List.getElem?_eq_none_iff, heq, List.getElem?_eq_none_iff]
  have hlt : index < old.length := by omega
  have hlt' : index < order.length := by omega
  have hget : ∀ k, (if k < source then old[k]? else old[k + 1]?) =
      if k < target then order[k]? else order[k + 1]? := by
    intro k
    rw [← List.getElem?_eraseIdx, same, List.getElem?_eraseIdx]
  by_cases hlast : index = target
  · -- The row before has moved up to where it is, so the new order has its room twice.
    have hbefore := hget (index - 1)
    have hsucc : index - 1 + 1 = index := by omega
    rw [if_neg (by omega), if_pos (by omega), hsucc, heq] at hbefore
    have hback := (List.getElem?_inj hlt' distinct').mp hbefore
    omega
  · have hnext := hget index
    rw [if_neg (by omega), if_pos (by omega), ← heq] at hnext
    have hback := (List.getElem?_inj hlt distinct).mp hnext.symm
    omega

theorem getElem?_ne_of_between (distinct : old.Nodup) (distinct' : order.Nodup)
    (same : old.eraseIdx source = order.eraseIdx target) (hmoved : source ≠ target)
    (hfrom : min source target ≤ index) (hto : index ≤ max source target)
    (hin : index < old.length ∨ index < order.length) : old[index]? ≠ order[index]? := by
  by_cases hdown : source < target
  · exact getElem?_ne_of_down distinct distinct' same hdown (by omega) (by omega) hin
  · exact (getElem?_ne_of_down distinct' distinct same.symm (by omega) (by omega) (by omega)
      hin.symm).symm

end Room

/-! ## Operations of all windows -/

namespace Ranges

variable {r : Ranges} {w : Window} {old order : List RoomId} {source target length : Nat}

theorem flatMap_eq_of_others_nil {α β : Type} [DecidableEq α] {l : List α} {a : α} {f : α → List β}
    (distinct : l.Nodup) (others : ∀ b ∈ l, b ≠ a → f b = []) :
    l.flatMap f = if a ∈ l then f a else [] := by
  induction l with
  | nil => rfl
  | cons b rest ih =>
      obtain ⟨hb, hrest⟩ := List.nodup_cons.mp distinct
      have htail := ih hrest fun c hc => others c (List.mem_cons_of_mem _ hc)
      rw [List.flatMap_cons, htail]
      by_cases hsame : b = a
      · subst hsame
        simp [hb]
      · have hne : ¬ a = b := fun h => hsame h.symm
        simp [others b List.mem_cons_self hsame, hne]

theorem filter_receives_shiftOps (hw : w ∈ r.windows) :
    (r.shiftOps source target length order).filter w.receives =
      if w.passed source target then w.shiftOps source target length order else [] := by
  have heach : ∀ v ∈ r.windows.filter (·.passed source target),
      (v.shiftOps source target length order).filter w.receives =
        if v = w then v.shiftOps source target length order else [] :=
    fun v hv => Window.filter_receives_shiftOps hw (List.mem_of_mem_filter hv)
  unfold shiftOps
  rw [List.filter_flatMap, List.flatMap_congr heach,
    flatMap_eq_of_others_nil (r.nodup_windows.filter _) (fun v _ hne => if_neg hne)]
  simp [hw]

/-- A room changed its place; the others kept their order. -/
theorem exact_shiftOps (distinct : old.Nodup) (distinct' : order.Nodup)
    (same : old.eraseIdx source = order.eraseIdx target) (still : source = target → old = order) :
    r.Exact (r.shiftOps source target old.length order) old order := by
  refine ⟨fun rows h => h.applyAll_shiftOps same still, ?_, ?_, ?_⟩
  · intro w hw
    rw [filter_receives_shiftOps hw]
    split
    · exact w.brief_shiftOps source target old.length order
    · exact ⟨none, none, rfl⟩
  · intro w hw
    have hup := first_le_last hw
    rw [filter_receives_shiftOps hw]
    by_cases hpassed : w.passed source target = true
    · rw [if_pos hpassed]
      have hmoved := (Window.passed_iff.mp hpassed).1
      have hbetween := Window.nearest_between hup hpassed
      have hbetween' := Window.nearest_between hup (w.passed_comm source target ▸ hpassed)
      have hchanged : ∀ index, min source target ≤ index → index ≤ max source target →
          index < old.length ∨ index < order.length → old[index]? ≠ order[index]? :=
        fun _ => Room.getElem?_ne_of_between distinct distinct' same hmoved
      rw [Ne, Window.shiftOps_eq_nil_iff]
      constructor
      · intro hops
        by_cases hgone : w.nearest source < old.length
        · exact Window.view_ne (Window.contains_nearest hup source)
            (hchanged _ hbetween.1 hbetween.2 (.inl hgone))
        · exact Window.view_ne (Window.contains_nearest hup target)
            (hchanged _ (by omega) (by omega) (.inr (by omega)))
      · intro hviews hshort
        apply hviews
        rw [← Window.core_eq_view hup hshort.1, same, Window.core_eq_view hup hshort.2]
    · rw [if_neg hpassed]
      have hviews := Window.view_eq_of_not_passed same still hpassed
      simp [hviews]
  · intro op hop
    obtain ⟨w, hw, hop⟩ := List.mem_flatMap.mp hop
    have hmem := List.mem_of_mem_filter hw
    obtain ⟨row, hrow, hin⟩ := Window.row?_of_mem_shiftOps (first_le_last hmem) hop
    exact ⟨w, hmem, by simp [Window.receives, hrow, hin]⟩

theorem exact_moveOps (r : Ranges) (distinct : old.Nodup) (hsource : source < old.length)
    (htarget : target < old.length) :
    r.Exact (r.moveOps source target ((old.eraseIdx source).insertIdx target old[source])) old
      ((old.eraseIdx source).insertIdx target old[source]) := by
  have herased : (old.eraseIdx source).length + 1 = old.length := by
    rw [List.length_eraseIdx_of_lt hsource]
    omega
  have hperm : ((old.eraseIdx source).insertIdx target old[source]).Perm old :=
    (List.perm_insertIdx _ _ (by omega)).trans (List.getElem_cons_eraseIdx_perm hsource)
  rw [moveOps_eq_shiftOps hsource htarget hperm.length_eq]
  refine exact_shiftOps distinct (hperm.nodup_iff.mpr distinct) ?_ ?_
  · rw [List.eraseIdx_insertIdx_self]
  · intro hstay
    subst hstay
    exact (List.insertIdx_eraseIdx_getElem hsource).symm

theorem exact_enterOps (r : Ranges) (distinct : old.Nodup) {room : RoomId} (hnew : room ∉ old)
    (htarget : target ≤ old.length) :
    r.Exact (r.enterOps target old.length (old.insertIdx target room)) old
      (old.insertIdx target room) := by
  have hperm := List.perm_insertIdx room old htarget
  have hbehind := lt_behind old.length
  rw [enterOps_eq_shiftOps htarget hperm.length_eq]
  refine exact_shiftOps distinct (hperm.nodup_iff.mpr (List.nodup_cons.mpr ⟨hnew, distinct⟩)) ?_ ?_
  · rw [List.eraseIdx_insertIdx_self, eraseIdx_behind]
  · omega

theorem exact_leaveOps (r : Ranges) (distinct : old.Nodup) (hsource : source < old.length) :
    r.Exact (r.leaveOps source (old.eraseIdx source)) old (old.eraseIdx source) := by
  have herased : old.length = (old.eraseIdx source).length + 1 := by
    rw [List.length_eraseIdx_of_lt hsource]
    omega
  have hbehind := lt_behind (old.eraseIdx source).length
  rw [leaveOps_eq_shiftOps (by omega), ← herased]
  refine exact_shiftOps distinct (distinct.eraseIdx source) ?_ ?_
  · rw [eraseIdx_behind]
  · omega

/--
The operations for a room that moves within an order without repetition, enters it or leaves it are
exact, for all ranges: the bounds are any 64-bit values.
-/
theorem room_change_is_exact (r : Ranges) (distinct : old.Nodup) :
    (∀ source target, ∀ hsource : source < old.length, target < old.length →
      let order := (old.eraseIdx source).insertIdx target old[source]
      r.Exact (r.moveOps source target order) old order) ∧
    (∀ target room, target ≤ old.length → room ∉ old →
      let order := old.insertIdx target room
      r.Exact (r.enterOps target old.length order) old order) ∧
    ∀ source, source < old.length →
      let order := old.eraseIdx source
      r.Exact (r.leaveOps source order) old order :=
  ⟨fun _ _ hsource htarget => exact_moveOps r distinct hsource htarget,
    fun _ _ htarget hnew => exact_enterOps r distinct hnew htarget,
    fun _ hsource => exact_leaveOps r distinct hsource⟩

/-- A window of one row, one that the order ends in and one that goes on for ever. -/
def staggered : Ranges :=
  ⟨[⟨0, 0⟩, ⟨1, 4⟩, ⟨5, 18446744073709551615⟩], by decide, by decide⟩

def corridor : List RoomId :=
  [⟨"!north:s", by decide +kernel⟩, ⟨"!east:s", by decide +kernel⟩, ⟨"!south:s", by decide +kernel⟩]

def west : RoomId :=
  ⟨"!west:s", by decide +kernel⟩

theorem exact_under_staggered_windows :
    corridor.Nodup ∧ west ∉ corridor ∧
      let moved := (corridor.eraseIdx 0).insertIdx 2 corridor[0]
      let entered := corridor.insertIdx 1 west
      let left := corridor.eraseIdx 1
      staggered.Exact (staggered.moveOps 0 2 moved) corridor moved ∧
        staggered.Exact (staggered.enterOps 1 corridor.length entered) corridor entered ∧
        staggered.Exact (staggered.leaveOps 1 left) corridor left := by
  have distinct : corridor.Nodup := by decide +kernel
  have hnew : west ∉ corridor := by decide +kernel
  have hexact := staggered.room_change_is_exact distinct
  exact ⟨distinct, hnew, hexact.1 0 2 (by decide) (by decide),
    hexact.2.1 1 west (by decide) hnew, hexact.2.2 1 (by decide)⟩

end Ranges

end SlidingSync
