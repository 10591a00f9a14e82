import SlidingSync.ListOp
import Mathlib.Data.List.Nodup
import Mathlib.Logic.Function.Basic

/-! # Rows of a client

A client keeps the rows of a list window by window and edits them as it is told. Windows of one
list have no common position, so an index names a window, and operations on one window leave the
rows of the others alone. An edit of a row that the client does not have is no edit: the client
has nothing sensible to do, and `Rows.apply` is `none`.
-/

namespace SlidingSync

/-! ## Windows of one list -/

/-- The rooms that the window shows of an order. -/
def Window.view {α : Type} (w : Window) (order : List α) : List α :=
  (order.drop w.first.toNat).take (w.last.toNat + 1 - w.first.toNat)

theorem Window.contains_iff {w : Window} {index : Nat} :
    w.contains index = true ↔ w.first.toNat ≤ index ∧ index ≤ w.last.toNat := by
  simp [contains]

theorem Window.slice_eq_view {α : Type} (w : Window) (order : List α) :
    w.slice order = w.view order := by
  unfold slice view reach?
  split
  · next hnone =>
    -- The window is inverted or starts behind the end.
    split at hnone
    · next hempty =>
      rcases hempty with hinverted | hbehind
      · have hlt := UInt64.lt_iff_toNat_lt.mp hinverted
        have hcount : w.last.toNat + 1 - w.first.toNat = 0 := by omega
        rw [hcount, List.take_zero]
      · rw [List.drop_eq_nil_of_le hbehind, List.take_nil]
    · contradiction
  · next first last hsome =>
    split at hsome
    · contradiction
    · next hshown =>
      cases hsome
      have hlength : (order.drop w.first.toNat).length = order.length - w.first.toNat :=
        List.length_drop
      apply List.take_eq_take_iff.mpr
      rw [hlength]
      omega

namespace Ranges

theorem slices_eq {α : Type} (r : Ranges) (order : List α) :
    r.slices order = r.windows.map (·.view order) :=
  List.map_congr_left fun w _ => w.slice_eq_view order

theorem first_le_last {r : Ranges} {w : Window} (hw : w ∈ r.windows) :
    w.first.toNat ≤ w.last.toNat := by
  have hup := List.find?_eq_none.mp r.upright w hw
  have hle : ¬ w.last.toNat < w.first.toNat := by
    simpa [UInt64.lt_iff_toNat_lt] using hup
  omega

/-- Windows that do not reach into their followers do not reach into any later one. -/
theorem pairwise_of_firstOverlap {windows : List Window}
    (upright : ∀ w ∈ windows, w.first.toNat ≤ w.last.toNat)
    (apart : firstOverlap windows = none) :
    windows.Pairwise fun a b => a.last.toNat < b.first.toNat := by
  induction windows with
  | nil => exact List.Pairwise.nil
  | cons a rest ih =>
      cases rest with
      | nil => exact List.pairwise_singleton _ a
      | cons b rest =>
          unfold firstOverlap at apart
          split at apart
          · contradiction
          · next hgap =>
            have hab : a.last.toNat < b.first.toNat := by
              simpa [UInt64.le_iff_toNat_le] using hgap
            have hrest := ih (fun w hw => upright w (List.mem_cons_of_mem _ hw)) apart
            have hb := upright b (by simp)
            refine List.pairwise_cons.mpr ⟨?_, hrest⟩
            intro w hw
            rcases List.mem_cons.mp hw with rfl | hw
            · exact hab
            · have hbw := (List.pairwise_cons.mp hrest).1 w hw
              omega

theorem pairwise_windows (r : Ranges) :
    r.windows.Pairwise fun a b => a.last.toNat < b.first.toNat :=
  pairwise_of_firstOverlap (fun _ => first_le_last) r.apart

theorem nodup_windows (r : Ranges) : r.windows.Nodup := by
  have hup : ∀ w ∈ r.windows, w.first.toNat ≤ w.last.toNat := fun _ => first_le_last
  refine List.Pairwise.imp_of_mem ?_ r.pairwise_windows
  rintro a b ha - hab rfl
  have := hup a ha
  omega

def windowAt? (r : Ranges) (index : Nat) : Option Window :=
  r.windows.find? (·.contains index)

theorem windowAt?_eq {r : Ranges} {w : Window} {index : Nat} (hw : w ∈ r.windows)
    (hindex : w.contains index = true) : r.windowAt? index = some w := by
  have hat := Window.contains_iff.mp hindex
  obtain ⟨before, after, hsplit⟩ := List.append_of_mem hw
  refine List.find?_eq_some_iff_append.mpr ⟨hindex, before, after, hsplit, ?_⟩
  intro v hv
  have hgap : v.last.toNat < w.first.toNat := by
    have hpairs := r.pairwise_windows
    rw [hsplit] at hpairs
    exact (List.pairwise_append.mp hpairs).2.2 v hv w List.mem_cons_self
  have hmiss : ¬ v.contains index = true := by
    rw [Window.contains_iff]
    omega
  simpa using hmiss

theorem inside_of_contains {r : Ranges} {w : Window} {index : Nat} (hw : w ∈ r.windows)
    (hindex : w.contains index = true) : r.inside index = true :=
  List.any_eq_true.mpr ⟨w, hw, hindex⟩

end Ranges

/-! ## Editing rows -/

/-- The rows that a client holds of a list, window by window. -/
abbrev Rows :=
  Window → List RoomId

namespace Rows

/-- The rows of the window with `index` changed from the row of that index on. -/
def edit (r : Ranges) (rows : Rows) (index : Nat)
    (change : List RoomId → Nat → Option (List RoomId)) : Option Rows := do
  let w ← r.windowAt? index
  let content ← change (rows w) (index - w.first.toNat)
  return Function.update rows w content

def apply (r : Ranges) (rows : Rows) : ListOp → Option Rows
  | .sync w rooms => some (Function.update rows w rooms)
  | .invalidate w => some (Function.update rows w [])
  | .delete index =>
      rows.edit r index.toNat fun content row =>
        if row < content.length then some (content.eraseIdx row) else none
  | .insert index room =>
      rows.edit r index.toNat fun content row =>
        if row ≤ content.length then some (content.insertIdx row room) else none

def applyAll (r : Ranges) (rows : Rows) (ops : List ListOp) : Option Rows :=
  ops.foldlM (apply r) rows

@[simp] theorem applyAll_nil (r : Ranges) (rows : Rows) : rows.applyAll r [] = some rows :=
  rfl

theorem applyAll_cons (r : Ranges) (rows : Rows) (op : ListOp) (ops : List ListOp) :
    rows.applyAll r (op :: ops) = (rows.apply r op).bind fun rows' => rows'.applyAll r ops :=
  rfl

theorem applyAll_append (r : Ranges) (rows : Rows) (ops later : List ListOp) :
    rows.applyAll r (ops ++ later) =
      (rows.applyAll r ops).bind fun rows' => rows'.applyAll r later := by
  unfold applyAll
  rw [List.foldlM_append]
  rfl

variable {r : Ranges} {w : Window} {index : Nat}

theorem toNat_ofNat_of_contains (hindex : w.contains index = true) :
    (UInt64.ofNat index).toNat = index := by
  have hle := (Window.contains_iff.mp hindex).2
  exact UInt64.toNat_ofNat_of_lt' (Nat.lt_of_le_of_lt hle w.last.toNat_lt)

theorem apply_delete (rows : Rows) (hw : w ∈ r.windows) (hindex : w.contains index = true)
    (hrow : index - w.first.toNat < (rows w).length) :
    rows.apply r (.delete (UInt64.ofNat index)) =
      some (Function.update rows w ((rows w).eraseIdx (index - w.first.toNat))) := by
  unfold apply edit
  dsimp only
  rw [toNat_ofNat_of_contains hindex, Ranges.windowAt?_eq hw hindex]
  simp only [Option.bind_eq_bind, Option.bind_some, if_pos hrow]
  rfl

theorem apply_insert (rows : Rows) (hw : w ∈ r.windows) (hindex : w.contains index = true)
    (room : RoomId) (hrow : index - w.first.toNat ≤ (rows w).length) :
    rows.apply r (.insert (UInt64.ofNat index) room) =
      some (Function.update rows w ((rows w).insertIdx (index - w.first.toNat) room)) := by
  unfold apply edit
  dsimp only
  rw [toNat_ofNat_of_contains hindex, Ranges.windowAt?_eq hw hindex]
  simp only [Option.bind_eq_bind, Option.bind_some, if_pos hrow]
  rfl

/-! ## Window after window -/

/-- In every window of the ranges the client has the rooms that the window shows of the order. -/
def Show (rows : Rows) (r : Ranges) (order : List RoomId) : Prop :=
  ∀ w ∈ r.windows, rows w = w.view order

/-- Operations that give windows new rows, one window at a time, do so for all of them. -/
theorem applyAll_flatMap {rows : Rows} {windows : List Window} (distinct : windows.Nodup)
    (ops : Window → List ListOp) (content : Window → List RoomId)
    (each : ∀ w ∈ windows, ∀ rows' : Rows, rows' w = rows w →
      rows'.applyAll r (ops w) = some (Function.update rows' w (content w))) :
    ∃ rows', rows.applyAll r (windows.flatMap ops) = some rows' ∧
      (∀ w ∈ windows, rows' w = content w) ∧ ∀ w, w ∉ windows → rows' w = rows w := by
  induction windows generalizing rows with
  | nil => exact ⟨rows, rfl, by simp, fun _ _ => rfl⟩
  | cons v rest ih =>
      obtain ⟨hv, hrest⟩ := List.nodup_cons.mp distinct
      have hhead := each v List.mem_cons_self rows rfl
      have hstill : ∀ w, w ≠ v → Function.update rows v (content v) w = rows w :=
        fun w hne => Function.update_of_ne hne _ _
      obtain ⟨rows', happly, hdone, hothers⟩ := @ih (Function.update rows v (content v)) hrest (by
        intro w hw rows' hsame
        have hne : w ≠ v := fun heq => hv (heq ▸ hw)
        exact each w (List.mem_cons_of_mem _ hw) rows' (hsame.trans (hstill w hne)))
      refine ⟨rows', ?_, ?_, ?_⟩
      · rw [List.flatMap_cons, applyAll_append, hhead]
        exact happly
      · intro w hw
        rcases List.mem_cons.mp hw with rfl | hw
        · rw [hothers w hv, Function.update_self]
        · exact hdone w hw
      · intro w hw
        have hne : w ≠ v := fun heq => hw (heq ▸ List.mem_cons_self)
        rw [hothers w fun hin => hw (List.mem_cons_of_mem _ hin), hstill w hne]

end Rows

end SlidingSync
