/-!
# Windows

A client watches a sorted list through windows of positions, both ends included. `Ranges` is a
set of windows in ascending order without a common position; `Ranges.ofWindows` builds one from
windows in any order or says which windows are at fault.
-/

namespace SlidingSync

structure Window where
  first : UInt64
  last : UInt64
  deriving DecidableEq, Repr, Inhabited

namespace Window

def contains (w : Window) (index : Nat) : Bool :=
  w.first.toNat ≤ index && index ≤ w.last.toNat

/-- The position of the window nearest to `index`. -/
def clamp (w : Window) (index : Nat) : UInt64 :=
  if index < w.first.toNat then w.first
  else if w.last.toNat < index then w.last
  else UInt64.ofNat index

def text (w : Window) : String :=
  "[" ++ toString w.first.toNat ++ "," ++ toString w.last.toNat ++ "]"

/-- First and last of the indices below `length` that lie in the window, none when it has none. -/
def reach? (w : Window) (length : Nat) : Option (Nat × Nat) :=
  if w.last < w.first ∨ length ≤ w.first.toNat then none
  else some (w.first.toNat, min w.last.toNat (length - 1))

def slice {α : Type} (w : Window) (order : List α) : List α :=
  match w.reach? order.length with
  | none => []
  | some (first, last) => (order.drop first).take (last + 1 - first)

end Window

inductive RangesFault
  | inverted (w : Window)
  | overlap (a b : Window)
  deriving DecidableEq, Repr

def RangesFault.message : RangesFault → String
  | .inverted w => "range " ++ w.text ++ " has start after end"
  | .overlap a b => "ranges " ++ a.text ++ " and " ++ b.text ++ " overlap"

namespace Ranges

/-- The first window that starts after its end. -/
def firstInverted (windows : List Window) : Option Window :=
  windows.find? fun w => w.last < w.first

/-- The first window that its follower reaches into, with the follower. -/
def firstOverlap : List Window → Option (Window × Window)
  | a :: b :: rest => if b.first ≤ a.last then some (a, b) else firstOverlap (b :: rest)
  | _ => none

end Ranges

/-- Windows in ascending order, none inverted and none reaching into the next. -/
structure Ranges where
  windows : List Window
  upright : Ranges.firstInverted windows = none
  apart : Ranges.firstOverlap windows = none
  deriving DecidableEq

namespace Ranges

def empty : Ranges :=
  ⟨[], rfl, rfl⟩

instance : Inhabited Ranges :=
  ⟨empty⟩

/-- Windows by their start; windows with the same start keep their order. -/
def sortWindows (windows : List Window) : List Window :=
  windows.mergeSort fun a b => decide (a.first ≤ b.first)

/-- The ranges of the windows. Inverted windows are reported before windows that overlap. -/
def ofWindows (windows : List Window) : Except RangesFault Ranges :=
  match hup : firstInverted (sortWindows windows) with
  | some w => .error (.inverted w)
  | none =>
      match hap : firstOverlap (sortWindows windows) with
      | some (a, b) => .error (.overlap a b)
      | none => .ok ⟨sortWindows windows, hup, hap⟩

def isEmpty (r : Ranges) : Bool :=
  r.windows.isEmpty

def inside (r : Ranges) (index : Nat) : Bool :=
  r.windows.any (·.contains index)

/--
Rows that leave and enter a window each when a room moves from position
`source` to `target`. A window between the two is touched, and each end of the
move is taken to the nearest position of the window: a window that the move
crosses gives its far edge and gets its near edge.
-/
def moves (r : Ranges) (source target : Nat) : List (UInt64 × UInt64) :=
  if source = target then []
  else
    let touched := r.windows.filter fun w =>
      w.first ≤ w.last && w.first.toNat ≤ max source target && min source target ≤ w.last.toNat
    touched.map fun w => (w.clamp source, w.clamp target)

def slices {α : Type} (r : Ranges) (order : List α) : List (List α) :=
  r.windows.map (·.slice order)

end Ranges

end SlidingSync
