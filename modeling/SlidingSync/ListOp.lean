import SlidingSync.Identifier
import SlidingSync.Window

/-!
# List operations

What a client is told to do with the rows of its windows, and the operations that follow from one
room moving within a sorted order, entering it or leaving it.
-/

namespace SlidingSync

/-- One operation on the rows that a client holds. -/
inductive ListOp
  /-- Replace the window by these rooms. -/
  | sync (window : Window) (rooms : List RoomId)
  /-- Insert the room as the row at `index`. -/
  | insert (index : UInt64) (room : RoomId)
  /-- Remove the row at `index`. -/
  | delete (index : UInt64)
  /-- Forget the rows of the window. -/
  | invalidate (window : Window)
  deriving DecidableEq

namespace Ranges

/-- Removal of a row, unless the client was never shown it. -/
def deleteOp? (r : Ranges) (index : Nat) : Option ListOp :=
  if r.inside index then some (.delete (UInt64.ofNat index)) else none

/-- Insertion of a row, unless no window shows it. -/
def insertOp? (r : Ranges) (index : Nat) (room : RoomId) : Option ListOp :=
  if r.inside index then some (.insert (UInt64.ofNat index) room) else none

/--
Operations for a room that moved from `source` to `target`, where `order` is the
order after the move. It names the room that each window gains.
-/
def moveOps (r : Ranges) (source target : Nat) (order : List RoomId) : List ListOp :=
  (r.moves source target).flatMap fun move =>
    match order[move.2.toNat]? with
    | some room => [.delete move.1, .insert move.2 room]
    | none => []

/--
Operations for a room that is new at `target` in a list that had `oldLength`
rooms. Every window at or behind the room moves down by one: a full window
loses its last row, and a row enters at its top or at the room.
-/
def enterOps (r : Ranges) (target oldLength : Nat) (order : List RoomId) : List ListOp :=
  (r.windows.filter fun w => decide (target ≤ w.last.toNat)).flatMap fun w =>
    let entering := max target w.first.toNat
    match order[entering]? with
    | some room =>
        (if w.last.toNat < oldLength then (r.deleteOp? w.last.toNat).toList else [])
          ++ (r.insertOp? entering room).toList
    | none => []

/--
Operations for a room that stood at `source` and is gone, where `order` is the
order without it. Every window at or behind the room moves up by one: the row
of the room or the top row goes, and the next room enters at the bottom.
-/
def leaveOps (r : Ranges) (source : Nat) (order : List RoomId) : List ListOp :=
  (r.windows.filter fun w => decide (source ≤ w.last.toNat)).flatMap fun w =>
    let leaving := max source w.first.toNat
    if order.length < leaving then []
    else
      (r.deleteOp? leaving).toList ++
        match order[w.last.toNat]? with
        | some room => (r.insertOp? w.last.toNat room).toList
        | none => []

end Ranges

end SlidingSync
