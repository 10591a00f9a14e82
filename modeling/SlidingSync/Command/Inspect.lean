import SlidingSync.Channel
import SlidingSync.Command.Basic
import SlidingSync.Report

/-!
# Inspecting the cache

The rooms of a snapshot in sorted order, as far as one window shows them.
-/

namespace SlidingSync

/-- Number of rows of a window that does not start after its end, as far as a word counts. -/
def Window.length (w : Window) : Nat :=
  min (w.last.toNat - w.first.toNat + 1) (UInt64.size - 1)

def Cache.windowLines {α : Type} (cache : Cache α) (order : List RoomId) (w : Window) :
    List String :=
  let rows := (order.zipIdx.drop w.first.toNat).take w.length
  rows.filterMap fun row => (cache.load? row.1).map fun room => room.line row.2

/-- The lines of the rooms in a window of the sorted cache. -/
def inspect (files : Files) (config : Config) (sort : List String) (w : Window) :
    Except CommandError (List String) := do
  let cache : Cache Channel ← Cache.ofConfig files config
  let sorted ← (Room.sort sort cache.snapshot).mapError fun fault =>
    .ofSync (.badRequest fault)
  return cache.windowLines (sorted.map (·.id)) w

end SlidingSync
