import SlidingSync.Identifier
import SlidingSync.SortedMap

/-!
# Required state

A subscription names the state events that a client wants by patterns of event type and state
key. Compiling the patterns for a user gives a `StateFilter`, which decides single events
(`StateFilter.includes`) and describes what to fetch from storage (`StateFilter.query`).
-/

namespace SlidingSync

/-- Matches every event type or every state key. -/
def wildcard : String :=
  "*"

/-- As a state key: the ID of the user who asks. -/
def ownKey : String :=
  "$ME"

/-- As a state key: reserved for members that are loaded later, matches nothing. -/
def lazyKey : String :=
  "$LAZY"

structure StatePattern where
  eventType : String
  stateKey : String
  deriving DecidableEq, Repr

structure RoomSubscription where
  /-- Most timeline events per room, nought when not given. -/
  timelineLimit : UInt64 := 0
  requiredState : List StatePattern := []
  deriving DecidableEq, Repr

inductive StateKeys
  | all
  | keys (list : List String)
  deriving DecidableEq, Repr

namespace StateKeys

def contains (wanted : StateKeys) (key : String) : Bool :=
  match wanted with
  | .all => true
  | .keys list => list.contains key

/-- The keys with one more, in the order they were first seen. All keys stay all keys. -/
def push (wanted : StateKeys) (key : String) : StateKeys :=
  match wanted with
  | .all => .all
  | .keys list => if list.contains key then .keys list else .keys (list ++ [key])

end StateKeys

structure StateFilter where
  allState : Bool := false
  eventTypes : SortedMap String StateKeys := .empty
  /-- Keys wanted whatever the event type. -/
  anyTypeKeys : List String := []
  deriving DecidableEq

namespace StateFilter

def resolveKey (user : UserId) (key : String) : String :=
  if key = ownKey then user.text else key

def addPattern (user : UserId) (filter : StateFilter) (pattern : StatePattern) : StateFilter :=
  let key := resolveKey user pattern.stateKey
  if pattern.stateKey = lazyKey then filter
  else if pattern.eventType = wildcard then
    if pattern.stateKey = wildcard then { filter with allState := true }
    else if filter.anyTypeKeys.contains key then filter
    else { filter with anyTypeKeys := filter.anyTypeKeys ++ [key] }
  else
    let wanted :=
      if pattern.stateKey = wildcard then .all
      else ((filter.eventTypes.get? pattern.eventType).getD (.keys [])).push key
    { filter with eventTypes := filter.eventTypes.insert pattern.eventType wanted }

def includes (filter : StateFilter) (eventType stateKey : String) : Bool :=
  filter.allState || filter.anyTypeKeys.contains stateKey ||
    match filter.eventTypes.get? eventType with
    | some wanted => wanted.contains stateKey
    | none => false

/--
What to fetch by event type. It is empty when the filter needs every state event
of the room to decide.
-/
def query (filter : StateFilter) : SortedMap String StateKeys :=
  if filter.allState || !filter.anyTypeKeys.isEmpty then .empty else filter.eventTypes

end StateFilter

namespace RoomSubscription

def isEmpty (s : RoomSubscription) : Bool :=
  s.timelineLimit == 0 && s.requiredState.isEmpty

/-- All that either subscription wants: both lists of patterns and the larger limit. -/
def combine (a b : RoomSubscription) : RoomSubscription where
  timelineLimit := max a.timelineLimit b.timelineLimit
  requiredState := a.requiredState ++ b.requiredState

/-- Whether the patterns differ, their order counting. -/
def requiredStateChanged (a b : RoomSubscription) : Bool :=
  a.requiredState != b.requiredState

def compile (s : RoomSubscription) (user : UserId) : StateFilter :=
  s.requiredState.foldl (StateFilter.addPattern user) {}

end RoomSubscription

end SlidingSync
