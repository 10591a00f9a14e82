import SlidingSync.ListOp
import SlidingSync.RequiredState

/-!
# Room lists

One list that a client asks for: the windows it watches, how the rooms are sorted and filtered,
and the subscription that goes to every room it shows.
-/

namespace SlidingSync

inductive SortKey
  | recency
  | highlightCount
  | notificationCount
  | name
  deriving DecidableEq, Repr

namespace SortKey

def identifier : SortKey → String
  | .recency => "by_recency"
  | .highlightCount => "by_highlight_count"
  | .notificationCount => "by_notification_count"
  | .name => "by_name"

def ofIdentifier? (text : String) : Option SortKey :=
  [recency, highlightCount, notificationCount, name].find? fun key => key.identifier = text

end SortKey

structure RoomFilters where
  isDm : Option Bool := none
  spaces : Option (List RoomId) := none
  isEncrypted : Option Bool := none
  isInvite : Option Bool := none
  roomTypes : Option (List String) := none
  notRoomTypes : Option (List String) := none
  roomNameLike : Option String := none
  tags : Option (List String) := none
  notTags : Option (List String) := none
  deriving DecidableEq

structure RoomList where
  ranges : Ranges := .empty
  /-- Sort identifiers, the most significant first. -/
  sort : List String := []
  filters : Option RoomFilters := none
  /-- Subscription of every room that the list shows. -/
  subscription : RoomSubscription := {}
  /-- Set by a client to drop the list. -/
  deleted : Bool := false
  deriving DecidableEq

inductive RequestFault
  | windows (fault : RangesFault)
  | timelineLimit (limit maximum : UInt64)
  | unknownSort (identifier : String)
  | inList (name : String) (fault : RequestFault)
  | inSubscription (room : RoomId) (limit maximum : UInt64)
  deriving DecidableEq

namespace RequestFault

def heading : String :=
  "Bad request: "

def limitText (limit maximum : UInt64) : String :=
  "timeline_limit " ++ toString limit.toNat ++ " exceeds maximum " ++ toString maximum.toNat

def message : RequestFault → String
  | .windows fault => fault.message
  | .timelineLimit limit maximum => limitText limit maximum
  | .unknownSort identifier => "unknown sort order: " ++ identifier
  | .inList name fault => "list '" ++ name ++ "': " ++ heading ++ fault.message
  | .inSubscription room limit maximum =>
      "room subscription " ++ room.text ++ ": " ++ limitText limit maximum

end RequestFault

def firstUnknownSort (identifiers : List String) : Option String :=
  identifiers.find? fun text => (SortKey.ofIdentifier? text).isNone

namespace RoomList

/-- Whether the sort identifiers differ, their order counting; a list that is not there differs. -/
def sortChanged (list : RoomList) (other : Option RoomList) : Bool :=
  match other with
  | some other => list.sort != other.sort
  | none => true

/-- The fault of a list by itself: its limit first, then its sort identifiers. -/
def fault? (list : RoomList) (maximum : UInt64) : Option RequestFault :=
  if maximum < list.subscription.timelineLimit then
    some (.timelineLimit list.subscription.timelineLimit maximum)
  else (firstUnknownSort list.sort).map .unknownSort

end RoomList

end SlidingSync
