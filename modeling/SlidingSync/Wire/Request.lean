import SlidingSync.Request
import SlidingSync.Wire.Record

/-!
# Requests on the wire

How windows, subscriptions, lists, requests and their differences are written and read. The
subscription of a list stands among the list's own members.
-/

namespace SlidingSync

def RoomId.codec : Codec RoomId :=
  .checked RoomId.parse (·.text)

/-- Windows as pairs; nothing is asked of their ends. -/
def Window.codec : Codec Window :=
  .pair .natural Window.mk (·.first) (·.last)

/-- Ranges as their windows, which may come in any order. -/
def Ranges.codec : Codec Ranges where
  encode r := (Codec.list Window.codec).encode r.windows
  decode j := do
    let windows ← (Codec.list Window.codec).decode j
    (Ranges.ofWindows windows).mapError .windows

def StatePattern.codec : Codec StatePattern :=
  .pair .string StatePattern.mk (·.eventType) (·.stateKey)

def RoomSubscription.record : Record RoomSubscription RoomSubscription where
  fields :=
    [ .sparse "timeline_limit" .natural (· == 0) (·.timelineLimit)
        fun s limit => { s with timelineLimit := limit },
      .sparse "required_state" (.list StatePattern.codec) List.isEmpty (·.requiredState)
        fun s patterns => { s with requiredState := patterns } ]
  blank := {}
  finish := some

def RoomFilters.record : Record RoomFilters RoomFilters where
  fields :=
    [ .optional "is_dm" .bool (·.isDm) fun f b => { f with isDm := b },
      .optional "spaces" (.list RoomId.codec) (·.spaces) fun f rooms => { f with spaces := rooms },
      .optional "is_encrypted" .bool (·.isEncrypted) fun f b => { f with isEncrypted := b },
      .optional "is_invite" .bool (·.isInvite) fun f b => { f with isInvite := b },
      .optional "room_types" (.list .string) (·.roomTypes) fun f types =>
        { f with roomTypes := types },
      .optional "not_room_types" (.list .string) (·.notRoomTypes) fun f types =>
        { f with notRoomTypes := types },
      .optional "room_name_like" .string (·.roomNameLike) fun f like =>
        { f with roomNameLike := like },
      .optional "tags" (.list .string) (·.tags) fun f tags => { f with tags := tags },
      .optional "not_tags" (.list .string) (·.notTags) fun f tags => { f with notTags := tags } ]
  blank := {}
  finish := some

namespace RoomList

/-- Fields that are written before the subscription. -/
def leadingFields : List (Field RoomList RoomList) :=
  [ .sparse "ranges" Ranges.codec Ranges.isEmpty (·.ranges) fun l ranges =>
      { l with ranges := ranges },
    .sparse "sort" (.list .string) List.isEmpty (·.sort) fun l sort => { l with sort := sort },
    .optional "filters" RoomFilters.record.codec (·.filters) fun l filters =>
      { l with filters := filters } ]

/-- Fields that are written after the subscription. -/
def trailingFields : List (Field RoomList RoomList) :=
  [.sparse "deleted" .bool (!·) (·.deleted) fun l deleted => { l with deleted := deleted }]

/--
The list with these members. Members that are not the list's own are kept for
the subscription, so none of them may be flawed.
-/
def ofMembers (members : List (String × Json)) : Except DecodeFault RoomList := do
  let own ← Field.scan (leadingFields ++ trailingFields) Json.isSound [] {} members
  let subscription ←
    Field.scan RoomSubscription.record.fields Json.isSound [] {} members
  return { own with subscription := subscription }

/-- Lists; they have no array form. -/
def codec : Codec RoomList where
  encode l :=
    .object
      (Field.members leadingFields l
        ++ Field.members RoomSubscription.record.fields l.subscription
        ++ Field.members trailingFields l)
  decode j := Codec.members j ofMembers

end RoomList

def RoomId.parseKey (text : String) : Except DecodeFault RoomId :=
  (RoomId.parse text).mapError .identifier

def Request.record : Record Request Request where
  fields :=
    [ .always "lists" (.mapping .ok id RoomList.codec) (·.lists) fun r lists =>
        { r with lists := lists },
      .always "room_subscriptions"
        (.mapping RoomId.parseKey (·.text) RoomSubscription.record.codec) (·.subscriptions)
        fun r subscriptions => { r with subscriptions := subscriptions },
      .sparse "unsubscribe_rooms" (.list RoomId.codec) List.isEmpty (·.unsubscribe)
        fun r rooms => { r with unsubscribe := rooms } ]
  blank := {}
  finish := some

def ListDelta.record : Record ListDelta ListDelta where
  fields :=
    [ .always "prev" RoomList.codec.nullable (·.prev) fun d prev => { d with prev := prev },
      .always "curr" RoomList.codec.nullable (·.curr) fun d curr => { d with curr := curr } ]
  blank := ⟨none, none⟩
  finish := some
  fewest := 2

def RequestDelta.record : Record RequestDelta RequestDelta where
  fields :=
    [ .sparse "subs" (.list RoomId.codec) List.isEmpty (·.subs) fun d rooms =>
        { d with subs := rooms },
      .sparse "unsubs" (.list RoomId.codec) List.isEmpty (·.unsubs) fun d rooms =>
        { d with unsubs := rooms },
      .always "lists" (.mapping .ok id ListDelta.record.codec) (·.lists) fun d lists =>
        { d with lists := lists } ]
  blank := {}
  finish := some

end SlidingSync
