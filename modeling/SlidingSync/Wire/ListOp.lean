import SlidingSync.ListOp
import SlidingSync.Wire.Request

/-!
# List operations on the wire

An operation is an object whose member `op` names it. The member may stand anywhere among the
others; as an array an operation begins with its name.
-/

namespace SlidingSync.ListOp

structure Draft where
  window : Option Window := none
  rooms : Option (List RoomId) := none
  index : Option UInt64 := none
  room : Option RoomId := none

def parts : ListOp → Draft
  | .sync window rooms => { window := some window, rooms := some rooms }
  | .insert index room => { index := some index, room := some room }
  | .delete index => { index := some index }
  | .invalidate window => { window := some window }

def tagName : String :=
  "op"

def tag : ListOp → String
  | .sync _ _ => "SYNC"
  | .insert _ _ => "INSERT"
  | .delete _ => "DELETE"
  | .invalidate _ => "INVALIDATE"

def windowField : Field Draft ListOp :=
  .present "range" Window.codec (·.parts.window) fun d window => { d with window := some window }

def roomsField : Field Draft ListOp :=
  .present "room_ids" (.list RoomId.codec) (·.parts.rooms) fun d rooms =>
    { d with rooms := some rooms }

def indexField : Field Draft ListOp :=
  .present "index" .natural (·.parts.index) fun d index => { d with index := some index }

def roomField : Field Draft ListOp :=
  .present "room_id" RoomId.codec (·.parts.room) fun d room => { d with room := some room }

/-- The operations of a name without their name. -/
def record? (tag : String) : Option (Record Draft ListOp) :=
  match tag with
  | "SYNC" =>
      some
        { fields := [windowField, roomsField]
          blank := {}
          finish := fun d => do return .sync (← d.window) (← d.rooms) }
  | "INSERT" =>
      some
        { fields := [indexField, roomField]
          blank := {}
          finish := fun d => do return .insert (← d.index) (← d.room) }
  | "DELETE" =>
      some { fields := [indexField], blank := {}, finish := fun d => d.index.map .delete }
  | "INVALIDATE" =>
      some { fields := [windowField], blank := {}, finish := fun d => d.window.map .invalidate }
  | _ => none

/-- The operations of the name that a document is. -/
def recordOf (j : Json) : Except DecodeFault (Record Draft ListOp) := do
  match record? (← Codec.string.decode j) with
  | some record => .ok record
  | none => .error .malformed

def tagField : Field (Option (Record Draft ListOp)) ListOp where
  name := tagName
  put _ j := (recordOf j).map some
  shown op := some (.string op.tag)

/-- The operation with these members, none of which may be flawed. -/
def ofMembers (members : List (String × Json)) : Except DecodeFault ListOp := do
  match ← Field.scan [tagField] Json.isSound [] none members with
  | some record => record.ofMembers members
  | none => .error .malformed

def ofItems : List Json → Except DecodeFault ListOp
  | [] => .error .malformed
  | name :: items => do
      let record ← recordOf name
      if items.all Json.isSound then record.ofItems items else .error .malformed

def codec : Codec ListOp where
  encode op :=
    .object (Field.members [tagField] op
      ++ Field.members [windowField, roomsField, indexField, roomField] op)
  decode
    | .array items => ofItems items
    | j => Codec.members j ofMembers

end SlidingSync.ListOp
