import SlidingSync.Wire.Codec

/-!
# Records

A record is written as an object, field by field in the order of its declaration, and fields that
hold nothing may be left out. It is read from an object with its members in any order, or from an
array of the fields in declaration order. Members under other names are skipped; a field that
occurs twice is a fault. While it is read, a record is a draft whose fields are put in one by one.
-/

namespace SlidingSync

/-- A field of records `α` that are read into drafts `β`. -/
structure Field (β α : Type) where
  name : String
  put : β → Json → Except DecodeFault β
  /-- What is written of the field; none when it is left out. -/
  shown : α → Option Json

/-- Records `α` by their fields in declaration order. -/
structure Record (β α : Type) where
  fields : List (Field β α)
  blank : β
  /-- The record of a draft, none when a field is missing. -/
  finish : β → Option α
  /-- How many items an array form has at least. -/
  fewest : Nat := 0

namespace Field

variable {α β γ : Type}

def always (name : String) (codec : Codec γ) (get : α → γ) (set : β → γ → β) : Field β α where
  name := name
  put draft j := (codec.decode j).map (set draft)
  shown a := some (codec.encode (get a))

/-- A field that is left out while its value is `nothing`. -/
def sparse (name : String) (codec : Codec γ) (nothing : γ → Bool) (get : α → γ)
    (set : β → γ → β) : Field β α where
  name := name
  put draft j := (codec.decode j).map (set draft)
  shown a := if nothing (get a) then none else some (codec.encode (get a))

/-- A field that some records have; where it is read it has to be there. -/
def present (name : String) (codec : Codec γ) (get : α → Option γ) (set : β → γ → β) :
    Field β α where
  name := name
  put draft j := (codec.decode j).map (set draft)
  shown a := (get a).map codec.encode

/-- A field that may be `null` and is left out when it is missing. -/
def optional (name : String) (codec : Codec γ) (get : α → Option γ)
    (set : β → Option γ → β) : Field β α where
  name := name
  put draft j := (codec.nullable.decode j).map (set draft)
  shown a := (get a).map codec.encode

def members (fields : List (Field β α)) (a : α) : List (String × Json) :=
  fields.filterMap fun field => (field.shown a).map fun j => (field.name, j)

/-- Members put into a draft; `skip` says which values may stand under other names. -/
def scan (fields : List (Field β α)) (skip : Json → Bool) (seen : List String) (draft : β) :
    List (String × Json) → Except DecodeFault β
  | [] => .ok draft
  | (name, j) :: rest =>
      match fields.find? fun field => field.name == name with
      | none => if skip j then scan fields skip seen draft rest else .error .malformed
      | some field =>
          if seen.contains name then .error .malformed
          else
            match field.put draft j with
            | .ok draft => scan fields skip (name :: seen) draft rest
            | .error fault => .error fault

/-- Items put into a draft, each as the field at its place. -/
def fill (draft : β) : List (Field β α) → List Json → Except DecodeFault β
  | _, [] => .ok draft
  | [], _ :: _ => .error .malformed
  | field :: fields, item :: items =>
      match field.put draft item with
      | .ok draft => fill draft fields items
      | .error fault => .error fault

end Field

namespace Record

variable {α β : Type}

def complete (r : Record β α) (draft : β) : Except DecodeFault α :=
  match r.finish draft with
  | some a => .ok a
  | none => .error .malformed

/-- The record with these members; values under other names only have to be JSON. -/
def ofMembers (r : Record β α) (members : List (String × Json)) : Except DecodeFault α := do
  r.complete (← Field.scan r.fields Json.isWhole [] r.blank members)

def ofItems (r : Record β α) (items : List Json) : Except DecodeFault α := do
  let draft ← Field.fill r.blank r.fields items
  if items.length < r.fewest then .error .malformed else r.complete draft

def codec (r : Record β α) : Codec α where
  encode a := .object (Field.members r.fields a)
  decode
    | .array items => r.ofItems items
    | j => Codec.members j r.ofMembers

end Record

end SlidingSync
