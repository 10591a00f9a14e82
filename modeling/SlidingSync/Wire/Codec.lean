import SlidingSync.Json.Reader
import SlidingSync.Json.Writer
import SlidingSync.Wire.Fault

/-!
# Codecs

A codec says how the values of a type are written as JSON and how a document is read as one of
them. Documents are read in their own order, so of several faults the first one is reported.
-/

namespace SlidingSync

structure Codec (α : Type) where
  encode : α → Json
  decode : Json → Except DecodeFault α

namespace Codec

variable {α β : Type}

def bool : Codec Bool where
  encode b := .bool b
  decode
    | .bool b => .ok b
    | _ => .error .malformed

/-- Whole numbers from nought to `2 ^ 64 - 1`. -/
def natural : Codec UInt64 where
  encode n := .ofNat n.toNat
  decode
    | .number (.integer n) =>
        if 0 ≤ n ∧ n < UInt64.size then .ok (UInt64.ofNat n.toNat) else .error .malformed
    | _ => .error .malformed

/-- Whole numbers from `-2 ^ 63` to `2 ^ 63 - 1`. -/
def integer : Codec Int64 where
  encode n := .number (.integer n.toInt)
  decode
    | .number (.integer n) =>
        if Int64.minValue.toInt ≤ n ∧ n ≤ Int64.maxValue.toInt then .ok (Int64.ofInt n) else .error .malformed
    | _ => .error .malformed

def string : Codec String where
  encode s := .string s
  decode
    | .string s => .ok s
    | _ => .error .malformed

def payload : Codec Payload where
  encode p := p.json
  decode j :=
    match Payload.ofJson? j with
    | some p => .ok p
    | none => .error .malformed

/-- Texts that have to pass a check. -/
def checked (parse : String → Except IdentifierFault α) (text : α → String) : Codec α where
  encode a := .string (text a)
  decode
    | .string s => (parse s).mapError .identifier
    | _ => .error .malformed

def list (item : Codec α) : Codec (List α) where
  encode items := .array (items.map item.encode)
  decode
    | .array items => items.mapM item.decode
    | _ => .error .malformed

/-- Values made of two parts, as an array of both. -/
def pair (part : Codec α) (make : α → α → β) (first second : β → α) : Codec β where
  encode b := .array [part.encode (first b), part.encode (second b)]
  decode
    | .array [a, b] => do
        let a ← part.decode a
        let b ← part.decode b
        return make a b
    | _ => .error .malformed

/-- Values that may be missing, with `null` in their place. -/
def nullable (item : Codec α) : Codec (Option α) where
  encode
    | some a => item.encode a
    | none => .null
  decode
    | .null => .ok none
    | j => (item.decode j).map some

/-- The members of an object for `read`. An object that breaks off is read up to its flaw. -/
def members (j : Json) (read : List (String × Json) → Except DecodeFault α) :
    Except DecodeFault α :=
  match j with
  | .object members => read members
  | .flawed _ before => (read before).bind fun _ => .error .malformed
  | _ => .error .malformed

/-- Entries added to a map one after the other; a later entry of a key wins. -/
def addEntries {κ : Type} [Ord κ] [Std.TransOrd κ] [Std.LawfulEqOrd κ]
    (key : String → Except DecodeFault κ) (value : Codec α) (m : SortedMap κ α) :
    List (String × Json) → Except DecodeFault (SortedMap κ α)
  | [] => .ok m
  | (name, j) :: rest => do
      let k ← key name
      let v ← value.decode j
      addEntries key value (m.insert k v) rest

/-- Maps, as objects with the texts of their keys as names. -/
def mapping {κ : Type} [Ord κ] [Std.TransOrd κ] [Std.LawfulEqOrd κ]
    (key : String → Except DecodeFault κ) (text : κ → String) (value : Codec α) :
    Codec (SortedMap κ α) where
  encode m := .object (m.entries.map fun entry => (text entry.1, value.encode entry.2))
  decode j := members j (addEntries key value .empty)

/-- The value of a text that holds one document and nothing else. -/
def decodeText (codec : Codec α) (text : String) : Except DecodeFault α := do
  let document := Json.Document.read text
  let a ← codec.decode document.root
  if document.complete then .ok a else .error .malformed

def encodeText (codec : Codec α) (a : α) : String :=
  (codec.encode a).compact

end Codec

end SlidingSync
