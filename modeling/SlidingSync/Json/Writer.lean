import SlidingSync.Json.Basic

/-!
# Writing JSON

The compact text of a document: no space between its parts, members in the order they stand in,
characters beyond ASCII as they are.
-/

namespace SlidingSync.Json

def hexDigit (n : Nat) : Char :=
  if n < 10 then Char.ofNat (48 + n) else Char.ofNat (87 + n)

def escapeChar (c : Char) : List Char :=
  if c = '"' then ['\\', '"']
  else if c = '\\' then ['\\', '\\']
  else if c = '\n' then ['\\', 'n']
  else if c = '\r' then ['\\', 'r']
  else if c = '\t' then ['\\', 't']
  else if c.toNat = 8 then ['\\', 'b']
  else if c.toNat = 12 then ['\\', 'f']
  else if c.toNat < 32 then ['\\', 'u', '0', '0', hexDigit (c.toNat / 16), hexDigit (c.toNat % 16)]
  else [c]

def writeString (s : String) (rest : List Char) : List Char :=
  '"' :: s.toList.foldr (fun c tail => escapeChar c ++ tail) ('"' :: rest)

def Number.text : Number → String
  | .integer n => toString n
  | .real x => x.text

mutual

/-- The document followed by `rest`. -/
def write (rest : List Char) : Json → List Char
  | .null => "null".toList ++ rest
  | .bool true => "true".toList ++ rest
  | .bool false => "false".toList ++ rest
  | .number n => n.text.toList ++ rest
  | .string s => writeString s rest
  | .array [] => '[' :: ']' :: rest
  | .array (item :: items) => '[' :: item.write (writeItems rest items)
  | .object members => '\x7b' :: writeMembers rest true members
  | .flawed _ _ => "null".toList ++ rest
termination_by structural j => j

/-- Items after the first, the closing bracket and `rest`. -/
def writeItems (rest : List Char) : List Json → List Char
  | [] => ']' :: rest
  | item :: items => ',' :: item.write (writeItems rest items)
termination_by structural items => items

/-- Members, the closing brace and `rest`; the `first` member has no comma before it. -/
def writeMembers (rest : List Char) (first : Bool) : List (String × Json) → List Char
  | [] => '\x7d' :: rest
  | (name, value) :: members =>
      let member := writeString name (':' :: value.write (writeMembers rest false members))
      if first then member else ',' :: member
termination_by structural members => members

end

def compact (j : Json) : String :=
  String.ofList (j.write [])

end SlidingSync.Json
