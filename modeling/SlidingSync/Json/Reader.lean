import SlidingSync.Json.Basic

/-!
# Reading JSON

Strict reading of a text as one JSON document. Reading never fails: where the text stops being
JSON the document has a cut, and what is well formed but has no value is marked, so a decoder finds
the first fault in reading order. Containers may nest `maxDepth` deep.
-/

namespace SlidingSync.Json

def maxDepth : Nat :=
  127

def isSpace (c : Char) : Bool :=
  c == ' ' || c == '\n' || c == '\t' || c == '\r'

def skipSpace (cs : List Char) : List Char :=
  cs.dropWhile isSpace

def hexValue? (c : Char) : Option Nat :=
  if '0' ≤ c ∧ c ≤ '9' then some (c.toNat - 48)
  else if 'a' ≤ c ∧ c ≤ 'f' then some (c.toNat - 87)
  else if 'A' ≤ c ∧ c ≤ 'F' then some (c.toNat - 55)
  else none

def hexQuad? (a b c d : Char) : Option Nat := do
  let a ← hexValue? a
  let b ← hexValue? b
  let c ← hexValue? c
  let d ← hexValue? d
  return ((a * 16 + b) * 16 + c) * 16 + d

/-- What a backslash and this character stand for, `u` apart. -/
def escaped? (c : Char) : Option Char :=
  if c = '"' ∨ c = '\\' ∨ c = '/' then some c
  else if c = 'b' then some '\x08'
  else if c = 'f' then some '\x0c'
  else if c = 'n' then some '\n'
  else if c = 'r' then some '\r'
  else if c = 't' then some '\t'
  else none

/--
A string on its way: the characters so far, last first, a high surrogate that
waits for its low one, and whether every surrogate has been paired.
-/
structure Spelling where
  reversed : List Char
  high : Option Nat
  paired : Bool

def Spelling.start : Spelling :=
  ⟨[], none, true⟩

/-- The string with one more character; a surrogate that waits stays unpaired. -/
def Spelling.push (s : Spelling) (c : Char) : Spelling :=
  ⟨c :: s.reversed, none, s.paired && s.high.isNone⟩

/-- The string with the character, or half of one, written as a code unit. -/
def Spelling.pushUnit (s : Spelling) (unit : Nat) : Spelling :=
  if 0xDC00 ≤ unit ∧ unit ≤ 0xDFFF then
    match s.high with
    | some high =>
        let code := 0x10000 + (high - 0xD800) * 0x400 + (unit - 0xDC00)
        ⟨Char.ofNat code :: s.reversed, none, s.paired⟩
    | none => { s with paired := false }
  else if 0xD800 ≤ unit ∧ unit ≤ 0xDBFF then
    ⟨s.reversed, some unit, s.paired && s.high.isNone⟩
  else s.push (Char.ofNat unit)

/-- The finished string, none when a surrogate is unpaired. -/
def Spelling.finish (s : Spelling) : Option String :=
  if s.paired && s.high.isNone then some (String.ofList s.reversed.reverse) else none

/--
The string up to its closing quote and the text after it. None is a text that
breaks off; a string that has no value is none inside.
-/
def readString (spelling : Spelling) : List Char → Option (Option String × List Char)
  | [] => none
  | '"' :: rest => some (spelling.finish, rest)
  | '\\' :: 'u' :: a :: b :: c :: d :: rest =>
      match hexQuad? a b c d with
      | some unit => readString (spelling.pushUnit unit) rest
      | none => none
  | '\\' :: c :: rest =>
      match escaped? c with
      | some meant => readString (spelling.push meant) rest
      | none => none
  | c :: rest => if c.toNat < 32 ∨ c = '\\' then none else readString (spelling.push c) rest

def digitsOf (cs : List Char) : List Char × List Char :=
  (cs.takeWhile Char.isDigit, cs.dropWhile Char.isDigit)

/--
A significand below `2 ^ 64` that takes in digits while they fit, and the digits
that no longer do.
-/
def takeDigits (significand : Nat) : List Char → Nat × List Char
  | [] => (significand, [])
  | c :: rest =>
      let next := significand * 10 + (c.toNat - 48)
      if next < UInt64.size then takeDigits next rest else (significand, c :: rest)

def exponentValue (digits : List Char) : Nat :=
  digits.foldl (fun n c => n * 10 + (c.toNat - 48)) 0

/--
A number from its sign, its digits before and after the point and its
exponent. It is an integer when it has neither point nor exponent and fits,
otherwise the significand takes the digits that fit and the rest only count.
-/
def numberOf (negative : Bool) (whole : List Char) (fraction : Option (List Char))
    (exponent : Option Int) : Option Number :=
  let taken := takeDigits 0 whole
  match fraction, exponent, taken.2 with
  | none, none, [] =>
      if !negative then some (.integer taken.1)
      else if 0 < taken.1 ∧ taken.1 ≤ UInt64.size / 2 then some (.integer (-taken.1))
      else (Binary64.ofDecimal true taken.1 0).map .real
  | _, _, _ =>
      let after := takeDigits taken.1 (fraction.getD [])
      let used := (fraction.getD []).length - after.2.length
      let scale : Int := (taken.2.length : Int) - used + exponent.getD 0
      (Binary64.ofDecimal negative after.1 scale).map .real

def readExponent (cs : List Char) : Option (Int × List Char) :=
  let (negative, digits) :=
    match cs with
    | '+' :: rest => (false, rest)
    | '-' :: rest => (true, rest)
    | _ => (false, cs)
  match digitsOf digits with
  | ([], _) => none
  | (ds, rest) => some (if negative then -(exponentValue ds : Int) else exponentValue ds, rest)

def readFraction : List Char → Option (Option (List Char) × List Char)
  | '.' :: rest =>
      match digitsOf rest with
      | ([], _) => none
      | (ds, rest) => some (some ds, rest)
  | cs => some (none, cs)

def readUnsigned (negative : Bool) (cs : List Char) : Option (Option Number × List Char) := do
  let (whole, rest) := digitsOf cs
  if whole.isEmpty || (whole.head? == some '0' && whole.length != 1) then none
  else
    let (fraction, rest) ← readFraction rest
    match rest with
    | 'e' :: rest | 'E' :: rest =>
        let (exponent, rest) ← readExponent rest
        return (numberOf negative whole fraction (some exponent), rest)
    | _ => return (numberOf negative whole fraction none, rest)

/-- The number at the front of the text; one that has no value is none inside. -/
def readNumber : List Char → Option (Option Number × List Char)
  | '-' :: rest => readUnsigned true rest
  | cs => readUnsigned false cs

/-- A value and the text after it, which is none when the text broke off. -/
abbrev Reading :=
  Json × Option (List Char)

def Reading.broken : Reading :=
  (.flawed .cut [], none)

/-- A container at this depth; one too deep has no value. -/
def atDepth (depth : Nat) (reading : Reading) : Reading :=
  if depth ≤ maxDepth then reading
  else
    match reading.2 with
    | some rest => (.flawed .unkept [], some rest)
    | none => .broken

/-- A string or number that was read, or the place where its text broke off. -/
def leaf {α : Type} (make : α → Json) : Option (Option α × List Char) → Reading
  | some (some a, rest) => (make a, some rest)
  | some (none, rest) => (.flawed .unkept [], some rest)
  | none => .broken

mutual

/-- The value at the front of the text, inside `depth` containers. -/
def readValue (depth : Nat) : Nat → List Char → Reading
  | 0, _ => .broken
  | fuel + 1, cs =>
      match skipSpace cs with
      | 'n' :: 'u' :: 'l' :: 'l' :: rest => (.null, some rest)
      | 't' :: 'r' :: 'u' :: 'e' :: rest => (.bool true, some rest)
      | 'f' :: 'a' :: 'l' :: 's' :: 'e' :: rest => (.bool false, some rest)
      | '"' :: rest => leaf .string (readString .start rest)
      | '[' :: rest =>
          match skipSpace rest with
          | ']' :: rest => atDepth (depth + 1) (.array [], some rest)
          | rest =>
              let (items, after) := readItems (depth + 1) fuel rest
              atDepth (depth + 1) (.array items, after)
      | '\x7b' :: rest =>
          match skipSpace rest with
          | '\x7d' :: rest => atDepth (depth + 1) (.object [], some rest)
          | rest => atDepth (depth + 1) (readMembers (depth + 1) fuel [] none rest)
      | cs => leaf .number (readNumber cs)

def readItems (depth : Nat) : Nat → List Char → List Json × Option (List Char)
  | 0, _ => ([.flawed .cut []], none)
  | fuel + 1, cs =>
      match readValue depth fuel cs with
      | (item, none) => ([item], none)
      | (item, some rest) =>
          match skipSpace rest with
          | ']' :: rest => ([item], some rest)
          | ',' :: rest =>
              let (items, after) := readItems depth fuel rest
              (item :: items, after)
          | _ => ([item, .flawed .cut []], none)

/--
The object up to its closing brace, with a name due at the front. `before` holds
the members so far, last first. After a name that has no value, `unkept`
holds the members before it.
-/
def readMembers (depth : Nat) : Nat → List (String × Json) → Option (List (String × Json)) →
    List Char → Reading
  | 0, before, unkept, _ => (.flawed .cut (unkept.getD before.reverse), none)
  | fuel + 1, before, unkept, cs =>
      let cut : Reading := (.flawed .cut (unkept.getD before.reverse), none)
      match skipSpace cs with
      | '"' :: rest =>
          match readString .start rest with
          | none => cut
          | some (name, rest) =>
              let unkept := if name.isNone then some (unkept.getD before.reverse) else unkept
              let (value, after) : Reading :=
                match skipSpace rest with
                | ':' :: rest => readValue depth fuel rest
                | _ => .broken
              let before := (name.getD "", value) :: before
              match after with
              | none =>
                  match unkept with
                  | some members => (.flawed .cut members, none)
                  | none => (.object before.reverse, none)
              | some rest =>
                  match skipSpace rest with
                  | '\x7d' :: rest =>
                      match unkept with
                      | some members => (.flawed .unkept members, some rest)
                      | none => (.object before.reverse, some rest)
                  | ',' :: rest => readMembers depth fuel before unkept rest
                  | _ => (.flawed .cut (unkept.getD before.reverse), none)
      | _ => cut

end

/-- A text read as a document, and whether nothing but white space follows it. -/
structure Document where
  root : Json
  complete : Bool

/-- Every value and every item takes a character at least, so twice the length is fuel enough. -/
def Document.read (text : String) : Document :=
  let cs := text.toList
  match readValue 0 (2 * cs.length + 2) cs with
  | (root, some rest) => ⟨root, (skipSpace rest).isEmpty⟩
  | (root, none) => ⟨root, false⟩

def payloadOf? (text : String) : Option Payload :=
  let document := Document.read text
  if document.complete then Payload.ofJson? document.root else none

end SlidingSync.Json
