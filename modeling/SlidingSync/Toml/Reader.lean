import SlidingSync.Toml.Scalar
import SlidingSync.Toml.Text
import SlidingSync.Toml.Tree

/-!
# Reading TOML

`Toml.parse` gives the table that a TOML document denotes, or none when the text is no TOML
document. Keys and containers nest at most `maxDepth` deep.
-/

namespace SlidingSync.Toml

def maxDepth : Nat :=
  79

def skipSpace (cs : List Char) : List Char :=
  cs.dropWhile isSpace

/-- The text behind blanks, line breaks and comments; `comment` says whether it begins in one. -/
def skipGap (comment : Bool) : List Char → Option (List Char)
  | [] => some []
  | '\r' :: '\n' :: rest => skipGap false rest
  | c :: rest =>
      if c = '\n' then skipGap false rest
      else if comment then if isPlain c then skipGap true rest else none
      else if isSpace c then skipGap false rest
      else if c = '#' then skipGap true rest
      else some (c :: rest)

def skipComment : List Char → Option (List Char)
  | [] => some []
  | '\r' :: '\n' :: rest => some rest
  | c :: rest =>
      if c = '\n' then some rest else if isPlain c then skipComment rest else none

/-- The text of the next line, when nothing but blanks and a comment is left of this one. -/
def endLine (cs : List Char) : Option (List Char) :=
  match skipSpace cs with
  | [] => some []
  | '\n' :: rest => some rest
  | '\r' :: '\n' :: rest => some rest
  | '#' :: rest => skipComment rest
  | _ => none

def isKeyChar (c : Char) : Bool :=
  c.isAlphanum || c == '_' || c == '-'

def readKeyPart (cs : List Char) : Option (String × List Char) :=
  match cs with
  | '"' :: rest => readBasic [] rest
  | '\x27' :: rest => readLiteral [] rest
  | _ =>
      let name := cs.takeWhile isKeyChar
      if name.isEmpty then none else some (String.ofList name, cs.dropWhile isKeyChar)

/-- The parts of a key and the text behind it, blanks skipped. -/
def readKeyParts : Nat → List Char → Option (List String × List Char)
  | 0, _ => none
  | fuel + 1, cs => do
      let (part, rest) ← readKeyPart (skipSpace cs)
      match skipSpace rest with
      | '.' :: rest =>
          let (parts, rest) ← readKeyParts fuel rest
          return (part :: parts, rest)
      | rest => return ([part], rest)

/-- A key: the tables on its way, its last part, and the text behind it. -/
def readKey (cs : List Char) : Option (List String × String × List Char) := do
  let (parts, rest) ← readKeyParts (cs.length + 1) cs
  if maxDepth < parts.length then none else return (parts.dropLast, ← parts.getLast?, rest)

def isWordChar (c : Char) : Bool :=
  c.isAlphanum || c == '_' || c == '-' || c == '+' || c == '.' || c == ':'

/-- The number, moment or truth value at the front; a blank may part a date from a time. -/
def readScalar (cs : List Char) : Option (Setting × List Char) :=
  let word := cs.takeWhile isWordChar
  let rest := cs.dropWhile isWordChar
  let longer :=
    match rest with
    | ' ' :: more =>
        let time := more.takeWhile isWordChar
        if isDate word && isOffsetTime time then
          some (Setting.moment (String.ofList (word ++ ' ' :: time)), more.dropWhile isWordChar)
        else none
    | _ => none
  longer.or ((scalar? word).map fun value => (value, rest))

mutual

/-- The value at the front of the text, inside `depth` containers. -/
def readValue (depth : Nat) : Nat → List Char → Option (Setting × List Char)
  | 0, _ => none
  | fuel + 1, cs =>
      match cs with
      | '"' :: _ | '\x27' :: _ => (readString cs).map fun (s, rest) => (.string s, rest)
      | '[' :: rest =>
          if maxDepth ≤ depth then none
          else do
            let (items, rest) ← readItems (depth + 1) fuel rest
            return (.list items, rest)
      | '\x7b' :: rest =>
          if maxDepth ≤ depth then none
          else
            match skipSpace rest with
            | '\x7d' :: rest => some (.table [], rest)
            | rest => do
                let (entries, rest) ← readPairs (depth + 1) fuel [] rest
                return (.table (Node.settings entries), rest)
      | _ => readScalar cs

def readItems (depth : Nat) : Nat → List Char → Option (List Setting × List Char)
  | 0, _ => none
  | fuel + 1, cs => do
      match ← skipGap false cs with
      | ']' :: rest => return ([], rest)
      | cs =>
          let (item, rest) ← readValue depth fuel cs
          match ← skipGap false rest with
          | ']' :: rest => return ([item], rest)
          | ',' :: rest =>
              let (items, rest) ← readItems depth fuel rest
              return (item :: items, rest)
          | _ => none

/-- The pairs of an inline table up to its closing brace, added to those before. -/
def readPairs (depth : Nat) : Nat → Node.Entries → List Char → Option (Node.Entries × List Char)
  | 0, _, _ => none
  | fuel + 1, entries, cs => do
      let (path, key, rest) ← readKey cs
      match rest with
      | '=' :: rest =>
          let (value, rest) ← readValue depth fuel (skipSpace rest)
          let entries ← Node.putValue entries path key value
          match skipSpace rest with
          | '\x7d' :: rest => return (entries, rest)
          | ',' :: rest => readPairs depth fuel entries rest
          | _ => none
      | _ => none

end

/-- A document as far as it has been read: its tables, and the path of the open one. -/
structure Draft where
  root : Node.Entries := []
  path : List String := []

namespace Draft

def putValue (d : Draft) (path : List String) (key : String) (value : Setting) : Option Draft := do
  let root ←
    Node.update .implied (fun _ entries => Node.putValue entries path key value) .header d.path
      d.root
  return { d with root := root }

def openTable (d : Draft) (path : List String) (key : String) : Option Draft := do
  return ⟨← Node.openTable d.root path key, path ++ [key]⟩

def addTable (d : Draft) (path : List String) (key : String) : Option Draft := do
  return ⟨← Node.addTable d.root path key, path ++ [key]⟩

end Draft

/-- The draft after the first line of a text that is not empty, and the text of the next line. -/
def readLine (d : Draft) (cs : List Char) : Option (Draft × List Char) :=
  match cs with
  | '[' :: '[' :: rest => do
      let (path, key, rest) ← readKey rest
      match rest with
      | ']' :: ']' :: rest => return (← d.addTable path key, ← endLine rest)
      | _ => none
  | '[' :: rest => do
      let (path, key, rest) ← readKey rest
      match rest with
      | ']' :: rest => return (← d.openTable path key, ← endLine rest)
      | _ => none
  | _ => do
      let (path, key, rest) ← readKey cs
      match rest with
      | '=' :: rest =>
          let (value, rest) ← readValue 0 (2 * rest.length + 2) (skipSpace rest)
          return (← d.putValue path key value, ← endLine rest)
      | _ => none

def readLines : Nat → Draft → List Char → Option Draft
  | 0, _, _ => none
  | fuel + 1, d, cs => do
      match ← skipGap false cs with
      | [] => return d
      | cs =>
          let (d, rest) ← readLine d cs
          readLines fuel d rest

/-- The table that a document denotes. A byte order mark may stand before it. -/
def parse (text : String) : Option Settings := do
  let cs :=
    match text.toList with
    | '\ufeff' :: rest => rest
    | cs => cs
  let d ← readLines (cs.length + 1) {} cs
  return Node.settings d.root

end SlidingSync.Toml
