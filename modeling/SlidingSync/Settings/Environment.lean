import SlidingSync.Settings.Setting
import SlidingSync.Text.Blank
import SlidingSync.Toml.Text

/-!
# Settings in the environment

Variables whose names begin with a mark, in upper or lower case, give settings. Their values are
read by a small grammar: truth values, integers, numbers with a point, quoted strings, lists in
brackets and tables in braces. A value that does not fit the grammar as a whole is a string as it
stands.
-/

namespace SlidingSync

abbrev Environment :=
  List (String × String)

namespace Environment

/-- What names of variables with settings begin with. -/
def mark : String :=
  "MATRIXON_"

def isSpace (c : Char) : Bool :=
  c == ' ' || c == '\t' || c == '\n' || c == '\r' || c == '\x0c'

/-- Whether the character ends a bare value. -/
def isSeparator (c : Char) : Bool :=
  c == ',' || c == '\x7b' || c == '\x7d' || c == '[' || c == ']'

def isKeyChar (c : Char) : Bool :=
  c.isAlphanum || c == '_' || c == '-'

def skipSpace (cs : List Char) : List Char :=
  cs.dropWhile isSpace

def splitSign : List Char → Bool × List Char
  | '-' :: rest => (true, rest)
  | '+' :: rest => (false, rest)
  | cs => (false, cs)

/-- The integer that a text is, when it fits into 128 bits. -/
def integer? (cs : List Char) : Option Int :=
  let (negative, digits) := splitSign cs
  if digits.isEmpty || !digits.all Char.isDigit then none
  else
    let n : Nat := digits.foldl (fun n c => n * 10 + (c.toNat - 48)) 0
    if negative then if n ≤ Nat.pow 2 127 then some (-n) else none
    else if n < Nat.pow 2 128 then some n else none

/-- Whether a text is the exponent of a fraction, or nothing. -/
def isExponent : List Char → Bool
  | [] => true
  | 'e' :: rest | 'E' :: rest =>
      let digits := (splitSign rest).2
      !digits.isEmpty && digits.all Char.isDigit
  | _ => false

def isFraction (cs : List Char) : Bool :=
  let unsigned := (splitSign cs).2
  match unsigned.dropWhile Char.isDigit with
  | '.' :: rest =>
      !((unsigned.takeWhile Char.isDigit).isEmpty && (rest.takeWhile Char.isDigit).isEmpty)
        && isExponent (rest.dropWhile Char.isDigit)
  | _ => false

/-- The value of a text without quotes and brackets. -/
def bare (cs : List Char) : Setting :=
  match integer? cs with
  | some n => .integer n
  | none => if isFraction cs then .real (String.ofList cs) else .string (String.ofList cs)

def readKey (cs : List Char) : Option (String × List Char) :=
  match skipSpace cs with
  | '"' :: rest => Toml.readBasic [] rest
  | cs =>
      let name := cs.takeWhile isKeyChar
      if name.isEmpty then none else some (String.ofList name, cs.dropWhile isKeyChar)

mutual

/-- The value at the front of the text, white space around it skipped. -/
def readValue : Nat → List Char → Option (Setting × List Char)
  | 0, _ => none
  | fuel + 1, cs => do
      let (value, rest) ←
        match skipSpace cs with
        | 't' :: 'r' :: 'u' :: 'e' :: rest => some (Setting.bool true, rest)
        | 'f' :: 'a' :: 'l' :: 's' :: 'e' :: rest => some (Setting.bool false, rest)
        | '\x7b' :: rest => do
            let (entries, rest) ← readEntries fuel rest
            return (Setting.table entries, rest)
        | '[' :: rest => do
            let (items, rest) ← readItems fuel rest
            return (Setting.list items, rest)
        | '"' :: rest => (Toml.readBasic [] rest).map fun (s, rest) => (.string s, rest)
        | '\x27' :: rest =>
            match rest with
            | c :: '\x27' :: rest => some (.string (String.singleton c), rest)
            | _ => none
        | cs =>
            some (bare (Text.trim (cs.takeWhile (!isSeparator ·))), cs.dropWhile (!isSeparator ·))
      return (value, skipSpace rest)

def readItems : Nat → List Char → Option (List Setting × List Char)
  | 0, _ => none
  | fuel + 1, cs =>
      match cs with
      | ']' :: rest => some ([], rest)
      | _ => do
          let (item, rest) ← readValue fuel cs
          match rest with
          | ',' :: rest =>
              let (items, rest) ← readItems fuel rest
              return (item :: items, rest)
          | ']' :: rest => return ([item], rest)
          | _ => none

def readEntries : Nat → List Char → Option (List (String × Setting) × List Char)
  | 0, _ => none
  | fuel + 1, cs =>
      match cs with
      | '\x7d' :: rest => some ([], rest)
      | _ => do
          let (key, rest) ← readKey cs
          match skipSpace rest with
          | '=' :: rest =>
              let (value, rest) ← readValue fuel rest
              match rest with
              | ',' :: rest =>
                  let (entries, rest) ← readEntries fuel rest
                  return ((key, value) :: entries, rest)
              | '\x7d' :: rest => return ([(key, value)], rest)
              | _ => none
          | _ => none

end

def setting (text : String) : Setting :=
  let cs := text.toList
  match readValue (2 * cs.length + 2) cs with
  | some (value, []) => value
  | _ => .string text

/-- The parts of the key that a name of a variable stands for, none when it has no setting. -/
def key? (name : String) : Option (List String) :=
  let cs := Text.trim name.toList
  let size := mark.length
  if String.ofList ((cs.take size).map Char.toUpper) ≠ mark then none
  else
    let key := (Text.trim (cs.drop size)).map Char.toLower
    let parts := (String.ofList key).splitOn "."
    if parts.contains "" then none else some parts

/-- The setting of a key with parts, as the value of its first part. -/
def nested (value : Setting) (parts : List String) : Setting :=
  parts.foldr (fun part inner => .table [(part, inner)]) value

def settings (environment : Environment) : Settings :=
  environment.filterMap fun entry =>
    match key? entry.1 with
    | some (first :: parts) => some (first, nested (setting entry.2) parts)
    | _ => none

end Environment

end SlidingSync
