/-!
# TOML strings

The characters of TOML documents and the four kinds of strings. A reader gets the text behind the
opening quotes and answers with the string and the text behind the closing ones.
-/

namespace SlidingSync.Toml

def isSpace (c : Char) : Bool :=
  c == ' ' || c == '\t'

/-- Whether the character may stand as it is in a comment or in a string of one line. -/
def isPlain (c : Char) : Bool :=
  c == '\t' || (0x20 ≤ c.toNat && c.toNat != 0x7F)

/-- What a backslash and this character stand for, code points apart. -/
def escaped? (c : Char) : Option Char :=
  if c = '"' ∨ c = '\\' then some c
  else if c = 'b' then some '\x08'
  else if c = 't' then some '\t'
  else if c = 'n' then some '\n'
  else if c = 'f' then some '\x0c'
  else if c = 'r' then some '\r'
  else none

def hexDigit? (c : Char) : Option Nat :=
  if '0' ≤ c ∧ c ≤ '9' then some (c.toNat - 48)
  else if 'a' ≤ c ∧ c ≤ 'f' then some (c.toNat - 87)
  else if 'A' ≤ c ∧ c ≤ 'F' then some (c.toNat - 55)
  else none

def codePoint? (digits : List Char) : Option Char := do
  let code ← digits.foldlM (fun n c => (hexDigit? c).map (n * 16 + ·)) 0
  if code.isValidChar then some (Char.ofNat code) else none

/-- The rest of a basic string of one line; `done` holds its characters so far, last first. -/
def readBasic (done : List Char) : List Char → Option (String × List Char)
  | [] => none
  | '"' :: rest => some (String.ofList done.reverse, rest)
  | '\\' :: 'u' :: a :: b :: c :: d :: rest =>
      match codePoint? [a, b, c, d] with
      | some meant => readBasic (meant :: done) rest
      | none => none
  | '\\' :: 'U' :: a :: b :: c :: d :: e :: f :: g :: h :: rest =>
      match codePoint? [a, b, c, d, e, f, g, h] with
      | some meant => readBasic (meant :: done) rest
      | none => none
  | '\\' :: c :: rest =>
      match escaped? c with
      | some meant => readBasic (meant :: done) rest
      | none => none
  | c :: rest => if isPlain c && c != '\\' then readBasic (c :: done) rest else none

def readLiteral (done : List Char) : List Char → Option (String × List Char)
  | [] => none
  | '\x27' :: rest => some (String.ofList done.reverse, rest)
  | c :: rest => if isPlain c then readLiteral (c :: done) rest else none

/--
Where a basic string of many lines stands: within its text, behind a backslash
that ends a line, or in the blank that such a backslash takes away.
-/
inductive Passage
  | text
  | lineEnd
  | blank
  deriving DecidableEq

/-- The rest of a basic string of many lines. Up to two quotes may stand before the closing ones. -/
def readLongBasic (passage : Passage) (done : List Char) :
    List Char → Option (String × List Char)
  | [] => none
  | '"' :: '"' :: '"' :: '"' :: '"' :: rest =>
      if passage = .lineEnd then none
      else some (String.ofList ('"' :: '"' :: done).reverse, rest)
  | '"' :: '"' :: '"' :: '"' :: rest =>
      if passage = .lineEnd then none else some (String.ofList ('"' :: done).reverse, rest)
  | '"' :: '"' :: '"' :: rest =>
      if passage = .lineEnd then none else some (String.ofList done.reverse, rest)
  | '\\' :: 'u' :: a :: b :: c :: d :: rest =>
      match passage, codePoint? [a, b, c, d] with
      | .lineEnd, _ => none
      | _, some meant => readLongBasic .text (meant :: done) rest
      | _, none => none
  | '\\' :: 'U' :: a :: b :: c :: d :: e :: f :: g :: h :: rest =>
      match passage, codePoint? [a, b, c, d, e, f, g, h] with
      | .lineEnd, _ => none
      | _, some meant => readLongBasic .text (meant :: done) rest
      | _, none => none
  | '\\' :: '\r' :: '\n' :: rest =>
      if passage = .lineEnd then none else readLongBasic .blank done rest
  | '\\' :: c :: rest =>
      if passage = .lineEnd then none
      else if c = '\n' then readLongBasic .blank done rest
      else if isSpace c then readLongBasic .lineEnd done rest
      else
        match escaped? c with
        | some meant => readLongBasic .text (meant :: done) rest
        | none => none
  | '\r' :: '\n' :: rest =>
      if passage = .text then readLongBasic .text ('\n' :: done) rest
      else readLongBasic .blank done rest
  | c :: rest =>
      if c = '\n' then
        if passage = .text then readLongBasic .text ('\n' :: done) rest
        else readLongBasic .blank done rest
      else if isSpace c && passage != .text then readLongBasic passage done rest
      else if passage = .lineEnd then none
      else if isPlain c && c != '\\' then readLongBasic .text (c :: done) rest
      else none

def readLongLiteral (done : List Char) : List Char → Option (String × List Char)
  | [] => none
  | '\x27' :: '\x27' :: '\x27' :: '\x27' :: '\x27' :: rest =>
      some (String.ofList ('\x27' :: '\x27' :: done).reverse, rest)
  | '\x27' :: '\x27' :: '\x27' :: '\x27' :: rest =>
      some (String.ofList ('\x27' :: done).reverse, rest)
  | '\x27' :: '\x27' :: '\x27' :: rest => some (String.ofList done.reverse, rest)
  | '\r' :: '\n' :: rest => readLongLiteral ('\n' :: done) rest
  | c :: rest => if c = '\n' || isPlain c then readLongLiteral (c :: done) rest else none

def dropBreak : List Char → List Char
  | '\n' :: rest => rest
  | '\r' :: '\n' :: rest => rest
  | cs => cs

def readString : List Char → Option (String × List Char)
  | '"' :: '"' :: '"' :: rest => readLongBasic .text [] (dropBreak rest)
  | '\x27' :: '\x27' :: '\x27' :: rest => readLongLiteral [] (dropBreak rest)
  | '"' :: rest => readBasic [] rest
  | '\x27' :: rest => readLiteral [] rest
  | _ => none

end SlidingSync.Toml
