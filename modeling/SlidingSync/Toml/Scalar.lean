import SlidingSync.Json.Binary64
import SlidingSync.Settings.Setting

/-!
# TOML scalars

Which words are truth values, integers, fractions and moments. `scalar?` gives the value of a word
that is one of them.
-/

namespace SlidingSync.Toml

/-- Whether the digits are separated by single underscores, if at all. -/
def isGrouped (isDigit : Char → Bool) : List Char → Bool
  | [] => false
  | [c] => isDigit c
  | c :: '_' :: rest => isDigit c && isGrouped isDigit rest
  | c :: rest => isDigit c && isGrouped isDigit rest

def digitValue (c : Char) : Nat :=
  if c.isDigit then c.toNat - 48 else c.toLower.toNat - 87

def groupValue (base : Nat) (cs : List Char) : Nat :=
  (cs.filter (· != '_')).foldl (fun n c => n * base + digitValue c) 0

/-- Whether the digits are a whole number without leading noughts. -/
def isWhole (cs : List Char) : Bool :=
  cs == ['0'] || (isGrouped Char.isDigit cs && cs.head? != some '0')

/-- A sign and what follows it; no sign is a plus. -/
def splitSign : List Char → Bool × List Char
  | '-' :: rest => (true, rest)
  | '+' :: rest => (false, rest)
  | cs => (false, cs)

/-- An integer that fits into 64 bits with its sign. -/
def bounded? (n : Int) : Option Setting :=
  if Int64.minValue.toInt ≤ n ∧ n ≤ Int64.maxValue.toInt then some (.integer n) else none

/-- An integer in a base with a mark of its own. -/
def based? (base : Nat) (isDigit : Char → Bool) (digits : List Char) : Option Setting :=
  if isGrouped isDigit digits then bounded? (groupValue base digits) else none

def isHexDigit (c : Char) : Bool :=
  c.isDigit || ('a' ≤ c && c ≤ 'f') || ('A' ≤ c && c ≤ 'F')

def integer? (cs : List Char) : Option Setting :=
  match cs with
  | '0' :: 'x' :: digits => based? 16 isHexDigit digits
  | '0' :: 'o' :: digits => based? 8 (fun c => '0' ≤ c && c ≤ '7') digits
  | '0' :: 'b' :: digits => based? 2 (fun c => c == '0' || c == '1') digits
  | _ =>
      let (negative, digits) := splitSign cs
      if isWhole digits then
        let n : Int := groupValue 10 digits
        bounded? (if negative then -n else n)
      else none

/-- Whether `significand * 10 ^ exponent` is too large for a finite number. -/
def overflows (significand : Nat) (exponent : Int) : Bool :=
  let size : Int := (toString significand).length + exponent
  if significand = 0 ∨ size < 300 then false
  else if 320 < size then true
  else
    let scaled := Binary64.scaleTen significand 1 exponent
    (Binary64.nearest scaled.1 scaled.2 0).isNone

def exponent? (cs : List Char) : Option Int :=
  let (negative, digits) := splitSign cs
  if isGrouped Char.isDigit digits then
    let n : Int := groupValue 10 digits
    some (if negative then -n else n)
  else none

/-- The digits behind a point and the exponent; one of them has to be there. -/
def fraction? (cs : List Char) : Option (List Char × Int) :=
  match cs with
  | '.' :: rest =>
      let digits := rest.takeWhile fun c => c.isDigit || c == '_'
      if !isGrouped Char.isDigit digits then none
      else
        match rest.dropWhile fun c => c.isDigit || c == '_' with
        | [] => some (digits, 0)
        | 'e' :: rest | 'E' :: rest => (exponent? rest).map fun e => (digits, e)
        | _ => none
  | 'e' :: rest | 'E' :: rest => (exponent? rest).map fun e => ([], e)
  | _ => none

/-- Whether the word is a fraction. Only positive numbers can be too large. -/
def isReal (cs : List Char) : Bool :=
  let (negative, unsigned) := splitSign cs
  unsigned == ['i', 'n', 'f'] || unsigned == ['n', 'a', 'n'] ||
    let whole := unsigned.takeWhile fun c => c.isDigit || c == '_'
    match isWhole whole, fraction? (unsigned.dropWhile fun c => c.isDigit || c == '_') with
    | true, some (digits, exponent) =>
        let places := (digits.filter (· != '_')).length
        negative || !overflows (groupValue 10 (whole ++ digits)) (exponent - places)
    | _, _ => false

def plain? (cs : List Char) : Option Nat :=
  if !cs.isEmpty && cs.all Char.isDigit then some (groupValue 10 cs) else none

def daysOf (year month : Nat) : Nat :=
  if month = 2 then
    if year % 4 = 0 ∧ (year % 100 ≠ 0 ∨ year % 400 = 0) then 29 else 28
  else if month = 4 ∨ month = 6 ∨ month = 9 ∨ month = 11 then 30
  else 31

def isDate (cs : List Char) : Bool :=
  match cs with
  | [a, b, c, d, '-', e, f, '-', g, h] =>
      match plain? [a, b, c, d], plain? [e, f], plain? [g, h] with
      | some year, some month, some day =>
          1 ≤ month && month ≤ 12 && 1 ≤ day && day ≤ daysOf year month
      | _, _, _ => false
  | _ => false

def isHourMinute (cs : List Char) : Bool :=
  match cs with
  | [a, b, ':', c, d] =>
      match plain? [a, b], plain? [c, d] with
      | some hour, some minute => hour < 24 && minute < 60
      | _, _ => false
  | _ => false

/-- Whether the word is a time of day, with or without a part of a second. -/
def isTime (cs : List Char) : Bool :=
  isHourMinute (cs.take 5) &&
    match cs.drop 5 with
    | [':', a, b] => (plain? [a, b]).any (· ≤ 60)
    | ':' :: a :: b :: '.' :: digits => (plain? [a, b]).any (· ≤ 60) && (plain? digits).isSome
    | _ => false

/-- Whether the word is a time of day with or without an offset. -/
def isOffsetTime (cs : List Char) : Bool :=
  let isMark (c : Char) : Bool := c == 'Z' || c == 'z' || c == '+' || c == '-'
  isTime (cs.takeWhile fun c => !isMark c) &&
    match cs.dropWhile fun c => !isMark c with
    | [] => true
    | 'Z' :: rest | 'z' :: rest => rest.isEmpty
    | _ :: rest => isHourMinute rest

/-- Whether the word is a date and a time of day with a letter between them. -/
def isDateTime (cs : List Char) : Bool :=
  isDate (cs.take 10) &&
    match cs.drop 10 with
    | 'T' :: time | 't' :: time => isOffsetTime time
    | _ => false

def scalar? (cs : List Char) : Option Setting :=
  if cs == "true".toList then some (.bool true)
  else if cs == "false".toList then some (.bool false)
  else if isDate cs || isTime cs || isDateTime cs then some (.moment (String.ofList cs))
  else
    match integer? cs with
    | some n => some n
    | none => if isReal cs then some (.real (String.ofList cs)) else none

end SlidingSync.Toml
