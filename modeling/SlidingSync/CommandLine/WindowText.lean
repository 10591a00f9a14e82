import SlidingSync.Text.Blank
import SlidingSync.Text.Decimal
import SlidingSync.Window

/-!
# Windows as text

A window on the command line is two positions with a dash between them, both included. White
space around either position does not count.
-/

namespace SlidingSync

inductive WindowTextFault
  | noDash (text : String)
  | badFirst (piece : String) (fault : Text.NumeralFault)
  | badLast (piece : String) (fault : Text.NumeralFault)
  | inverted (first last : Nat)
  deriving DecidableEq, Repr

def WindowTextFault.message : WindowTextFault → String
  | .noDash text => "expected start-end, got '" ++ text ++ "'"
  | .badFirst piece fault => "invalid range start '" ++ piece ++ "': " ++ fault.message
  | .badLast piece fault => "invalid range end '" ++ piece ++ "': " ++ fault.message
  | .inverted first last =>
      "range start " ++ toString first ++ " is after end " ++ toString last

namespace Window

/-- One more than the largest position. -/
def positionBound : Nat :=
  UInt64.size

def parsePosition (piece : List Char) : Except Text.NumeralFault Nat :=
  Text.readNumeral positionBound (Text.trim piece)

/-- The window that a text is; the first dash divides it. -/
def parse (text : String) : Except WindowTextFault Window :=
  let cs := text.toList
  let before := cs.takeWhile (· != '-')
  match cs.dropWhile (· != '-') with
  | [] => .error (.noDash text)
  | _ :: after => do
      let first ← (parsePosition before).mapError (.badFirst (String.ofList before))
      let last ← (parsePosition after).mapError (.badLast (String.ofList after))
      if last < first then .error (.inverted first last)
      else return ⟨UInt64.ofNat first, UInt64.ofNat last⟩

end Window

end SlidingSync
