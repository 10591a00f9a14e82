import SlidingSync.Identifier
import SlidingSync.Window

/-!
# Decoding faults

Why a JSON document is not a value of the type that was asked for.
-/

namespace SlidingSync

/-- The first fault of a document in reading order. -/
inductive DecodeFault
  /-- No JSON, or JSON of another shape. -/
  | malformed
  | windows (fault : RangesFault)
  | identifier (fault : IdentifierFault)
  deriving DecidableEq, Repr

/-- The fault in words, where it has words of its own. -/
def DecodeFault.message? : DecodeFault → Option String
  | .malformed => none
  | .windows fault => some ("Bad request: " ++ fault.message)
  | .identifier fault => some fault.message

end SlidingSync
