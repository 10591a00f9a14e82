/-!
# Phases of the cache

A cache starts empty, is filled once from storage and takes events from then on.
-/

namespace SlidingSync

inductive Phase
  | uninitialized
  | populating
  | live
  deriving DecidableEq, Repr

def Phase.text : Phase → String
  | .uninitialized => "uninitialized"
  | .populating => "populating"
  | .live => "live"

end SlidingSync
