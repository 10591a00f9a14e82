/-!
# Settings

Values that the sources of a configuration give, and tables of them. A table may give a key more
than once; what it gives last counts.
-/

namespace SlidingSync

/-- A value that a source gives. Fractions and moments stand as they were written. -/
inductive Setting
  | bool (value : Bool)
  | integer (value : Int)
  | real (written : String)
  | moment (written : String)
  | string (value : String)
  | list (items : List Setting)
  | table (entries : List (String × Setting))
  deriving Repr, Inhabited

abbrev Settings :=
  List (String × Setting)

namespace Settings

def get? (s : Settings) (key : String) : Option Setting :=
  s.reverse.lookup key

/-- Both tables; where both give a key the second counts. -/
def overriddenBy (lower upper : Settings) : Settings :=
  lower ++ upper

end Settings

end SlidingSync
