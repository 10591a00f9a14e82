/-!
# Padding

Numbers in columns of a fixed width.
-/

namespace SlidingSync.Text

/-- The decimal text of a number, filled up on the left to `width` characters. -/
def padLeft (fill : Char) (width n : Nat) : String :=
  let digits := (toString n).toList
  String.ofList (List.replicate (width - digits.length) fill ++ digits)

end SlidingSync.Text
