import SlidingSync.Text.Padding

/-!
# Calendar

Dates of the Gregorian calendar from counts of days, and the text of a moment that is given in
milliseconds since the beginning of 1970.
-/

namespace SlidingSync

structure Date where
  year : Nat
  month : Nat
  day : Nat
  deriving DecidableEq, Repr

namespace Date

/-- Days from 1 March of the year nought to 1 January 1970. -/
def epochOffset : Nat :=
  719468

/-- Days in four hundred years, after which the calendar repeats. -/
def eraLength : Nat :=
  146097

/--
The day that comes `days` days after 1 January 1970. Years are counted from
March here, so that the leap day is the last day of its year.
-/
def ofDays (days : Nat) : Date :=
  let count := days + epochOffset
  let dayOfEra := count % eraLength
  let yearOfEra :=
    (dayOfEra - dayOfEra / 1460 + dayOfEra / 36524 - dayOfEra / 146096) / 365
  let dayOfYear := dayOfEra - (365 * yearOfEra + yearOfEra / 4 - yearOfEra / 100)
  let monthFromMarch := (5 * dayOfYear + 2) / 153
  let month := if monthFromMarch < 10 then monthFromMarch + 3 else monthFromMarch - 9
  let year := yearOfEra + count / eraLength * 400
  { year := if month ≤ 2 then year + 1 else year
    month := month
    day := dayOfYear - (153 * monthFromMarch + 2) / 5 + 1 }

/-- The last year that has a text. -/
def lastYear : Nat :=
  262142

/-- Year, month and day; a year of more than four digits has a sign. -/
def text (d : Date) : String :=
  let year := Text.padLeft '0' 4 d.year
  (if 9999 < d.year then "+" ++ year else year) ++ "-" ++ Text.padLeft '0' 2 d.month
    ++ "-" ++ Text.padLeft '0' 2 d.day

/-- Date and time of day of a moment, as far as years have a text. -/
def textOfMillis? (millis : Nat) : Option String :=
  let seconds := millis / 1000
  let date := ofDays (seconds / 86400)
  if lastYear < date.year then none
  else
    let time := seconds % 86400
    some (date.text ++ " " ++ Text.padLeft '0' 2 (time / 3600)
      ++ ":" ++ Text.padLeft '0' 2 (time / 60 % 60) ++ ":" ++ Text.padLeft '0' 2 (time % 60))

end Date

example : Date.textOfMillis? 0 = some "1970-01-01 00:00:00" := by decide +kernel

example : Date.ofDays 19782 = ⟨2024, 2, 29⟩ := by decide

end SlidingSync
