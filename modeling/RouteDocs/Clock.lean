import RouteDocs.Text.CodePoint

/-!
# Moments

The text of a moment in the calendar of today, as documentation states when it was made.

## Main Definitions

* `Clock.dateOf`: the day, month and year of a day counted from the first of January 1970
* `Clock.momentText`: the text of a moment

## Design Notes

Years are counted from the first of March, so that a leap day is the last day of its year; a cycle
of 400 years has 146097 days.
-/

namespace RouteDocs

namespace Clock

/-- The year, month and day of a day counted from the first of January 1970. -/
def dateOf (day : Nat) : Nat × Nat × Nat :=
  let shifted := day + 719468
  let cycle := shifted / 146097
  let ofCycle := shifted % 146097
  let year := (ofCycle - ofCycle / 1460 + ofCycle / 36524 - ofCycle / 146096) / 365
  let ofYear := ofCycle - (365 * year + year / 4 - year / 100)
  let fromMarch := (5 * ofYear + 2) / 153
  let dayOfMonth := ofYear - (153 * fromMarch + 2) / 5 + 1
  let month := if fromMarch < 10 then fromMarch + 3 else fromMarch - 9
  (400 * cycle + year + (if month ≤ 2 then 1 else 0), month, dayOfMonth)

/-- A number with zeros before it up to a width. -/
def padded (width n : Nat) : Text :=
  let digits := Text.ofNat n
  (List.replicate (width - digits.length) '0' : Text) ++ digits

/-- The text of a moment in universal time, given in microseconds from the start of 1970. -/
def momentText (microseconds : Nat) : Text :=
  let seconds := microseconds / 1000000
  let fraction := microseconds % 1000000
  let (year, month, day) := dateOf (seconds / 86400)
  let time := seconds % 86400
  let date := Text.join "-" [padded 4 year, padded 2 month, padded 2 day]
  let clock := Text.join ":" [padded 2 (time / 3600), padded 2 (time / 60 % 60), padded 2 (time % 60)]
  let rest : Text := if fraction == 0 then [] else '.' :: padded 6 fraction
  date ++ ("T" : Text) ++ clock ++ rest ++ ("Z" : Text)

end Clock

end RouteDocs
