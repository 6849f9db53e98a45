/-! # Dates and times

A moment is a number of seconds since the start of 1970 in universal time. Dates are those of
the Gregorian calendar, which repeats every 400 years.
-/

namespace DecisionTable

/-- A moment in parts. -/
structure Timestamp where
  year : Int
  month : Nat
  day : Nat
  hour : Nat
  minute : Nat
  second : Nat
  deriving DecidableEq, Repr

namespace Timestamp

/-- The date of a day. The count starts at 1970; the calculation counts days from the first of March
    of the year zero, so that a leap day ends its year. -/
def dateOfDay (day : Int) : Int × Nat × Nat :=
  let shifted := day + 719468
  let era := shifted.fdiv 146097
  let dayOfEra := (shifted.fmod 146097).toNat
  let yearOfEra := (dayOfEra - dayOfEra / 1460 + dayOfEra / 36524 - dayOfEra / 146096) / 365
  let dayOfYear := dayOfEra - (365 * yearOfEra + yearOfEra / 4 - yearOfEra / 100)
  let marchMonth := (5 * dayOfYear + 2) / 153
  let month := if marchMonth < 10 then marchMonth + 3 else marchMonth - 9
  let year := yearOfEra + era * 400 + (if month ≤ 2 then 1 else 0)
  (year, month, dayOfYear - (153 * marchMonth + 2) / 5 + 1)

/-- The parts of a moment. -/
def ofSeconds (seconds : Int) : Timestamp :=
  let (year, month, day) := dateOfDay (seconds.fdiv 86400)
  let rest := (seconds.fmod 86400).toNat
  ⟨year, month, day, rest / 3600, rest / 60 % 60, rest % 60⟩

/-- A number with zeros before it up to a width. -/
def zeroPadded (width n : Nat) : String :=
  let digits := toString n
  "".pushn '0' (width - digits.length) ++ digits

/-- A year: four digits, and a sign outside of 0 to 9999. -/
def yearText (year : Int) : String :=
  if 0 ≤ year ∧ year ≤ 9999 then zeroPadded 4 year.toNat
  else (if year < 0 then "-" else "+") ++ zeroPadded 4 year.natAbs

/-- Year, month and day with hyphens. -/
def date (t : Timestamp) : String :=
  s!"{yearText t.year}-{zeroPadded 2 t.month}-{zeroPadded 2 t.day}"

/-- Date and time to the minute. -/
def minutes (t : Timestamp) : String := s!"{t.date} {zeroPadded 2 t.hour}:{zeroPadded 2 t.minute}"

/-- The moment in the form of RFC 3339. -/
def rfc3339 (t : Timestamp) : String :=
  s!"{t.date}T{zeroPadded 2 t.hour}:{zeroPadded 2 t.minute}:{zeroPadded 2 t.second}Z"

end Timestamp

end DecisionTable
