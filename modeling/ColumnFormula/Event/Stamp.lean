/-!
# Stamps

A stamp is a moment of universal time, to the microsecond. Moments are counted from the
beginning of 1970; stamps of years with four digits have one length and are ordered as
texts by the moments that they stand for.
-/

namespace ColumnFormula.Stamp

/-- A number in at least `width` digits. -/
def padded (width n : Nat) : String :=
  let digits := Nat.toDigits 10 n
  String.ofList (List.replicate (width - digits.length) '0' ++ digits)

/-- Days from the first of March of the year zero to the first of January 1970. -/
def daysToEpoch : Nat := 719468

/-- The year, month and day that lie so many days after the first of March of the year zero. -/
def dateOf (days : Nat) : Nat × Nat × Nat :=
  let era := days / 146097
  let dayOfEra := days % 146097
  let yearOfEra := (dayOfEra - dayOfEra / 1460 + dayOfEra / 36524 - dayOfEra / 146096) / 365
  let dayOfYear := dayOfEra - (365 * yearOfEra + yearOfEra / 4 - yearOfEra / 100)
  -- A year that begins in March ends with its leap day, and its months begin every 153 days
  -- for five.
  let month := (5 * dayOfYear + 2) / 153
  let day := dayOfYear - (153 * month + 2) / 5 + 1
  let year := era * 400 + yearOfEra
  if month < 10 then (year, month + 3, day) else (year + 1, month - 9, day)

/-- The stamp of the moment so many microseconds after the beginning of 1970. -/
def ofMicroseconds (n : Nat) : String :=
  let seconds := n / 1000000
  let (year, month, day) := dateOf (seconds / 86400 + daysToEpoch)
  padded 4 year ++ "-" ++ padded 2 month ++ "-" ++ padded 2 day ++ "T" ++
    padded 2 (seconds / 3600 % 24) ++ ":" ++ padded 2 (seconds / 60 % 60) ++ ":" ++
    padded 2 (seconds % 60) ++ "." ++ padded 6 (n % 1000000) ++ "Z"

end ColumnFormula.Stamp
