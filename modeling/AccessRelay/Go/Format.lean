import AccessRelay.Go.Time

/-!
# Instants as text

`t.UTC().Format(time.RFC3339)`, with the proleptic Gregorian calendar of the library. Years count
from March, so that the day a leap year adds is the last of its year.
-/

namespace AccessRelay.Go

/-- A number in at least so many digits. -/
def padded (width n : Nat) : String :=
  let digits := toString n
  String.ofList (List.replicate (width - digits.length) '0') ++ digits

/-- A year: the sign is not one of its digits. -/
def paddedYear (year : Int) : String :=
  (if year < 0 then "-" else "") ++ padded 4 year.natAbs

namespace Time

/-- Year, month and day of the instant. -/
def date (t : Time) : Int × Nat × Nat :=
  -- from 1 March of year 0, which is 306 days before the zero instant
  let day := t.sec.toInt / 86400 + 306
  let era := day / 146097
  let ofEra := (day % 146097).toNat
  let yearOfEra := (ofEra - ofEra / 1460 + ofEra / 36524 - ofEra / 146096) / 365
  let ofYear := ofEra - (365 * yearOfEra + yearOfEra / 4 - yearOfEra / 100)
  let month := (5 * ofYear + 2) / 153
  let year := era * 400 + yearOfEra
  let dayOfMonth := ofYear - (153 * month + 2) / 5 + 1
  if month < 10 then (year, month + 3, dayOfMonth) else (year + 1, month - 9, dayOfMonth)

/-- Hour, minute and second of the instant. -/
def clock (t : Time) : Nat × Nat × Nat :=
  let s := (t.sec.toInt % 86400).toNat
  (s / 3600, s / 60 % 60, s % 60)

/-- `t.UTC().Format(time.RFC3339)`. -/
def rfc3339 (t : Time) : String :=
  let (year, month, day) := t.date
  let (h, m, s) := t.clock
  paddedYear year ++ "-" ++ padded 2 month ++ "-" ++ padded 2 day ++ "T" ++ padded 2 h ++ ":" ++
    padded 2 m ++ ":" ++ padded 2 s ++ "Z"

example : (ofUnix 1709210096).date = (2024, 2, 29) := by decide
example : (ofUnix 951868799).clock = (23, 59, 59) := by decide

end Time

end AccessRelay.Go
