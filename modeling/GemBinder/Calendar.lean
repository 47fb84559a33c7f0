/-! # Calendar dates

    The date and the time of day of a moment that is counted in seconds from
    the beginning of the year 1970, in universal time. -/

namespace GemBinder

/-- A date of the calendar. -/
structure Date where
  year : Nat
  month : Nat
  day : Nat
deriving Repr, DecidableEq

/-- The date of a day, counted from the beginning of 1970.  Years are taken
    to begin in March, so that the leap day is the last day of a year, and
    are counted in cycles of four hundred. -/
def Date.ofDay (n : Nat) : Date :=
  let n := n + 719468
  let dayOfCycle := n % 146097
  let yearOfCycle :=
    (dayOfCycle - dayOfCycle / 1460 + dayOfCycle / 36524 - dayOfCycle / 146096) / 365
  let dayOfYear := dayOfCycle - (365 * yearOfCycle + yearOfCycle / 4 - yearOfCycle / 100)
  let m := (5 * dayOfYear + 2) / 153
  let month := if m < 10 then m + 3 else m - 9
  { year := n / 146097 * 400 + yearOfCycle + (if month ≤ 2 then 1 else 0)
    month := month
    day := dayOfYear - (153 * m + 2) / 5 + 1 }

/-- A number with zeros in front up to a width. -/
def padded (width n : Nat) : String :=
  let digits := toString n
  String.ofList (List.replicate (width - digits.length) '0') ++ digits

/-- A date as it is written. -/
def Date.toString (d : Date) : String :=
  padded 4 d.year ++ "-" ++ padded 2 d.month ++ "-" ++ padded 2 d.day

/-- The time of day of a second of a day. -/
def timeOfDay (seconds : Nat) : String :=
  padded 2 (seconds / 3600) ++ ":" ++ padded 2 (seconds / 60 % 60) ++ ":" ++
    padded 2 (seconds % 60)

/-- A moment as it is written, with its fraction of a second, if it has one,
    in universal time. -/
def timestamp (seconds micros : Nat) : String :=
  let fraction := if micros == 0 then "" else "." ++ padded 6 micros
  (Date.ofDay (seconds / 86400)).toString ++ "T" ++ timeOfDay (seconds % 86400) ++ fraction ++
    "+00:00"

example : timestamp 951782400 0 = "2000-02-29T00:00:00+00:00" := by decide +kernel

end GemBinder
