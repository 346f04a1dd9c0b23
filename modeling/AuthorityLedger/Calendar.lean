import AuthorityLedger.Timestamp

/-!
# Calendar dates

Days since the epoch are turned into a year, a month and a day by counting in
cycles of 400 years, or 146097 days, from a first of March, so that a leap day
comes last in its year.

A point in time is shown as date and time of day.  A second is reserved for leap
seconds: nanoseconds that reach a whole second are taken for one at the end of
a minute, and have no place anywhere else.  What cannot be shown that way is
shown as a number.
-/

namespace AuthorityLedger

/-- A day of the Gregorian calendar, which is extended to all years. -/
structure Date where
  year : Int
  month : Nat
  day : Nat
  deriving DecidableEq, Repr

namespace Date

/-- The days of 400 years. -/
def cycleDays : Nat := 146097

/-- The days from the first of March of the year zero to the epoch. -/
def epochOffset : Int := 719468

/-- The year within a cycle that holds a day of the cycle. -/
def yearOfCycle (day : Nat) : Nat :=
  (day - day / 1460 + day / 36524 - day / 146096) / 365

/-- The days of a cycle before one of its years. -/
def daysBefore (year : Nat) : Nat :=
  365 * year + year / 4 - year / 100

/-- The date that is a number of days after the epoch. -/
def ofDays (days : Int) : Date :=
  let shifted := days + epochOffset
  let cycle := Int.fdiv shifted cycleDays
  let dayOfCycle := (Int.fmod shifted cycleDays).toNat
  let year := yearOfCycle dayOfCycle
  let dayOfYear := dayOfCycle - daysBefore year
  -- Months are counted from March; five months have 153 days.
  let shiftedMonth := (5 * dayOfYear + 2) / 153
  let day := dayOfYear - (153 * shiftedMonth + 2) / 5 + 1
  let month := if shiftedMonth < 10 then shiftedMonth + 3 else shiftedMonth - 9
  { year := 400 * cycle + year + if month ≤ 2 then 1 else 0
    month := month
    day := day }

/-- The first and the last year that can be shown. -/
def isShowable (date : Date) : Bool :=
  -262143 ≤ date.year && date.year ≤ 262142

/-- A year in at least four digits; one outside `0..=9999` has a sign. -/
def yearText (year : Int) : String :=
  if 0 ≤ year ∧ year ≤ 9999 then Timestamp.padded 4 year.toNat
  else (if year < 0 then "-" else "+") ++ Timestamp.padded 4 year.natAbs

/-- Year, month and day. -/
def text (date : Date) : String :=
  yearText date.year ++ "-" ++ Timestamp.padded 2 date.month ++ "-" ++ Timestamp.padded 2 date.day

end Date

namespace Timestamp

/-- The seconds of a day. -/
def secondsPerDay : Nat := 86400

/-- The second of the minute that is shown, if the nanoseconds have a place there. -/
def shownSecond? (second nanos : Nat) : Option Nat :=
  if nanos < 1000000000 then some second
  else if nanos < 2000000000 ∧ second = 59 then some 60
  else none

/-- Date and time of day, if there is such a date and time. -/
def civil? (t : Timestamp) : Option String :=
  let date := Date.ofDays (Int.fdiv t.secs.toInt secondsPerDay)
  let time := (Int.fmod t.secs.toInt secondsPerDay).toNat
  match shownSecond? (time % 60) t.nanos.toNat with
  | none => none
  | some second =>
    if date.isShowable then
      some (date.text ++ " " ++ padded 2 (time / 3600) ++ ":" ++ padded 2 (time / 60 % 60) ++ ":" ++
        padded 2 second ++ " UTC")
    else none

/-- Date and time of day, or seconds and nanoseconds where there is no such date and time. -/
def civilText (t : Timestamp) : String :=
  t.civil?.getD t.text

end Timestamp

end AuthorityLedger
