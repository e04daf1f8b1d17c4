import Provenance.Text.Scan

/-!
Contract: dates and times of day as they occur in settings files.

Owns:
- `Date` and `Clock`, with the test that a date exists;
- the text of each, and the inspected text, which names its parts;
- `Moment.isSame`, when two dates with times are the same moment.

Does **not** own: how a format writes dates and times.
-/

set_option autoImplicit false

namespace Provenance.Data

/-- A day of the calendar. -/
structure Date where
  year : Nat
  month : Nat
  day : Nat
  deriving DecidableEq, Repr

/-- A time of day, and the distance of its zone in minutes. -/
structure Clock where
  hour : Nat
  minute : Nat
  second : Nat
  microsecond : Nat
  zone : Option Int
  deriving DecidableEq, Repr

namespace Moment

/-- A number in decimal digits, at least `width` of them. -/
def padded (width number : Nat) : String :=
  let digits := toString number
  String.ofList (List.replicate (width - digits.length) '0') ++ digits

def isLeapYear (year : Nat) : Bool :=
  year % 4 == 0 && (year % 100 != 0 || year % 400 == 0)

def daysOfMonth (year month : Nat) : Nat :=
  if month = 2 then (if isLeapYear year then 29 else 28)
  else if month = 4 ∨ month = 6 ∨ month = 9 ∨ month = 11 then 30
  else 31

/-- The number of days in the first so many months of a year. -/
def daysOfMonths (year : Nat) : Nat → Nat
  | 0 => 0
  | months + 1 => daysOfMonths year months + daysOfMonth year (months + 1)

end Moment

namespace Date

open Moment (padded daysOfMonth daysOfMonths)

/-- Whether a date is a day of the calendar. -/
def isValid (date : Date) : Bool :=
  1 ≤ date.year && date.year ≤ 9999 && 1 ≤ date.month && date.month ≤ 12 && 1 ≤ date.day &&
    date.day ≤ daysOfMonth date.year date.month

/-- The number of a day, counted from the first day of the first year. -/
def number (date : Date) : Nat :=
  let years := date.year - 1
  365 * years + years / 4 - years / 100 + years / 400 +
    daysOfMonths date.year (date.month - 1) + date.day

def text (date : Date) : String :=
  padded 4 date.year ++ "-" ++ padded 2 date.month ++ "-" ++ padded 2 date.day

def parts (date : Date) : String :=
  toString date.year ++ ", " ++ toString date.month ++ ", " ++ toString date.day

def inspect (date : Date) : String :=
  "datetime.date(" ++ date.parts ++ ")"

end Date

namespace Clock

open Moment (padded)

def isValid (clock : Clock) : Bool :=
  clock.hour < 24 && clock.minute < 60 && clock.second < 60

/-- The microseconds since the day began in the zone of the clock. -/
def microseconds (clock : Clock) : Nat :=
  ((clock.hour * 60 + clock.minute) * 60 + clock.second) * 1000000 + clock.microsecond

def zoneText : Option Int → String
  | none => ""
  | some minutes =>
    let distance := minutes.natAbs
    (if minutes < 0 then "-" else "+") ++ padded 2 (distance / 60) ++ ":" ++
      padded 2 (distance % 60)

def text (clock : Clock) : String :=
  padded 2 clock.hour ++ ":" ++ padded 2 clock.minute ++ ":" ++ padded 2 clock.second ++
    (if clock.microsecond = 0 then "" else "." ++ padded 6 clock.microsecond) ++
    zoneText clock.zone

/-- The inspected text of a zone.  A zone behind the first one is shown as a day less and the
seconds that are then too few. -/
def zoneInspected (minutes : Int) : String :=
  if minutes = 0 then "datetime.timezone.utc"
  else
    let days := if minutes < 0 then "days=-1, " else ""
    let seconds := (minutes % 1440) * 60
    "datetime.timezone(datetime.timedelta(" ++ days ++ "seconds=" ++ toString seconds ++ "))"

/-- The parts of a time of day in one list: seconds and smaller parts only where they count, and
the zone last. -/
def parts (clock : Clock) : String :=
  let numbers :=
    if clock.microsecond ≠ 0 then [clock.hour, clock.minute, clock.second, clock.microsecond]
    else if clock.second ≠ 0 then [clock.hour, clock.minute, clock.second]
    else [clock.hour, clock.minute]
  ", ".intercalate (numbers.map toString) ++
    match clock.zone with
    | some minutes => ", tzinfo=" ++ zoneInspected minutes
    | none => ""

def inspect (clock : Clock) : String :=
  "datetime.time(" ++ clock.parts ++ ")"

end Clock

namespace Moment

/-- The text of a date with a time of day. -/
def text (date : Date) (clock : Clock) : String :=
  date.text ++ " " ++ clock.text

/-- The inspected text of a date with a time of day. -/
def inspect (date : Date) (clock : Clock) : String :=
  "datetime.datetime(" ++ date.parts ++ ", " ++ clock.parts ++ ")"

/-- The microseconds from the beginning of the calendar, of which the first zone is the measure. -/
def instant (date : Date) (clock : Clock) (zone : Int) : Int :=
  (date.number * 1440 - zone) * 60000000 + clock.microseconds

/-- Whether two dates with times are the same moment: where both have zones, the instants count;
with one zone they never are. -/
def isSame (leftDate : Date) (leftClock : Clock) (rightDate : Date) (rightClock : Clock) : Bool :=
  match leftClock.zone, rightClock.zone with
  | some leftZone, some rightZone =>
    instant leftDate leftClock leftZone == instant rightDate rightClock rightZone
  | _, _ => leftDate == rightDate && leftClock == rightClock

end Moment
end Provenance.Data
