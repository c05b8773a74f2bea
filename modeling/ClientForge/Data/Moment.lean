/-
# ClientForge.Data.Moment -- calendar dates and times of day

A document may hold a bare date or a date with a time of day, the latter with or without an
offset from universal time.  Both are written in ISO form, and part by part inside a list
or a map that a message shows.  What the calendar or the clock does not have is refused with
the first part that is wrong (`fault?`).
-/

namespace ClientForge

set_option autoImplicit false

/-- A day of the calendar. -/
structure CalendarDate where
  year : Nat
  month : Nat
  day : Nat
  deriving DecidableEq, Inhabited

/-- A time of a day; `offset` is the distance from universal time in minutes. -/
structure Moment where
  date : CalendarDate
  hour : Nat
  minute : Nat
  second : Nat
  micro : Nat
  offset : Option Int
  deriving DecidableEq, Inhabited

/-- A number with zeros in front, up to a width. -/
def paddedDigits (width n : Nat) : String :=
  let digits := Nat.toDigits 10 n
  String.ofList (List.replicate (width - digits.length) '0' ++ digits)

/-- The minutes of a day. -/
def minutesOfDay : Nat := 24 * 60

/-- The parts of a stretch of time that a message names: whole days, rounded down, and the
seconds that are left; a part that is zero is left out. -/
def durationText (minutes : Int) : String :=
  let part (name : String) (n : Int) : List String :=
    if n = 0 then [] else [name ++ "=" ++ toString n]
  let parts := part "days" (minutes / minutesOfDay) ++ part "seconds" (minutes % minutesOfDay * 60)
  "datetime.timedelta(" ++ (if parts.isEmpty then "0" else String.intercalate ", " parts) ++ ")"

/-- Why a date or a time does not exist. -/
inductive MomentFault where
  | year (year : Nat)
  | month
  | day
  | hour
  | minute
  | second
  | offset (minutes : Int)
  deriving DecidableEq

def MomentFault.message : MomentFault → String
  | .year n => "year " ++ toString n ++ " is out of range"
  | .month => "month must be in 1..12"
  | .day => "day is out of range for month"
  | .hour => "hour must be in 0..23"
  | .minute => "minute must be in 0..59"
  | .second => "second must be in 0..59"
  | .offset minutes =>
    "offset must be a timedelta strictly between -timedelta(hours=24) and " ++
      "timedelta(hours=24), not " ++ durationText minutes ++ "."

namespace CalendarDate

/-- A year of 366 days. -/
def isLeapYear (year : Nat) : Bool :=
  year % 4 == 0 && (year % 100 != 0 || year % 400 == 0)

def daysIn (year month : Nat) : Nat :=
  if month = 2 then (if isLeapYear year then 29 else 28)
  else if month = 4 ∨ month = 6 ∨ month = 9 ∨ month = 11 then 30
  else 31

/-- Why a date is not in the calendar, which begins with the year one. -/
def fault? (d : CalendarDate) : Option MomentFault :=
  if d.year = 0 ∨ 9999 < d.year then some (.year d.year)
  else if d.month = 0 ∨ 12 < d.month then some .month
  else if d.day = 0 ∨ daysIn d.year d.month < d.day then some .day
  else none

/-- The number of a day, counted from the first day of the year one. -/
def dayNumber (d : CalendarDate) : Nat :=
  let before := d.year - 1
  let months := (List.range (d.month - 1)).foldl (fun days m => days + daysIn d.year (m + 1)) 0
  before * 365 + before / 4 - before / 100 + before / 400 + months + d.day

def text (d : CalendarDate) : String :=
  paddedDigits 4 d.year ++ "-" ++ paddedDigits 2 d.month ++ "-" ++ paddedDigits 2 d.day

/-- The parts of a date, as a message names them. -/
def partsText (d : CalendarDate) : String :=
  "datetime.date(" ++ toString d.year ++ ", " ++ toString d.month ++ ", " ++ toString d.day ++ ")"

end CalendarDate

namespace Moment

/-- Why a time does not exist; its offset is looked at first, then its date. -/
def fault? (m : Moment) : Option MomentFault :=
  match m.offset.filter fun minutes => minutesOfDay ≤ minutes.natAbs with
  | some minutes => some (.offset minutes)
  | none =>
    m.date.fault?.or
      (if 24 ≤ m.hour then some .hour
      else if 60 ≤ m.minute then some .minute
      else if 60 ≤ m.second then some .second
      else none)

/-- The time in millionths of a second, as universal time if the offset is known. -/
def instant (m : Moment) : Int :=
  ((((m.date.dayNumber * 24 + m.hour : Nat) : Int) * 60 + m.minute - m.offset.getD 0) * 60 +
    m.second) * 1000000 + m.micro

/-- Two times are the same if they are the same instant; a time without an offset is never
the same as one with an offset. -/
def same (a b : Moment) : Bool :=
  a.offset.isSome == b.offset.isSome && a.instant == b.instant

/-- The offset from universal time as sign, hours and minutes. -/
def offsetText (minutes : Int) : String :=
  (if minutes < 0 then "-" else "+") ++ paddedDigits 2 (minutes.natAbs / 60) ++ ":" ++
    paddedDigits 2 (minutes.natAbs % 60)

/-- Date and time of day with the given text between them; a fraction of a second is
written with six digits, and only if there is one. -/
def textWith (between : String) (m : Moment) : String :=
  m.date.text ++ between ++ paddedDigits 2 m.hour ++ ":" ++ paddedDigits 2 m.minute ++ ":" ++
    paddedDigits 2 m.second ++ (if m.micro = 0 then "" else "." ++ paddedDigits 6 m.micro) ++
    (m.offset.map offsetText).getD ""

/-- The distance from universal time, as a message names it. -/
def zoneText (minutes : Int) : String :=
  if minutes = 0 then "datetime.timezone.utc"
  else "datetime.timezone(" ++ durationText minutes ++ ")"

/-- The parts of a time, as a message names them: seconds and their fraction only if they or
something behind them is not zero. -/
def partsText (m : Moment) : String :=
  let clock :=
    if m.micro ≠ 0 then [m.hour, m.minute, m.second, m.micro]
    else if m.second ≠ 0 then [m.hour, m.minute, m.second]
    else [m.hour, m.minute]
  let zone := (m.offset.map fun minutes => "tzinfo=" ++ zoneText minutes).toList
  "datetime.datetime(" ++
    String.intercalate ", "
      (([m.date.year, m.date.month, m.date.day] ++ clock).map toString ++ zone) ++ ")"

end Moment

end ClientForge
