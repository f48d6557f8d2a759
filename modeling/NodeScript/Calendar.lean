import NodeScript.Text.Hex

/-!
# Dates and moments

Dates of the proleptic Gregorian calendar in the years 1 to 9999, and moments: a date with a time of
day in microseconds and, where it is known, the distance from universal time in seconds.
-/

namespace NodeScript

/-- A calendar date. -/
structure Date where
  year : Nat
  month : Nat
  day : Nat
deriving DecidableEq, Inhabited

/-- A date with a time of day; `offset` is the distance from universal time in seconds. -/
structure Moment where
  date : Date
  hour : Nat
  minute : Nat
  second : Nat
  micro : Nat
  offset : Option Int
deriving DecidableEq, Inhabited

/-- Why numbers do not make a date or a moment. -/
inductive CalendarFault where
  | year (n : Nat)
  | month
  | day
  | hour
  | minute
  | second
  /-- The distance from universal time, in seconds, reaches a whole day. -/
  | offset (seconds : Int)
deriving DecidableEq

namespace Date

/-- Whether a year has a leap day. -/
def isLeap (year : Nat) : Bool :=
  year % 4 == 0 && (year % 100 != 0 || year % 400 == 0)

/-- The number of days of a month. -/
def daysIn (year month : Nat) : Nat :=
  if month == 2 then (if isLeap year then 29 else 28)
  else if month == 4 || month == 6 || month == 9 || month == 11 then 30
  else 31

/-- The date with the given parts; the first part out of range is reported. -/
def make (year month day : Nat) : Except CalendarFault Date :=
  if year < 1 || 9999 < year then .error (.year year)
  else if month < 1 || 12 < month then .error .month
  else if day < 1 || daysIn year month < day then .error .day
  else .ok ⟨year, month, day⟩

/-- The place of a date in its year, counted from one. -/
def dayOfYear (d : Date) : Nat :=
  (List.range (d.month - 1)).foldl (fun days m => days + daysIn d.year (m + 1)) d.day

/-- The number of days up to a date, from the beginning of the year 1. -/
def ordinal (d : Date) : Nat :=
  let years := d.year - 1
  years * 365 + years / 4 - years / 100 + years / 400 + d.dayOfYear

/-- The text `2020-01-02`. -/
def render (d : Date) : String :=
  String.ofList (Text.decimalChars 4 d.year ++ ['-'] ++ Text.decimalChars 2 d.month ++ ['-'] ++
    Text.decimalChars 2 d.day)

/-- The three numbers of a date, divided by commas. -/
def renderParts (d : Date) : String :=
  s!"{d.year}, {d.month}, {d.day}"

/-- The form of a date inside lists and tables. -/
def describe (d : Date) : String :=
  "datetime.date(" ++ d.renderParts ++ ")"

end Date

namespace Moment

/-- The moment with the given parts; the first part out of range is reported. -/
def make (year month day hour minute second micro : Nat) (offset : Option Int) :
    Except CalendarFault Moment := do
  if let some seconds := offset then
    if 86400 ≤ seconds.natAbs then throw (.offset seconds)
  let date ← Date.make year month day
  if 23 < hour then throw .hour
  if 59 < minute then throw .minute
  if 59 < second then throw .second
  return { date, hour, minute, second, micro, offset }

/-- The microseconds up to a moment by its own clock, from the beginning of the year 1. -/
def clockMicros (t : Moment) : Int :=
  let seconds := ((t.date.ordinal * 24 + t.hour) * 60 + t.minute) * 60 + t.second
  seconds * 1000000 + t.micro

/-- Whether two moments are the same. Where the distance from universal time is known the instant
counts; a moment of unknown distance is the same as none of known distance. -/
def same (t u : Moment) : Bool :=
  match t.offset, u.offset with
  | none, none => t == u
  | some m, some n => t.clockMicros - m * 1000000 == u.clockMicros - n * 1000000
  | _, _ => false

/-- The text `+05:30` of a distance from universal time. -/
def renderOffset (seconds : Int) : String :=
  let n := seconds.natAbs
  let base := Text.decimalChars 2 (n / 3600) ++ [':'] ++ Text.decimalChars 2 (n / 60 % 60)
  let rest := if n % 60 == 0 then [] else ':' :: Text.decimalChars 2 (n % 60)
  String.ofList ((if seconds < 0 then '-' else '+') :: base ++ rest)

/-- The text `2020-01-02 03:04:05.000006+00:00`, without parts that are not known or zero. -/
def render (t : Moment) : String :=
  let clock := Text.decimalChars 2 t.hour ++ [':'] ++ Text.decimalChars 2 t.minute ++ [':'] ++
    Text.decimalChars 2 t.second
  let micro := if t.micro == 0 then [] else '.' :: Text.decimalChars 6 t.micro
  t.date.render ++ " " ++ String.ofList (clock ++ micro) ++
    (t.offset.map renderOffset).getD ""

/-- A span of seconds as whole days and the seconds after them. -/
def describeSpan (seconds : Int) : String :=
  let days := seconds.fdiv 86400
  let rest := seconds.fmod 86400
  let parts := (if days == 0 then [] else [s!"days={days}"]) ++
    (if rest == 0 then [] else [s!"seconds={rest}"])
  "datetime.timedelta(" ++ (if parts.isEmpty then "0" else ", ".intercalate parts) ++ ")"

/-- A distance from universal time inside lists and tables. -/
def describeOffset (seconds : Int) : String :=
  if seconds == 0 then "datetime.timezone.utc"
  else "datetime.timezone(" ++ describeSpan seconds ++ ")"

/-- The form of a moment inside lists and tables. -/
def describe (t : Moment) : String :=
  let seconds :=
    if t.micro != 0 then s!", {t.second}, {t.micro}"
    else if t.second != 0 then s!", {t.second}"
    else ""
  let zone := match t.offset with
    | some n => ", tzinfo=" ++ describeOffset n
    | none => ""
  "datetime.datetime(" ++ t.date.renderParts ++ s!", {t.hour}, {t.minute}" ++ seconds ++ zone ++ ")"

end Moment

namespace CalendarFault

/-- The message of a fault. -/
def message : CalendarFault → String
  | .year n => s!"year {n} is out of range"
  | .month => "month must be in 1..12"
  | .day => "day is out of range for month"
  | .hour => "hour must be in 0..23"
  | .minute => "minute must be in 0..59"
  | .second => "second must be in 0..59"
  | .offset seconds =>
    "offset must be a timedelta strictly between -timedelta(hours=24) and timedelta(hours=24), not "
      ++ Moment.describeSpan seconds ++ "."

end CalendarFault

end NodeScript
