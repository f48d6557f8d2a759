import NodeScript.Calendar

/-!
# Time stamps

A pattern says how a moment is written: a directive, which begins with a percent sign and ends with
a letter, stands for a part of the moment, and other characters stand for themselves. Between sign
and letter a directive may say how its part is padded, in which case its letters are written and how
wide it is at least. A directive that stands for nothing stays as it is.
-/

namespace NodeScript

namespace Date

/-- The days of a week. -/
def weekdayNames : List String :=
  ["Sunday", "Monday", "Tuesday", "Wednesday", "Thursday", "Friday", "Saturday"]

/-- The months of a year. -/
def monthNames : List String :=
  ["January", "February", "March", "April", "May", "June", "July", "August", "September", "October",
   "November", "December"]

/-- The place of a date in its week, counted from zero on Sunday. -/
def weekday (d : Date) : Nat :=
  d.ordinal % 7

/-- The name of the day of a date. -/
def weekdayName (d : Date) : String :=
  weekdayNames.getD d.weekday ""

/-- The name of the month of a date. -/
def monthName (d : Date) : String :=
  monthNames.getD (d.month - 1) ""

/-- The number of days of a year. -/
def daysOfYear (year : Nat) : Nat :=
  if isLeap year then 366 else 365

/-- The number of the week of a date in its year. Weeks begin on the given day, and the days before
the first of them are in week zero. -/
def weekNumber (d : Date) (first : Nat) : Nat :=
  (d.dayOfYear + 6 - (d.weekday + 7 - first) % 7) / 7

/-- The year and the number of the week of a date. Weeks begin on Monday and belong to the year of
their Thursday. -/
def weekOf (d : Date) : Nat × Nat :=
  -- the place of Thursday in the year of the date, where a week is added to stay positive
  let thursday := d.dayOfYear + 9 - (d.weekday + 6) % 7
  let days := daysOfYear d.year
  if thursday < 7 then (d.year - 1, (thursday + daysOfYear (d.year - 1) - 7) / 7 + 1)
  else if days + 7 ≤ thursday then (d.year + 1, (thursday - days - 7) / 7 + 1)
  else (d.year, (thursday - 7) / 7 + 1)

end Date

namespace Moment

/-- The hour on a clock with twelve hours. -/
def halfDayHour (t : Moment) : Nat :=
  if t.hour % 12 == 0 then 12 else t.hour % 12

/-- The half of the day. -/
def halfDay (t : Moment) : String :=
  if t.hour < 12 then "AM" else "PM"

/-- The seconds from the beginning of the year 1970 to a moment by its own clock. -/
def epochSeconds (t : Moment) : Int :=
  let days : Int := t.date.ordinal - 719163
  ((days * 24 + t.hour) * 60 + t.minute) * 60 + t.second

/-! ### Parts that depend on the distance from universal time -/

/-- The text `+0530` of a distance from universal time. -/
def zoneDigits (seconds : Int) : List Char :=
  (renderOffset seconds).toList.filter (· != ':')

/-- The name `UTC+05:30` of a distance from universal time. -/
def zoneName (seconds : Int) : List Char :=
  "UTC".toList ++ if seconds == 0 then [] else (renderOffset seconds).toList

/-- A pattern with the parts of a second and the zone filled in. A distance that is not known is
empty. -/
def fillZone (t : Moment) : List Char → List Char
  | '%' :: 'f' :: rest => Text.decimalChars 6 t.micro ++ fillZone t rest
  | '%' :: 'z' :: rest => (t.offset.map zoneDigits).getD [] ++ fillZone t rest
  | '%' :: 'Z' :: rest => (t.offset.map zoneName).getD [] ++ fillZone t rest
  | '%' :: c :: rest => '%' :: c :: fillZone t rest
  | c :: rest => c :: fillZone t rest
  | [] => []

/-! ### Parts of a moment -/

/-- A part of a moment, as a directive without further marks has it. -/
inductive Part where
  /-- A number that is filled with zeros to a number of digits. -/
  | number (digits : Nat) (n : Int)
  /-- A number that is filled with blanks. -/
  | spaced (digits : Nat) (n : Int)
  /-- A name. -/
  | name (s : String)
  /-- The half of a day. -/
  | half (s : String)
  /-- A text that is made of other parts, or a mark. -/
  | composed (s : List Char)
  /-- Nothing, which may still be padded. -/
  | nothing (padded : Bool)

/-- The digits of an integer with its sign, filled with zeros in between. -/
def signedChars (width : Nat) (n : Int) : List Char :=
  if n < 0 then '-' :: Text.decimalChars (width - 1) n.natAbs
  else Text.decimalChars width n.natAbs

/-- The characters of a part. -/
def Part.chars : Part → List Char
  | .number digits n => signedChars digits n
  | .spaced digits n => Text.padLeft ' ' digits (signedChars 0 n)
  | .name s | .half s => s.toList
  | .composed cs => cs
  | .nothing _ => []

/-- The part that a letter stands for and that is made of no others. -/
def simplePart? (t : Moment) (letter : Char) : Option Part :=
  match letter with
  | 'Y' => some (.number 1 t.date.year)
  | 'y' => some (.number 2 (t.date.year % 100 : Nat))
  | 'C' => some (.number 1 (t.date.year / 100 : Nat))
  | 'G' => some (.number 1 t.date.weekOf.1)
  | 'g' => some (.number 2 (t.date.weekOf.1 % 100 : Nat))
  | 'V' => some (.number 2 t.date.weekOf.2)
  | 'U' => some (.number 2 (t.date.weekNumber 0))
  | 'W' => some (.number 2 (t.date.weekNumber 1))
  | 'u' => some (.number 1 (if t.date.weekday == 0 then 7 else t.date.weekday : Nat))
  | 'w' => some (.number 1 t.date.weekday)
  | 'm' => some (.number 2 t.date.month)
  | 'd' => some (.number 2 t.date.day)
  | 'e' => some (.spaced 2 t.date.day)
  | 'j' => some (.number 3 t.date.dayOfYear)
  | 'H' => some (.number 2 t.hour)
  | 'k' => some (.spaced 2 t.hour)
  | 'I' => some (.number 2 t.halfDayHour)
  | 'l' => some (.spaced 2 t.halfDayHour)
  | 'M' => some (.number 2 t.minute)
  | 'S' => some (.number 2 t.second)
  | 's' => some (.composed (signedChars 0 t.epochSeconds))
  | 'a' => some (.name (t.date.weekdayName.take 3).toString)
  | 'A' => some (.name t.date.weekdayName)
  | 'b' | 'h' => some (.name (t.date.monthName.take 3).toString)
  | 'B' => some (.name t.date.monthName)
  | 'p' => some (.half t.halfDay)
  | 'P' => some (.half (t.halfDay.map Char.toLower))
  | 'n' => some (.composed ['\n'])
  | 't' => some (.composed ['\t'])
  | '%' => some (.composed ['%'])
  | 'Z' => some (.nothing true)
  | 'z' => some (.nothing false)
  | _ => none

/-- The pattern of a part that is made of others. -/
def composition? (letter : Char) : Option String :=
  match letter with
  | 'c' => some "%a %b %e %H:%M:%S %Y"
  | 'D' | 'x' => some "%m/%d/%y"
  | 'F' => some "%Y-%m-%d"
  | 'R' => some "%H:%M"
  | 'T' | 'X' => some "%H:%M:%S"
  | 'r' => some "%I:%M:%S %p"
  | _ => none

/-- The characters of a pattern that holds letters of simple parts only. -/
def compose (t : Moment) : List Char → List Char
  | '%' :: c :: rest => ((t.simplePart? c).map Part.chars).getD [] ++ compose t rest
  | c :: rest => c :: compose t rest
  | [] => []

/-- The part that a letter stands for. -/
def part? (t : Moment) (letter : Char) : Option Part :=
  match composition? letter with
  | some pattern => some (.composed (t.compose pattern.toList))
  | none => t.simplePart? letter

/-! ### Directives -/

/-- What stands before the letter of a directive. -/
structure Directive where
  /-- The characters so far. -/
  chars : List Char := ['%']
  /-- The mark that says how the part is padded. -/
  pad : Option Char := none
  /-- Whether letters are written in upper case. -/
  upper : Bool := false
  /-- Whether letters are written in the other case. -/
  swapped : Bool := false
  /-- The least width. -/
  width : Option Nat := none
  /-- The mark that asks for another form of the part, of which there is none. -/
  modifier : Option Char := none

namespace Directive

/-- Reads a character that is not the letter of the directive. -/
def read? (d : Directive) (c : Char) : Option Directive :=
  let d := { d with chars := d.chars ++ [c] }
  if d.modifier.isSome then none
  else if c == 'E' || c == 'O' then some { d with modifier := some c }
  else if d.width.isSome || c != '0' && c.isDigit then
    if c.isDigit then some { d with width := some (d.width.getD 0 * 10 + (c.toNat - '0'.toNat)) }
    else none
  else if c == '_' || c == '-' || c == '0' then some { d with pad := some c }
  else if c == '^' then some { d with upper := true }
  else if c == '#' then some { d with swapped := true }
  else none

/-- The letters that do not go with a modifier. -/
def refused (modifier : Char) : List Char :=
  if modifier == 'E' then "ABDFGHIMSUVWabdeghjklmw".toList else "ADFXYacx".toList

/-- Characters filled to the width of a directive. -/
def fill (d : Directive) (cs : List Char) : List Char :=
  Text.padLeft (if d.pad == some '0' then '0' else ' ') (d.width.getD 0) cs

/-- Characters with their letters in upper case. -/
def capital (cs : List Char) : List Char :=
  cs.map Char.toUpper

/-- A number of a least number of digits; a mark in the directive goes before `pad`. -/
def number (d : Directive) (pad : Char) (digits : Nat) (n : Int) : List Char :=
  let digits := max digits (d.width.getD 0)
  match d.pad.getD pad with
  | '-' => d.fill (signedChars 0 n)
  | '_' => Text.padLeft ' ' digits (signedChars 0 n)
  | _ => signedChars digits n

/-- The characters of a directive that stands for a part. -/
def write (d : Directive) : Part → List Char
  | .number digits n => d.number '0' digits n
  | .spaced digits n => d.number '_' digits n
  | .name s => d.fill (if d.upper || d.swapped then capital s.toList else s.toList)
  | .half s => d.fill (if d.swapped then s.toList.map Char.toLower else s.toList)
  | .composed cs => d.fill (if d.upper then capital cs else cs)
  | .nothing padded => if padded && d.pad != some '-' then d.fill [] else []

/-- The characters of a directive that stands for nothing. -/
def keep (d : Directive) : List Char :=
  d.fill (if d.upper then capital d.chars else d.chars)

/-- The characters of a directive with a letter. -/
def finish (d : Directive) (t : Moment) (letter : Char) : List Char :=
  let refused := match d.modifier with
    | some m => (refused m).contains letter
    | none => false
  match if refused then none else t.part? letter with
  | some part => d.write part
  | none => keep { d with chars := d.chars ++ [letter] }

end Directive

/-! ### Stamps -/

/-- The characters of a stamp, of which there must be less than `room`. The directive that is being
read is `open?`. -/
def stampFrom (t : Moment) (room : Nat) : (open? : Option Directive) → List Char →
    Option (List Char)
  | none, [] => some []
  | some d, [] => if room ≤ d.width.getD 0 then none else some d.keep
  | none, '%' :: rest => stampFrom t room (some {}) rest
  | none, c :: rest => (stampFrom t room none rest).map (c :: ·)
  | some d, c :: rest =>
    match d.read? c with
    | some d => stampFrom t room (some d) rest
    | none =>
      if room ≤ d.width.getD 0 then none
      else (stampFrom t room none rest).map (d.finish t c ++ ·)

/-- The room for a stamp of a pattern: a power of two that is at least 1024 and has at least 256
places for each character of the pattern. -/
def stampRoom (pattern : List Char) : Nat :=
  let quarters := (pattern.length + 3) / 4
  if quarters ≤ 1 then 1024 else 1024 * Nat.pow 2 (Nat.log2 (quarters - 1) + 1)

/-- The time stamp of a moment in a pattern, which ends before a null character. A stamp that takes
too much room is empty. -/
def stamp (t : Moment) (pattern : String) : String :=
  let pattern := t.fillZone (pattern.toList.takeWhile (· != '\x00'))
  let room := stampRoom pattern
  match t.stampFrom room none pattern with
  | some cs => if cs.length < room then String.ofList cs else ""
  | none => ""

end Moment

end NodeScript
