import NodeScript.Yaml.Char

/-!
# Kinds of plain scalars

A plain scalar that looks like a truth value, a number, a date or nothing at all stands for such a
value; every other one is a text. These rules are those of YAML 1.1.
-/

namespace NodeScript.Yaml

/-- What a plain scalar stands for. -/
inductive ScalarKind where
  | bool
  | float
  | int
  | merge
  | null
  | timestamp
  | value
  /-- An indicator of a node property on its own. -/
  | property
  | text
deriving DecidableEq

namespace ScalarKind

/-! ### Words -/

/-- The words for truth values. -/
def boolWords : List (String × Bool) :=
  [("yes", true), ("no", false), ("true", true), ("false", false), ("on", true), ("off", false)]

/-- A word in lower case, with a capital and in capitals. -/
def casings (word : String) : List String :=
  let cs := word.toList
  [word, String.ofList ((cs.take 1).map Char.toUpper ++ cs.drop 1),
   String.ofList (cs.map Char.toUpper)]

/-- Whether a scalar is one of the words for truth values. -/
def isBool (s : String) : Bool :=
  boolWords.any fun w => (casings w.1).contains s

/-- Whether a scalar is a word for nothing. -/
def isNull (s : String) : Bool :=
  s == "~" || s == "null" || s == "Null" || s == "NULL" || s == ""

/-! ### Numbers -/

/-- Drops a sign. -/
def dropSign : List Char → List Char
  | c :: rest => if c == '-' || c == '+' then rest else c :: rest
  | [] => []

/-- Whether a character is a decimal digit or an underscore. -/
def isDigitOrBar (c : Char) : Bool :=
  c.isDigit || c == '_'

/-- Splits at colons. -/
def splitColons : List Char → List (List Char)
  | [] => [[]]
  | c :: rest =>
    match splitColons rest with
    | [] => [[c]]
    | part :: parts => if c == ':' then [] :: part :: parts else (c :: part) :: parts

/-- Whether a part of a number in base sixty has one digit, or two with the first below six. -/
def isSixtieth : List Char → Bool
  | [a] => a.isDigit
  | [a, b] => '0' ≤ a && a ≤ '5' && b.isDigit
  | _ => false

/-- Whether characters begin with a digit and go on with digits and underscores. -/
def isDigitRun : List Char → Bool
  | c :: rest => c.isDigit && rest.all isDigitOrBar
  | [] => false

/-- Whether a scalar is an integer: binary, octal, decimal, hexadecimal or in base sixty. -/
def isInt (cs : List Char) : Bool :=
  match dropSign cs with
  | '0' :: rest =>
    match rest with
    | [] => true
    | 'b' :: digits => !digits.isEmpty && digits.all fun c => c == '0' || c == '1' || c == '_'
    | 'x' :: digits =>
      !digits.isEmpty && digits.all fun c =>
        c.isDigit || ('a' ≤ c && c ≤ 'f') || ('A' ≤ c && c ≤ 'F') || c == '_'
    | digits => digits.all fun c => ('0' ≤ c && c ≤ '7') || c == '_'
  | body =>
    match splitColons body with
    | [] => false
    | first :: parts => isDigitRun first && parts.all isSixtieth

/-- Whether characters are an exponent with its sign, or nothing. -/
def isExponent : List Char → Bool
  | [] => true
  | e :: sign :: digits =>
    (e == 'e' || e == 'E') && (sign == '-' || sign == '+') && !digits.isEmpty &&
      digits.all Char.isDigit
  | _ => false

/-- Whether characters are digits and underscores with an optional exponent after them. -/
def isFraction (cs : List Char) : Bool :=
  isExponent (cs.dropWhile isDigitOrBar)

/-- Whether characters are a number in base sixty with a point. -/
def isSixtiethFloat (cs : List Char) : Bool :=
  match splitColons cs with
  | first :: parts =>
    match parts.getLast? with
    | some last =>
      let whole := last.takeWhile (· != '.')
      let rest := last.drop whole.length
      isDigitRun first && parts.dropLast.all isSixtieth && isSixtieth whole &&
        rest.head? == some '.' && (rest.drop 1).all isDigitOrBar
    | none => false
  | [] => false

/-- Whether a scalar is a number with a point, an infinity or a not-a-number word. -/
def isFloat (cs : List Char) : Bool :=
  let s := String.ofList cs
  let body := dropSign cs
  let unsigned := String.ofList body
  let whole := body.takeWhile (· != '.')
  let rest := body.drop whole.length
  (isDigitRun whole && rest.head? == some '.' && isFraction (rest.drop 1)) ||
  (match cs with
    | '.' :: d :: rest => d.isDigit && isFraction rest
    | _ => false) ||
  isSixtiethFloat body ||
  unsigned == ".inf" || unsigned == ".Inf" || unsigned == ".INF" ||
  s == ".nan" || s == ".NaN" || s == ".NAN"

/-! ### Times -/

/-- The parts of a date or a moment as they are written. -/
structure TimeParts where
  year : List Char
  month : List Char
  day : List Char
  clock : Option (List Char × List Char × List Char)
  fraction : List Char
  /-- Whether universal time is meant. -/
  zulu : Bool
  /-- Sign, hours and minutes of the distance from universal time. -/
  offset : Option (Char × List Char × List Char)

/-- Splits off at least one and at most `most` digits. -/
def takeDigits? (least most : Nat) (cs : List Char) : Option (List Char × List Char) :=
  let ds := (cs.take most).takeWhile Char.isDigit
  if ds.length < least then none else some (ds, cs.drop ds.length)

/-- Splits off a character that must come next. -/
def takeChar? (c : Char) : List Char → Option (List Char)
  | d :: rest => if d == c then some rest else none
  | [] => none

/-- Reads what follows the seconds: a fraction and a zone. -/
def takeZone? (cs : List Char) :
    Option (List Char × Bool × Option (Char × List Char × List Char)) :=
  let (fraction, rest) := match cs with
    | '.' :: rest =>
      let ds := rest.takeWhile Char.isDigit
      (ds, rest.drop ds.length)
    | cs => ([], cs)
  let gap := rest.takeWhile fun c => c == ' ' || c == '\t'
  match rest, rest.drop gap.length with
  | [], _ => some (fraction, false, none)
  | _, ['Z'] => some (fraction, true, none)
  | _, sign :: rest =>
    if sign == '-' || sign == '+' then do
      let (hours, rest) ← takeDigits? 1 2 rest
      match rest with
      | [] => some (fraction, false, some (sign, hours, []))
      | ':' :: rest =>
        let (minutes, rest) ← takeDigits? 2 2 rest
        if rest.isEmpty then some (fraction, false, some (sign, hours, minutes)) else none
      | _ => none
    else none
  | _, [] => none

/-- Reads the time of day that follows a date. -/
def takeClock? (cs : List Char) : Option (List Char) :=
  match cs with
  | 'T' :: rest => some rest
  | 't' :: rest => some rest
  | cs =>
    let gap := cs.takeWhile fun c => c == ' ' || c == '\t'
    if gap.isEmpty then none else some (cs.drop gap.length)

/-- The parts of a date or a moment. -/
def timeParts? (cs : List Char) : Option TimeParts := do
  let (year, rest) ← takeDigits? 4 4 cs
  let rest ← takeChar? '-' rest
  let (month, rest) ← takeDigits? 1 2 rest
  let rest ← takeChar? '-' rest
  let (day, rest) ← takeDigits? 1 2 rest
  if rest.isEmpty then some ⟨year, month, day, none, [], false, none⟩
  else
    let rest ← takeClock? rest
    let (hour, rest) ← takeDigits? 1 2 rest
    let rest ← takeChar? ':' rest
    let (minute, rest) ← takeDigits? 2 2 rest
    let rest ← takeChar? ':' rest
    let (second, rest) ← takeDigits? 2 2 rest
    let (fraction, zulu, offset) ← takeZone? rest
    some ⟨year, month, day, some (hour, minute, second), fraction, zulu, offset⟩

/-- Whether a plain scalar is a date or a moment. A date alone has two digits for month and day. -/
def isTimestamp (cs : List Char) : Bool :=
  match timeParts? cs with
  | some p => p.clock.isSome || (p.month.length == 2 && p.day.length == 2)
  | none => false

/-! ### Resolution -/

/-- A scalar without a line break at its end. -/
def dropFinalBreak (cs : List Char) : List Char :=
  if cs.length > 1 && cs.getLast? == some '\n' then cs.dropLast else cs

/-- What a plain scalar stands for. -/
def ofPlain (s : String) : ScalarKind :=
  let cs := dropFinalBreak s.toList
  let s := String.ofList cs
  if isBool s then .bool
  else if isFloat cs then .float
  else if isInt cs then .int
  else if s == "<<" then .merge
  else if isNull s then .null
  else if isTimestamp cs then .timestamp
  else if s == "=" then .value
  else if s == "!" || s == "&" || s == "*" then .property
  else .text

end ScalarKind

end NodeScript.Yaml
