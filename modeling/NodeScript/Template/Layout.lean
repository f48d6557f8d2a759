import NodeScript.Number.Numeral
import NodeScript.Template.Path

/-!
# Layout of fields

A specification says how a value is laid out: fill and alignment, sign, base mark or point, least
width, marks between groups of digits, precision and type. Texts are cut and aligned. Integers are
written in a base or as a character, and where the type asks for it as doubles; doubles are written
in the style of their type.
-/

namespace NodeScript.Template

/-- Why a template gives no text. -/
inductive TemplateFault where
  /-- It is malformed, or asks for what a value does not have. -/
  | refused
  /-- It asks for a character or a double, and a number is too large for it. -/
  | tooLarge
  /-- It asks for more characters than can be held. -/
  | noRoom
deriving DecidableEq

/-- Where the fill goes. -/
inductive Align where
  | left
  | right
  | center
  /-- Between the sign and the digits of a number. -/
  | inner
deriving DecidableEq

/-- The alignment that a mark stands for. -/
def Align.ofMark? (c : Char) : Option Align :=
  if c == '<' then some .left
  else if c == '>' then some .right
  else if c == '^' then some .center
  else if c == '=' then some .inner
  else none

/-- A parsed specification. -/
structure Layout where
  fill : Char
  align : Option Align
  sign : Option Char
  /-- Whether a number that is written as zero has no sign. -/
  unsignedZero : Bool
  /-- Whether the mark of a base, or the point, is written in any case. -/
  marked : Bool
  zeroPad : Bool
  width : Nat
  grouping : Option Char
  precision : Option Nat
  type : Option Char

namespace Layout

/-! ### Reading -/

/-- Splits off a mark if it comes next. -/
def accept (c : Char) : List Char → Bool × List Char
  | d :: ds => if d == c then (true, ds) else (false, d :: ds)
  | [] => (false, [])

/-- Splits off a run of digits, unless its number is too great. -/
def acceptNumber? (cs : List Char) : Option (Option Nat × List Char) :=
  let digits := cs.takeWhile fun c => (Text.digitValue? c).isSome
  match number? digits with
  | some n => if n ≤ greatestNumber then some (some n, cs.drop digits.length) else none
  | none => some (none, cs)

/-- Splits off fill and alignment. -/
def acceptAlign : List Char → Option Char × Option Align × List Char
  | c :: d :: rest =>
    match Align.ofMark? d, Align.ofMark? c with
    | some a, _ => (some c, some a, rest)
    | none, some a => (none, some a, d :: rest)
    | none, none => (none, none, c :: d :: rest)
  | [c] =>
    match Align.ofMark? c with
    | some a => (none, some a, [])
    | none => (none, none, [c])
  | [] => (none, none, [])

/-- Splits off a sign mark. -/
def acceptSign : List Char → Option Char × List Char
  | c :: rest => if c == '+' || c == '-' || c == ' ' then (some c, rest) else (none, c :: rest)
  | [] => (none, [])

/-- Splits off the precision after a point; a point without digits is refused. -/
def acceptPrecision? : List Char → Option (Option Nat × List Char)
  | '.' :: rest =>
    match acceptNumber? rest with
    | some (some n, rest) => some (some n, rest)
    | _ => none
  | cs => some (none, cs)

/-- Reads a specification. -/
def parse? (spec : List Char) : Option Layout := do
  let (fill, align, rest) := acceptAlign spec
  let (sign, rest) := acceptSign rest
  let (unsignedZero, rest) := accept 'z' rest
  let (marked, rest) := accept '#' rest
  let (zeroPad, rest) := if fill.isNone then accept '0' rest else (false, rest)
  let (width, rest) ← acceptNumber? rest
  let (comma, rest) := accept ',' rest
  let (underscore, rest) := accept '_' rest
  if comma && underscore then none
  else
    let (precision, rest) ← acceptPrecision? rest
    let type ← match rest with
      | [] => some none
      | [c] => some (some c)
      | _ => none
    some {
      fill := fill.getD (if zeroPad then '0' else ' ')
      align, sign, unsignedZero, marked, zeroPad
      width := width.getD 0
      grouping := if comma then some ',' else if underscore then some '_' else none
      precision, type }

/-! ### Padding -/

/-- The greatest number of characters that a field is filled up to. -/
def greatestWidth : Nat := 100000000

/-- Puts fill around a text; the characters of `lead` stay in front of an inner fill. -/
def pad (l : Layout) (align : Align) (lead : List Char) (cs : List Char) :
    Except TemplateFault (List Char) :=
  let missing := l.width - (lead.length + cs.length)
  if greatestWidth < l.width then .error .noRoom
  else .ok <| match align with
    | .left => lead ++ cs ++ List.replicate missing l.fill
    | .right => List.replicate missing l.fill ++ lead ++ cs
    | .center =>
      List.replicate (missing / 2) l.fill ++ lead ++ cs ++
        List.replicate (missing - missing / 2) l.fill
    | .inner => lead ++ List.replicate missing l.fill ++ cs

/-- Lays out a text. -/
def text (l : Layout) (s : String) : Except TemplateFault (List Char) :=
  let align := l.align.getD .left
  if l.sign.isSome || l.unsignedZero || l.marked || l.grouping.isSome || align == .inner ||
      (l.type.getD 's') != 's' then .error .refused
  else
    let cs := match l.precision with
      | some n => s.toList.take n
      | none => s.toList
    l.pad align [] cs

/-! ### Numbers -/

/-- A number in the parts that layout tells apart. -/
structure Figure where
  negative : Bool
  /-- The mark of a base. -/
  mark : List Char
  /-- The digits that can be grouped. -/
  whole : List Char
  rest : List Char

/-- The alignment of a number. -/
def numberAlign (l : Layout) : Align :=
  l.align.getD (if l.zeroPad then .inner else .right)

/-- The sign of a number under a layout. -/
def signChars (l : Layout) (negative : Bool) : List Char :=
  if negative then ['-']
  else match l.sign with
    | some '+' => ['+']
    | some ' ' => [' ']
    | _ => []

/-- Divides digits into groups, counted from the right. -/
def group (mark : Char) (size : Nat) (digits : List Char) : List Char :=
  let count := digits.length
  (digits.zipIdx.map fun (c, i) =>
    if i != 0 && (count - i) % size == 0 then [mark, c] else [c]).flatten

/-- The least number of digits, in groups with a mark between them, that take up `length`
characters. -/
def digitsFor (size length : Nat) : Nat :=
  if length == 0 then 0 else length / (size + 1) * size + max (length % (size + 1)) 1

/-- Digits with zeros before them so that they take up `length` characters, in groups where the
layout asks for them. -/
def wholeChars (l : Layout) (size length : Nat) (digits : List Char) : List Char :=
  let fill (count : Nat) := List.replicate (count - digits.length) '0' ++ digits
  match l.grouping with
  | some mark => group mark size (fill (digitsFor size length))
  | none => fill length

/-- Lays out a number whose digits come in groups of a size. Zeros that fill up a number between
its sign and its digits are digits themselves. -/
def figure (l : Layout) (size : Nat) (f : Figure) : Except TemplateFault (List Char) :=
  let lead := l.signChars f.negative ++ f.mark
  let inner := l.fill == '0' && l.numberAlign == .inner
  let length := if inner then l.width - (lead.length + f.rest.length) else 0
  if greatestWidth < l.width then .error .noRoom
  else
    let whole := if f.whole.isEmpty then [] else l.wholeChars size length f.whole
    l.pad l.numberAlign lead (whole ++ f.rest)

/-- The style of a double, and whether its letters are capitals and a percent sign follows. -/
def realStyle? (l : Layout) : Option (RealStyle × Bool × Bool) :=
  let places := l.precision.getD 6
  match l.type with
  | none =>
    match l.precision with
    | some n => some (.general n true, false, false)
    | none => some (.shortest, false, false)
  | some c =>
    if c == 'e' then some (.scientific places, false, false)
    else if c == 'E' then some (.scientific places, true, false)
    else if c == 'f' then some (.fixed places, false, false)
    else if c == 'F' then some (.fixed places, true, false)
    else if c == 'g' then some (.general places false, false, false)
    else if c == 'G' then some (.general places false, true, false)
    else if c == 'n' && l.grouping.isNone then some (.general places false, false, false)
    else if c == '%' then some (.fixed places, false, true)
    else none

/-- The greatest precision of a double. -/
def greatestPrecision : Nat := 0x7fffffff

/-- The parts of a double in a style. -/
def realFigure (l : Layout) (style : RealStyle) (x : Double) : Figure :=
  if x.isNaN then ⟨false, [], [], ['n', 'a', 'n']⟩
  else if x.isInfinite then ⟨x.isNegative, [], [], ['i', 'n', 'f']⟩
  else
    let n := x.numeral style l.marked
    let isZero := (n.whole ++ n.rest.takeWhile (· != 'e')).all fun c => c == '0' || c == '.'
    ⟨x.isNegative && !(l.unsignedZero && isZero), [], n.whole, n.rest⟩

/-- Lays out a double. -/
def real (l : Layout) (x : Double) : Except TemplateFault (List Char) :=
  match l.realStyle? with
  | none => .error .refused
  | some (style, capitals, percent) =>
    let precision := l.precision.getD 0
    if greatestPrecision < precision then .error .refused
    else if greatestWidth < precision then .error .noRoom
    else
      let f := l.realFigure style (if percent then x.mul (Double.ofInt 100) else x)
      let rest := if capitals then f.rest.map Char.toUpper else f.rest
      l.figure 3 { f with rest := if percent then rest ++ ['%'] else rest }

/-- Lays out an integer in a base. -/
def intIn (l : Layout) (base : Nat) (mark : List Char) (capitals : Bool) (n : Int) :
    Except TemplateFault (List Char) :=
  let size := if base == 10 then 3 else 4
  if l.precision.isSome || l.unsignedZero || (l.grouping == some ',' && base != 10) then
    .error .refused
  else
    let digits := Nat.toDigits base n.natAbs
    let digits := if capitals then digits.map Char.toUpper else digits
    l.figure size ⟨n < 0, if l.marked then mark else [], digits, []⟩

/-- Lays out the character with a number. -/
def character (l : Layout) (n : Int) : Except TemplateFault (List Char) :=
  if l.precision.isSome || l.unsignedZero || l.sign.isSome || l.marked || l.grouping.isSome then
    .error .refused
  else if n < 0 || 0x10ffff < n then .error .tooLarge
  else l.figure 3 ⟨false, [], [], [Char.ofNat n.toNat]⟩

/-- Lays out an integer as a double. -/
def intAsReal (l : Layout) (n : Int) : Except TemplateFault (List Char) :=
  let x := Double.ofInt n
  if x.isInfinite then .error .tooLarge else l.real x

/-- Lays out an integer. -/
def int (l : Layout) (n : Int) : Except TemplateFault (List Char) :=
  match l.type with
  | none => l.intIn 10 [] false n
  | some c =>
    if c == 'd' || (c == 'n' && l.grouping.isNone) then l.intIn 10 [] false n
    else if c == 'b' then l.intIn 2 ['0', 'b'] false n
    else if c == 'o' then l.intIn 8 ['0', 'o'] false n
    else if c == 'x' then l.intIn 16 ['0', 'x'] false n
    else if c == 'X' then l.intIn 16 ['0', 'X'] true n
    else if c == 'c' then l.character n
    else if "eEfFgG%".toList.contains c then l.intAsReal n
    else .error .refused

end Layout

/-- A target under a specification. Only texts and numbers take one. -/
def formatTarget (t : Target) (spec : List Char) : Except TemplateFault (List Char) :=
  if spec.isEmpty then .ok t.render.toList
  else
    match Layout.parse? spec, t with
    | some l, .value (.text s) => l.text s
    | some l, .value (.bool b) => l.int (if b then 1 else 0)
    | some l, .value (.int n) => l.int n
    | some l, .value (.real x) => l.real x
    | _, _ => .error .refused

end NodeScript.Template
