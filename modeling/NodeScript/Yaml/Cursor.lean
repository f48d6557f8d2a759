import NodeScript.Number.Reading
import NodeScript.Text.Unit
import NodeScript.Yaml.Char
import NodeScript.Yaml.Token

/-!
# Cursors

A cursor stands in a YAML text and knows its line and column. The readers here take what makes up a
single token: names, tags, directives, and scalars of all styles.
-/

namespace NodeScript.Yaml

/-- A position in a text, with what comes after it. -/
structure Cursor where
  rest : List Char
  index : Nat
  line : Nat
  column : Nat

/-- Takes something at a cursor. -/
abbrev Take (α : Type) := Cursor → Except Stop (α × Cursor)

namespace Cursor

/-- The cursor at the beginning of a text. -/
def start (cs : List Char) : Cursor := ⟨cs, 0, 0, 0⟩

/-- The character at the cursor. -/
def peek (c : Cursor) : Char :=
  c.rest.headD endMark

/-- The character some places after the cursor. -/
def peekAt (c : Cursor) (n : Nat) : Char :=
  c.rest.getD n endMark

/-- Goes over one character. A mark of byte order takes no column. -/
def advance (c : Cursor) : Cursor :=
  match c.rest with
  | [] => c
  | ch :: rest =>
    if isBreak ch && !(ch == '\r' && rest.head? == some '\n') then
      ⟨rest, c.index + 1, c.line + 1, 0⟩
    else if ch == '\ufeff' then ⟨rest, c.index + 1, c.line, c.column⟩
    else ⟨rest, c.index + 1, c.line, c.column + 1⟩

/-- Goes over some characters. -/
def advanceBy : Nat → Cursor → Cursor
  | 0, c => c
  | n + 1, c => advanceBy n c.advance

/-- Takes the characters of a kind. -/
def takeWhile (p : Char → Bool) (c : Cursor) : List Char × Cursor :=
  let cs := c.rest.takeWhile p
  (cs, c.advanceBy cs.length)

/-- Goes over the characters of a kind. -/
def skipWhile (p : Char → Bool) (c : Cursor) : Cursor :=
  (c.takeWhile p).2

/-- Goes over the spaces. -/
def skipSpaces (c : Cursor) : Cursor :=
  c.skipWhile (· == ' ')

/-- Goes over spaces up to a column. -/
def skipSpacesTo (column : Nat) (c : Cursor) : Cursor :=
  let count := (c.rest.takeWhile (· == ' ')).length
  c.advanceBy (min count (column - c.column))

/-- Goes to the end of the line. -/
def skipLine (c : Cursor) : Cursor :=
  c.skipWhile fun ch => !isBreakOrEnd ch

/-- Takes a line break; most kinds count as a line feed. -/
def takeBreak (c : Cursor) : List Char × Cursor :=
  match c.rest with
  | '\r' :: '\n' :: _ => (['\n'], c.advanceBy 2)
  | ch :: _ =>
    if ch == '\u2028' || ch == '\u2029' then ([ch], c.advance)
    else if isBreak ch then (['\n'], c.advance)
    else ([], c)
  | [] => ([], c)

/-- Whether a mark that begins or ends a document stands at the cursor. -/
def atSeparator (c : Cursor) : Bool :=
  ("---".toList.isPrefixOf c.rest || "...".toList.isPrefixOf c.rest) && isGapOrEnd (c.peekAt 3)

/-! ### Names, tags and directives -/

/-- Fails unless a condition holds. -/
def ensure (b : Bool) : Except Stop Unit :=
  if b then .ok () else .error .invalid

/-- Takes the rest of a line that may hold only a comment. -/
def takeIgnoredLine : Take Unit := fun c => do
  let c := c.skipSpaces
  let c := if c.peek == '#' then c.skipLine else c
  ensure (isBreakOrEnd c.peek)
  return ((), c.takeBreak.2)

/-- Takes the name of an anchor or an alias after its mark. -/
def takeName : Take String := fun c => do
  let (name, c) := c.advance.takeWhile isWordChar
  ensure (!name.isEmpty)
  ensure (isGapOrEnd c.peek || "?:,]\x7d%@\x60".toList.contains c.peek)
  return (String.ofList name, c)

/-- The octets after the first of a character in UTF-8. -/
def tailOctets? : (count : Nat) → (value : Nat) → List Nat → Option (Nat × List Nat)
  | 0, value, rest => some (value, rest)
  | _ + 1, _, [] => none
  | count + 1, value, b :: rest =>
    if 0x80 ≤ b && b ≤ 0xbf then tailOctets? count (value * 0x40 + (b - 0x80)) rest else none

/-- The characters that octets stand for in UTF-8, within a bound on their number. -/
def decodeOctets? : (bound : Nat) → List Nat → Option (List Char)
  | _, [] => some []
  | 0, _ :: _ => none
  | bound + 1, b :: rest => do
    let (count, value, least) ←
      if b < 0x80 then some (0, b, 0)
      else if 0xc0 ≤ b && b < 0xe0 then some (1, b - 0xc0, 0x80)
      else if 0xe0 ≤ b && b < 0xf0 then some (2, b - 0xe0, 0x800)
      else if 0xf0 ≤ b && b < 0xf8 then some (3, b - 0xf0, 0x10000)
      else none
    let (n, rest) ← tailOctets? count value rest
    if n < least || 0x10ffff < n || (0xd800 ≤ n && n < 0xe000) then none
    else
      let cs ← decodeOctets? bound rest
      some (Char.ofNat n :: cs)

/-- Takes octets that are written by percent signs and two digits each. -/
def takeOctets : (bound : Nat) → Cursor → Except Stop (List Nat × Cursor)
  | 0, c => .ok ([], c)
  | bound + 1, c =>
    if c.peek != '%' then .ok ([], c)
    else
      match Text.hexValue? (c.peekAt 1), Text.hexValue? (c.peekAt 2) with
      | some a, some b => do
        let (octets, c) ← takeOctets bound (c.advanceBy 3)
        return ((a * 16 + b) :: octets, c)
      | _, _ => .error .invalid

/-- Whether a character may stand in a tag. -/
def isTagChar (c : Char) : Bool :=
  isWordChar c || ";/?:@&=+$,.!~*'()[]".toList.contains c

/-- Takes the characters of a tag, within a bound on the number of its parts. -/
def takeTagParts : (bound : Nat) → Take (List Char)
  | 0, c => .ok ([], c)
  | bound + 1, c => do
    let (plain, c) := c.takeWhile isTagChar
    if c.peek == '%' then
      let (octets, c) ← takeOctets c.rest.length c
      match decodeOctets? octets.length octets with
      | none => throw .invalid
      | some cs =>
        let (more, c) ← takeTagParts bound c
        return (plain ++ cs ++ more, c)
    else return (plain, c)

/-- Takes the characters of a tag, of which there must be some. -/
def takeTagText : Take String := fun c => do
  ensure (isTagChar c.peek || c.peek == '%')
  let (cs, c) ← takeTagParts (c.rest.length + 1) c
  return (String.ofList cs, c)

/-- Takes the handle of a tag: a mark, or a word between marks. -/
def takeTagHandle : Take String := fun c => do
  ensure (c.peek == '!')
  if c.peekAt 1 == ' ' then return ("!", c.advance)
  else
    let (word, c) := c.advance.takeWhile isWordChar
    ensure (c.peek == '!')
    return (String.ofList ('!' :: word ++ ['!']), c.advance)

/-- Takes a tag. -/
def takeTag : Take Token := fun c => do
  let next := c.peekAt 1
  let (handle, suffix, c) ←
    if next == '<' then do
      let (suffix, c) ← takeTagText (c.advanceBy 2)
      ensure (c.peek == '>')
      pure (none, suffix, c.advance)
    else if isGapOrEnd next then pure (none, "!", c.advance)
    else do
      let word := (c.rest.drop 1).takeWhile fun ch => !isSpaceOrEnd ch
      let (handle, c) ← if word.contains '!' then takeTagHandle c else pure ("!", c.advance)
      let (suffix, c) ← takeTagText c
      pure (some handle, suffix, c)
  ensure (isSpaceOrEnd c.peek)
  return (.tag handle suffix, c)

/-- Takes the number of a version. -/
def takeVersionNumber : Take Nat := fun c => do
  let (digits, c) := c.takeWhile Char.isDigit
  ensure (!digits.isEmpty)
  if Reading.digitLimit < digits.length then throw (.fault (.tooManyDigits digits.length))
  return (Text.ofDigits 10 (digits.map fun d => d.toNat - 0x30), c)

/-- Takes a directive up to the end of its line. -/
def takeDirective : Take Token := fun c => do
  let (name, c) := c.advance.takeWhile isWordChar
  ensure (!name.isEmpty)
  ensure (isSpaceOrEnd c.peek)
  let (d, c) ← match String.ofList name with
    | "YAML" => do
      let (major, c) ← takeVersionNumber c.skipSpaces
      ensure (c.peek == '.')
      let (_, c) ← takeVersionNumber c.advance
      ensure (isSpaceOrEnd c.peek)
      pure (Directive.version major, c)
    | "TAG" => do
      let (handle, c) ← takeTagHandle c.skipSpaces
      ensure (c.peek == ' ')
      let (stem, c) ← takeTagText c.skipSpaces
      ensure (isSpaceOrEnd c.peek)
      pure (Directive.shorthand handle stem, c)
    | _ => pure (Directive.other, c.skipLine)
  let ((), c) ← takeIgnoredLine c
  return (.directive d, c)

/-! ### Quoted scalars -/

/-- Takes the line breaks between the lines of a quoted scalar, within a bound on their number. -/
def takeQuotedBreaks : (bound : Nat) → Take (List Char)
  | 0, c => .ok ([], c)
  | bound + 1, c => do
    ensure (!c.atSeparator)
    let c := c.skipWhile fun ch => ch == ' ' || ch == '\t'
    if isBreak c.peek then
      let (b, c) := c.takeBreak
      let (more, c) ← takeQuotedBreaks bound c
      return (b ++ more, c)
    else return ([], c)

/-- What line breaks between lines stand for: a single line feed is a space. -/
def foldBreaks (first more : List Char) : List Char :=
  if first != ['\n'] then first ++ more
  else if more.isEmpty then [' ']
  else more

/-- Takes the blanks inside a quoted scalar. -/
def takeQuotedBlanks : Take (List Char) := fun c => do
  let (blanks, c) := c.takeWhile fun ch => ch == ' ' || ch == '\t'
  if c.peek == endMark then throw .invalid
  else if isBreak c.peek then
    let (first, c) := c.takeBreak
    let (more, c) ← takeQuotedBreaks c.rest.length c
    return (foldBreaks first more, c)
  else return (blanks, c)

/-- The characters that letters stand for after a backslash. -/
def shortUnescapes : List (Char × Char) :=
  [('0', '\x00'), ('a', '\x07'), ('b', '\x08'), ('t', '\x09'), ('\t', '\x09'), ('n', '\x0a'),
   ('v', '\x0b'), ('f', '\x0c'), ('r', '\x0d'), ('e', '\x1b'), (' ', ' '), ('"', '"'),
   ('\\', '\\'), ('/', '/'), ('N', '\u0085'), ('_', '\u00a0'), ('L', '\u2028'), ('P', '\u2029')]

/-- The number of digits of the numeric escapes. -/
def numericEscapes : List (Char × Nat) :=
  [('x', 2), ('u', 4), ('U', 8)]

/-- The character with a number. -/
def charOfNumber (n : Nat) : Except Stop Char :=
  if 0x7fffffff < n then .error (.fault .codePointRange)
  else if 0x10ffff < n then .error (.fault .notACodePoint)
  else .ok (Text.charOfUnit n)

/-- The unit that an escape names, if one comes next. -/
def nextUnit? : List Char → Option Nat
  | '\\' :: 'u' :: a :: b :: c :: d :: _ => Text.unit? a b c d
  | _ => none

/-- Takes what a number stands for after its escape: a character, or the first of two units. -/
def takeNumbered (n : Nat) : Take (List Char) := fun c =>
  match nextUnit? c.rest with
  | some low =>
    if Text.isHighUnit n && Text.isLowUnit low then
      .ok ([Text.charOfPair n low], c.advanceBy 6)
    else return ([← charOfNumber n], c)
  | none => return ([← charOfNumber n], c)

/-- Takes an escape after its backslash. -/
def takeEscape : Take (List Char) := fun c =>
  match shortUnescapes.lookup c.peek, numericEscapes.lookup c.peek with
  | some ch, _ => .ok ([ch], c.advance)
  | none, some count => do
    let digits := c.advance.rest.take count
    match digits.length == count, digits.mapM Text.hexValue? with
    | true, some values => takeNumbered (Text.ofDigits 16 values) (c.advanceBy (count + 1))
    | _, _ => throw .invalid
  | none, none =>
    if isBreak c.peek then takeQuotedBreaks c.rest.length c.takeBreak.2 else .error .invalid

/-- Whether a character stands for itself in quoted scalars of both styles. -/
def isQuotedPlain (ch : Char) : Bool :=
  !(ch == '\'' || ch == '"' || ch == '\\' || isGapOrEnd ch)

/-- Takes the characters of a quoted scalar up to blanks or its end, within a bound on the number of
its parts. -/
def takeQuotedWord (double : Bool) : (bound : Nat) → Take (List Char)
  | 0, c => .ok ([], c)
  | bound + 1, c => do
    let (plain, c) := c.takeWhile isQuotedPlain
    let ch := c.peek
    if !double && ch == '\'' && c.peekAt 1 == '\'' then
      let (more, c) ← takeQuotedWord double bound (c.advanceBy 2)
      return (plain ++ '\'' :: more, c)
    else if (double && ch == '\'') || (!double && (ch == '"' || ch == '\\')) then
      let (more, c) ← takeQuotedWord double bound c.advance
      return (plain ++ ch :: more, c)
    else if double && ch == '\\' then
      let (cs, c) ← takeEscape c.advance
      let (more, c) ← takeQuotedWord double bound c
      return (plain ++ cs ++ more, c)
    else return (plain, c)

/-- Takes words and blanks up to the closing quote. -/
def takeQuotedRest (double : Bool) (quote : Char) : (bound : Nat) → Take (List Char)
  | 0, _ => .error .invalid
  | bound + 1, c =>
    if c.peek == quote then .ok ([], c.advance)
    else do
      let (blanks, c) ← takeQuotedBlanks c
      let (word, c) ← takeQuotedWord double (c.rest.length + 1) c
      let (more, c) ← takeQuotedRest double quote bound c
      return (blanks ++ word ++ more, c)

/-- Takes a quoted scalar. -/
def takeQuoted : Take Token := fun c => do
  let quote := c.peek
  let double := quote == '"'
  let c := c.advance
  let (word, c) ← takeQuotedWord double (c.rest.length + 1) c
  let (rest, c) ← takeQuotedRest double quote (c.rest.length + 1) c
  return (.scalar (String.ofList (word ++ rest)) false, c)

/-! ### Block scalars -/

/-- How the line breaks at the end of a block scalar are kept. -/
inductive Chomp where
  | strip
  | clip
  | keep
deriving DecidableEq

/-- The way of keeping line breaks that a mark stands for. -/
def Chomp.ofMark? (ch : Char) : Option Chomp :=
  if ch == '+' then some .keep else if ch == '-' then some .strip else none

/-- Takes a digit that tells the indentation; zero is refused. -/
def takeIncrement : Take (Option Nat) := fun c =>
  if c.peek.isDigit then
    if c.peek == '0' then .error .invalid else .ok (some (c.peek.toNat - 0x30), c.advance)
  else .ok (none, c)

/-- Takes the marks after the beginning of a block scalar, in either order. -/
def takeBlockHeader : Take (Chomp × Option Nat) := fun c => do
  let (chomp, increment, c) ← match Chomp.ofMark? c.peek with
    | some chomp => do
      let (increment, c) ← takeIncrement c.advance
      pure (chomp, increment, c)
    | none => do
      let (increment, c) ← takeIncrement c
      match increment, Chomp.ofMark? c.peek with
      | some n, some chomp => pure (chomp, some n, c.advance)
      | increment, _ => pure (.clip, increment, c)
  ensure (isSpaceOrEnd c.peek)
  return ((chomp, increment), c)

/-- Takes the empty lines before a block scalar; tells the greatest column of their spaces. -/
def takeBlockStart : (bound : Nat) → (widest : Nat) → Cursor → List Char × Nat × Cursor
  | 0, widest, c => ([], widest, c)
  | bound + 1, widest, c =>
    if c.peek == ' ' then
      let c := c.advance
      takeBlockStart bound (max widest c.column) c
    else if isBreak c.peek then
      let (b, c) := c.takeBreak
      let (more, widest, c) := takeBlockStart bound widest c
      (b ++ more, widest, c)
    else ([], widest, c)

/-- Takes the empty lines inside a block scalar, up to its column. -/
def takeBlockBreaks (column : Nat) : (bound : Nat) → Cursor → List Char × Cursor
  | 0, c => ([], c)
  | bound + 1, c =>
    let c := c.skipSpacesTo column
    if isBreak c.peek then
      let (b, c) := c.takeBreak
      let (more, c) := takeBlockBreaks column bound c
      (b ++ more, c)
    else ([], c)

/-- Whether a line at the column of a block scalar follows. -/
def hasBlockLine (column : Nat) (c : Cursor) : Bool :=
  c.column == column && c.peek != endMark

/-- The text of a block scalar before its end, its last line break and the empty lines after. -/
structure BlockBody where
  text : List Char
  last : List Char
  breaks : List Char

/-- Takes the lines of a block scalar; `breaks` are the empty lines before the first one. -/
def takeBlockLines (folded : Bool) (column : Nat) :
    (bound : Nat) → (breaks : List Char) → Cursor → BlockBody × Cursor
  | 0, breaks, c => (⟨[], [], breaks⟩, c)
  | bound + 1, breaks, c =>
    let leads := c.peek != ' ' && c.peek != '\t'
    let (line, c) := c.takeWhile fun ch => !isBreakOrEnd ch
    let (last, c) := c.takeBreak
    let (after, c) := takeBlockBreaks column (c.rest.length + 1) c
    if hasBlockLine column c then
      let (body, tail) := takeBlockLines folded column bound after c
      let joint :=
        if folded && last == ['\n'] && leads && c.peek != ' ' && c.peek != '\t' then
          if after.isEmpty then [' '] else []
        else last
      ({ body with text := breaks ++ line ++ joint ++ body.text }, tail)
    else (⟨breaks ++ line, last, after⟩, c)

/-- Takes a block scalar inside a block whose column is `indent`. -/
def takeBlock (indent : Int) : Take Token := fun c => do
  let folded := c.peek == '>'
  let ((chomp, increment), c) ← takeBlockHeader c.advance
  let ((), c) ← takeIgnoredLine c
  let least := max (indent + 1) 1 |>.toNat
  let (column, breaks, c) := match increment with
    | none =>
      let (breaks, widest, c) := takeBlockStart (c.rest.length + 1) 0 c
      (max least widest, breaks, c)
    | some n =>
      let column := least + n - 1
      let (breaks, c) := takeBlockBreaks column (c.rest.length + 1) c
      (column, breaks, c)
  let (body, c) :=
    if hasBlockLine column c then takeBlockLines folded column (c.rest.length + 1) breaks c
    else (⟨[], [], breaks⟩, c)
  let tail := match chomp with
    | .strip => []
    | .clip => body.last
    | .keep => body.last ++ body.breaks
  return (.scalar (String.ofList (body.text ++ tail)) false, c)

/-! ### Plain scalars -/

/-- Whether a plain scalar ends before a character, given the one after it. -/
def endsPlain (inFlow : Bool) (ch next : Char) : Bool :=
  isGapOrEnd ch ||
    (ch == ':' && (isGapOrEnd next || (inFlow && ",[]\x7b\x7d".toList.contains next))) ||
    (inFlow && ",?[]\x7b\x7d".toList.contains ch)

/-- The characters of a plain scalar up to a place where it may end. -/
def plainWord (inFlow : Bool) : List Char → List Char
  | [] => []
  | ch :: rest =>
    if endsPlain inFlow ch (rest.headD endMark) then [] else ch :: plainWord inFlow rest

/-- Takes the lines between the lines of a plain scalar. Nothing is given where a mark of a document
follows. -/
def takePlainBreaks : (bound : Nat) → Cursor → Option (List Char) × Cursor
  | 0, c => (some [], c)
  | bound + 1, c =>
    if c.peek == ' ' then takePlainBreaks bound c.advance
    else if isBreak c.peek then
      let (b, c) := c.takeBreak
      if c.atSeparator then (none, c)
      else
        let (more, c) := takePlainBreaks bound c
        (more.map (b ++ ·), c)
    else (some [], c)

/-- What follows a word of a plain scalar: the blanks that go into it if another word follows, and
whether a line ended. -/
def takePlainGap (c : Cursor) : Option (List Char) × Bool × Cursor :=
  let (blanks, c) := c.takeWhile (· == ' ')
  if isBreak c.peek then
    let (first, c) := c.takeBreak
    if c.atSeparator then (none, true, c)
    else
      let (more, c) := takePlainBreaks (c.rest.length + 1) c
      (more.map (foldBreaks first), true, c)
  else (if blanks.isEmpty then none else some blanks, false, c)

/-- Takes the words of a plain scalar; tells whether a line ended after the last of them. -/
def takePlainWords (inFlow : Bool) (column : Int) :
    (bound : Nat) → Cursor → List Char × Bool × Cursor
  | 0, c => ([], false, c)
  | bound + 1, c =>
    let word := if c.peek == '#' then [] else plainWord inFlow c.rest
    if word.isEmpty then ([], false, c)
    else
      let c := c.advanceBy word.length
      match takePlainGap c with
      | (none, ended, c) => (word, ended, c)
      | (some gap, ended, c) =>
        if c.peek == '#' || (!inFlow && (c.column : Int) < column) then (word, ended, c)
        else
          match takePlainWords inFlow column bound c with
          | ([], _, c) => (word, ended, c)
          | (more, ended, c) => (word ++ gap ++ more, ended, c)

/-- Takes a plain scalar inside a block whose column is `indent`; tells whether a line ended after
it. -/
def takePlain (inFlow : Bool) (indent : Int) (c : Cursor) : Token × Bool × Cursor :=
  let (cs, ended, c) := takePlainWords inFlow (indent + 1) (c.rest.length + 1) c
  (.scalar (String.ofList cs) true, ended, c)

end Cursor

end NodeScript.Yaml
