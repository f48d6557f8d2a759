import NodeScript.Yaml.Cursor

/-!
# From characters to tokens

The tokens of a YAML text, in order. Blocks open and close with the columns at which their lines
begin. A key on the line of its value is noticed only at the colon after it; the place where it
began is remembered, and its tokens are put in there.
-/

namespace NodeScript.Yaml

/-- A place where a key may have begun. -/
structure KeyPlace where
  /-- The number of tokens before it. -/
  position : Nat
  /-- Whether nothing else than a key can stand there. -/
  required : Bool
  index : Nat
  line : Nat
  column : Nat

/-- The state of a scan. -/
structure Scan where
  cursor : Cursor
  tokens : List Token
  /-- The number of flow collections that are open. -/
  flow : Nat
  /-- Whether a key may begin at the cursor. -/
  keyAllowed : Bool
  /-- The places where keys may have begun, by the number of open flow collections. -/
  places : List (Nat × KeyPlace)
  /-- The column of the innermost block. -/
  indent : Int
  /-- The columns of the blocks around it. -/
  outer : List Int

namespace Scan

/-- The scan of a text before its first token. -/
def start (cs : List Char) : Scan :=
  ⟨.start cs, [], 0, true, [], -1, []⟩

/-- Adds a token. -/
def emit (s : Scan) (t : Token) : Scan :=
  { s with tokens := s.tokens ++ [t] }

/-- Whether the scan is inside a flow collection. -/
def inFlow (s : Scan) : Bool :=
  s.flow != 0

/-- The column of the cursor. -/
def column (s : Scan) : Int :=
  s.cursor.column

/-! ### Places of keys -/

/-- Forgets the place where a key may have begun. A key that is required there is missed. -/
def forgetPlace (s : Scan) : Except Stop Scan :=
  match s.places.lookup s.flow with
  | some p =>
    if p.required then .error .invalid
    else .ok { s with places := s.places.filter (·.1 != s.flow) }
  | none => .ok s

/-- Remembers that a key may begin at the cursor. -/
def savePlace (s : Scan) : Except Stop Scan :=
  if s.keyAllowed then do
    let s ← s.forgetPlace
    let place : KeyPlace := {
      position := s.tokens.length
      required := !s.inFlow && s.indent == s.column
      index := s.cursor.index
      line := s.cursor.line
      column := s.cursor.column }
    return { s with places := (s.flow, place) :: s.places }
  else .ok s

/-- Forgets the places that are on another line or too far back. -/
def dropStale (s : Scan) : Except Stop Scan :=
  let isStale (p : KeyPlace) : Bool :=
    p.line != s.cursor.line || 1024 < s.cursor.index - p.index
  if s.places.any fun p => isStale p.2 && p.2.required then .error .invalid
  else .ok { s with places := s.places.filter fun p => !isStale p.2 }

/-! ### Blocks -/

/-- Closes the blocks that are deeper than a column. -/
def closeBlocks (column : Int) : (outer : List Int) → (indent : Int) → Nat × Int × List Int
  | [], indent => (0, indent, [])
  | next :: rest, indent =>
    if column < indent then
      let (count, indent, outer) := closeBlocks column rest next
      (count + 1, indent, outer)
    else (0, indent, next :: rest)

/-- Closes the blocks that end at a column. Inside flow collections columns do not matter. -/
def unwind (s : Scan) (column : Int) : Scan :=
  if s.inFlow then s
  else
    let (count, indent, outer) := closeBlocks column s.outer s.indent
    { s with tokens := s.tokens ++ List.replicate count .blockEnd, indent, outer }

/-- Opens a block at a column if it is deeper than the innermost one, and tells whether it did. -/
def openBlock (s : Scan) (column : Int) : Bool × Scan :=
  if s.indent < column then
    (true, { s with indent := column, outer := s.indent :: s.outer })
  else (false, s)

/-! ### Tokens -/

/-- Takes a token that may begin a key. -/
def takeAs (s : Scan) (take : Take Token) : Except Stop Scan := do
  let s ← s.savePlace
  let (t, c) ← take s.cursor
  return { s.emit t with cursor := c, keyAllowed := false }

/-- Goes over the marks of a token. -/
def skip (s : Scan) (n : Nat) : Scan :=
  { s with cursor := s.cursor.advanceBy n }

/-- The end of the text. -/
def takeEnd (s : Scan) : Except Stop Scan := do
  let s ← (s.unwind (-1)).forgetPlace
  return { s.emit .streamEnd with keyAllowed := false, places := [] }

/-- A directive. -/
def takeDirective (s : Scan) : Except Stop Scan := do
  let s ← (s.unwind (-1)).forgetPlace
  let (t, c) ← Cursor.takeDirective s.cursor
  return { s.emit t with cursor := c, keyAllowed := false }

/-- A mark that begins or ends a document. -/
def takeSeparator (s : Scan) (t : Token) : Except Stop Scan := do
  let s ← (s.unwind (-1)).forgetPlace
  return { (s.emit t).skip 3 with keyAllowed := false }

/-- The beginning of a flow collection. -/
def takeFlowStart (s : Scan) (t : Token) : Except Stop Scan := do
  let s ← s.savePlace
  return { (s.emit t).skip 1 with flow := s.flow + 1, keyAllowed := true }

/-- The end of a flow collection. -/
def takeFlowEnd (s : Scan) (t : Token) : Except Stop Scan := do
  let s ← s.forgetPlace
  Cursor.ensure s.inFlow
  return { (s.emit t).skip 1 with flow := s.flow - 1, keyAllowed := false }

/-- The mark between the items of a flow collection. -/
def takeFlowEntry (s : Scan) : Except Stop Scan := do
  let s ← s.forgetPlace
  return { (s.emit .flowEntry).skip 1 with keyAllowed := true }

/-- Opens a block for an entry that begins at the cursor. -/
def openAtCursor (s : Scan) (t : Token) : Except Stop Scan :=
  if s.inFlow then .ok s
  else if !s.keyAllowed then .error .invalid
  else
    let (opened, s) := s.openBlock s.column
    .ok (if opened then s.emit t else s)

/-- The mark of an item of a block sequence. -/
def takeBlockEntry (s : Scan) : Except Stop Scan := do
  let s ← s.openAtCursor .blockSequenceStart
  let s ← s.forgetPlace
  return { (s.emit .blockEntry).skip 1 with keyAllowed := true }

/-- The mark of a key. -/
def takeKey (s : Scan) : Except Stop Scan := do
  let s ← s.openAtCursor .blockMappingStart
  let s ← s.forgetPlace
  return { (s.emit .key).skip 1 with keyAllowed := !s.inFlow }

/-- Puts the tokens of a key into the place where it began. -/
def insertKey (s : Scan) (p : KeyPlace) : Scan :=
  let (opened, s) := if s.inFlow then (false, s) else s.openBlock p.column
  let marks := if opened then [.blockMappingStart, .key] else [.key]
  { s with tokens := s.tokens.take p.position ++ marks ++ s.tokens.drop p.position }

/-- The mark of a value: its key stands on the same line, or has a mark of its own. -/
def takeValue (s : Scan) : Except Stop Scan :=
  match s.places.lookup s.flow with
  | some p =>
    let s := { s with places := s.places.filter (·.1 != s.flow) }
    let s := s.insertKey p
    .ok { (s.emit .value).skip 1 with keyAllowed := false }
  | none => do
    let s ← s.openAtCursor .blockMappingStart
    let s := { s with keyAllowed := !s.inFlow }
    return (s.emit .value).skip 1

/-- A block scalar. -/
def takeBlock (s : Scan) : Except Stop Scan := do
  let s ← s.forgetPlace
  let (t, c) ← Cursor.takeBlock s.indent s.cursor
  return { s.emit t with cursor := c, keyAllowed := true }

/-- A plain scalar. -/
def takePlain (s : Scan) : Except Stop Scan := do
  let s ← s.savePlace
  let (t, ended, c) := Cursor.takePlain s.inFlow s.indent s.cursor
  return { s.emit t with cursor := c, keyAllowed := ended }

/-- Whether a plain scalar can begin at the cursor. -/
def startsPlain (s : Scan) : Bool :=
  let ch := s.cursor.peek
  !(isGapOrEnd ch || "-?:,[]\x7b\x7d#&*!|>'\"%@\x60".toList.contains ch) ||
    (!isGapOrEnd (s.cursor.peekAt 1) && (ch == '-' || (!s.inFlow && (ch == '?' || ch == ':'))))

/-- Goes over spaces, comments and line breaks, within a bound on the number of lines. -/
def skipLines : (bound : Nat) → Scan → Scan
  | 0, s => s
  | bound + 1, s =>
    let c := s.cursor.skipSpaces
    let c := if c.peek == '#' then c.skipLine else c
    if isBreak c.peek then
      skipLines bound { s with cursor := c.takeBreak.2, keyAllowed := s.keyAllowed || !s.inFlow }
    else { s with cursor := c }

/-- Goes to the next token. A mark of byte order may begin the text. -/
def skipToToken (s : Scan) : Scan :=
  let s := if s.cursor.index == 0 && s.cursor.peek == '\ufeff' then s.skip 1 else s
  skipLines (s.cursor.rest.length + 1) s

/-- Takes the next token; the flag tells whether the text has ended. -/
def next (s : Scan) : Except Stop (Bool × Scan) := do
  let s ← s.skipToToken.dropStale
  let s := s.unwind s.column
  let ch := s.cursor.peek
  let isMark := isGapOrEnd (s.cursor.peekAt 1)
  let atStart := s.cursor.column == 0
  if s.cursor.rest.isEmpty then return (true, ← s.takeEnd)
  let s ←
    if ch == '%' && atStart then s.takeDirective
    else if ch == '-' && atStart && s.cursor.atSeparator then s.takeSeparator .documentStart
    else if ch == '.' && atStart && s.cursor.atSeparator then s.takeSeparator .documentEnd
    else if ch == '[' then s.takeFlowStart .flowSequenceStart
    else if ch == '{' then s.takeFlowStart .flowMappingStart
    else if ch == ']' then s.takeFlowEnd .flowSequenceEnd
    else if ch == '}' then s.takeFlowEnd .flowMappingEnd
    else if ch == ',' then s.takeFlowEntry
    else if ch == '-' && isMark then s.takeBlockEntry
    else if ch == '?' && (s.inFlow || isMark) then s.takeKey
    else if ch == ':' && (s.inFlow || isMark) then s.takeValue
    else if ch == '*' then s.takeAs fun c => do
      let (name, c) ← Cursor.takeName c
      return (.alias name, c)
    else if ch == '&' then s.takeAs fun c => do
      let (name, c) ← Cursor.takeName c
      return (.anchor name, c)
    else if ch == '!' then s.takeAs Cursor.takeTag
    else if (ch == '|' || ch == '>') && !s.inFlow then s.takeBlock
    else if ch == '\'' || ch == '"' then s.takeAs Cursor.takeQuoted
    else if s.startsPlain then s.takePlain
    else throw .invalid
  return (false, s)

/-- Takes all tokens, within a bound on their number; a scan that fails gives the tokens before. -/
def all : (bound : Nat) → Scan → List Token × Option Stop
  | 0, s => (s.tokens, some .invalid)
  | bound + 1, s =>
    match s.next with
    | .error stop => (s.tokens, some stop)
    | .ok (true, s) => (s.tokens, none)
    | .ok (false, s) => all bound s

end Scan

/-- The tokens of a text, and what kept a reader from going on. A text with an unreadable character
has none. -/
def tokens (cs : List Char) : List Token × Option Stop :=
  if cs.all isReadable then Scan.all (cs.length + 1) (.start cs) else ([], some .invalid)

end NodeScript.Yaml
