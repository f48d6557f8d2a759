import NodeScript.Failure
import NodeScript.Text.Hex
import NodeScript.Value.Table
import NodeScript.Yaml.Scalar

/-!
# Writing YAML

Values as YAML text in block style: one entry or item a line, keys in the order of their characters,
two columns for each level, lists at the column of the key they belong to. A text is written plainly
where that reads back as the same text, else in single quotes, else in double quotes; long texts are
folded at a space beyond the eightieth column. A container that holds itself is written once, with
an anchor, and referred to by an alias.
-/

namespace NodeScript.Yaml

/-! ### Documents -/

/-- A value as it is laid out: texts apart from other scalars, containers with numbers. -/
inductive Doc where
  /-- A scalar whose kind shows from its spelling. -/
  | plain (s : String)
  | text (s : String)
  | list (id : Nat) (items : List Doc)
  | table (id : Nat) (entries : List (Doc × Doc))
  /-- The container with a number, which is being written. -/
  | alias (id : Nat)

/-- The spelling of a double. -/
def floatText (x : Double) : String :=
  if x.isNaN then ".nan"
  else if x.isInfinite then (if x.isNegative then "-.inf" else ".inf")
  else
    let cs := x.render.toList
    if cs.contains '.' then x.render
    else String.ofList (cs.flatMap fun c => if c == 'e' then ['.', '0', 'e'] else [c])

/-- Whether one entry comes before another. Only keys that are texts are put in order. -/
def entryBefore (a b : Value × Value) : Bool :=
  match a.1, b.1 with
  | .text s, .text t => s ≤ t
  | _, _ => true

mutual

/-- Lays out a value. `path` holds the numbers of the containers around it, innermost first, and
`next` is the first number that is free. -/
def Doc.ofValue (path : List Nat) (next : Nat) : Value → Except WriteFault (Doc × Nat)
  | .null => .ok (.plain "null", next)
  | .bool b => .ok (.plain (if b then "true" else "false"), next)
  | .int n => .ok (.plain (toString n), next)
  | .real x => .ok (.plain (floatText x), next)
  | .text s => .ok (.text s, next)
  | .date d => .ok (.plain d.render, next)
  | .moment t => .ok (.plain t.render, next)
  | .list items => do
    let (docs, after) ← Doc.ofItems (next :: path) (next + 1) items
    return (.list next docs, after)
  | .tuple items => do
    let (docs, after) ← Doc.ofItems (next :: path) (next + 1) items
    return (.list next docs, after)
  | .table entries => do
    let (docs, after) ← Doc.ofEntries (next :: path) (next + 1) entries
    return (.table next docs, after)
  | .loop _ up => .ok (.alias (path.getD up 0), next)
  | .foreign label => .error (.foreignYaml (Value.foreign label).quoted)
  | .octets bytes => .error (.foreignYaml (Value.octets bytes).quoted)
  | .set items => .error (.foreignYaml (Value.set items).quoted)

/-- Lays out some items. -/
def Doc.ofItems (path : List Nat) (next : Nat) : List Value → Except WriteFault (List Doc × Nat)
  | [] => .ok ([], next)
  | v :: rest => do
    let (doc, next) ← Doc.ofValue path next v
    let (docs, next) ← Doc.ofItems path next rest
    return (doc :: docs, next)

/-- Lays out some entries. -/
def Doc.ofEntries (path : List Nat) (next : Nat) :
    List (Value × Value) → Except WriteFault (List (Doc × Doc) × Nat)
  | [] => .ok ([], next)
  | (k, v) :: rest => do
    let (key, next) ← Doc.ofValue path next k
    let (doc, next) ← Doc.ofValue path next v
    let (docs, next) ← Doc.ofEntries path next rest
    return ((key, doc) :: docs, next)

end

mutual

/-- A value with the entries of all its tables in order. -/
def sorted : Value → Value
  | .list items => .list (sortedItems items)
  | .tuple items => .tuple (sortedItems items)
  | .table entries => .table ((sortedEntries entries).mergeSort entryBefore)
  | v => v

/-- Some items with the entries of all their tables in order. -/
def sortedItems : List Value → List Value
  | [] => []
  | v :: rest => sorted v :: sortedItems rest

/-- Some entries with the entries of all tables inside them in order. -/
def sortedEntries : List (Value × Value) → List (Value × Value)
  | [] => []
  | (k, v) :: rest => (k, sorted v) :: sortedEntries rest

end

mutual

/-- The numbers of the containers that are referred to, in order of reference. -/
def Doc.targets : Doc → List Nat
  | .plain _ => []
  | .text _ => []
  | .list _ items => Doc.targetsOfItems items
  | .table _ entries => Doc.targetsOfEntries entries
  | .alias id => [id]

/-- The numbers that some items refer to. -/
def Doc.targetsOfItems : List Doc → List Nat
  | [] => []
  | d :: rest => d.targets ++ Doc.targetsOfItems rest

/-- The numbers that some entries refer to. -/
def Doc.targetsOfEntries : List (Doc × Doc) → List Nat
  | [] => []
  | (k, v) :: rest => k.targets ++ v.targets ++ Doc.targetsOfEntries rest

end

/-! ### Styles of texts -/

/-- What a text holds that matters for its style. -/
structure Traits where
  /-- It holds or begins with a mark that has a meaning in a block. -/
  indicator : Bool
  /-- It holds a line break. -/
  multiline : Bool
  /-- It holds a character that must be escaped. -/
  special : Bool
  /-- It begins or ends with a space or a line break. -/
  edged : Bool
  /-- A space follows a line break. -/
  breakSpace : Bool
  /-- A line break follows a space. -/
  spaceBreak : Bool

/-- Whether a character can be written without an escape in a plain or single quoted text. -/
def isOrdinary (c : Char) : Bool :=
  let n := c.toNat
  c == '\n' || (0x20 ≤ n && n ≤ 0x7e) ||
    ((n == 0x85 || (0xa0 ≤ n && n ≤ 0xfffd) || (0x10000 ≤ n && n < 0x10ffff)) && n != 0xfeff)

/-- Whether a text begins with a mark that has a meaning there. -/
def startsMarked : List Char → Bool
  | [] => false
  | c :: rest =>
    let gapNext := isGapOrEnd (rest.headD endMark)
    "#,[]\x7b\x7d&*!|>'\"%@\x60".toList.contains c ||
      (gapNext && (c == '?' || c == ':' || c == '-'))

/-- Whether a mark that has a meaning inside a text follows the first character. -/
def innerMarked : List Char → Bool
  | [] => false
  | [_] => false
  | c :: d :: rest =>
    (d == ':' && isGapOrEnd (rest.headD endMark)) || (d == '#' && isGapOrEnd c) ||
      innerMarked (d :: rest)

/-- Whether two characters of some kinds stand side by side. -/
def hasPair (p q : Char → Bool) : List Char → Bool
  | [] => false
  | [_] => false
  | c :: d :: rest => (p c && q d) || hasPair p q (d :: rest)

/-- The traits of a text. -/
def Traits.ofChars (cs : List Char) : Traits where
  indicator := startsMarked cs || innerMarked cs || "---".toList.isPrefixOf cs ||
    "...".toList.isPrefixOf cs
  multiline := cs.any isFoldable
  special := cs.any fun c => !isOrdinary c
  edged :=
    let isEdge (c : Char) : Bool := c == ' ' || isFoldable c
    isEdge (cs.headD 'a') || isEdge (cs.getLastD 'a')
  breakSpace := hasPair isFoldable (· == ' ') cs
  spaceBreak := hasPair (· == ' ') isFoldable cs

/-- The ways to write a text. -/
inductive Style where
  | plain
  | single
  | double
deriving DecidableEq

/-- The style of a text; a key that stands on one line is never written over several. -/
def Style.ofText (isKey : Bool) (s : String) : Style :=
  let cs := s.toList
  let t := Traits.ofChars cs
  if ScalarKind.ofPlain s == .text && !t.edged && !t.breakSpace && !t.spaceBreak && !t.special &&
      !t.multiline && !t.indicator then .plain
  else if !t.breakSpace && !t.spaceBreak && !t.special && !(isKey && t.multiline) then .single
  else .double

/-! ### The pen -/

/-- What has been written, and what the next mark has to know about it. -/
structure Pen where
  out : String
  column : Nat
  /-- Whether a space or the beginning of a line stands before the pen. -/
  spaced : Bool
  /-- Whether only indentation and entry marks stand before the pen on its line. -/
  indenting : Bool

namespace Pen

/-- The pen on an empty page. -/
def start : Pen := ⟨"", 0, true, true⟩

/-- The column beyond which texts are folded. -/
def width : Nat := 80

/-- Writes characters on the current line. -/
def write (p : Pen) (cs : List Char) : Pen :=
  { p with out := p.out ++ String.ofList cs, column := p.column + cs.length }

/-- Writes a mark. `apart` asks for a space before it, `opens` says that no space is needed after
it, `leads` that entries may follow it on the same line. -/
def mark (p : Pen) (cs : List Char) (apart opens leads : Bool) : Pen :=
  let cs := if p.spaced || !apart then cs else ' ' :: cs
  { p.write cs with spaced := opens, indenting := p.indenting && leads }

/-- Ends the line with a line break. -/
def breakLine (p : Pen) (c : Char) : Pen :=
  ⟨p.out.push c, 0, true, true⟩

/-- Goes to a column at the beginning of a line. -/
def indent (p : Pen) (column : Nat) : Pen :=
  let p := if !p.indenting || column < p.column || (p.column == column && !p.spaced) then
    p.breakLine '\n' else p
  if p.column < column then
    { p.write (List.replicate (column - p.column) ' ') with spaced := true }
  else p

/-- Lets the pen stand after text. -/
def settle (p : Pen) : Pen :=
  { p with spaced := false, indenting := false }

end Pen

/-! ### Texts -/

/-- The kinds of runs in a text that may be folded. -/
inductive RunKind where
  | spaces
  | breaks
  | other
deriving DecidableEq

/-- The kind of run that a character belongs to. -/
def RunKind.of (c : Char) : RunKind :=
  if c == ' ' then .spaces else if isFoldable c then .breaks else .other

/-- The runs of a text. -/
def runs : List Char → List (RunKind × List Char)
  | [] => []
  | c :: rest =>
    match runs rest with
    | [] => [(.of c, [c])]
    | (k, cs) :: more =>
      if k == .of c then (k, c :: cs) :: more else (.of c, [c]) :: (k, cs) :: more

/-- Writes the runs of a plain text. -/
def Pen.plainRuns (column : Nat) (split : Bool) (p : Pen) : List (RunKind × List Char) → Pen
  | [] => p
  | (k, cs) :: rest =>
    let p :=
      if k == .spaces && cs.length == 1 && Pen.width < p.column && split then
        (p.indent column).settle
      else p.write cs
    plainRuns column split p rest

/-- Writes a text plainly. -/
def Pen.plain (column : Nat) (split : Bool) (p : Pen) (cs : List Char) : Pen :=
  if cs.isEmpty then p
  else
    let p := if p.spaced then p else p.write [' ']
    p.settle.plainRuns column split (runs cs)

/-- Writes the line breaks of a text: one more than it has where they begin with a line feed. -/
def Pen.breaks (column : Nat) (p : Pen) (cs : List Char) : Pen :=
  let p := if cs.head? == some '\n' then p.breakLine '\n' else p
  (cs.foldl Pen.breakLine p).indent column

/-- Writes the runs of a single quoted text; `first` tells that a run is the first one. -/
def Pen.singleRuns (column : Nat) (split first : Bool) (p : Pen) :
    List (RunKind × List Char) → Pen
  | [] => p
  | (k, cs) :: rest =>
    let p := match k with
      | .spaces =>
        if cs.length == 1 && Pen.width < p.column && split && !first && !rest.isEmpty then
          p.indent column
        else p.write cs
      | .breaks => p.breaks column cs
      | .other => p.write (cs.flatMap fun c => if c == '\'' then [c, c] else [c])
    singleRuns column split false p rest

/-- Writes a text in single quotes. -/
def Pen.single (column : Nat) (split : Bool) (p : Pen) (cs : List Char) : Pen :=
  ((p.mark ['\''] true false false).singleRuns column split true (runs cs)).mark ['\'']
    false false false

/-- Whether a character is written as it is between double quotes. -/
def isBare (c : Char) : Bool :=
  let n := c.toNat
  c != '"' && c != '\\' && n != 0x85 && n != 0x2028 && n != 0x2029 && n != 0xfeff &&
    ((0x20 ≤ n && n ≤ 0x7e) || (0xa0 ≤ n && n ≤ 0xfffd))

/-- The letters for characters that have a short escape. -/
def shortEscapes : List (Char × Char) :=
  [('\x00', '0'), ('\x07', 'a'), ('\x08', 'b'), ('\x09', 't'), ('\x0a', 'n'), ('\x0b', 'v'),
   ('\x0c', 'f'), ('\x0d', 'r'), ('\x1b', 'e'), ('"', '"'), ('\\', '\\'), ('\u0085', 'N'),
   ('\u00a0', '_'), ('\u2028', 'L'), ('\u2029', 'P')]

/-- The escape of a character between double quotes. -/
def escape (c : Char) : List Char :=
  match shortEscapes.lookup c with
  | some e => ['\\', e]
  | none =>
    if c.toNat ≤ 0xff then '\\' :: 'x' :: Text.upperHexChars 2 c.toNat
    else if c.toNat ≤ 0xffff then '\\' :: 'u' :: Text.upperHexChars 4 c.toNat
    else '\\' :: 'U' :: Text.upperHexChars 8 c.toNat

/-- Ends a line inside double quotes. A space that would begin the next line is escaped. -/
def Pen.fold (column : Nat) (p : Pen) (next : Option Char) : Pen :=
  let p := ((p.write ['\\']).indent column).settle
  if next == some ' ' then p.write ['\\'] else p

/-- Writes the characters of a double quoted text. `held` are characters that are not written yet;
`first` tells that nothing precedes them. A line ends before a space or between two characters,
never before the first or at the last character. -/
def Pen.doubleChars (column : Nat) (split first : Bool) (held : List Char) (p : Pen) :
    List Char → Pen
  | [] => p.write held
  | c :: rest =>
    let inside := split && !first && !rest.isEmpty
    if isBare c then
      if inside && (c == ' ' || held.isEmpty) && Pen.width < p.column + held.length then
        doubleChars column split false [c] ((p.write held).fold column (some c)) rest
      else doubleChars column split false (held ++ [c]) p rest
    else
      let p := (p.write held).write (escape c)
      let p := if inside && Pen.width + 1 < p.column then p.fold column rest.head? else p
      doubleChars column split false [] p rest

/-- Writes a text in double quotes. -/
def Pen.double (column : Nat) (split : Bool) (p : Pen) (cs : List Char) : Pen :=
  ((p.mark ['"'] true false false).doubleChars column split true [] cs).mark ['"'] false false false

/-- Writes a text in its style. -/
def Pen.text (column : Nat) (isKey : Bool) (p : Pen) (s : String) : Pen :=
  match Style.ofText isKey s with
  | .plain => p.plain column (!isKey) s.toList
  | .single => p.single column (!isKey) s.toList
  | .double => p.double column (!isKey) s.toList

/-! ### Structure -/

/-- The name of an anchor. -/
def anchorName (n : Nat) : List Char :=
  'i' :: 'd' :: Text.decimalChars 3 n

/-- The anchors of the containers that are referred to. -/
abbrev Anchors := List Nat

/-- The mark for a container that is referred to. -/
def Anchors.mark? (anchors : Anchors) (sign : Char) (id : Nat) : Option (List Char) :=
  (anchors.idxOf? id).map fun n => sign :: anchorName (n + 1)

/-- Writes the anchor of a container, if it is referred to. -/
def Pen.anchor (anchors : Anchors) (p : Pen) (id : Nat) : Pen :=
  match anchors.mark? '&' id with
  | some cs => p.mark cs true false false
  | none => p

/-- The greatest length of a key that stands on the line of its value. The name of its kind, which
is not written, is counted. -/
def keyLimit : Nat := 122

/-- Whether a key stands on the line of its value. -/
def Doc.isInlineKey : Doc → Bool
  | .plain s => !s.isEmpty && s.length ≤ keyLimit
  | .text s => !s.isEmpty && s.length ≤ keyLimit && !s.toList.any isFoldable
  | .list _ items => items.isEmpty
  | .table _ entries => entries.isEmpty
  | .alias _ => true

/-- What surrounds a node. -/
inductive Place where
  | root
  | item
  | entry
  | key
deriving DecidableEq

/-- The column of a text or a table that stands below a column. -/
def deeper : Option Nat → Nat
  | none => 0
  | some n => n + 2

mutual

/-- Writes a document. `column` is the column of the container around it. -/
def Pen.doc (anchors : Anchors) (column : Option Nat) (place : Place) (p : Pen) : Doc → Pen
  | .plain s => p.plain ((column.getD 0) + 2) (place != .key) s.toList
  | .text s => p.text ((column.getD 0) + 2) (place == .key) s
  | .alias id => p.mark ((anchors.mark? '*' id).getD []) true false false
  | .list id [] => ((p.anchor anchors id).mark ['['] true true false).mark [']'] false false false
  | .list id items =>
    let p := p.anchor anchors id
    let column := if (place == .entry || place == .key) && !p.indenting then column.getD 0
      else deeper column
    p.docItems anchors column items
  | .table id [] =>
    ((p.anchor anchors id).mark ['{'] true true false).mark ['}'] false false false
  | .table id entries =>
    (p.anchor anchors id).docEntries anchors (deeper column) entries

/-- Writes the items of a list, each on a line of its own. -/
def Pen.docItems (anchors : Anchors) (column : Nat) (p : Pen) : List Doc → Pen
  | [] => p
  | d :: rest =>
    let p := (p.indent column).mark ['-'] true false true
    (p.doc anchors (some column) .item d).docItems anchors column rest

/-- Writes the entries of a table, each on a line of its own. -/
def Pen.docEntries (anchors : Anchors) (column : Nat) (p : Pen) : List (Doc × Doc) → Pen
  | [] => p
  | (k, v) :: rest =>
    let p := p.indent column
    let p :=
      if k.isInlineKey then
        (p.doc anchors (some column) .key k).mark [':'] false false false
      else
        let p := p.mark ['?'] true false true
        ((p.doc anchors (some column) .entry k).indent column).mark [':'] true false true
    (p.doc anchors (some column) .entry v).docEntries anchors column rest

end

/-- The YAML text of a value. -/
def write (v : Value) : Except WriteFault String := do
  let (doc, _) ← Doc.ofValue [] 0 (sorted v)
  return ((Pen.start.doc doc.targets.eraseDups none .root doc).indent 0).out

end NodeScript.Yaml
