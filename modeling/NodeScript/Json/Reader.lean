import NodeScript.Number.Reading
import NodeScript.Text.Unit
import NodeScript.Value.Table

/-!
# Reading JSON

A reader of JSON texts. Numbers with a point or an exponent become doubles, other numbers become
integers, which may be limited in the number of their digits; the names of the missing numbers are
understood. Of two entries with the same key the later one counts, in the place of the earlier one.
Every reader takes the characters from the front and gives back the rest.
-/

namespace NodeScript.Json

/-- Whether a character may stand between the parts of a JSON text. -/
def isSpace (c : Char) : Bool :=
  c == ' ' || c == '\t' || c == '\n' || c == '\r'

/-- Drops spaces. -/
def skip (cs : List Char) : List Char :=
  cs.dropWhile isSpace

/-- The character that a letter stands for after a backslash. -/
def unescape? (c : Char) : Option Char :=
  match c with
  | '"' => some '"'
  | '\\' => some '\\'
  | '/' => some '/'
  | 'b' => some '\x08'
  | 'f' => some '\x0c'
  | 'n' => some '\n'
  | 'r' => some '\r'
  | 't' => some '\t'
  | _ => none

/-- The numbers of the characters of a text up to its closing quote. -/
def units? : List Char → Option (List Nat × List Char)
  | [] => none
  | '"' :: rest => some ([], rest)
  | '\\' :: 'u' :: a :: b :: c :: d :: rest => do
    let n ← Text.unit? a b c d
    let (body, tail) ← units? rest
    some (n :: body, tail)
  | '\\' :: c :: rest => do
    let c ← unescape? c
    let (body, tail) ← units? rest
    some (c.toNat :: body, tail)
  | c :: rest =>
    if c.toNat < 0x20 || c == '\\' then none
    else do
      let (body, tail) ← units? rest
      some (c.toNat :: body, tail)

/-- The characters of a text up to its closing quote. -/
def textBody? (cs : List Char) : Option (List Char × List Char) :=
  (units? cs).map fun r => (Text.joinUnits r.1, r.2)

/-- Splits off decimal digits. -/
def digits (cs : List Char) : List Nat × List Char :=
  let ds := cs.takeWhile Char.isDigit
  (ds.map (fun c => c.toNat - 0x30), cs.drop ds.length)

/-- Splits off the digits after a point. -/
def fraction (cs : List Char) : Option (List Nat) × List Char :=
  match cs with
  | '.' :: rest =>
    match digits rest with
    | ([], _) => (none, cs)
    | (ds, tail) => (some ds, tail)
  | _ => (none, cs)

/-- Splits off an exponent. -/
def exponent (cs : List Char) : Option Int × List Char :=
  match cs with
  | e :: rest =>
    if e == 'e' || e == 'E' then
      let (negative, rest) := Reading.splitSign rest
      match digits rest with
      | ([], _) => (none, cs)
      | (ds, tail) =>
        let n : Int := Text.ofDigits 10 ds
        (some (if negative then -n else n), tail)
    else (none, cs)
  | [] => (none, cs)

/-- Reads a number whose sign is taken already. An integer has at most `limit` digits. -/
def number? (limit : Option Nat) (negative : Bool) (cs : List Char) : Option (Value × List Char) :=
  let (whole, rest) := match cs with
    | '0' :: rest => ([0], rest)
    | _ => digits cs
  if whole.isEmpty then none
  else
    let (frac, rest) := fraction rest
    let (exp, rest) := exponent rest
    if frac.isNone && exp.isNone then
      if limit.any (· < whole.length) then none
      else
        let n : Int := Text.ofDigits 10 whole
        some (.int (if negative then -n else n), rest)
    else
      let parts : Reading.RealParts := ⟨whole, frac.getD [], exp.getD 0⟩
      some (.real (parts.toDouble negative), rest)

/-- The words of JSON with their values. -/
def words : List (List Char × Value) :=
  [("null".toList, .null), ("true".toList, .bool true), ("false".toList, .bool false),
   ("NaN".toList, .real Double.nan), ("Infinity".toList, .real (Double.infinity false)),
   ("-Infinity".toList, .real (Double.infinity true))]

/-- Reads a word or a number. -/
def atom? (limit : Option Nat) (cs : List Char) : Option (Value × List Char) :=
  match words.find? fun w => w.1.isPrefixOf cs with
  | some (word, v) => some (v, cs.drop word.length)
  | none =>
    match cs with
    | '-' :: rest => number? limit true rest
    | _ => number? limit false cs

mutual

/-- Reads a value, within a bound on the number of steps. -/
def value? (limit : Option Nat) : (steps : Nat) → List Char → Option (Value × List Char)
  | 0, _ => none
  | steps + 1, cs =>
    match cs with
    | '"' :: rest => do
      let (body, tail) ← textBody? rest
      some (.text (String.ofList body), tail)
    | '[' :: rest =>
      match skip rest with
      | ']' :: tail => some (.list [], tail)
      | rest => do
        let (items, tail) ← items? limit steps rest
        some (.list items, tail)
    | '{' :: rest =>
      match skip rest with
      | '}' :: tail => some (.table [], tail)
      | rest => do
        let (entries, tail) ← entries? limit steps [] rest
        some (.table entries, tail)
    | cs => atom? limit cs

/-- Reads the items of an array up to its closing bracket. -/
def items? (limit : Option Nat) : (steps : Nat) → List Char → Option (List Value × List Char)
  | 0, _ => none
  | steps + 1, cs => do
    let (v, rest) ← value? limit steps cs
    match skip rest with
    | ']' :: tail => some ([v], tail)
    | ',' :: rest =>
      let (vs, tail) ← items? limit steps (skip rest)
      some (v :: vs, tail)
    | _ => none

/-- Reads the entries of an object up to its closing brace. -/
def entries? (limit : Option Nat) : (steps : Nat) → Table Value Value → List Char →
    Option (Table Value Value × List Char)
  | 0, _, _ => none
  | steps + 1, done, cs =>
    match cs with
    | '"' :: rest => do
      let (key, rest) ← textBody? rest
      match skip rest with
      | ':' :: rest =>
        let (v, rest) ← value? limit steps (skip rest)
        let done := done.put (.text (String.ofList key)) v
        match skip rest with
        | '}' :: tail => some (done, tail)
        | ',' :: rest => entries? limit steps done (skip rest)
        | _ => none
      | _ => none
    | _ => none

end

/-- Reads a JSON text with nothing but spaces around it, and integers of at most `limit` digits. -/
def readWithin? (limit : Option Nat) (cs : List Char) : Option Value := do
  let (v, rest) ← value? limit (2 * cs.length + 2) (skip cs)
  if (skip rest).isEmpty then some v else none

/-- Reads a JSON text within the limit on decimal numerals. -/
def read? (cs : List Char) : Option Value :=
  readWithin? (some Reading.digitLimit) cs

/-! ### Nesting -/

/-- How deep brackets are nested in a text, at least `depth` levels. `quoted` tells whether the text
begins inside quotes. -/
def nestingFrom (depth : Nat) : (quoted : Bool) → List Char → Nat
  | _, [] => depth
  | true, '\\' :: _ :: rest => nestingFrom depth true rest
  | true, c :: rest => nestingFrom depth (c != '"') rest
  | false, c :: rest =>
    if c == '"' then nestingFrom depth true rest
    else if c == '[' || c == '{' then max depth (nestingFrom (depth + 1) false rest)
    else if c == ']' || c == '}' then max depth (nestingFrom (depth - 1) false rest)
    else nestingFrom depth false rest

/-- How deep brackets are nested in a JSON text. -/
def nesting (cs : List Char) : Nat :=
  nestingFrom 0 false cs

end NodeScript.Json
