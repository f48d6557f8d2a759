/-!
# Pieces of templates

A template is a text with fields in braces, such as `Field '{field}' is required`. A doubled brace
stands for itself. A field has a path that leads to a value, and may have a conversion after `!` and
a specification after `:`, which may hold braces itself.

A template is read up to the first place where it is malformed.
-/

namespace NodeScript.Template

/-- A piece of a template. -/
inductive Piece where
  | char (c : Char)
  | field (path : List Char) (conversion : Option Char) (spec : List Char)
  /-- The place at which a template is malformed. -/
  | malformed

/-- Where a reader stands in a template. -/
inductive Place where
  | plain
  | opened
  | closed
  | path (done : List Char)
  | bracket (done : List Char)
  | bang (path : List Char)
  | converted (path : List Char) (conversion : Char)
  | spec (path : List Char) (conversion : Option Char) (done : List Char) (depth : Nat)

/-- What a character does to a reader inside the path of a field. -/
def Place.extendPath (done : List Char) (c : Char) : Option (Place × List Piece) :=
  if c == '{' then none
  else if c == '}' then some (.plain, [.field done none []])
  else if c == ':' then some (.spec done none [] 0, [])
  else if c == '!' then some (.bang done, [])
  else if c == '[' then some (.bracket (done ++ [c]), [])
  else some (.path (done ++ [c]), [])

/-- What a character does to a reader: its next place and the pieces that are complete. -/
def Place.next (p : Place) (c : Char) : Option (Place × List Piece) :=
  match p with
  | .plain =>
    if c == '{' then some (.opened, [])
    else if c == '}' then some (.closed, [])
    else some (.plain, [.char c])
  | .opened => if c == '{' then some (.plain, [.char c]) else extendPath [] c
  | .closed => if c == '}' then some (.plain, [.char c]) else none
  | .path done => extendPath done c
  | .bracket done =>
    if c == ']' then some (.path (done ++ [c]), []) else some (.bracket (done ++ [c]), [])
  | .bang name => some (.converted name c, [])
  | .converted name conversion =>
    if c == '}' then some (.plain, [.field name (some conversion) []])
    else if c == ':' then some (.spec name (some conversion) [] 0, [])
    else none
  | .spec name conversion done depth =>
    if c == '}' then
      match depth with
      | 0 => some (.plain, [.field name conversion done])
      | depth + 1 => some (.spec name conversion (done ++ [c]) depth, [])
    else if c == '{' then some (.spec name conversion (done ++ [c]) (depth + 1), [])
    else some (.spec name conversion (done ++ [c]) depth, [])

/-- The pieces of a template from a place on. -/
def piecesFrom (p : Place) : List Char → List Piece
  | [] =>
    match p with
    | .plain => []
    | _ => [.malformed]
  | c :: cs =>
    match p.next c with
    | some (p, done) => done ++ piecesFrom p cs
    | none => [.malformed]

/-- The pieces of a template. -/
def pieces (cs : List Char) : List Piece :=
  piecesFrom .plain cs

end NodeScript.Template
