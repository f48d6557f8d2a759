import NodeScript.Checksum
import NodeScript.Journal
import NodeScript.Literal
import NodeScript.Text.Hex
import NodeScript.Value.Table

/-!
# String tables

The texts that a program uses are kept in one table of constants, each text once, in the order in
which it was first used. Texts are found by a hash; texts with the same hash share a bucket of
positions and are told apart by comparison, so that the table is right for every hash.
-/

namespace NodeScript

instance : TableKey Int := ⟨fun a b => a == b⟩

/-- The texts of a program, with their positions by hash. -/
structure StringTable where
  strings : List String
  buckets : Table Int (List Nat)

namespace StringTable

/-- The table without texts. -/
def empty : StringTable := ⟨[], []⟩

/-- The name of the constant at a position. -/
def reference (index : Nat) : String :=
  "STR" ++ toString index

/-- The hash that is used for programs. -/
def standardHash (s : String) : Int :=
  (Checksum.ofText s).toNat

/-- The text of a hash in reports. -/
def hashText (n : Int) : String :=
  let digits := Nat.toDigits 16 n.natAbs
  String.ofList (if n < 0 then '-' :: Text.padLeft '0' 15 digits else Text.padLeft '0' 16 digits)

/-- The report that a new text shares its hash with another. -/
def collisionReport (digest : Int) : Report :=
  ⟨.debug, s!"Hash collision {hashText digest}: adding distinct constant"⟩

/-- The positions of the texts with a hash. -/
def bucket (t : StringTable) (digest : Int) : List Nat :=
  (t.buckets.get? digest).getD []

/-- The position of a text, which is added if it is not there. -/
def intern (hash : String → Int) (t : StringTable) (s : String) : Nat × StringTable × Journal :=
  let digest := hash s
  let bucket := t.bucket digest
  match bucket.find? fun i => t.strings[i]? == some s with
  | some i => (i, t, [])
  | none =>
    let index := t.strings.length
    let next := ⟨t.strings ++ [s], t.buckets.put digest (bucket ++ [index])⟩
    (index, next, if bucket.isEmpty then [] else [collisionReport digest])

/-- The lines that declare some texts, from a position on. -/
def declarations (index : Nat) : List String → List String
  | [] => []
  | s :: rest => (reference index ++ " = " ++ Literal.render s) :: declarations (index + 1) rest

/-- The block that declares some texts as constants; nothing for no texts. -/
def renderBlock (newline : String) (strings : List String) : String :=
  if strings.isEmpty then ""
  else
    newline.intercalate (["const \x7b"] ++ declarations 0 strings ++ ["\x7d"]) ++ newline

/-- The block that declares the texts of the table. -/
def render (t : StringTable) (newline : String) : String :=
  renderBlock newline t.strings

end StringTable

end NodeScript
