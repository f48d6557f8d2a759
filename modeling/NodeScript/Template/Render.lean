import NodeScript.Template.Layout
import NodeScript.Template.Piece

/-!
# Rendering templates

The text of a template has its fields replaced by values. A field may be converted to its text by
`!s` and to its quoted form by `!r` or `!a`, and its specification may hold fields, one level deep.
Fields are filled in from left to right, and the first fault is the fault of the template.
-/

namespace NodeScript.Template

/-- The quoted form of a target in ASCII characters only. -/
def quotedAscii (t : Target) : String :=
  String.ofList (t.quoted.toList.flatMap fun c =>
    if c.toNat < 0x80 then [c] else Text.numericEscape c)

/-- A target after the conversion that a field asks for. -/
def convert? (t : Target) : Option Char → Option Target
  | none => some t
  | some c =>
    if c == 'r' then some (.value (.text t.quoted))
    else if c == 's' then some (.value (.text t.render))
    else if c == 'a' then some (.value (.text (quotedAscii t)))
    else none

/-- Something that a template may lack. -/
def demand {α : Type} : Option α → Except TemplateFault α
  | some a => .ok a
  | none => .error .refused

/-- The text of a template whose fields are nested at most `depth` levels. -/
def renderNested (fields : Table String Value) :
    (depth : Nat) → List Char → Except TemplateFault (List Char)
  | 0, _ => .error .refused
  | depth + 1, cs => do
    let parts ← (pieces cs).mapM fun
      | .char c => pure [c]
      | .field path conversion spec => do
        let t ← demand (Target.ofPath? fields path)
        let t ← demand (convert? t conversion)
        let spec ← if spec.contains '{' then renderNested fields depth spec else pure spec
        formatTarget t spec
      | .malformed => throw .refused
    return parts.flatten

/-- The text of a template. -/
def render (fields : Table String Value) (template : String) : Except TemplateFault String :=
  (renderNested fields 2 template.toList).map String.ofList

end NodeScript.Template
