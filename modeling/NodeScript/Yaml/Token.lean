import NodeScript.Fault

/-!
# Tokens of YAML texts

The tokens that a YAML text falls into, and the ways in which reading can end early.
-/

namespace NodeScript.Yaml

/-- A line that tells how a document is to be read. -/
inductive Directive where
  /-- The version of YAML, by its first number. -/
  | version (major : Nat)
  /-- A short form for tags: the handle stands for the stem. -/
  | shorthand (handle stem : String)
  | other

/-- A token. -/
inductive Token where
  | streamEnd
  | directive (d : Directive)
  | documentStart
  | documentEnd
  | blockSequenceStart
  | blockMappingStart
  | blockEnd
  | flowSequenceStart
  | flowSequenceEnd
  | flowMappingStart
  | flowMappingEnd
  | blockEntry
  | flowEntry
  | key
  | value
  | alias (name : String)
  | anchor (name : String)
  | tag (handle : Option String) (suffix : String)
  | scalar (text : String) (plain : Bool)

/-- Why a text cannot be read. -/
inductive Stop where
  /-- It is not YAML, or not YAML of the safe kinds. -/
  | invalid
  /-- It is YAML, and a scalar in it is at fault. -/
  | fault (f : Fault)

end NodeScript.Yaml
