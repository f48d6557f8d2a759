import NodeScript.Proofs.Yields

/-!
# Reading constants back

The constants of a program can be read from its text. A literal between backticks ends at the next
backtick; one between double quotes ends at the first quote that is not escaped. The block of
constants has one line for each of them, numbered from zero on, and its end is told from its lines
by their first character, so texts may hold anything, lines of further constants included.
-/

namespace NodeScript

/-! ### Literals -/

namespace Literal

/-- Reads up to the next backtick. -/
def takeRaw : List Char → Option (List Char × List Char)
  | [] => none
  | c :: rest =>
    if c == backtick then some ([], rest) else (takeRaw rest).map fun r => (c :: r.1, r.2)

/-- Reads up to the first double quote that is not escaped. Only a backslash and a double quote can
be escaped. -/
def takeEscaped : List Char → Option (List Char × List Char)
  | [] => none
  | '"' :: rest => some ([], rest)
  | '\\' :: '\\' :: rest => (takeEscaped rest).map fun r => ('\\' :: r.1, r.2)
  | '\\' :: '"' :: rest => (takeEscaped rest).map fun r => ('"' :: r.1, r.2)
  | '\\' :: _ => none
  | c :: rest => (takeEscaped rest).map fun r => (c :: r.1, r.2)

/-- Reads a literal; gives its text and what follows it. -/
def take? : List Char → Option (List Char × List Char)
  | '"' :: rest => takeEscaped rest
  | c :: rest => if c == backtick then takeRaw rest else none
  | [] => none

lemma takeRaw_append {cs : List Char} (h : backtick ∉ cs) (rest : List Char) :
    takeRaw (cs ++ backtick :: rest) = some (cs, rest) := by
  induction cs with
  | nil => simp [takeRaw]
  | cons c cs ih =>
    rw [List.mem_cons, not_or] at h
    have hc : (c == backtick) = false := by simpa using Ne.symm h.1
    rw [List.cons_append, takeRaw, hc, ih h.2]
    simp

lemma takeEscaped_escape (c : Char) (rest : List Char) :
    takeEscaped (escape c ++ rest) = (takeEscaped rest).map fun r => (c :: r.1, r.2) := by
  unfold escape
  by_cases hb : c = '\\'
  · subst hb
    rfl
  by_cases hq : c = '"'
  · subst hq
    rfl
  · have he : (c == '\\' || c == '"') = false := by simp [hb, hq]
    rw [he]
    simp [takeEscaped, hb]

lemma takeEscaped_append (cs rest : List Char) :
    takeEscaped (cs.flatMap escape ++ '"' :: rest) = some (cs, rest) := by
  induction cs with
  | nil => rfl
  | cons c cs ih =>
    rw [List.flatMap_cons, List.append_assoc, takeEscaped_escape, ih]
    rfl

/-- A literal is read as the text that it was written for. -/
lemma take?_renderChars (cs rest : List Char) :
    take? (renderChars cs ++ rest) = some (cs, rest) := by
  unfold renderChars
  split_ifs with h
  · have happ := takeEscaped_append cs rest
    simpa [take?] using happ
  · have hraw : backtick ∉ cs := by
      intro hmem
      exact h (List.any_eq_true.2 ⟨_, hmem, rfl⟩)
    have happ := takeRaw_append hraw rest
    simpa [take?, backtick] using happ

end Literal

/-! ### The block of constants -/

namespace StringTable

/-- Reads the lines of a block from a position on, up to the line that ends it. -/
def takeLines (newline : List Char) :
    (bound index : Nat) → List Char → Option (List String × List Char)
  | 0, _, _ => none
  | bound + 1, index, cs =>
    match ('}' :: newline).isPrefixOf? cs with
    | some rest => some ([], rest)
    | none => do
      let cs ← (reference index ++ " = ").toList.isPrefixOf? cs
      let (s, cs) ← Literal.take? cs
      let cs ← newline.isPrefixOf? cs
      let (more, rest) ← takeLines newline bound (index + 1) cs
      return (String.ofList s :: more, rest)

/-- Reads the constants at the beginning of a text, none if it does not begin with a block of them.
Gives what follows them, too. -/
def takeConstants (newline : String) (text : String) : Option (List String × String) :=
  match ("const \x7b" ++ newline).toList.isPrefixOf? text.toList with
  | none => some ([], text)
  | some cs =>
    (takeLines newline.toList (cs.length + 1) 0 cs).map fun r => (r.1, String.ofList r.2)

lemma isPrefixOf?_append (l t : List Char) : l.isPrefixOf? (l ++ t) = some t := by
  induction l with
  | nil => cases t <;> rfl
  | cons c l ih => simp [List.isPrefixOf?, ih]

/-- The lines that declare some texts, as characters. -/
def lineChars (newline : List Char) (index : Nat) (strings : List String) : List Char :=
  (declarations index strings).flatMap fun line => line.toList ++ newline

lemma lineChars_cons (newline : List Char) (index : Nat) (s : String) (strings : List String) :
    lineChars newline index (s :: strings) =
      (reference index ++ " = ").toList ++
        (Literal.renderChars s.toList ++ (newline ++ lineChars newline (index + 1) strings)) := by
  simp [lineChars, declarations, Literal.render]

lemma length_le_lineChars (newline : List Char) (index : Nat) (strings : List String) :
    strings.length ≤ (lineChars newline index strings).length := by
  induction strings generalizing index with
  | nil => exact Nat.zero_le _
  | cons s strings ih =>
    have := ih (index + 1)
    rw [lineChars_cons]
    simp only [String.toList_append, List.length_append, List.length_cons]
    have hmark : " = ".toList.length = 3 := rfl
    omega

lemma takeLines_append (newline : List Char) (index : Nat) (strings : List String)
    (rest : List Char) {bound : Nat} (hb : strings.length < bound) :
    takeLines newline bound index (lineChars newline index strings ++ ('}' :: newline ++ rest)) =
      some (strings, rest) := by
  induction strings generalizing index bound with
  | nil =>
    obtain ⟨bound, rfl⟩ := Nat.exists_eq_add_one_of_ne_zero (Nat.ne_zero_of_lt hb)
    have hend := isPrefixOf?_append ('}' :: newline) rest
    simp only [takeLines, lineChars, declarations, List.flatMap_nil, List.nil_append, hend]
  | cons s strings ih =>
    obtain ⟨bound, rfl⟩ := Nat.exists_eq_add_one_of_ne_zero (Nat.ne_zero_of_lt hb)
    have hstart (t : List Char) :
        ('}' :: newline).isPrefixOf? ((reference index ++ " = ").toList ++ t) = none := by
      simp [reference, List.isPrefixOf?]
    rw [lineChars_cons, List.append_assoc, takeLines, hstart, isPrefixOf?_append]
    simp only [Option.bind_eq_bind, Option.bind_some, List.append_assoc, Literal.take?_renderChars,
      isPrefixOf?_append]
    rw [← List.append_assoc, List.append_assoc _ ('}' :: newline),
      ih (index + 1) (Nat.lt_of_succ_lt_succ hb)]
    simp

lemma toList_intercalate_append (newline line : String) (lines : List String) :
    (newline.intercalate (line :: lines) ++ newline).toList =
      (line :: lines).flatMap fun line => line.toList ++ newline.toList := by
  induction lines generalizing line with
  | nil => simp
  | cons next lines ih =>
    rw [String.intercalate_cons_cons, String.append_assoc, String.toList_append, ih]
    simp

lemma toList_renderBlock (newline s : String) (strings : List String) :
    (renderBlock newline (s :: strings)).toList =
      ("const \x7b" ++ newline).toList ++
        (lineChars newline.toList 0 (s :: strings) ++ '}' :: newline.toList) := by
  rw [renderBlock, if_neg (by simp), List.append_assoc, List.singleton_append,
    toList_intercalate_append]
  simp [lineChars]

/-- The constants of a block are read from it, whatever follows; only where there are none must what
follows not begin with such a block. -/
lemma takeConstants_renderBlock (newline : String) (strings : List String) {rest : String}
    (hrest : ("const \x7b" ++ newline).toList.isPrefixOf? rest.toList = none) :
    takeConstants newline (renderBlock newline strings ++ rest) = some (strings, rest) := by
  cases strings with
  | nil =>
    have hempty : renderBlock newline [] ++ rest = rest := String.empty_append
    rw [hempty, takeConstants, hrest]
  | cons s strings =>
    have htext : (renderBlock newline (s :: strings) ++ rest).toList =
        ("const \x7b" ++ newline).toList ++
          (lineChars newline.toList 0 (s :: strings) ++
            ('}' :: newline.toList ++ rest.toList)) := by
      rw [String.toList_append, toList_renderBlock, List.append_assoc, List.append_assoc]
    have hbound := length_le_lineChars newline.toList 0 (s :: strings)
    rw [takeConstants, htext, isPrefixOf?_append]
    dsimp only
    rw [takeLines_append]
    · simp
    · rw [List.length_append]
      omega

end StringTable

/-! ### Programs -/

namespace Program

/-- What follows the constants in the text of a program. -/
def afterConstants (p : Program) : String :=
  levelsBlock ++ renderBlocks p.blocks ++ newline ++ p.run.render

lemma isPrefixOf?_levelsBlock (text : String) :
    ("const \x7b" ++ newline).toList.isPrefixOf? (levelsBlock ++ text).toList = none := by
  simp only [String.toList_append]
  rfl

lemma takeConstants_render (p : Program) :
    StringTable.takeConstants newline p.render = some (p.constants, p.afterConstants) := by
  have hrender : p.render = StringTable.renderBlock newline p.constants ++ p.afterConstants := by
    simp only [render, afterConstants, String.append_assoc]
  rw [hrender]
  apply StringTable.takeConstants_renderBlock
  rw [afterConstants, String.append_assoc, String.append_assoc]
  exact isPrefixOf?_levelsBlock _

end Program

namespace Compile

/-- The constants of a program are those of the draft that it was made from. -/
lemma constants_of_program {h : Header} {defs : Table Value Definition} {root : Definition}
    {values : Value} {p : Program} {s s' : Draft}
    (hp : Yields (program h defs root values) s p s') :
    p.constants = s'.constants.table.strings := by
  simp only [program, programWith, Draft.report, yields_bind_iff, yields_liftFault_iff,
    yields_get_iff, yields_modify_iff, yields_pure_iff] at hp
  obtain ⟨_, _, -, _, _, -, _, _, -, _, s₁, -, _, _, ⟨rfl, rfl⟩, _, _, rfl, rfl, rfl⟩ := hp
  rfl

end Compile

/-- The texts of a table can be read from its block, whatever text follows the log levels; so the
text of a program tells its constants, which are those of the draft that it was made from. -/
theorem constants_read_back :
    (∀ (t : StringTable) (text : String),
      StringTable.takeConstants newline (t.render newline ++ (Program.levelsBlock ++ text)) =
        some (t.strings, Program.levelsBlock ++ text)) ∧
    ∀ (h : Header) (defs : Table Value Definition) (root : Definition) (values : Value)
      (p : Program) (s : Draft), Yields (Compile.program h defs root values) .empty p s →
        StringTable.takeConstants newline p.render =
          some (s.constants.table.strings, p.afterConstants) := by
  constructor
  · intro t text
    exact StringTable.takeConstants_renderBlock newline t.strings
      (Program.isPrefixOf?_levelsBlock text)
  · intro h defs root values p s hp
    rw [← Compile.constants_of_program hp]
    exact p.takeConstants_render

end NodeScript
