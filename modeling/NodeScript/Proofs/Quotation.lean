import NodeScript.Proofs.Execution
import NodeScript.Proofs.Reading
import NodeScript.Proofs.Signatures

/-!
# Names in literals

A function begins with a statement that traces its call, with the name of its definition between
backticks, and it opens its scope with the names of its parameters between double quotes. The names
are written as they are. So the name of the definition is read back if it holds no backtick. Between
double quotes a name is read back if it holds neither quote nor backslash; but a parameter is
followed by its name once more, outside of the literal, and there a backtick begins another literal.
-/

namespace NodeScript

/-! ### Statements with literals -/

namespace Literal

/-- The characters that begin or end a literal, or escape one that does. -/
def isQuoting (c : Char) : Bool :=
  c == backtick || c == '"' || c == '\\'

/-- Reads a call whose first argument is a literal; gives the text of the literal. -/
def argument? (function cs : List Char) : Option (List Char) := do
  let cs ← (function ++ ['(']).isPrefixOf? cs
  let (text, rest) ← take? cs
  match rest with
  | ',' :: _ | ')' :: _ => return text
  | _ => none

lemma takeRaw_eq_some_iff {cs text rest : List Char} :
    takeRaw cs = some (text, rest) ↔ backtick ∉ text ∧ cs = text ++ backtick :: rest := by
  constructor
  · intro h
    induction cs generalizing text with
    | nil => cases h
    | cons c cs ih =>
      rw [takeRaw] at h
      split_ifs at h with hc
      · cases h
        exact ⟨List.not_mem_nil, by rw [beq_iff_eq.1 hc]; rfl⟩
      · obtain ⟨⟨text, rest⟩, hcs, hr⟩ := Option.map_eq_some_iff.1 h
        cases hr
        obtain ⟨hraw, rfl⟩ := ih hcs
        refine ⟨?_, rfl⟩
        rw [List.mem_cons, not_or]
        exact ⟨fun he => hc (beq_iff_eq.2 he.symm), hraw⟩
  · rintro ⟨hraw, rfl⟩
    exact takeRaw_append hraw rest

/-- A text has one spelling between double quotes. -/
lemma takeEscaped_eq_some_iff {cs text rest : List Char} :
    takeEscaped cs = some (text, rest) ↔ cs = text.flatMap escape ++ '"' :: rest := by
  constructor
  · intro h
    fun_induction takeEscaped cs generalizing text with
    | case1 | case5 => cases h
    | case2 => cases h; rfl
    | case3 cs ih | case4 cs ih =>
      obtain ⟨⟨text, rest⟩, hcs, hr⟩ := Option.map_eq_some_iff.1 h
      cases hr
      rw [ih hcs]
      rfl
    | case6 c cs hquote _ _ hslash ih =>
      obtain ⟨⟨text, rest⟩, hcs, hr⟩ := Option.map_eq_some_iff.1 h
      cases hr
      rw [ih hcs, List.flatMap_cons, escape, if_neg (by simpa using ⟨hslash, hquote⟩)]
      rfl
  · rintro rfl
    exact takeEscaped_append text rest

lemma length_of_take? {c : Char} {cs text rest : List Char}
    (h : take? (c :: cs) = some (text, rest)) : rest.length ≤ cs.length := by
  unfold take? at h
  split at h
  · rename_i heq
    obtain ⟨-, rfl⟩ := List.cons.inj heq
    rw [takeEscaped_eq_some_iff.1 h]
    simp
    omega
  · rename_i heq
    obtain ⟨-, rfl⟩ := List.cons.inj heq
    split_ifs at h
    rw [(takeRaw_eq_some_iff.1 h).2]
    simp
    omega
  · cases h

/-- The literals of a statement, none if one of them does not end. -/
def literals : List Char → Option (List (List Char))
  | [] => some []
  | c :: cs =>
    if c == backtick || c == '"' then
      match h : take? (c :: cs) with
      | some (text, rest) =>
        have := length_of_take? h
        (literals rest).map (text :: ·)
      | none => none
    else literals cs
termination_by cs => cs.length

lemma literals_of_take? {c : Char} {cs : List Char} (hc : (c == backtick || c == '"') = true)
    {found : List (List Char)} :
    literals (c :: cs) = some found ↔ ∃ text rest more, take? (c :: cs) = some (text, rest) ∧
      literals rest = some more ∧ found = text :: more := by
  rw [literals, if_pos hc]
  split <;> rename_i h <;> simp [h, eq_comm]

/-- What is outside of literals is passed over. -/
lemma literals_append {outside : List Char} (hraw : backtick ∉ outside) (hquote : '"' ∉ outside)
    (cs : List Char) : literals (outside ++ cs) = literals cs := by
  induction outside with
  | nil => rfl
  | cons c outside ih =>
    obtain ⟨hc, hraw⟩ := not_or.1 (List.mem_cons.not.1 hraw)
    obtain ⟨hc', hquote⟩ := not_or.1 (List.mem_cons.not.1 hquote)
    rw [List.cons_append, literals, if_neg (by simp [Ne.symm hc, Ne.symm hc']), ih hraw hquote]

lemma literals_backtick {cs : List Char} {found : List (List Char)} :
    literals (backtick :: cs) = some found ↔ ∃ text rest more, takeRaw cs = some (text, rest) ∧
      literals rest = some more ∧ found = text :: more :=
  literals_of_take? rfl

lemma literals_quote {cs : List Char} {found : List (List Char)} :
    literals ('"' :: cs) = some found ↔ ∃ text rest more, takeEscaped cs = some (text, rest) ∧
      literals rest = some more ∧ found = text :: more :=
  literals_of_take? rfl

/-! ### Names written as they are -/

/-- A text without quotes and backslashes. -/
def IsPlain (text : List Char) : Prop :=
  ∀ c ∈ text, isQuoting c = false

lemma isQuoting_eq_false_iff {c : Char} :
    isQuoting c = false ↔ c ≠ backtick ∧ c ≠ '"' ∧ c ≠ '\\' := by
  simp [isQuoting, and_assoc]

lemma flatMap_escape {text : List Char} (h : ∀ c ∈ text, c ≠ '"' ∧ c ≠ '\\') :
    text.flatMap escape = text := by
  induction text with
  | nil => rfl
  | cons c text ih =>
    obtain ⟨⟨hquote, hslash⟩, htext⟩ := List.forall_mem_cons.1 h
    rw [List.flatMap_cons, ih htext]
    simp [escape, hquote, hslash]

/-- A text is not what is read if a backslash comes before it. The backslashes that must be there to
escape those that are read become ever more. -/
lemma append_ne_escape (count : Nat) (text rest rest' : List Char) :
    text ++ '"' :: rest ≠
      List.replicate (count + 1) '\\' ++ (text.flatMap escape ++ '"' :: rest') := by
  induction text generalizing count with
  | nil => simp [List.replicate_succ]
  | cons c text ih =>
    intro h
    rw [List.replicate_succ, List.cons_append, List.cons_append] at h
    obtain ⟨rfl, h⟩ := List.cons.inj h
    refine ih (count + 1) (h.trans ?_)
    simp [List.flatMap_cons, escape, List.replicate_succ' (n := count + 1),
      List.replicate_succ' (n := count)]

/-- Between double quotes, a text that is written as it is is read back just if nothing in it has to
be escaped. -/
lemma takeEscaped_verbatim_iff {text rest rest' : List Char} :
    takeEscaped (text ++ '"' :: rest) = some (text, rest') ↔
      (∀ c ∈ text, c ≠ '"' ∧ c ≠ '\\') ∧ rest' = rest := by
  rw [takeEscaped_eq_some_iff]
  constructor
  · intro h
    induction text with
    | nil => exact ⟨List.forall_mem_nil _, by simpa using h.symm⟩
    | cons c text ih =>
      rw [List.forall_mem_cons]
      rw [List.flatMap_cons, escape] at h
      split_ifs at h with hc
      · -- a backslash stands before the character that is read
        obtain ⟨rfl, h⟩ := List.cons.inj h
        exact (append_ne_escape 0 text rest rest' h).elim
      · obtain ⟨htext, rfl⟩ := ih (List.cons.inj h).2
        simp only [Bool.or_eq_true, beq_iff_eq, not_or] at hc
        exact ⟨⟨hc.symm, htext⟩, rfl⟩
  · rintro ⟨htext, rfl⟩
    rw [flatMap_escape htext]

/-- A variable with its name, after another one. -/
def nextVariable (name : List Char) : List Char :=
  ',' :: '"' :: (name ++ '"' :: ',' :: ' ' :: name)

/-- The variables that follow another one in the opening of a scope. -/
def nextVariables (names : List (List Char)) : List Char :=
  names.flatMap nextVariable ++ [')']

lemma nextVariables_cons (name : List Char) (names : List (List Char)) :
    nextVariables (name :: names) =
      ',' :: '"' :: (name ++ '"' :: ([',', ' '] ++ name ++ nextVariables names)) := by
  simp [nextVariables, nextVariable]

lemma nextVariables_append (names names' : List (List Char)) :
    nextVariables (names ++ names') = names.flatMap nextVariable ++ nextVariables names' := by
  simp [nextVariables]

lemma literals_nextVariables_cons {name : List Char} {names found : List (List Char)} :
    literals (nextVariables (name :: names)) = some found ↔ ∃ text rest more,
      takeEscaped (name ++ '"' :: ([',', ' '] ++ name ++ nextVariables names)) = some (text, rest) ∧
        literals rest = some more ∧ found = text :: more := by
  rw [nextVariables_cons, ← literals_quote]
  exact Eq.congr_left (literals_append (by decide : backtick ∉ [',']) (by decide) _)

lemma IsPlain.unquoted {text : List Char} (h : IsPlain text) :
    ∀ c ∈ text, c ≠ '"' ∧ c ≠ '\\' :=
  fun c hc => (isQuoting_eq_false_iff.1 (h c hc)).2

lemma IsPlain.not_mem {text : List Char} (h : IsPlain text) : backtick ∉ text :=
  fun hmem => (isQuoting_eq_false_iff.1 (h _ hmem)).1 rfl

lemma isPlain_iff {text : List Char} :
    IsPlain text ↔ (∀ c ∈ text, c ≠ '"' ∧ c ≠ '\\') ∧ backtick ∉ text := by
  refine ⟨fun h => ⟨h.unquoted, h.not_mem⟩, fun ⟨hunquoted, hraw⟩ c hc => ?_⟩
  exact isQuoting_eq_false_iff.2 ⟨fun he => hraw (he ▸ hc), hunquoted c hc⟩

lemma not_mem_nextVariable {name : List Char} (h : IsPlain name) :
    backtick ∉ nextVariable name := by
  have hname := h.not_mem
  simp only [nextVariable, List.mem_cons, List.mem_append, not_or]
  exact ⟨by decide, by decide, hname, by decide, by decide, by decide, hname⟩

/-- A reader of variables is ahead of their names: what it reads is expected to be `names`, but it
still has those of `given` before it, or a backtick in `outside`, which the names do not account
for. -/
structure Ahead (outside : List Char) (given names : List (List Char)) : Prop where
  unquoted : ∀ c ∈ outside, c ≠ '"' ∧ c ≠ '\\'
  plain : ∀ name ∈ given, IsPlain name
  ahead : given ≠ [] ∨ backtick ∈ outside
  reads : literals (outside ++ nextVariables (given ++ names)) = some names

/-- A literal is not closed before the variable whose name it should be. -/
lemma text_ne_of_unclosed {after text rest : List Char} {given names : List (List Char)}
    (hafter : backtick ∉ after) (hgiven : ∀ name ∈ given, IsPlain name) (htext : backtick ∉ text) :
    after ++ nextVariables (given ++ text :: names) ≠ text ++ backtick :: rest := by
  intro h
  rw [nextVariables_append, nextVariables_cons] at h
  have hgiven' : backtick ∉ given.flatMap nextVariable := by
    rw [List.mem_flatMap]
    rintro ⟨name, hname, hmem⟩
    exact not_mem_nextVariable (hgiven name hname) hmem
  have hsplit : (after ++ (given.flatMap nextVariable ++ ',' :: '"' :: text)) ++
      '"' :: ([',', ' '] ++ text ++ nextVariables names) = text ++ backtick :: rest := by
    rw [← h]
    simp
  obtain ⟨more, htext', -⟩ | ⟨more, hall, hmore⟩ := List.append_eq_append_iff.1 hsplit
  · have hlength := congrArg List.length htext'
    simp only [List.length_append, List.length_cons] at hlength
    omega
  · cases more with
    | nil =>
      have hlength := congrArg List.length hall
      simp only [List.length_append, List.length_cons, List.length_nil] at hlength
      omega
    | cons c more =>
      have hmem : backtick ∈ text ++ c :: more := by
        rw [(List.cons.inj hmore).1]
        simp
      rw [← hall] at hmem
      simp only [List.mem_append, List.mem_cons, hafter, hgiven', htext, false_or, or_false] at hmem
      exact hmem.elim (by decide) (by decide)

namespace Ahead

variable {outside : List Char} {given names : List (List Char)}

/-- A reader that is ahead stays so after each name that it reads. -/
lemma step (h : Ahead outside given names) :
    ∃ name names' outside' given', names = name :: names' ∧ Ahead outside' given' names' := by
  have hreads := h.reads
  by_cases hraw : backtick ∈ outside
  · obtain ⟨before, after, rfl, hbefore⟩ := List.eq_append_cons_of_mem hraw
    have hunquoted := List.forall_mem_append.1 h.unquoted
    rw [List.append_assoc, literals_append hbefore fun hquote => (hunquoted.1 _ hquote).1 rfl,
      List.cons_append, literals_backtick] at hreads
    obtain ⟨text, rest, names', htake, hnames', rfl⟩ := hreads
    by_cases hafter : backtick ∈ after
    · -- a literal inside of what was to be passed over
      obtain ⟨text', after', rfl, htext'⟩ := List.eq_append_cons_of_mem hafter
      rw [List.append_assoc, List.cons_append, takeRaw_append htext', Option.some.injEq,
        Prod.mk.injEq] at htake
      obtain ⟨rfl, rfl⟩ := htake
      have hunquoted' := List.forall_mem_append.1 (List.forall_mem_cons.1 hunquoted.2).2
      refine ⟨_, names', after', given ++ [text'], rfl, ?_, ?_, .inl (by simp), ?_⟩
      · exact (List.forall_mem_cons.1 hunquoted'.2).2
      · rw [List.forall_mem_append, List.forall_mem_singleton]
        exact ⟨h.plain, isPlain_iff.2 ⟨hunquoted'.1, htext'⟩⟩
      · rw [List.append_assoc]
        exact hnames'
    · obtain ⟨htext, hsplit⟩ := takeRaw_eq_some_iff.1 htake
      exact (text_ne_of_unclosed hafter h.plain htext hsplit).elim
  · obtain ⟨name, given, rfl⟩ := List.exists_cons_of_ne_nil (h.ahead.resolve_right hraw)
    obtain ⟨hname, hgiven⟩ := List.forall_mem_cons.1 h.plain
    rw [literals_append hraw fun hquote => (h.unquoted _ hquote).1 rfl, List.cons_append,
      literals_nextVariables_cons, takeEscaped_verbatim_iff.2 ⟨hname.unquoted, rfl⟩] at hreads
    obtain ⟨text, rest, names', htake, hnames', rfl⟩ := hreads
    obtain ⟨rfl, rfl⟩ := Prod.mk.inj (Option.some.inj htake)
    refine ⟨name, names', [',', ' '] ++ name, given ++ [name], rfl, ?_, ?_, .inl (by simp), ?_⟩
    · rw [List.forall_mem_append]
      exact ⟨by simp, hname.unquoted⟩
    · rw [List.forall_mem_append, List.forall_mem_singleton]
      exact ⟨hgiven, hname⟩
    · rw [List.append_assoc given]
      exact hnames'

/-- A reader that is ahead never comes to the end of the names. -/
lemma elim (h : Ahead outside given names) : False := by
  induction names generalizing outside given with
  | nil =>
    obtain ⟨_, _, _, _, hnames, -⟩ := h.step
    cases hnames
  | cons name names ih =>
    obtain ⟨_, _, _, _, hnames, h⟩ := h.step
    cases hnames
    exact ih h

end Ahead

/-- The names of variables are read from the opening of a scope just if all of them are plain. -/
lemma literals_nextVariables_iff (names : List (List Char)) :
    literals (nextVariables names) = some names ↔ ∀ name ∈ names, IsPlain name := by
  induction names with
  | nil =>
    simp [nextVariables, literals, backtick]
  | cons name names ih =>
    rw [literals_nextVariables_cons, List.forall_mem_cons, ← ih]
    have hskip (hname : IsPlain name) :
        literals ([',', ' '] ++ name ++ nextVariables names) = literals (nextVariables names) := by
      refine literals_append ?_ ?_ _
      · simpa [backtick] using hname.not_mem
      · simpa using fun hquote => (hname.unquoted _ hquote).1 rfl
    constructor
    · rintro ⟨text, rest, names', htake, hnames', heq⟩
      obtain ⟨rfl, rfl⟩ := List.cons.inj heq
      obtain ⟨hunquoted, rfl⟩ := takeEscaped_verbatim_iff.1 htake
      by_cases hraw : backtick ∈ name
      · have hahead : Ahead ([',', ' '] ++ name) [] names :=
          ⟨List.forall_mem_append.2 ⟨by simp, hunquoted⟩, List.forall_mem_nil _,
            .inr (List.mem_append_right _ hraw), hnames'⟩
        exact hahead.elim.elim
      · have hname := isPlain_iff.2 ⟨hunquoted, hraw⟩
        exact ⟨hname, hskip hname ▸ hnames'⟩
    · rintro ⟨hname, hnames⟩
      exact ⟨name, _, names, takeEscaped_verbatim_iff.2 ⟨hname.unquoted, rfl⟩,
        (hskip hname).trans hnames, rfl⟩

/-- A text that is written between backticks as it is is read back just if it holds none. -/
lemma argument?_verbatim_iff (function text : List Char) {c : Char} (rest : List Char)
    (hc : c = ',' ∨ c = ')') :
    argument? function (function ++ '(' :: backtick :: (text ++ backtick :: c :: rest)) =
      some text ↔ backtick ∉ text := by
  have hprefix : (function ++ ['(']).isPrefixOf?
      (function ++ '(' :: backtick :: (text ++ backtick :: c :: rest)) =
        some (backtick :: (text ++ backtick :: c :: rest)) := by
    rw [← StringTable.isPrefixOf?_append (function ++ ['('])]
    simp
  have htake (cs : List Char) : take? (backtick :: cs) = takeRaw cs := rfl
  rw [argument?, hprefix]
  simp only [Option.bind_eq_bind, Option.bind_some, htake]
  constructor
  · intro h
    obtain ⟨⟨text', rest'⟩, htext, h⟩ := Option.bind_eq_some_iff.1 h
    have heq : text' = text := by
      dsimp only at h
      split at h <;> cases h <;> rfl
    exact heq ▸ (takeRaw_eq_some_iff.1 htext).1
  · intro hraw
    rw [takeRaw_append hraw]
    obtain rfl | rfl := hc <;> rfl

end Literal

/-! ### The statements of functions -/

namespace Statement

/-- The name of a definition is read from the statement that traces a call just if it holds no
backtick. -/
lemma argument?_trace_iff (definition : Value) (names : List Value) :
    Literal.argument? "initcmd".toList (trace definition names).render.toList =
        some definition.render.toList ↔
      Literal.backtick ∉ definition.render.toList := by
  obtain ⟨c, rest, hc, hrest⟩ : ∃ c rest, (c = ',' ∨ c = ')') ∧
      (String.join (names.map fun x => "," ++ x.render) ++ ")").toList = c :: rest := by
    cases names with
    | nil => exact ⟨')', [], .inr rfl, rfl⟩
    | cons x names => exact ⟨',', _, .inl rfl, by simp; rfl⟩
  have htext : (trace definition names).render.toList = "initcmd".toList ++ '(' ::
      Literal.backtick :: (definition.render.toList ++ Literal.backtick :: c :: rest) := by
    rewrite [← hrest]
    dsimp only [render]
    simp [Literal.backtick]
  rw [htext]
  exact Literal.argument?_verbatim_iff _ _ rest hc

lemma toList_variables (name : Value) (names : List Value) :
    (",".intercalate ((name :: names).map ScopeBlock.renderVariable) ++ ")").toList =
      '"' :: (name.render.toList ++ '"' :: ([',', ' '] ++ name.render.toList ++
        Literal.nextVariables (names.map fun name => name.render.toList))) := by
  induction names generalizing name with
  | nil => simp [ScopeBlock.renderVariable, Literal.nextVariables]
  | cons name' names ih =>
    rw [List.map_cons, List.map_cons, String.intercalate_cons_cons, String.append_assoc,
      String.toList_append, ← List.map_cons, ih, List.map_cons, Literal.nextVariables_cons]
    simp [ScopeBlock.renderVariable]

/-- The names of variables are read from the opening of a scope just if all of them are plain. -/
lemma literals_openScope_iff (names : List Value) :
    Literal.literals (openScope names).render.toList =
        some (names.map fun name => name.render.toList) ↔
      ∀ name ∈ names, Literal.IsPlain name.render.toList := by
  have htext : (openScope names).render.toList = "init(".toList ++
      (",".intercalate (names.map ScopeBlock.renderVariable) ++ ")").toList :=
    (congrArg String.toList String.append_assoc).trans String.toList_append
  have hword : Literal.backtick ∉ "init(".toList ∧ '"' ∉ "init(".toList := by
    simp [Literal.backtick]
  have hliterals : Literal.literals (openScope names).render.toList =
      Literal.literals (Literal.nextVariables (names.map fun name => name.render.toList)) := by
    rw [htext, Literal.literals_append hword.1 hword.2]
    cases names with
    | nil => rfl
    | cons name names =>
      rw [toList_variables, List.map_cons, Literal.nextVariables_cons]
      exact (Literal.literals_append (by decide : Literal.backtick ∉ [',']) (by decide) _).symm
  rw [hliterals, Literal.literals_nextVariables_iff, List.forall_mem_map]

end Statement

/-- A function opens its own scope only. -/
lemma FunctionBlock.openScope_mem_iff (f : FunctionBlock) (names : List Value) :
    Statement.openScope names ∈ f.statements ↔ ∃ b, f.scope = some b ∧ b.names = names := by
  have hbody : Statement.openScope names ∈ f.body ↔ ∃ b, f.scope = some b ∧ b.names = names := by
    rw [body]
    cases f.scope <;> simp [ScopeBlock.statements, eq_comm]
  rw [statements, leveled]
  split_ifs <;> simp [hbody]

namespace Compile

variable {h : Header} {defs : Catalogue} {root : Definition} {values : Value} {p : Program}

lemma Uses.names_eq {n : Node} {d : Definition} {args : List Argument} {s s' : Draft}
    (hu : Uses h defs n d args s s') : args.map (·.name) = d.params.map (·.name) := by
  have hnames := congrArg (List.map Prod.snd) hu.declared_eq
  rw [List.map_map, List.map_map] at hnames
  exact hnames

/-- The name of a definition is read from the first statement of its function just if it holds no
backtick. A function opens a scope just if its definition has a tree and is no code of the user, and
the names of the parameters are read from the opening just if all of them are plain. -/
theorem names_read_back_iff (hp : (Draft.empty.perform (program h defs root values)).1 = .ok p) :
    (∃ vs, Traces h defs root values p vs) ∧
    ∀ vs, Traces h defs root values p vs →
      (∀ f ∈ p.functions, ∃ v ∈ vs, v.block = some (.function f)) ∧
      ∀ v ∈ vs, ∀ f, v.block = some (.function f) →
        Table.get? defs v.node.name = some v.definition ∧
        f.render = f.source ∧
        (∃ first name, f.statements.head? = some first ∧ v.definition.name = .text name ∧
          (Literal.argument? "initcmd".toList first.render.toList = some name.toList ↔
            Literal.backtick ∉ name.toList)) ∧
        ((∃ names, Statement.openScope names ∈ f.statements) ↔
          v.definition.isSourceCode = false ∧ v.definition.tree ≠ []) ∧
        ∀ names, Statement.openScope names ∈ f.statements →
          (Literal.literals (Statement.openScope names).render.toList =
              some (v.definition.params.map fun q => q.name.render.toList) ↔
            ∀ q ∈ v.definition.params, Literal.IsPlain q.name.render.toList) := by
  refine ⟨exists_traces hp, fun vs ht => ⟨fun f hf => ht.mem_functions_iff.1 hf, ?_⟩⟩
  intro v hv f hf
  obtain ⟨s, s', hc, -⟩ := ht.compiles
  obtain ⟨_, _, huses, -⟩ := hc.usedBefore v hv
  have hnamed : f.definition = v.definition.name := (hc.fits v hv).function_definition hf
  have htrace := Statement.argument?_trace_iff v.definition.name (f.params.map (·.2))
  refine ⟨hc.resolved hv, f.render_eq_source, ?_, ?_, ?_⟩
  · obtain ⟨name, hname⟩ : ∃ name, v.definition.name = .text name := by
      obtain ⟨-, hname, -⟩ | ⟨source, -⟩ := hc.cases_of_block hv hf
      · exact hname
      · exact ⟨_, (Value.same_text_iff _ _).1 source⟩
    rw [hname] at htrace
    exact ⟨_, name, rfl, hname, by rwa [hnamed, hname]⟩
  · simp only [f.openScope_mem_iff]
    obtain ⟨ordinary, -, _, _, _, _, _, rfl⟩ | ⟨source, _, _, _, rfl⟩ := hc.cases_of_block hv hf
    · by_cases htree : v.definition.tree = [] <;> simp [functionOf, ordinary, htree]
    · simp [sourceFunction, source]
  · intro names hmem
    obtain ⟨b, hb, rfl⟩ := (f.openScope_mem_iff names).1 hmem
    have hnames : b.names = v.definition.params.map (·.name) := by
      obtain ⟨-, -, _, _, _, _, _, rfl⟩ | ⟨-, _, _, _, rfl⟩ := hc.cases_of_block hv hf
      · simp only [functionOf] at hb
        split_ifs at hb
        cases hb
        exact huses.names_eq
      · cases hb
    have hiff := Statement.literals_openScope_iff b.names
    rw [hnames, List.map_map, List.forall_mem_map] at hiff
    rw [hnames]
    exact hiff

/-- A definition with quotes in its name and with a percent sign in that of a parameter. -/
def greeters : Catalogue :=
  [("say \"hi\"", {
      name := "say \"hi\""
      params := [{ name := "50% off" }, { name := "it\x27s" }]
      tree := [.mk "note" false [] []] }),
    ("note", { name := "note" })]

/-- A root that uses it. -/
def greetersRoot : Definition where
  name := "main"
  tree := [.mk "say \"hi\"" false [] []]

/-- All names of the greeters are read back. -/
theorem greeters_read_back : ∃ p,
    (Draft.empty.perform (program .standard greeters greetersRoot (.table []))).1 = .ok p ∧
      p.functions.length = 2 ∧
      ∀ f ∈ p.functions, ∃ first, f.statements.head? = some first ∧ ∃ e ∈ greeters,
        Literal.argument? "initcmd".toList first.render.toList = some e.2.name.render.toList ∧
        ∀ names, Statement.openScope names ∈ f.statements →
          Literal.literals (Statement.openScope names).render.toList =
            some (e.2.params.map fun q => q.name.render.toList) := by
  have hshape : ((Draft.empty.perform (program .standard greeters greetersRoot (.table [])))
      |>.1.toOption.any fun p => p.functions.length == 2) = true := by decide +kernel
  cases hp : (Draft.empty.perform (program .standard greeters greetersRoot (.table []))).1 with
  | error e => rw [hp] at hshape; cases hshape
  | ok p =>
    rw [hp] at hshape
    refine ⟨p, rfl, beq_iff_eq.1 hshape, fun f hf => ?_⟩
    obtain ⟨⟨vs, ht⟩, hall⟩ := names_read_back_iff hp
    obtain ⟨hfunctions, hnames⟩ := hall vs ht
    obtain ⟨v, hv, hblock⟩ := hfunctions f hf
    obtain ⟨hget, -, ⟨first, name, hfirst, hname, htrace⟩, -, hscope⟩ := hnames v hv f hblock
    obtain ⟨k, hmem, -⟩ := Table.exists_mem_of_get? hget
    have hraw : ∀ e ∈ greeters, Literal.backtick ∉ e.2.name.render.toList := by decide +kernel
    have hplain : ∀ e ∈ greeters, ∀ q ∈ e.2.params, Literal.IsPlain q.name.render.toList := by
      simp [greeters, Literal.IsPlain, Literal.isQuoting, Literal.backtick, Value.render]
    refine ⟨first, hfirst, _, hmem, ?_, fun names hopen => (hscope names hopen).2 (hplain _ hmem)⟩
    have hraw' := hraw _ hmem
    rw [hname] at hraw' ⊢
    exact htrace.2 hraw'

/-- A definition with a backtick in its name. -/
def tickDefs : Catalogue := [("a\x60b", { name := "a\x60b" })]

/-- A root that uses it. -/
def tickRoot : Definition where
  name := "main"
  tree := [.mk "a\x60b" false [] []]

/-- The literal ends at the backtick in the name, and what follows is no further argument. -/
theorem tick_name_not_read_back : ∃ p,
    (Draft.empty.perform (program .standard tickDefs tickRoot (.table []))).1 = .ok p ∧
      ∃ f ∈ p.functions, f.definition = .text "a\x60b" ∧
        ∀ first ∈ f.statements.head?,
          Literal.argument? "initcmd".toList first.render.toList = none := by
  have hshape : ((Draft.empty.perform (program .standard tickDefs tickRoot (.table [])))
      |>.1.toOption.any fun p => p.functions.any fun f => f.definition == .text "a\x60b" &&
        f.statements.head?.all fun first =>
          (Literal.argument? "initcmd".toList first.render.toList).isNone) = true := by
    decide +kernel
  cases hp : (Draft.empty.perform (program .standard tickDefs tickRoot (.table []))).1 with
  | error e => rw [hp] at hshape; cases hshape
  | ok p =>
    rw [hp] at hshape
    obtain ⟨f, hf, hread⟩ := List.any_eq_true.1 hshape
    rw [Bool.and_eq_true, beq_iff_eq] at hread
    refine ⟨p, rfl, f, hf, hread.1, fun first hfirst => ?_⟩
    have hnone := hread.2
    rw [hfirst] at hnone
    exact Option.isNone_iff_eq_none.1 hnone

end Compile

end NodeScript
