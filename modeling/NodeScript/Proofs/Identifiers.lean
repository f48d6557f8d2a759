import NodeScript.Proofs.Capture

/-!
# Well-formed identifiers

Whatever a name is, its identifier has one of three forms: a lone underscore, an underscore before a
digit, or a letter at its start, with nothing but letters and digits after that. Texts of these
forms are their own identifiers, so to take the identifier of an identifier changes nothing.

A number at its end leaves an identifier a word of letters, digits and underscores that does not
begin with a digit. So are the identifiers of all functions, whatever was compiled before and
whether it failed or not.
-/

namespace NodeScript

/-! ### Normal forms -/

namespace Identifier

/-- The forms of identifiers. -/
inductive Normal : List Char → Prop
  | bare : Normal ['_']
  | digit {d : Char} {rest : List Char} (start : d.isDigit = true)
      (plain : ∀ c ∈ rest, c.isAlphanum = true) : Normal ('_' :: d :: rest)
  | letter {l : Char} {rest : List Char} (start : l.isAlpha = true)
      (plain : ∀ c ∈ rest, c.isAlphanum = true) : Normal (l :: rest)

lemma not_isDigit_of_isAlpha {c : Char} (hc : c.isAlpha = true) : c.isDigit = false := by
  grind [Char.isAlpha, Char.isUpper, Char.isLower, Char.isDigit]

lemma not_isSeparator_of_isAlphanum {c : Char} (hc : c.isAlphanum = true) :
    isSeparator c = false := by
  by_contra hsep
  simp only [isSeparator, Bool.not_eq_false, Bool.or_eq_true, beq_iff_eq] at hsep
  obtain ((rfl | rfl) | rfl) | rfl := hsep <;> cases hc

lemma normal_guardStart {cs : List Char} (hcs : ∀ c ∈ cs, c.isAlphanum = true) :
    Normal (guardStart cs) := by
  cases cs with
  | nil => exact .bare
  | cons c rest =>
    obtain ⟨hc, hrest⟩ := List.forall_mem_cons.1 hcs
    rw [guardStart]
    split_ifs with hdigit
    · exact .digit hdigit hrest
    · rw [Char.isAlphanum, Bool.or_eq_true] at hc
      exact .letter (hc.resolve_right hdigit) hrest

/-- The identifier of a name has one of the forms. What stays of the words are letters and digits,
because the only other character that may stay divides words. -/
lemma normal_ofChars (cs : List Char) : Normal (ofChars cs) := by
  rw [ofChars]
  split
  · exact .bare
  next w ws hwords =>
    refine normal_guardStart fun c hc => ?_
    obtain ⟨hmem, hkept⟩ := List.mem_filter.1 hc
    rw [isKept, Bool.or_eq_true, beq_iff_eq] at hkept
    refine hkept.resolve_right ?_
    rintro rfl
    exact underscore_not_mem_joined hwords hmem

lemma normal_ofName (s : String) : Normal (ofName s).toList := by
  rw [ofName, String.toList_ofList]
  exact normal_ofChars s.toList

/-! ### Normal forms are their own identifiers -/

lemma parts_of_unseparated {cs : List Char} (hcs : ∀ c ∈ cs, isSeparator c = false) :
    parts cs = [cs] := by
  induction cs with
  | nil => rfl
  | cons c cs ih =>
    obtain ⟨hc, hrest⟩ := List.forall_mem_cons.1 hcs
    rw [parts, hc, ih hrest]
    rfl

/-- Letters and digits stay as they are, behind an underscore where that is needed. -/
lemma ofChars_of_isAlphanum {cs : List Char} (hne : cs ≠ [])
    (hcs : ∀ c ∈ cs, c.isAlphanum = true) : ofChars cs = guardStart cs := by
  have hwords : words cs = [cs] := by
    rw [words, parts_of_unseparated fun c hc => not_isSeparator_of_isAlphanum (hcs c hc)]
    simpa using hne
  have hkept : cs.filter isKept = cs :=
    List.filter_eq_self.2 fun c hc => by rw [isKept, hcs c hc, Bool.true_or]
  rw [ofChars, hwords]
  simp [hkept]

/-- A separator at the start of a name does not count. -/
lemma ofChars_cons_of_isSeparator {c : Char} (hc : isSeparator c = true) (cs : List Char) :
    ofChars (c :: cs) = ofChars cs := by
  have hwords : words (c :: cs) = words cs := by
    rw [words, parts, if_pos hc]
    rfl
  rw [ofChars, ofChars, hwords]

lemma Normal.ofChars_eq {cs : List Char} (hcs : Normal cs) : ofChars cs = cs := by
  cases hcs with
  | bare => rfl
  | @digit d rest start plain =>
    have halnum : ∀ c ∈ d :: rest, c.isAlphanum = true :=
      List.forall_mem_cons.2 ⟨by rw [Char.isAlphanum, start, Bool.or_true], plain⟩
    rw [ofChars_cons_of_isSeparator rfl, ofChars_of_isAlphanum (by simp) halnum, guardStart,
      if_pos start]
  | @letter l rest start plain =>
    have halnum : ∀ c ∈ l :: rest, c.isAlphanum = true :=
      List.forall_mem_cons.2 ⟨by rw [Char.isAlphanum, start, Bool.true_or], plain⟩
    rw [ofChars_of_isAlphanum (by simp) halnum, guardStart, not_isDigit_of_isAlpha start]
    rfl

/-- A text is its own identifier just if it has one of the forms. -/
lemma ofName_eq_self_iff {s : String} : ofName s = s ↔ Normal s.toList := by
  constructor
  · intro h
    exact h ▸ normal_ofName s
  · intro h
    rw [ofName, h.ofChars_eq, String.ofList_toList]

/-! ### Words -/

/-- A word: a letter or an underscore, and then letters, digits and underscores. -/
def IsWord (s : String) : Prop :=
  ∃ c rest, s.toList = c :: rest ∧ (c.isAlpha = true ∨ c = '_') ∧ ∀ d ∈ rest, isKept d = true

lemma IsWord.isKept {s : String} (hs : IsWord s) : ∀ c ∈ s.toList, isKept c = true := by
  obtain ⟨c, rest, htext, hstart, hrest⟩ := hs
  rw [htext]
  refine List.forall_mem_cons.2 ⟨?_, hrest⟩
  obtain hc | rfl := hstart
  · simp [Identifier.isKept, Char.isAlphanum, hc]
  · rfl

lemma IsWord.numbered {s : String} (hs : IsWord s) (n : Nat) : IsWord (s ++ toString n) := by
  obtain ⟨c, rest, htext, hstart, hrest⟩ := hs
  refine ⟨c, rest ++ (toString n).toList, ?_, hstart, List.forall_mem_append.2 ⟨hrest, ?_⟩⟩
  · rw [String.toList_append, htext, List.cons_append]
  · intro d hd
    rw [Identifier.isKept, Char.isAlphanum, isDigit_of_mem_toString hd, Bool.or_true,
      Bool.true_or]

lemma isWord_ofName (s : String) : IsWord (ofName s) := by
  have hword {rest : List Char} (h : ∀ c ∈ rest, c.isAlphanum = true) :
      ∀ c ∈ rest, isKept c = true := fun c hc => by rw [isKept, h c hc, Bool.true_or]
  have hnormal := normal_ofName s
  generalize htext : (ofName s).toList = cs at hnormal
  cases hnormal with
  | bare => exact ⟨_, _, htext, .inr rfl, by simp⟩
  | @digit d rest start plain =>
    refine ⟨_, _, htext, .inr rfl, hword (List.forall_mem_cons.2 ⟨?_, plain⟩)⟩
    rw [Char.isAlphanum, start, Bool.or_true]
  | letter start plain => exact ⟨_, _, htext, .inl start, hword plain⟩

/-- An identifier serves for a name: it is that of the name, alone or with a number. -/
def Serves (id name : String) : Prop :=
  id = ofName name ∨ ∃ n : Nat, id = ofName name ++ toString n

lemma Serves.isWord {id name : String} (h : Serves id name) : IsWord id := by
  obtain rfl | ⟨n, rfl⟩ := h
  · exact isWord_ofName name
  · exact (isWord_ofName name).numbered n

lemma exists_of_ofValue {v : Value} {base : String} (h : ofValue v = .ok base) :
    ∃ name, v = .text name ∧ base = ofName name := by
  cases v with
  | text name =>
    cases h
    exact ⟨name, rfl, rfl⟩
  | _ => cases h

end Identifier

/-! ### Functions -/

namespace FunctionBlock

open Identifier

/-- The identifier of a function serves for the name of its definition. It is a word, and the text
of the function has it as the word after the first blank. -/
structure Identified (f : FunctionBlock) : Prop where
  serves : ∃ name, f.definition = .text name ∧ Serves f.id name
  word : IsWord f.id
  written : ("func ".toList.isPrefixOf? f.render.toList).map (·.takeWhile isKept) =
    some f.id.toList

lemma exists_render_eq (f : FunctionBlock) :
    ∃ rest, f.render = "func " ++ (f.id ++ ("(" ++ rest)) := by
  rewrite [f.render_eq_source]
  unfold FunctionBlock.source
  generalize newline = br
  simp only [String.append_assoc]
  exact ⟨_, rfl⟩

lemma takeWhile_render (f : FunctionBlock) (hid : IsWord f.id) :
    ("func ".toList.isPrefixOf? f.render.toList).map (·.takeWhile isKept) =
      some f.id.toList := by
  obtain ⟨rest, hrest⟩ := f.exists_render_eq
  have hbracket : ("(" ++ rest).toList.takeWhile isKept = [] := by
    rw [String.toList_append]
    rfl
  rw [hrest, String.toList_append, String.toList_append, StringTable.isPrefixOf?_append,
    Option.map_some, List.takeWhile_append_of_pos hid.isKept, hbracket, List.append_nil]

end FunctionBlock

namespace Draft

open Identifier

lemma Issued.serves {ids : List String} {f : FunctionBlock} (hf : Issued ids f) :
    ∃ name, f.definition = .text name ∧ Serves f.id name := by
  cases hf with
  | plain wanted =>
    obtain ⟨name, hname, hid⟩ := exists_of_ofValue wanted
    exact ⟨name, hname, .inl hid⟩
  | numbered wanted _ _ _ id_eq =>
    obtain ⟨name, hname, rfl⟩ := exists_of_ofValue wanted
    exact ⟨name, hname, .inr ⟨_, id_eq⟩⟩
  | source named id_eq => exact ⟨_, named, .inr ⟨_, id_eq⟩⟩

lemma Issued.identified {ids : List String} {f : FunctionBlock} (hf : Issued ids f) :
    f.Identified := by
  obtain ⟨name, hname, hid⟩ := hf.serves
  exact ⟨⟨name, hname, hid⟩, hid.isWord, f.takeWhile_render hid.isWord⟩

/-- The identifiers in use are words, and each function got its own with regard to them. -/
structure Orderly (s : Draft) : Prop where
  words : ∀ id ∈ s.ids, IsWord id
  issued : ∀ {f}, Block.function f ∈ s.blocks → Issued s.ids f

lemma isWord_of_link {s s' : Draft} {d : Definition} {id : String}
    (h : Yields (link d) s id s') : IsWord id := by
  -- whatever function is built for the definition later, it gets this identifier
  have hissued := issued_of_link (f := Compile.functionOf d id [] "" [] none []) h rfl rfl
  exact hissued.identified.word

end Draft

namespace Compile

open Draft Identifier

lemma Compiles.orderly {h : Header} {defs : Catalogue} {ns : List Node} {s s' : Draft}
    {cs : List Call} {vs : List Visit} (hc : Compiles h defs ns s cs s' vs) (hs : s.Orderly) :
    s'.Orderly where
  words id hid := by
    obtain hid | hid := List.mem_append.1 (hc.ids_perm.mem_iff.1 hid)
    · exact hs.words id hid
    · obtain ⟨f, hf, rfl⟩ := List.mem_map.1 hid
      obtain ⟨v, hv, hblock⟩ := List.mem_filterMap.1 hf
      exact (hc.issued hv (Visit.function?_eq_some_iff.1 hblock)).identified.word
  issued {f} hf := by
    rw [hc.blocks_eq, List.mem_append] at hf
    obtain hf | hf := hf
    · exact (hs.issued hf).mono hc.ids_subset
    · obtain ⟨v, hv, hblock⟩ := List.mem_filterMap.1 hf
      exact hc.issued hv hblock

lemma kept_orderly : Kept Draft.Orderly where
  empty := ⟨by simp [Draft.empty], by simp [Draft.empty]⟩
  constants _ hs := ⟨hs.words, hs.issued⟩
  link {s _ _ id} hlink hs := by
    have hid := isWord_of_link hlink
    obtain ⟨_, -, -, rfl⟩ := yields_link hlink
    refine ⟨?_, fun hf => (hs.issued hf).mono (List.subset_append_left _ _)⟩
    exact List.forall_mem_append.2 ⟨hs.words, List.forall_mem_singleton.2 hid⟩
  compiles hc hs := hc.orderly hs

/-- The identifier of any name has one of the forms, just the texts of these forms are their own
identifiers, and to take the identifier twice is to take it once. After any actions from an empty
draft on, the identifiers in use are words, and each function has one that serves for the name of
its definition; so has each function of a program that is compiled then. -/
theorem identifiers_are_words (h : Header) (defs : Catalogue) (actions : List Action) :
    (∀ s, Normal (ofName s).toList ∧ (ofName s = s ↔ Normal s.toList) ∧
      ofName (ofName s) = ofName s) ∧
    let w := (⟨defs, .empty⟩ : Workbench).after h actions
    (∀ id ∈ w.draft.ids, IsWord id) ∧
    (∀ f, Block.function f ∈ w.draft.blocks → f.Identified) ∧
    ∀ root values p, (w.restart h root values).1 = .ok p → ∀ f ∈ p.functions, f.Identified := by
  refine ⟨fun s => ⟨normal_ofName s, ofName_eq_self_iff, ?_⟩, ?_⟩
  · exact ofName_eq_self_iff.2 (normal_ofName s)
  · intro w
    have hw : w.draft.Orderly := Workbench.keeps_after kept_orderly kept_orderly.empty actions
    refine ⟨hw.words, fun f hf => (hw.issued hf).identified, fun root values p hp f hf => ?_⟩
    obtain ⟨vs, ht⟩ := exists_traces hp
    exact (ht.issued hf).identified

/-- Definitions whose names give identifiers of each form, one of them twice. -/
def couriers : Catalogue :=
  [("send-email", { name := "send-email" }), ("send.email", { name := "send.email" }),
    ("1st ßtop", { name := "1st ßtop" }), ("- -", { name := "- -" }),
    ("source-code", {
      name := "source-code"
      params := [{ name := "global", kind := .checkbox }, { name := "code", kind := .textarea }] })]

/-- A root that uses all of them. -/
def couriersRoot : Definition where
  name := "main"
  tree := [.mk "send-email" false [] [], .mk "send.email" false [] [], .mk "1st ßtop" false [] [],
    .mk "- -" false [] [], .mk "source-code" false [("code", "go()")] []]

/-- What is left when the uses are compiled, and then one of a definition that is not there. -/
def couriersDone : Workbench :=
  Workbench.after .standard ⟨couriers, .empty⟩
    [.compile couriersRoot.tree, .compile [.mk "nobody" false [] []]]

/-- The identifiers of the couriers. -/
def couriersIds : List String :=
  ["sendEmail", "sendEmail2", "_1stSStop", "_", "sourceCode0"]

lemma couriersDone_ids : couriersDone.draft.ids = couriersIds := by decide +kernel

lemma couriersDone_restart : ∃ p,
    (couriersDone.restart .standard couriersRoot (.table [])).1 = .ok p ∧
      p.functions.map (·.id) = couriersIds := by
  have hshape : (couriersDone.restart .standard couriersRoot (.table [])).1.toOption.map
      (fun p => p.functions.map (·.id)) = some couriersIds := by decide +kernel
  cases hp : (couriersDone.restart .standard couriersRoot (.table [])).1 with
  | error e => rw [hp] at hshape; cases hshape
  | ok p =>
    rw [hp] at hshape
    exact ⟨p, rfl, Option.some.inj hshape⟩

theorem couriers_are_words :
    (couriersDone.draft.ids = couriersIds ∧ functionIds couriersDone.draft.blocks = couriersIds ∧
      (∀ id ∈ couriersDone.draft.ids, IsWord id) ∧
      ∀ f, Block.function f ∈ couriersDone.draft.blocks → f.Identified) ∧
    ∃ p, (couriersDone.restart .standard couriersRoot (.table [])).1 = .ok p ∧
      p.functions.map (·.id) = couriersIds ∧ ∀ f ∈ p.functions, f.Identified := by
  obtain ⟨-, hids, hblocks, hprograms⟩ := identifiers_are_words .standard couriers
    [.compile couriersRoot.tree, .compile [.mk "nobody" false [] []]]
  obtain ⟨p, hp, hshape⟩ := couriersDone_restart
  exact ⟨⟨couriersDone_ids, by decide +kernel, hids, hblocks⟩, p, hp, hshape, hprograms _ _ p hp⟩

end Compile

end NodeScript
