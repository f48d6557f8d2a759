import NodeScript.Proofs.Failures

/-!
# Required parameters

A parameter that is required and has neither a value nor a default makes the compilation fail, with
a message that shows the titles of the parameter and of its definition. `Argument.isUnmet` says for
which values this is so. The main result is that these are all the values for which an argument
fails for want of a value, that the constants stay as they are then, and that a selection is not
among the kinds that are asked for: a selection without a value is an empty text, required or not.
-/

namespace NodeScript

/-- The text that an operand holds, or that it refers to among the constants. -/
def Operand.text? (constants : List String) : Operand → Option String
  | .code s | .literal s => some s
  | .constant i | .expansion i => constants[i]?

namespace Argument

/-- The text of a selection is the text of its value. -/
lemma exists_yields_ofSelect (p : ParamSpec) (raw : Value) (intern : Bool) (c : Constants) :
    ∃ a c', Yields (ofSelect p raw intern) c a c' ∧
      a.operand.text? c'.texts = some raw.normalized := by
  rw [ofSelect]
  split_ifs with htype
  · exact ⟨_, c, rfl, rfl⟩
  · cases intern with
    | false => exact ⟨_, c, rfl, rfl⟩
    | true => exact ⟨_, _, rfl, (yields_internText (c := c) (s := raw.normalized) rfl).1⟩

/-- An argument is refused for want of a value exactly if its parameter is required, is no checkbox
and no selection, and has neither a value nor a default, where a list needs items and a default is
of no use to it. The failure then shows the localized titles, and the constants stay as they are.
A selection is never refused: without a value it is empty, even if it is required. -/
theorem required_iff_isUnmet (h : Header) (d : Definition) (p : ParamSpec) (raw : Value)
    (intern : Bool) (c : Constants) :
    let run := (ofValue h d p raw intern).run c
    (∀ m field script name owner, run.1 = .error (.required m field script name owner) ↔
      isUnmet p raw = true ∧ localizeTitle p.displayTitle d h.lang = .ok field ∧
        localizeTitle d.displayTitle d h.lang = .ok script ∧
        h.message Header.fieldKey [("field", field), ("script", script)] = .ok m ∧
        name = p.name ∧ owner = d.name) ∧
    (isUnmet p raw = true → (∃ e, run.1 = .error e) ∧ run.2 = c) ∧
    (isUnmet p raw = true → h.Regular → d.HasTextLangs → d.name.IsText → d.title.IsText →
      p.name.IsText → p.title.IsText →
      ∃ m field script, run.1 = .error (.required m field script p.name d.name)) ∧
    (p.kind = .select → ∃ a, run.1 = .ok a ∧
      a.operand.text? run.2.texts = some raw.normalized) := by
  intro run
  have hunmet (hu : isUnmet p raw = true) : run = (.error (requiredFailure h d p), c) :=
    stops_ofValue_iff.2 ⟨.inl ⟨hu, rfl⟩, rfl⟩
  refine ⟨fun m field script name owner => ⟨fun hrun => ?_, fun ⟨hu, hfailure⟩ => ?_⟩,
    fun hu => ⟨⟨_, congrArg Prod.fst (hunmet hu)⟩, congrArg Prod.snd (hunmet hu)⟩,
    fun hu hh hd hname htitle hpname hptitle => ?_, fun hk => ?_⟩
  · have hstops : Stops (ofValue h d p raw intern) c (.required m field script name owner) run.2 :=
      Prod.ext hrun rfl
    obtain ⟨⟨hu, hfailure⟩ | ⟨-, items, cause, -, -, hlist⟩, -⟩ := stops_ofValue_iff.1 hstops
    · exact ⟨hu, requiredFailure_eq_required_iff.1 hfailure.symm⟩
    · cases cause <;> cases hlist
  · rw [hunmet hu, requiredFailure_eq_required_iff.2 hfailure]
  · obtain ⟨field, script, m, hfield, hscript, hm⟩ :=
      reportable_of_texts hh hd hname htitle hpname hptitle
    refine ⟨m, field, script, ?_⟩
    rw [hunmet hu, requiredFailure_eq_required_iff.2 ⟨hfield, hscript, hm, rfl, rfl⟩]
  · obtain ⟨a, c', hyields, htext⟩ := exists_yields_ofSelect p raw intern c
    have hrun : run = (.ok a, c') := by
      simp only [run, ofValue, hk]
      exact hyields
    rw [hrun]
    exact ⟨a, rfl, htext⟩

/-- A definition whose titles are in its language tables. -/
def survey : Definition where
  name := "survey"
  title := "#caption#"
  langs := [("def", [("caption", "Survey"), ("remark", "Remark")]), ("en", [("remark", "Comment")])]

/-- A required parameter with a title of the language tables. -/
def remark (kind : ParamKind) : ParamSpec where
  name := "remark"
  kind := kind
  title := "#remark#"
  options := { required := true }

theorem survey_remark_required : isUnmet (remark .number) "  " = true ∧
    (∃ m field script, ((ofValue .standard survey (remark .number) "  " true).run .empty).1 =
      .error (.required m field script "remark" "survey")) ∧
    ((ofValue .standard survey (remark .number) "  " true).run .empty).1 =
      .error (.required "Field 'Comment' in 'Survey' is required" "Comment" "Survey" "remark"
        "survey") := by
  have hunmet : isUnmet (remark .number) "  " = true := by decide +kernel
  have hh : Header.standard.Regular := ⟨rfl, Header.fills_of_isPlain (by decide +kernel)⟩
  have hd : survey.HasTextLangs := by
    simp only [Definition.HasTextLangs, survey, List.forall_mem_cons, List.not_mem_nil,
      false_imp_iff, implies_true, and_true]
    constructor <;> exact ⟨by simp, by simp [Table.keys]⟩
  obtain ⟨hiff, -, hfails, -⟩ :=
    required_iff_isUnmet .standard survey (remark .number) "  " true .empty
  refine ⟨hunmet, hfails hunmet hh hd ⟨_, rfl⟩ ⟨_, rfl⟩ ⟨_, rfl⟩ ⟨_, rfl⟩, ?_⟩
  refine (hiff _ _ _ _ _).2 ⟨hunmet, ?_, ?_, ?_, rfl, rfl⟩
  all_goals decide +kernel

/-- A selection that is required gets an empty text where it has neither a value nor a default. -/
theorem selection_silently_empty :
    (remark .select).options.required = true ∧ (remark .select).options.default = "" ∧
    isMissing .select .null = true ∧
    ((ofValue .standard survey (remark .select) .null true).run .empty).1 =
      .ok ⟨"remark", "str", .constant 0⟩ ∧
    ((ofValue .standard survey (remark .select) .null true).run .empty).2.texts = [""] := by
  refine ⟨rfl, rfl, ?_, ?_, ?_⟩
  all_goals decide +kernel

end Argument

end NodeScript
