import NodeScript.Proofs.Yields

/-!
# Constants of a program under construction

Constants are added at the end, so a position stays valid once it is given out. The arguments of a
use are made in the order of the parameters, one for each of them, and the text of a text parameter
is among the constants afterwards.
-/

namespace NodeScript

namespace StringTable

/-- A text is found at the position that it was given, and the texts before it stay where they
are. -/
lemma intern_spec (hash : String → Int) (t : StringTable) (s : String) :
    (t.intern hash s).2.1.strings[(t.intern hash s).1]? = some s ∧
      t.strings <+: (t.intern hash s).2.1.strings := by
  rw [intern]
  cases hfind : (t.bucket (hash s)).find? fun i => t.strings[i]? == some s with
  | some i =>
    have hi := List.find?_some hfind
    exact ⟨by simpa using hi, List.prefix_rfl⟩
  | none => exact ⟨by simp, List.prefix_append _ _⟩

end StringTable

/-- The texts among the constants. -/
def Constants.texts (c : Constants) : List String := c.table.strings

lemma yields_internText {c c' : Constants} {s : String} {i : Nat}
    (h : Yields (internText s) c i c') :
    c'.texts[i]? = some s ∧ c.texts <+: c'.texts := by
  simp only [internText, yields_bind_iff, yields_get_iff, yields_set_iff, yields_pure_iff] at h
  obtain ⟨_, _, ⟨rfl, rfl⟩, _, _, rfl, rfl, rfl⟩ := h
  exact StringTable.intern_spec _ _ s

namespace Argument

variable {h : Header} {d : Definition} {p : ParamSpec} {c c' : Constants} {room : Option Nat}

lemma yields_textOperand {s : String} {intern : Bool} {o : Operand}
    (ho : Yields (textOperand intern s) c o c') :
    c.texts <+: c'.texts ∧ (intern = true → ∃ i, o = .constant i ∧ c'.texts[i]? = some s) := by
  rw [textOperand] at ho
  cases intern with
  | false =>
    obtain ⟨-, rfl⟩ := yields_pure_iff.1 ho
    exact ⟨List.prefix_rfl, by simp⟩
  | true =>
    simp only [if_true, yields_bind_iff, yields_pure_iff] at ho
    obtain ⟨i, c₁, hi, rfl, rfl⟩ := ho
    obtain ⟨hget, hgrows⟩ := yields_internText hi
    exact ⟨hgrows, fun _ => ⟨i, rfl, hget⟩⟩

/-- Whether the value of a parameter is a text of the user. -/
def isText (k : ParamKind) : Bool :=
  k == .textarea || k == .singleText

lemma yields_ofText {raw : Value} {a : Argument}
    (ha : Yields (ofText h d p raw true) c a c') :
    c.texts <+: c'.texts ∧ (d.isSourceCode = false →
      ∃ s, textOrDefault h d p raw.normalized = .ok s ∧ s ∈ c'.texts) := by
  simp only [ofText, yields_bind_iff, yields_liftFailure_iff] at ha
  obtain ⟨s, _, ⟨hs, rfl⟩, ha⟩ := ha
  by_cases hsource : d.isSourceCode = true
  · rw [if_pos hsource] at ha
    obtain ⟨-, rfl⟩ := yields_pure_iff.1 ha
    exact ⟨List.prefix_rfl, by simp [hsource]⟩
  · rw [if_neg hsource] at ha
    obtain ⟨o, c₁, ho, ha⟩ := yields_bind_iff.1 ha
    obtain ⟨hgrows, hconstant⟩ := yields_textOperand ho
    obtain ⟨i, rfl, hi⟩ := hconstant rfl
    -- with or without references, the argument is made without touching the constants
    have hc : c' = c₁ := by
      simp only at ha
      split_ifs at ha <;> exact (yields_pure_iff.1 ha).2
    subst hc
    exact ⟨hgrows, fun _ => ⟨s, hs, List.mem_of_getElem? hi⟩⟩

lemma yields_ofSelect {raw : Value} {a : Argument} (ha : Yields (ofSelect p raw true) c a c') :
    c.texts <+: c'.texts := by
  rw [ofSelect] at ha
  split_ifs at ha
  · exact (yields_pure_iff.1 ha).2 ▸ List.prefix_rfl
  · obtain ⟨o, c₁, ho, ha⟩ := yields_bind_iff.1 ha
    obtain ⟨-, rfl⟩ := yields_pure_iff.1 ha
    exact (yields_textOperand ho).1

lemma yields_ofList {raw : Value} {a : Argument}
    (ha : Yields (ofList h d p raw true room) c a c') : c.texts <+: c'.texts := by
  rw [ofList] at ha
  split at ha
  · split at ha
    · simp only [yields_bind_iff, yields_pure_iff] at ha
      obtain ⟨s, _, ⟨rfl, rfl⟩, o, c₁, ho, -, rfl⟩ := ha
      exact (yields_textOperand ho).1
    · simp only [yields_bind_iff, yields_throw_iff, false_and, exists_false] at ha
  · split_ifs at ha
    · simp only [yields_bind_iff, yields_throw_iff, false_and, exists_false] at ha
    · simp only [yields_bind_iff, yields_pure_iff] at ha
      obtain ⟨s, _, ⟨rfl, rfl⟩, o, c₁, ho, -, rfl⟩ := ha
      exact (yields_textOperand ho).1

/-- Making an argument only adds constants, and adds the text of a text parameter. -/
lemma yields_ofValue {raw : Value} {a : Argument}
    (ha : Yields (ofValue h d p raw true room) c a c') :
    c.texts <+: c'.texts ∧ (d.isSourceCode = false → isText p.kind = true →
      ∃ s, textOrDefault h d p raw.normalized = .ok s ∧ s ∈ c'.texts) := by
  rw [ofValue] at ha
  cases hk : p.kind with
  | textarea | singleText =>
    rw [hk] at ha
    exact ⟨(yields_ofText ha).1, fun hd _ => (yields_ofText ha).2 hd⟩
  | checkbox =>
    rw [hk] at ha
    obtain ⟨-, rfl⟩ := yields_pure_iff.1 ha
    exact ⟨List.prefix_rfl, by simp [isText]⟩
  | select =>
    rw [hk] at ha
    exact ⟨yields_ofSelect ha, by simp [isText]⟩
  | number =>
    rw [hk] at ha
    obtain ⟨-, rfl⟩ := yields_liftFailure_iff.1 ha
    exact ⟨List.prefix_rfl, by simp [isText]⟩
  | list =>
    rw [hk] at ha
    exact ⟨yields_ofList ha, by simp [isText]⟩

/-- The text that stands for a text parameter. -/
def coercedText (h : Header) (d : Definition) (values : Value) (p : ParamSpec) :
    Except Failure String := do
  let raw ← rawValue (values.orElse (.table [])) p
  textOrDefault h d p raw.normalized

/-- Making the arguments of a use gives one for each parameter, only adds constants, and adds the
text of each text parameter. -/
lemma yields_listOfValues {values : Value} {args : List Argument}
    (ha : Yields (listOfValues h d values true room) c args c') :
    args.length = d.params.length ∧ c.texts <+: c'.texts ∧
      (d.isSourceCode = false → ∀ p ∈ d.params, isText p.kind = true →
        ∃ s, coercedText h d values p = .ok s ∧ s ∈ c'.texts) := by
  rw [listOfValues, ofParams] at ha
  -- the parameters that are still to be looked at
  generalize d.params = ps at ha ⊢
  induction ps generalizing c args with
  | nil =>
    obtain ⟨rfl, rfl⟩ := yields_pure_iff.1 ha
    exact ⟨rfl, List.prefix_rfl, by simp⟩
  | cons p ps ih =>
    simp only [List.mapM_cons, ofParam, yields_bind_iff, yields_liftFault_iff,
      yields_pure_iff] at ha
    obtain ⟨a, c₁, ⟨raw, _, ⟨hraw, rfl⟩, ha⟩, as, _, has, rfl, rfl⟩ := ha
    obtain ⟨hgrows, htext⟩ := yields_ofValue ha
    obtain ⟨hlength, hmore, htexts⟩ := ih has
    refine ⟨by simp [hlength], hgrows.trans hmore, fun hd q hq hk => ?_⟩
    rcases List.mem_cons.1 hq with rfl | hq
    · obtain ⟨s, hs, hmem⟩ := htext hd hk
      have hcoerced : coercedText h d values q = .ok s := by
        rw [coercedText, hraw]
        exact hs
      exact ⟨s, hcoerced, hmore.subset hmem⟩
    · exact htexts hd q hq hk

end Argument

/-- Interning the variables of a definition only adds constants; the position that is given holds
the variables, written as one text. -/
lemma Predefined.yields_build {d : Definition} {lang : Value} {c c' : Constants} {i : Option Nat}
    (hb : Yields (build d lang) c i c') :
    c.texts <+: c'.texts ∧ ∀ n, i = some n →
      ∃ vars s, merge d lang = .ok vars ∧ vars ≠ [] ∧ Yaml.write (.table vars) = .ok s ∧
        c'.texts[n]? = some s := by
  rw [build, yields_bind_iff] at hb
  simp only [yields_liftFault_iff] at hb
  obtain ⟨vars, _, ⟨hmerge, rfl⟩, hb⟩ := hb
  by_cases hempty : vars.isEmpty = true
  · rw [if_pos hempty] at hb
    obtain ⟨rfl, rfl⟩ := yields_pure_iff.1 hb
    exact ⟨List.prefix_rfl, by simp⟩
  · simp only [if_neg hempty] at hb
    split_ifs at hb
    · simp only [yields_bind_iff, yields_throw_iff, false_and, exists_false] at hb
    · split at hb
      · next s hs =>
        simp only [yields_bind_iff, yields_pure_iff] at hb
        obtain ⟨n, c₁, hn, rfl, rfl⟩ := hb
        obtain ⟨hget, hgrows⟩ := yields_internText hn
        refine ⟨hgrows, ?_⟩
        rintro _ ⟨⟩
        exact ⟨vars, s, hmerge, by simpa using hempty, hs, hget⟩
      · exact (yields_throw_iff.1 hb).elim

end NodeScript
