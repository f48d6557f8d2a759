import NodeScript.Proofs.Arguments
import NodeScript.Proofs.Reading
import NodeScript.Proofs.Required

/-!
# Declared defaults

A default stands in for a missing value. The default of a description is kept as a text, and the
text is made in another way than that of a value typed in: blanks around it stay, truth values have
a capital letter, whole doubles keep their fraction, and what does not count as present is lost.

The main result says which defaults nevertheless act like the same value typed in: texts without
blanks around them, integers other than zero, and zero for a number that is not required.
-/

namespace NodeScript

/-! ### Numerals of doubles -/

namespace Decimal

lemma positional_ne_nil (d : Decimal) {places : Nat} (hplaces : 0 < places) :
    (d.positional places).2 ≠ [] := by
  have hpad (digits : List Char) : padZeros places digits ≠ [] := by
    rw [← List.length_pos_iff, padZeros, List.length_append, List.length_replicate]
    omega
  rw [positional]
  split_ifs <;> exact hpad _

/-- A decimal that has places after its point is written with a point or with a power of ten. -/
lemma exists_mark_write (d : Decimal) (count reach : Nat) {least : Nat} (hleast : 0 < least)
    (keep : Bool) : ∃ c ∈ (d.write count reach least keep).rest, c = '.' ∨ c = 'e' := by
  rw [write]
  split_ifs
  · exact ⟨'e', List.mem_append_right _ List.mem_cons_self, .inr rfl⟩
  · refine ⟨'.', ?_, .inl rfl⟩
    have hplaces : 0 < max ((count : Int) - d.point).toNat least := lt_max_of_lt_right hleast
    change '.' ∈ fractionChars keep (d.positional _).2
    rw [fractionChars, if_neg (by simp [d.positional_ne_nil hplaces])]
    exact List.mem_cons_self

end Decimal

namespace Double

variable {x : Double} {n : Int}

lemma isFinite_of_toInt? (hx : x.toInt? = some n) : x.isFinite = true := by
  rw [toInt?] at hx
  by_contra hfinite
  simp [hfinite] at hx

lemma exists_mark_render (hx : x.isFinite = true) : ∃ c ∈ x.render.toList, c = '.' ∨ c = 'e' := by
  have hnan : x.isNaN = false := by
    simp_all [isFinite, isNaN]
  have hinfinite : x.isInfinite = false := by
    simp_all [isFinite, isInfinite]
  obtain ⟨c, hc, hmark⟩ := x.shortest.exists_mark_write x.shortest.digits.length 16
    Nat.one_pos false
  refine ⟨c, ?_, hmark⟩
  simp only [render, hnan, hinfinite, Bool.false_eq_true, if_false, String.toList_append,
    String.toList_ofList]
  exact List.mem_append_right _ (List.mem_append_right _ hc)

/-- The text of a double is not that of an integer. -/
lemma render_ne_toString (hx : x.isFinite = true) (n : Int) : x.render ≠ toString n := by
  intro heq
  obtain ⟨c, hc, hmark⟩ := exists_mark_render hx
  rw [heq, toList_toString, List.mem_append] at hc
  obtain hsign | hdigit := hc
  · split_ifs at hsign
    · rw [List.mem_singleton.1 hsign] at hmark
      revert hmark
      decide
    · cases hsign
  · have hdigit := Identifier.isDigit_of_mem_toString hdigit
    obtain rfl | rfl := hmark
    · exact absurd hdigit (by decide)
    · exact absurd hdigit (by decide)

lemma toInt?_of_isZero (hx : x.isZero = true) : x.toInt? = some 0 := by
  rw [isZero, Bool.and_eq_true, beq_iff_eq] at hx
  simp [toInt?, truncate, fraction, hx]

end Double

/-! ### Texts of scalars -/

namespace Value

/-- Whether a value is a text, a truth value or a whole number. -/
def isScalar : Value → Bool
  | .text _ | .bool _ | .int _ => true
  | .real x => x.toInt?.isSome
  | _ => false

/-- Whether a value is the number zero. -/
def isZero : Value → Bool
  | .int n => n == 0
  | .real x => x.isZero
  | _ => false

/-- Whether a value that is kept as a text is kept in the form that it has when it is typed in. -/
def keepsForm : Value → Bool
  | .text s => Text.trim s == s
  | .int n => n != 0
  | _ => false

variable {v : Value}

lemma exists_toInt?_of_isScalar {x : Double} (hx : (Value.real x).isScalar = true) :
    ∃ n, x.toInt? = some n :=
  Option.isSome_iff_exists.1 hx

lemma render_ne_empty (hv : v.isScalar = true) (htruthy : v.isTruthy = true) : v.render ≠ "" := by
  cases v with
  | text s =>
    change s ≠ ""
    simpa [isTruthy] using htruthy
  | bool b => cases b <;> decide
  | int n =>
    intro hempty
    have hinteger := Argument.isInteger_toString n
    rw [show toString n = "" from hempty] at hinteger
    cases hinteger
  | real x =>
    obtain ⟨n, hn⟩ := exists_toInt?_of_isScalar hv
    obtain ⟨c, hc, -⟩ := Double.exists_mark_render (Double.isFinite_of_toInt? hn)
    intro hempty
    rw [show x.render = "" from hempty] at hc
    cases hc
  | _ => cases hv

/-- Of the values that count as present, texts without blanks around them and integers have one text
only. -/
lemma render_eq_normalized_iff (hv : v.isScalar = true) (htruthy : v.isTruthy = true) :
    v.render = v.normalized ↔ v.keepsForm = true := by
  cases v with
  | text s =>
    change s = Text.trim s ↔ (Text.trim s == s) = true
    rw [beq_iff_eq, eq_comm]
  | bool b => cases b <;> decide
  | int n =>
    rw [normalized_of_whole? (v := .int n) rfl]
    exact iff_of_true rfl htruthy
  | real x =>
    obtain ⟨n, hn⟩ := exists_toInt?_of_isScalar hv
    rw [normalized_of_whole? (v := .real x) hn]
    refine iff_of_false ?_ Bool.false_ne_true
    exact Double.render_ne_toString (Double.isFinite_of_toInt? hn) n
  | _ => cases hv

/-- Of the values that do not count as present, zero is typed in as `0`. -/
lemma normalized_eq_zero_iff (hv : v.isScalar = true) (hfalsy : v.isTruthy = false) :
    v.normalized = "0" ↔ v.isZero = true := by
  cases v with
  | text s =>
    obtain rfl : s = "" := by simpa [isTruthy] using hfalsy
    decide
  | bool b => cases b <;> decide
  | int n =>
    obtain rfl : n = 0 := by simpa [isTruthy] using hfalsy
    decide
  | real x =>
    have hzero : x.isZero = true := by simpa [isTruthy] using hfalsy
    rw [normalized_of_whole? (v := .real x) (Double.toInt?_of_isZero hzero)]
    exact iff_of_true rfl hzero
  | _ => cases hv

lemma isTruthy_of_keepsForm (hne : v.normalized ≠ "") (hv : v.keepsForm = true) :
    v.isTruthy = true := by
  cases v with
  | text s =>
    rw [isTruthy, Bool.not_eq_true', String.isEmpty_eq_false_iff]
    rintro rfl
    exact hne rfl
  | int n => exact hv
  | _ => cases hv

lemma isTruthy_of_isZero (hv : v.isZero = true) : v.isTruthy = false := by
  cases v with
  | int n => simpa [isTruthy, isZero] using hv
  | real x => simpa [isTruthy, isZero] using hv
  | _ => cases hv

end Value

/-! ### Declarations -/

/-- A description of a parameter declares a value as its default. -/
def ParamSpec.Declares (description v : Value) : Prop :=
  ∃ record options, description = .table record ∧
    Table.get? record (.text "options") = some (.table options) ∧
    Table.get? options (.text "default") = some v

/-- The default that is kept is the text of the value that was declared, if it counts as present. -/
lemma ParamSpec.default_of_declares {description v : Value} {p : ParamSpec}
    (hp : ofValue description = .ok p) (hv : Declares description v) :
    p.options.default = if v.isTruthy then v.render else "" := by
  obtain ⟨record, options, rfl, hoptions, hdefault⟩ := hv
  obtain ⟨_, hrecord, -, -, ho⟩ := exists_record_of_ofValue hp
  cases hrecord
  have hpresent : (Value.table options).isTruthy = true := by
    cases options with
    | nil => cases hdefault
    | cons e es => rfl
  rw [Value.getD, hoptions, Option.getD_some, ParamOptions.ofValue, Value.orElse,
    if_pos hpresent] at ho
  rw [← Except.ok.inj ho]
  change ParamOptions.entryText options "default" = _
  rw [ParamOptions.entryText, Value.getD, hdefault, Option.getD_some]

/-! ### Arguments of texts -/

namespace Operand

lemma head?_literal (s : String) :
    (Literal.render s).toList.head? = some '"' ∨
      (Literal.render s).toList.head? = some Literal.backtick := by
  rw [Literal.render, String.toList_ofList, Literal.renderChars]
  split_ifs
  · exact .inl rfl
  · exact .inr rfl

lemma literal_inj {s t : String} (h : Literal.render s = Literal.render t) : s = t := by
  have hs := Literal.take?_renderChars s.toList []
  have ht := Literal.take?_renderChars t.toList []
  rw [String.ofList_inj.1 h] at hs
  exact String.toList_inj.1 (congrArg Prod.fst (Option.some.inj (hs.symm.trans ht)))

lemma head?_constant (i : Nat) : (constant i).render.toList.head? = some 'S' := by
  rw [render, StringTable.reference, String.toList_append]
  rfl

lemma head?_expansion (i : Nat) : (expansion i).render.toList.head? = some 'm' := by
  rw [render, String.append_assoc, String.toList_append]
  rfl

/-- Operands that are not code can be told apart by what is written for them. -/
lemma render_inj {o o' : Operand} (ho : ∀ s, o ≠ .code s) (ho' : ∀ s, o' ≠ .code s)
    (h : o.render = o'.render) : o = o' := by
  have hhead : o.render.toList.head? = o'.render.toList.head? := by rw [h]
  cases o with
  | code s => exact absurd rfl (ho s)
  | literal s =>
    cases o' with
    | code t => exact absurd rfl (ho' t)
    | literal t => rw [literal_inj h]
    | constant j =>
      rw [head?_constant] at hhead
      obtain hs | hs := head?_literal s <;> cases hs.symm.trans hhead
    | expansion j =>
      rw [head?_expansion] at hhead
      obtain hs | hs := head?_literal s <;> cases hs.symm.trans hhead
  | constant i =>
    rw [head?_constant] at hhead
    cases o' with
    | code t => exact absurd rfl (ho' t)
    | literal t => obtain ht | ht := head?_literal t <;> cases hhead.trans ht
    | constant j => rw [Draft.numbered_injective "STR" h]
    | expansion j => cases hhead.trans (head?_expansion j)
  | expansion i =>
    rw [head?_expansion] at hhead
    cases o' with
    | code t => exact absurd rfl (ho' t)
    | literal t => obtain ht | ht := head?_literal t <;> cases hhead.trans ht
    | constant j => cases hhead.trans (head?_constant j)
    | expansion j =>
      have hreference := (String.append_right_inj _).1 ((String.append_left_inj _).1 h)
      rw [Draft.numbered_injective "STR" hreference]

end Operand

namespace Argument

variable {h : Header} {d : Definition} {p : ParamSpec} {raw : Value} {intern : Bool}
  {c c' : Constants} {s t : String} {a b : Argument}

/-- The argument for a text that is settled: a number is written as it is. -/
def ofSettled (p : ParamSpec) (intern : Bool) (s : String) : Interning Argument :=
  if p.kind = .number then pure ⟨p.name, "int", .code s⟩ else ofPlain p intern s

/-- The text that is written for another one: an empty number is zero. -/
def settled (k : ParamKind) (s : String) : String :=
  if k == .number && s.isEmpty then "0" else s

/-- Whether the value of a parameter is typed in: a text or a number. -/
def isTyped (k : ParamKind) : Bool :=
  isText k || k == .number

lemma ofText_eq (hd : d.isSourceCode = false) :
    ofText h d p raw intern =
      liftM (textOrDefault h d p raw.normalized) >>= ofPlain p intern := by
  rw [ofText]
  refine bind_congr fun s => ?_
  rw [if_neg (by simp [hd])]

/-- A value that is typed in becomes a text first, and the argument is made from that. -/
lemma ofValue_eq (hk : isTyped p.kind = true) (hd : d.isSourceCode = false) :
    ofValue h d p raw intern =
      liftM (textOrDefault h d p raw.normalized) >>=
        fun s => ofSettled p intern (settled p.kind s) := by
  rw [ofValue]
  cases hkind : p.kind with
  | textarea =>
    simp only [ofText_eq hd, ofSettled, settled, hkind]
    rfl
  | singleText =>
    simp only [ofText_eq hd, ofSettled, settled, hkind]
    rfl
  | number =>
    simp only [ofNumber, ofSettled, settled, hkind]
    cases textOrDefault h d p raw.normalized with
    | error e => rfl
    | ok s => rfl
  | _ =>
    rw [hkind] at hk
    cases hk

lemma run_of_textOrDefault (hk : isTyped p.kind = true) (hd : d.isSourceCode = false)
    (hs : textOrDefault h d p raw.normalized = .ok s) :
    (ofValue h d p raw intern).run c = (ofSettled p intern (settled p.kind s)).run c := by
  rw [ofValue_eq hk hd, hs]
  rfl

lemma exists_yields_ofSettled (p : ParamSpec) (intern : Bool) (s : String) (c : Constants) :
    ∃ a c', Yields (ofSettled p intern s) c a c' := by
  rw [ofSettled]
  split_ifs
  · exact ⟨_, c, rfl⟩
  · rw [ofPlain]
    cases intern with
    | false => exact ⟨_, c, rfl⟩
    | true =>
      by_cases hs : s.toList.contains Placeholder.sigil = true
      · simp only [hs, if_true]
        exact ⟨_, _, rfl⟩
      · simp only [hs]
        exact ⟨_, _, rfl⟩

lemma exists_ok_ofSettled (p : ParamSpec) (intern : Bool) (s : String) (c : Constants) :
    ∃ a, ((ofSettled p intern s).run c).1 = .ok a := by
  obtain ⟨a, c', ha⟩ := exists_yields_ofSettled p intern s c
  exact ⟨a, congrArg Prod.fst ha⟩

/-- The operand of a text holds the text or refers to it. -/
lemma holds_of_ofPlain (ha : Yields (ofPlain p intern s) c a c') :
    a.operand.text? c'.texts = some s ∧ ∀ t, a.operand ≠ .code t := by
  cases intern with
  | false =>
    obtain ⟨rfl, -⟩ := yields_pure_iff.1 ha
    exact ⟨rfl, by simp⟩
  | true =>
    rw [ofPlain, yields_bind_iff] at ha
    obtain ⟨o, c₁, ho, ha⟩ := ha
    obtain ⟨i, rfl, hi⟩ := (yields_textOperand ho).2 rfl
    dsimp only at ha
    split_ifs at ha
    · obtain ⟨rfl, rfl⟩ := yields_pure_iff.1 ha
      exact ⟨hi, by simp⟩
    · obtain ⟨rfl, rfl⟩ := yields_pure_iff.1 ha
      exact ⟨hi, by simp⟩

/-- Texts can be told apart by the arguments that are made from them. -/
lemma eq_of_ofSettled (ha : Yields (ofSettled p intern s) c a c')
    (hb : Yields (ofSettled p intern t) c b c') (h : a.operand.render = b.operand.render) :
    s = t := by
  rw [ofSettled] at ha hb
  split_ifs at ha hb
  · obtain ⟨rfl, -⟩ := yields_pure_iff.1 ha
    obtain ⟨rfl, -⟩ := yields_pure_iff.1 hb
    exact h
  · obtain ⟨hs, hcode⟩ := holds_of_ofPlain ha
    obtain ⟨ht, hcode'⟩ := holds_of_ofPlain hb
    rw [Operand.render_inj hcode hcode' h] at hs
    exact Option.some.inj (hs.symm.trans ht)

/-! ### Defaults and values typed in -/

/-- What a caller sees of an argument: its name, its type and its text. -/
def shown (a : Argument) : Value × String × String :=
  (a.name, a.type, a.operand.render)

/-- What comes out of making an argument: what a caller sees of it, and the constants. -/
def outcome (w : Interning Argument) (c : Constants) :
    Except Failure (Value × String × String) × Constants :=
  ((w.run c).1.map shown, (w.run c).2)

lemma outcome_ofSettled_eq_iff :
    outcome (ofSettled p intern s) c = outcome (ofSettled p intern t) c ↔ s = t := by
  refine ⟨fun heq => ?_, congrArg fun s => outcome (ofSettled p intern s) c⟩
  obtain ⟨a, c₁, ha⟩ := exists_yields_ofSettled p intern s c
  obtain ⟨b, c₂, hb⟩ := exists_yields_ofSettled p intern t c
  rw [outcome, outcome, show (ofSettled p intern s).run c = _ from ha,
    show (ofSettled p intern t).run c = _ from hb] at heq
  obtain ⟨hshown, rfl⟩ := Prod.mk.inj heq
  exact eq_of_ofSettled ha hb (congrArg (fun x => x.2.2) (Except.ok.inj hshown))

lemma textOrDefault_of_ne (hs : s ≠ "") : textOrDefault h d p s = .ok s := by
  rw [textOrDefault, if_pos (by simpa using hs)]

/-- A value with a text is taken as it is. -/
lemma run_of_normalized_ne (hk : isTyped p.kind = true) (hd : d.isSourceCode = false)
    (hne : raw.normalized ≠ "") :
    (ofValue h d p raw intern).run c = (ofSettled p intern raw.normalized).run c := by
  rw [run_of_textOrDefault hk hd (textOrDefault_of_ne hne), settled, if_neg (by simp [hne])]

/-- A default stands in for a missing value. -/
lemma run_of_default_ne (hk : isTyped p.kind = true) (hd : d.isSourceCode = false)
    (hraw : raw.normalized = "") (hne : p.options.default ≠ "") :
    (ofValue h d p raw intern).run c = (ofSettled p intern p.options.default).run c := by
  have htext : textOrDefault h d p raw.normalized = .ok p.options.default := by
    rw [hraw, textOrDefault, if_neg (by simp), if_pos (by simpa using hne)]
  rw [run_of_textOrDefault hk hd htext, settled, if_neg (by simp [hne])]

/-- Without a default a missing value is refused if it is required, and else is empty. -/
lemma run_of_default_eq (hk : isTyped p.kind = true) (hd : d.isSourceCode = false)
    (hraw : raw.normalized = "") (hempty : p.options.default = "") :
    (ofValue h d p raw intern).run c =
      if p.options.required then (.error (requiredFailure h d p), c)
      else (ofSettled p intern (settled p.kind "")).run c := by
  have htext : textOrDefault h d p raw.normalized =
      if p.options.required then .error (requiredFailure h d p) else .ok "" := by
    rw [hraw, textOrDefault, if_neg (by simp), if_neg (by simp [hempty])]
  split_ifs at htext ⊢ with hrequired
  · rw [ofValue_eq hk hd, htext]
    rfl
  · exact run_of_textOrDefault hk hd htext

/-- Whether a default acts like the same value typed in. -/
def actsAsTyped (p : ParamSpec) (v : Value) : Bool :=
  v.keepsForm || (v.isZero && p.kind == .number && !p.options.required)

lemma actsAsTyped_of_isTruthy {v : Value} (htruthy : v.isTruthy = true) :
    actsAsTyped p v = v.keepsForm := by
  have hzero : v.isZero = false := by
    by_contra hzero
    rw [Value.isTruthy_of_isZero (by simpa using hzero)] at htruthy
    cases htruthy
  simp [actsAsTyped, hzero]

lemma actsAsTyped_of_not_isTruthy {v : Value} (hne : v.normalized ≠ "")
    (hfalsy : v.isTruthy = false) :
    actsAsTyped p v = (v.isZero && p.kind == .number && !p.options.required) := by
  have hform : v.keepsForm = false := by
    by_contra hform
    rw [Value.isTruthy_of_keepsForm hne (by simpa using hform)] at hfalsy
    cases hfalsy
  rw [actsAsTyped, hform, Bool.false_or]

/-- The text of nothing is that of a value exactly if both are the number zero. -/
lemma settled_empty_eq_iff {k : ParamKind} {v : Value} (hscalar : v.isScalar = true)
    (hne : v.normalized ≠ "") (hfalsy : v.isTruthy = false) :
    settled k "" = v.normalized ↔ (v.isZero && k == .number) = true := by
  rw [Bool.and_eq_true, ← Value.normalized_eq_zero_iff hscalar hfalsy, beq_iff_eq]
  by_cases hk : k = .number
  · subst hk
    exact ⟨fun h => ⟨h.symm, rfl⟩, fun h => h.1.symm⟩
  · rw [settled, if_neg (by simp [hk])]
    exact iff_of_false hne.symm fun h => hk h.2

/-- A default that is declared as a text, a truth value or a whole number acts like this value typed
in exactly if it is a text without blanks around it, an integer other than zero, or a zero for a
number that is not required. What does not count as present is no default at all: where a value is
required, the parameter is refused, while the same value typed in is always taken. -/
theorem default_acts_as_typed_iff {description v raw : Value} {p : ParamSpec} {d : Definition}
    (hp : ParamSpec.ofValue description = .ok p) (hv : ParamSpec.Declares description v)
    (hk : isTyped p.kind = true) (hscalar : v.isScalar = true) (hne : v.normalized ≠ "")
    (hd : d.isSourceCode = false) (hraw : raw.normalized = "") (h : Header) (intern : Bool)
    (c : Constants) :
    (outcome (ofValue h d p raw intern) c = outcome (ofValue h d p v intern) c ↔
      actsAsTyped p v = true) ∧
    ((∃ e, ((ofValue h d p raw intern).run c).1 = .error e) ↔
      p.options.required = true ∧ v.isTruthy = false) ∧
    ∃ a, ((ofValue h d p v intern).run c).1 = .ok a := by
  have hdefault := ParamSpec.default_of_declares hp hv
  have htyped : (ofValue h d p v intern).run c = (ofSettled p intern v.normalized).run c :=
    run_of_normalized_ne hk hd hne
  obtain ⟨a, hok⟩ := exists_ok_ofSettled p intern v.normalized c
  simp only [outcome, htyped]
  refine and_assoc.1 ⟨?_, a, hok⟩
  cases htruthy : v.isTruthy with
  | true =>
    rw [htruthy, if_pos rfl] at hdefault
    have hpresent : p.options.default ≠ "" := hdefault ▸ Value.render_ne_empty hscalar htruthy
    obtain ⟨b, hdefaultOk⟩ := exists_ok_ofSettled p intern p.options.default c
    rw [run_of_default_ne hk hd hraw hpresent, actsAsTyped_of_isTruthy htruthy,
      ← Value.render_eq_normalized_iff hscalar htruthy, ← hdefault]
    exact ⟨outcome_ofSettled_eq_iff, by simp [hdefaultOk]⟩
  | false =>
    rw [htruthy, if_neg Bool.false_ne_true] at hdefault
    rw [run_of_default_eq hk hd hraw hdefault, actsAsTyped_of_not_isTruthy hne htruthy]
    cases hrequired : p.options.required with
    | true => simp [hok, Except.map]
    | false =>
      obtain ⟨b, hemptyOk⟩ := exists_ok_ofSettled p intern (settled p.kind "") c
      simp only [Bool.false_eq_true, if_false, Bool.not_false, Bool.and_true, false_and, iff_false]
      rw [← settled_empty_eq_iff hscalar hne htruthy]
      exact ⟨outcome_ofSettled_eq_iff, by simp [hemptyOk]⟩

/-- The description of a required number with a default. -/
def countDescription (v : Value) : Value :=
  .table [("name", "count"), ("kind", "number"),
    ("options", .table [("required", .bool true), ("default", v)])]

/-- A required number with the text of a default. -/
def count (s : String) : ParamSpec where
  name := "count"
  kind := .number
  options := { required := true, default := s }

theorem seven_acts_as_typed :
    ParamSpec.ofValue (countDescription (.int 7)) = .ok (count "7") ∧
    ParamSpec.Declares (countDescription (.int 7)) (.int 7) ∧
    survey.isSourceCode = false ∧ actsAsTyped (count "7") (.int 7) = true ∧
    outcome (ofValue .standard survey (count "7") .null true) .empty =
      outcome (ofValue .standard survey (count "7") (.int 7) true) .empty ∧
    ¬ ∃ e, ((ofValue .standard survey (count "7") .null true).run .empty).1 = .error e := by
  have hp : ParamSpec.ofValue (countDescription (.int 7)) = .ok (count "7") := by decide +kernel
  have hv : ParamSpec.Declares (countDescription (.int 7)) (.int 7) := ⟨_, _, rfl, rfl, rfl⟩
  have hacts : actsAsTyped (count "7") (.int 7) = true := by decide +kernel
  have hd : survey.isSourceCode = false := rfl
  have hraw : Value.null.normalized = "" := rfl
  obtain ⟨houtcome, hfails, -⟩ := default_acts_as_typed_iff hp hv rfl rfl (by decide +kernel) hd
    hraw .standard true .empty
  exact ⟨hp, hv, hd, hacts, houtcome.2 hacts, fun h => absurd (hfails.1 h).2 (by decide)⟩

/-- A default that is zero is no default: a required number is refused where it is missing, while
zero typed in is taken. -/
theorem zero_default_lost :
    ParamSpec.ofValue (countDescription (.int 0)) = .ok (count "") ∧
    ParamSpec.Declares (countDescription (.int 0)) (.int 0) ∧
    ((ofValue .standard survey (count "") .null true).run .empty).1 =
      .error (.required "Field 'count' in 'Survey' is required" "count" "Survey" "count"
        "survey") ∧
    ((ofValue .standard survey (count "") (.int 0) true).run .empty).1 =
      .ok ⟨"count", "int", .code "0"⟩ := by
  refine ⟨?_, ⟨_, _, rfl, rfl, rfl⟩, ?_, ?_⟩
  all_goals decide +kernel

end Argument

end NodeScript
