import Mathlib
import NodeScript.Proofs.Calls
import NodeScript.Proofs.Constants
import NodeScript.Proofs.Table
import NodeScript.Proofs.Yaml.Documents

/-!
# Predefined variables from definition to scope

The variables of a definition are interned as one YAML text, and a session that loads this text
writes them over its innermost scope. They arrive as the definition gives them, unless the way
through YAML changes one of them or makes the text unreadable; the main result says when.
-/

namespace NodeScript

/-! ### Variables of a definition -/

namespace Definition

variable {d : Definition} {lang : Value}

/-- Whether the language tables map texts to texts. -/
def HasTextLangs (d : Definition) : Prop :=
  ∀ l ∈ d.langs, Table.IsTexts l.2

/-- What the table of a language has under a name. -/
def localized? (d : Definition) (lang : Value) (name : String) : Option Value :=
  (d.langs.get? lang).bind (·.get? (.text name))

/-- The variable with a name: its value in a language, or else in the default table. Names that
begin with an underscore are no variables. -/
def predefined? (d : Definition) (lang : Value) (name : String) : Option Value :=
  if name.toList.head? = some '_' then none
  else (d.localized? lang name).or (d.localized? (.text defaultLang) name)

lemma HasTextLangs.langTable (h : d.HasTextLangs) {t : Table Value Value}
    (ht : d.langTable lang = .ok t) :
    t.IsTexts ∧ ∀ name, t.get? (.text name) = d.localized? lang name := by
  obtain ⟨_, -, heq⟩ := Except.bind_eq_ok_iff.1 ht
  obtain rfl := Except.ok.inj heq
  cases hget : d.langs.get? lang with
  | none => exact ⟨Table.isTexts_nil, fun name => by rw [localized?, hget]; rfl⟩
  | some t =>
    obtain ⟨k, hmem, -⟩ := Table.exists_mem_of_get? hget
    exact ⟨h _ hmem, fun name => by rw [localized?, hget]; rfl⟩

end Definition

namespace Predefined

variable {d : Definition} {lang : Value}

/-- Writing texts over others leaves out internal names. -/
lemma overlay_texts {vars t : Table Value Value} (hvars : vars.IsTexts) (ht : t.IsTexts) :
    ∃ vars', overlay vars t = .ok vars' ∧ vars'.IsTexts ∧
      ∀ name, vars'.get? (.text name) =
        if name.toList.head? = some '_' then vars.get? (.text name)
        else (t.get? (.text name)).or (vars.get? (.text name)) := by
  induction t generalizing vars with
  | nil => exact ⟨vars, rfl, hvars, fun name => by split_ifs <;> rfl⟩
  | cons e t ih =>
    obtain ⟨k, v, rfl⟩ := ht.texts e List.mem_cons_self
    rw [overlay]
    have hinternal : isInternal k = true ↔ k.toList.head? = some '_' := by simp [isInternal]
    simp only [hinternal]
    split_ifs with hk
    · obtain ⟨vars', ho, ht', hget⟩ := ih hvars ht.tail
      refine ⟨vars', ho, ht', fun name => ?_⟩
      rw [hget, Table.get?_cons]
      split_ifs with hname hsame
      · rfl
      · cases (Value.same_text_iff _ name).1 hsame
        exact absurd hk hname
      · rfl
    · obtain ⟨vars', ho, ht', hget⟩ := ih (hvars.put k v) ht.tail
      refine ⟨vars', ho, ht', fun name => ?_⟩
      rw [hget, Table.get?_cons, Table.get?_put_text]
      simp only [Value.text_same_iff]
      split_ifs with hname hsame hsame
      · cases hsame
        exact absurd hname hk
      · rfl
      · cases hsame
        rw [ht.get?_tail]
        rfl
      · rfl

lemma merge_texts (h : d.HasTextLangs) {vars : Table Value Value}
    (hm : merge d lang = .ok vars) :
    vars.IsTexts ∧ ∀ name, vars.get? (.text name) = d.predefined? lang name := by
  simp only [merge] at hm
  obtain ⟨defaults, hdef, hm⟩ := Except.bind_eq_ok_iff.1 hm
  obtain ⟨hdefaults, hdefget⟩ := h.langTable hdef
  obtain ⟨texts, htexts, hget, hm⟩ : ∃ texts : Table Value Value, texts.IsTexts ∧
      (∀ name, (texts.get? (.text name)).or (defaults.get? (.text name)) =
        (d.localized? lang name).or (defaults.get? (.text name))) ∧
      (overlay [] defaults >>= (overlay · texts)) = .ok vars := by
    split_ifs at hm with hlang
    · -- The default table is written once.
      rw [(Value.same_text_iff lang _).1 hlang]
      refine ⟨[], Table.isTexts_nil, fun name => ?_, hm⟩
      rw [← hdefget, Option.or_self]
      rfl
    · obtain ⟨texts, ht, hm⟩ := Except.bind_eq_ok_iff.1 hm
      obtain ⟨htexts, hget⟩ := h.langTable ht
      exact ⟨texts, htexts, fun name => by rw [hget], hm⟩
  obtain ⟨vars₀, ho₀, hvars₀, hget₀⟩ := overlay_texts Table.isTexts_nil hdefaults
  obtain ⟨vars₁, ho₁, hvars₁, hget₁⟩ := overlay_texts hvars₀ htexts
  rw [ho₀] at hm
  obtain rfl := Except.ok.inj (ho₁.symm.trans hm)
  refine ⟨hvars₁, fun name => ?_⟩
  rw [hget₁, hget₀, Definition.predefined?]
  split_ifs with hname
  · rfl
  · rw [← hdefget, ← hget, Table.get?, Option.or_none]

end Predefined

/-! ### Tables of texts -/

namespace Yaml

variable {es : List (String × String)}

lemma exists_textEntries {t : Table Value Value} (h : t.IsTexts) : ∃ es, t = textEntries es := by
  have htexts := h.texts
  clear h
  induction t with
  | nil => exact ⟨[], rfl⟩
  | cons e t ih =>
    obtain ⟨k, v, rfl⟩ := htexts e List.mem_cons_self
    obtain ⟨es, rfl⟩ := ih fun e he => htexts e (List.mem_cons_of_mem _ he)
    exact ⟨(k, v) :: es, rfl⟩

lemma texts_textEntries (es : List (String × String)) :
    ∀ e ∈ textEntries es, ∃ k v, e = (.text k, .text v) := by
  intro e he
  obtain ⟨⟨k, v⟩, -, rfl⟩ := List.mem_map.1 he
  exact ⟨k, v, rfl⟩

lemma mem_textEntries {k v : String} : (.text k, .text v) ∈ textEntries es ↔ (k, v) ∈ es := by
  simp [textEntries]

lemma textTable_eq_merge (es : List (String × String)) :
    textTable es = Table.merge [] (textEntries es) := by
  rw [textTable, Table.merge, textEntries, List.foldl_map]

lemma isTexts_textTable (es : List (String × String)) : (textTable es).IsTexts := by
  rw [textTable_eq_merge]
  exact Table.isTexts_nil.merge (texts_textEntries es)

/-- What a table has under a text comes from one of its entries. -/
lemma mem_of_get?_textTable {k : String} {v : Value} (h : (textTable es).get? (.text k) = some v) :
    ∃ w, v = .text w ∧ (k, w) ∈ es := by
  have hmem := (isTexts_textTable es).get?_eq_some_iff.1 h
  rw [textTable_eq_merge] at hmem
  obtain hmem | hmem := Table.mem_merge (texts_textEntries es) hmem
  · cases hmem
  · obtain ⟨_, w, heq⟩ := texts_textEntries es _ hmem
    cases heq
    exact ⟨w, rfl, mem_textEntries.1 hmem⟩

/-- The order in which entries are written does not matter, as long as no key comes twice. -/
lemma get?_textTable_sortedTexts (h : Table.IsTexts (textEntries es)) (k : Value) :
    (textTable (sortedTexts es)).get? k = Table.get? (textEntries es) k := by
  have hperm : (textEntries (sortedTexts es)).Perm (textEntries es) :=
    (List.mergeSort_perm es _).map _
  have hsorted := h.perm hperm.symm
  rw [textTable_eq_merge, Table.get?_merge hsorted, Table.get?, Option.or_none]
  by_cases hk : ∃ s, k = .text s
  · obtain ⟨s, rfl⟩ := hk
    exact hsorted.get?_perm hperm s
  · push Not at hk
    rw [h.get?_of_ne_text hk, hsorted.get?_of_ne_text hk]

end Yaml

/-! ### Loading variables -/

/-- A scope has the entries of another one, with some variables written over them. -/
structure Table.Overlays (new old : Table Value Value) (vars : String → Option Value) : Prop where
  texts : ∀ name, new.get? (.text name) = (vars name).or (old.get? (.text name))
  others : ∀ k, (∀ name, k ≠ .text name) → new.get? k = old.get? k

namespace Session

variable {s : Session} {text : String} {t top : Table Value Value} {rest : List (Table Value Value)}

lemma variableTexts_of_isTexts (ht : t.IsTexts) : variableTexts t = .ok (Table.merge [] t) := by
  have hfold : ∀ (u vars : Table Value Value), (∀ e ∈ u, ∃ k v, e = (.text k, .text v)) →
      u.foldlM (fun vars e => do
        let name ← e.1.shown
        let value ← e.2.variableText
        return vars.put (.text name) (.text value)) vars =
        (.ok (Table.merge vars u) : Except Fault (Table Value Value)) := by
    intro u
    induction u with
    | nil => exact fun _ _ => rfl
    | cons e u ih =>
      intro vars hu
      obtain ⟨k, v, rfl⟩ := hu e List.mem_cons_self
      exact ih _ fun e he => hu e (List.mem_cons_of_mem _ he)
  exact hfold t [] ht.texts

lemma readVariables_of_read (h : Yaml.read text = .ok (.table t)) (ht : t.IsTexts) :
    readVariables (.text text) = .ok (Table.merge [] t) := by
  have hor : (Value.table t).orElse (.table []) = .table t := by
    cases t with
    | nil => rfl
    | cons e t => rfl
  simp only [readVariables, h, hor, variableTexts_of_isTexts ht]
  rfl

/-- Texts that can be read are written over the innermost scope. -/
lemma call_setYamlVars_of_read (h : Yaml.read text = .ok (.table t)) (ht : t.IsTexts)
    (hs : s.scopes.stack = top :: rest) :
    ∃ new, s.call (.setYamlVars (.text text)) =
        ⟨.ok .null, { s with scopes := ⟨new :: rest⟩ }, []⟩ ∧
      ∀ k, new.get? k = (t.get? k).or (top.get? k) := by
  refine ⟨top.merge (Table.merge [] t), ?_, fun k => ?_⟩
  · obtain ⟨⟨stack⟩, log, now, sink⟩ := s
    obtain rfl : stack = top :: rest := hs
    rw [call_setYamlVars, readVariables_of_read h ht]
    rfl
  · rw [Table.get?_merge (Table.isTexts_nil.merge ht.texts), Table.get?_merge ht, Table.get?,
      Option.or_none]

lemma call_setYamlVars_of_invalid (h : Yaml.read text = .error .invalid) :
    s.call (.setYamlVars (.text text)) = ⟨.error .variablesUnreadable, s, []⟩ := by
  simp only [call_setYamlVars, readVariables, h]

variable {es : List (String × String)}

/-- Texts that fit arrive in the innermost scope as they were written. -/
lemma call_setYamlVars_of_write (hne : es ≠ []) (hes : Table.IsTexts (Yaml.textEntries es))
    (hwrite : Yaml.write (.table (Yaml.textEntries es)) = .ok text)
    (hfit : ∀ e ∈ es, ¬ Yaml.LongKey e.1 ∧ ¬ Yaml.Mangled e.1 ∧ ¬ Yaml.Mangled e.2)
    (hs : s.scopes.stack = top :: rest) :
    ∃ new, s.call (.setYamlVars (.text text)) =
        ⟨.ok .null, { s with scopes := ⟨new :: rest⟩ }, []⟩ ∧
      ∀ k, new.get? k = (Table.get? (Yaml.textEntries es) k).or (top.get? k) := by
  have hlong : ¬ ∃ e ∈ es, Yaml.LongKey e.1 := by
    rintro ⟨e, he, hl⟩
    exact (hfit e he).1 hl
  have hsame : (Yaml.sortedTexts es).map Yaml.rereadEntry = Yaml.sortedTexts es := by
    refine (List.map_congr_left fun e he => ?_).trans (List.map_id _)
    obtain ⟨-, hname, hvalue⟩ := hfit e (Yaml.mem_sortedTexts.1 he)
    rw [Yaml.rereadEntry, Yaml.reread_of_not_mangled hname, Yaml.reread_of_not_mangled hvalue]
    rfl
  have hread := Yaml.read_write hne hwrite
  rw [if_neg hlong, hsame] at hread
  obtain ⟨new, hset, hnew⟩ := call_setYamlVars_of_read hread (Yaml.isTexts_textTable _) hs
  refine ⟨new, hset, fun k => ?_⟩
  rw [hnew, Yaml.get?_textTable_sortedTexts hes]

/-- What arrives in a scope that was empty fits: no name was too long, and what was read is what
reading leaves as it is. -/
lemma fits_of_call_setYamlVars (hne : es ≠ [])
    (hwrite : Yaml.write (.table (Yaml.textEntries es)) = .ok text)
    (hs : s.scopes.stack = [] :: rest) {new : Table Value Value}
    (hset : s.call (.setYamlVars (.text text)) =
      ⟨.ok .null, { s with scopes := ⟨new :: rest⟩ }, []⟩)
    {name value : String} (hfound : new.get? (.text name) = some (.text value)) :
    (¬ ∃ e ∈ es, Yaml.LongKey e.1) ∧ ¬ Yaml.Mangled name ∧ ¬ Yaml.Mangled value := by
  have hread := Yaml.read_write hne hwrite
  have hlong : ¬ ∃ e ∈ es, Yaml.LongKey e.1 := by
    intro hlong
    rw [if_pos hlong] at hread
    rw [call_setYamlVars_of_invalid hread] at hset
    cases hset
  rw [if_neg hlong] at hread
  obtain ⟨new', hset', hnew⟩ := call_setYamlVars_of_read hread (Yaml.isTexts_textTable _) hs
  obtain rfl : new = new' :=
    (List.cons.inj (congrArg (·.session.scopes.stack) (hset.symm.trans hset'))).1
  rw [hnew, Table.get?, Option.or_none] at hfound
  obtain ⟨w, hw, hmem⟩ := Yaml.mem_of_get?_textTable hfound
  obtain rfl := Value.text.inj hw
  obtain ⟨e, -, he⟩ := List.mem_map.1 hmem
  obtain ⟨rfl, rfl⟩ := Prod.mk.inj he
  exact ⟨hlong, Yaml.not_mangled_reread e.1, Yaml.not_mangled_reread e.2⟩

end Session

namespace Predefined

variable {d : Definition} {lang : Value}

/-- A session with one scope, which is empty. -/
def blank : Session where
  scopes := ⟨[[]]⟩
  log := ⟨.info, .text "%H:%M", [], [], false⟩
  now := ⟨⟨2024, 1, 2⟩, 3, 4, 5, 0, none⟩
  sink := .journal

/-- The variables of a definition arrive in the innermost scope, whatever was there before, exactly
if no name is too long for its line and no name or value is changed by the way through YAML. -/
theorem variables_loaded_iff {c c' : Constants} {n : Nat} (hd : d.HasTextLangs)
    (hb : Yields (build d lang) c (some n) c') :
    ∃ text, c'.texts[n]? = some text ∧
      ((∀ (s : Session) (top : Table Value Value) (rest : List (Table Value Value)),
          s.scopes.stack = top :: rest →
            ∃ new, new.Overlays top (d.predefined? lang) ∧
              s.call (.setYamlVars (.text text)) =
                ⟨.ok .null, { s with scopes := ⟨new :: rest⟩ }, []⟩) ↔
        ∀ name value, d.predefined? lang name = some (.text value) →
          ¬ Yaml.LongKey name ∧ ¬ Yaml.Mangled name ∧ ¬ Yaml.Mangled value) := by
  obtain ⟨-, hbuilt⟩ := yields_build hb
  obtain ⟨vars, text, hmerge, hvars, hwrite, htext⟩ := hbuilt n rfl
  obtain ⟨htexts, hget⟩ := merge_texts hd hmerge
  obtain ⟨es, rfl⟩ := Yaml.exists_textEntries htexts
  have hne : es ≠ [] := by
    rintro rfl
    exact hvars rfl
  have hmem (name value : String) :
      d.predefined? lang name = some (.text value) ↔ (name, value) ∈ es := by
    rw [← hget, htexts.get?_eq_some_iff, Yaml.mem_textEntries]
  refine ⟨text, htext, fun hload name value hvar => ?_, fun hfit s top rest hs => ?_⟩
  · obtain ⟨new, hnew, hset⟩ := hload blank [] [] rfl
    have hfound : new.get? (.text name) = some (.text value) := by
      rw [hnew.texts, hvar, Option.some_or]
    obtain ⟨hlong, hmangled⟩ := Session.fits_of_call_setYamlVars hne hwrite rfl hset hfound
    exact ⟨fun hl => hlong ⟨_, (hmem _ _).1 hvar, hl⟩, hmangled⟩
  · obtain ⟨new, hset, hnew⟩ := Session.call_setYamlVars_of_write hne htexts hwrite
      (fun e he => hfit e.1 e.2 ((hmem _ _).2 he)) hs
    refine ⟨new, ⟨fun name => ?_, fun k hk => ?_⟩, hset⟩
    · rw [hnew, hget]
    · rw [hnew, htexts.get?_of_ne_text hk, Option.none_or]

/-- A definition with a variable that would be read as a table if it were written plainly. -/
def signs : Definition where
  name := "signs"
  langs := [("def", [("sign", "yes"), ("_title", "Signs")]),
    ("en", [("sign", "yes: 'no'\n1 # one")])]

/-- A definition with a variable in which a next-line character stands. -/
def nextLine : Definition where
  name := "next line"
  langs := [("def", [("text", "one\u0085two")])]

theorem signs_loaded : signs.HasTextLangs ∧ ∃ c' text,
    Yields (build signs "en") .empty (some 0) c' ∧ c'.texts[0]? = some text ∧
      ∀ (s : Session) (top : Table Value Value) (rest : List (Table Value Value)),
        s.scopes.stack = top :: rest →
          ∃ new, new.Overlays top (signs.predefined? "en") ∧
            s.call (.setYamlVars (.text text)) =
              ⟨.ok .null, { s with scopes := ⟨new :: rest⟩ }, []⟩ := by
  have hd : signs.HasTextLangs := by
    simp only [Definition.HasTextLangs, signs, List.forall_mem_cons, List.not_mem_nil,
      false_imp_iff, implies_true, and_true]
    constructor <;> exact ⟨by simp, by simp [Table.keys]⟩
  have hb : Yields (build signs "en") .empty (some 0) ((build signs "en").run .empty).2 := by
    refine Prod.ext ?_ rfl
    decide +kernel
  obtain ⟨text, htext, hiff⟩ := variables_loaded_iff hd hb
  refine ⟨hd, _, text, hb, htext, hiff.2 fun name value hvar => ?_⟩
  -- there is one variable
  have hmerge : merge signs "en" = .ok [("sign", "yes: 'no'\n1 # one")] := rfl
  obtain ⟨hvars, hget⟩ := merge_texts hd hmerge
  rw [← hget, hvars.get?_eq_some_iff, List.mem_singleton] at hvar
  cases hvar
  decide +kernel

/-- A next-line character arrives as a space. -/
theorem nextLine_not_loaded : nextLine.HasTextLangs ∧ ∃ c' text,
    Yields (build nextLine "en") .empty (some 0) c' ∧ c'.texts[0]? = some text ∧
      nextLine.predefined? "en" "text" = some "one\u0085two" ∧
      ∃ new : Table Value Value, new.get? "text" = some "one two" ∧
        blank.call (.setYamlVars (.text text)) =
          ⟨.ok .null, { blank with scopes := ⟨[new]⟩ }, []⟩ := by
  have hd : nextLine.HasTextLangs := by
    simp only [Definition.HasTextLangs, nextLine, List.forall_mem_cons, List.not_mem_nil,
      false_imp_iff, implies_true, and_true]
    exact ⟨by simp, by simp [Table.keys]⟩
  have hb : Yields (build nextLine "en") .empty (some 0) ((build nextLine "en").run .empty).2 := by
    refine Prod.ext ?_ rfl
    decide +kernel
  have htext : ((build nextLine "en").run .empty).2.texts[0]? =
      some "text: 'one\u0085  two'\n" := by
    decide +kernel
  have hvar : nextLine.predefined? "en" "text" = some "one\u0085two" := by
    decide +kernel
  have hsome : (Yaml.read "text: 'one\u0085  two'\n").toOption =
      some (.table [("text", "one two")]) := by
    decide +kernel
  have hread : Yaml.read "text: 'one\u0085  two'\n" = .ok (.table [("text", "one two")]) := by
    cases h : Yaml.read "text: 'one\u0085  two'\n" with
    | error e => rw [h] at hsome; cases hsome
    | ok v => rw [h] at hsome; exact congrArg _ (Option.some.inj hsome)
  obtain ⟨new, hset, hnew⟩ := Session.call_setYamlVars_of_read (s := blank) hread
    ⟨by simp, by simp [Table.keys]⟩ rfl
  exact ⟨hd, _, _, hb, htext, hvar, new, hnew _, hset⟩

end Predefined

end NodeScript
