import NodeScript.Proofs.Interruption
import NodeScript.Proofs.Reading

/-!
# Statements of calls

A call is written as one line: the name of a function and arguments between brackets, divided by
commas. `readCalls` reads such lines, knowing nothing of how they came about. It reads the calls
that were written if each argument is whole: its brackets match, and it holds neither a comma nor a
line break.

The names of functions are no obstacle. They are made of letters, digits and underscores, however
definitions are called and whatever was compiled before.
-/

namespace NodeScript

/-! ### Reading calls -/

namespace CallLine

/-- Whether a character ends a line. -/
def isBreak (c : Char) : Bool :=
  c == '\r' || c == '\n'

/-- The lines of a text that are not empty. -/
def lines (cs : List Char) : List (List Char) :=
  (cs.splitOnP isBreak).filter fun line => !line.isEmpty

/-- The parts of a text between commas. Commas inside brackets divide nothing, and brackets must
match; `depth` is the number of those that are open. -/
def splitArgs : List Char → (depth : Nat) → Option (List (List Char))
  | [], depth => if depth = 0 then some [[]] else none
  | c :: cs, depth =>
    if c = ',' ∧ depth = 0 then (splitArgs cs 0).map ([] :: ·)
    else if c = '(' then (splitArgs cs (depth + 1)).map (List.modifyHead (c :: ·))
    else if c = ')' then
      if depth = 0 then none else (splitArgs cs (depth - 1)).map (List.modifyHead (c :: ·))
    else (splitArgs cs depth).map (List.modifyHead (c :: ·))

/-- Reads arguments. Nothing at all is no argument. -/
def readArgs (cs : List Char) : Option (List (List Char)) :=
  if cs.isEmpty then some [] else splitArgs cs 0

/-- The blanks before a call. -/
def indent : List Char :=
  [' ', ' ', ' ']

/-- Reads a line as the call of a function with arguments. -/
def read (line : List Char) : Option (String × List String) := do
  let call ← indent.isPrefixOf? line
  match call.dropWhile Identifier.isKept with
  | '(' :: body =>
    if body.getLast? = some ')' then
      let args ← readArgs body.dropLast
      return (String.ofList (call.takeWhile Identifier.isKept), args.map String.ofList)
    else none
  | _ => none

end CallLine

/-- Reads a text as calls, one in each line. -/
def readCalls (text : String) : Option (List (String × List String)) :=
  (CallLine.lines text.toList).mapM CallLine.read

namespace CallLine

/-! ### Text that is read as a whole -/

/-- Text whose brackets match and that has no comma. -/
inductive Whole : List Char → Prop
  | nil : Whole []
  | cons {c : Char} {cs : List Char} (plain : c ∉ [',', '(', ')']) (rest : Whole cs) :
      Whole (c :: cs)
  | bracket {cs ds : List Char} (inner : Whole cs) (rest : Whole ds) :
      Whole ('(' :: (cs ++ ')' :: ds))

lemma Whole.of_plain {cs : List Char} (h : ∀ c ∈ cs, c ∉ [',', '(', ')']) : Whole cs := by
  induction cs with
  | nil => exact .nil
  | cons c cs ih =>
    rw [List.forall_mem_cons] at h
    exact .cons h.1 (ih h.2)

lemma Whole.append {cs ds : List Char} (hc : Whole cs) (hd : Whole ds) : Whole (cs ++ ds) := by
  induction hc with
  | nil => exact hd
  | cons plain _ ih => exact .cons plain ih
  | bracket inner _ _ ih =>
    rw [List.cons_append, List.append_assoc]
    exact .bracket inner ih

lemma splitArgs_comma (cs : List Char) :
    splitArgs (',' :: cs) 0 = (splitArgs cs 0).map ([] :: ·) := by
  rw [splitArgs, if_pos ⟨rfl, rfl⟩]

lemma splitArgs_open (cs : List Char) (depth : Nat) :
    splitArgs ('(' :: cs) depth = (splitArgs cs (depth + 1)).map (List.modifyHead ('(' :: ·)) := by
  rw [splitArgs, if_neg (by simp), if_pos rfl]

lemma splitArgs_close (cs : List Char) (depth : Nat) :
    splitArgs (')' :: cs) (depth + 1) = (splitArgs cs depth).map (List.modifyHead (')' :: ·)) := by
  rw [splitArgs, if_neg (by simp), if_neg (by simp), if_pos rfl, if_neg depth.succ_ne_zero]
  rfl

lemma splitArgs_plain {c : Char} (hc : c ∉ [',', '(', ')']) (cs : List Char) (depth : Nat) :
    splitArgs (c :: cs) depth = (splitArgs cs depth).map (List.modifyHead (c :: ·)) := by
  simp only [List.mem_cons, List.not_mem_nil, or_false, not_or] at hc
  obtain ⟨hcomma, hopen, hclose⟩ := hc
  rw [splitArgs, if_neg (fun h => hcomma h.1), if_neg hopen, if_neg hclose]

/-- Whole text stays in one part, at any depth. -/
lemma splitArgs_append {t : List Char} (ht : Whole t) (rest : List Char) (depth : Nat) :
    splitArgs (t ++ rest) depth = (splitArgs rest depth).map (List.modifyHead (t ++ ·)) := by
  induction ht generalizing rest depth with
  | nil =>
    have hid : List.modifyHead (([] : List Char) ++ ·) = id := by
      funext l
      cases l <;> rfl
    rw [hid, Option.map_id]
    rfl
  | cons plain _ ih =>
    rw [List.cons_append, splitArgs_plain plain, ih, Option.map_map]
    congr 1
    funext l
    exact List.modifyHead_modifyHead
  | bracket _ _ ihc ihd =>
    rw [List.cons_append, List.append_assoc, List.cons_append, splitArgs_open, ihc,
      splitArgs_close, ihd, Option.map_map, Option.map_map, Option.map_map]
    congr 1
    funext l
    simp [List.modifyHead_modifyHead, Function.comp_def]

/-- Whole texts are the parts between the commas that are put between them. -/
lemma splitArgs_intercalate {t : List Char} {ts : List (List Char)} (h : ∀ u ∈ t :: ts, Whole u) :
    splitArgs ([','].intercalate (t :: ts)) 0 = some (t :: ts) := by
  induction ts generalizing t with
  | nil =>
    have ht : splitArgs (t ++ []) 0 = _ := splitArgs_append (h t List.mem_cons_self) [] 0
    simpa [splitArgs] using ht
  | cons u ts ih =>
    rw [List.forall_mem_cons] at h
    rw [List.intercalate_cons_cons, List.append_assoc, splitArgs_append h.1, List.singleton_append,
      splitArgs_comma, ih h.2]
    simp

/-- Lines are read from the text that they make up, each with its line break. -/
lemma lines_flatMap {ls : List (List Char)} (hne : ∀ l ∈ ls, l ≠ [])
    (hbreak : ∀ l ∈ ls, ∀ c ∈ l, isBreak c = false) :
    lines (ls.flatMap fun l => l ++ newline.toList) = ls := by
  have hnewline : newline.toList = ['\r', '\n'] := by decide
  rw [hnewline]
  induction ls with
  | nil => rfl
  | cons l ls ih =>
    rw [List.forall_mem_cons] at hne hbreak
    have hrest := ih hne.2 hbreak.2
    rw [lines] at hrest ⊢
    rw [List.flatMap_cons, List.append_assoc, List.cons_append,
      List.splitOnP_append_cons_of_forall_mem hbreak.1 _ rfl,
      ← List.nil_append (['\n'] ++ _), List.singleton_append,
      List.splitOnP_append_cons_of_forall_mem (by simp) _ rfl]
    simp [hne.1, hrest]

lemma unbroken_intercalate {ts : List (List Char)} (h : ∀ t ∈ ts, ∀ c ∈ t, isBreak c = false) :
    ∀ c ∈ [','].intercalate ts, isBreak c = false := by
  induction ts with
  | nil => simp
  | cons t ts ih =>
    rw [List.forall_mem_cons] at h
    cases ts with
    | nil => exact fun c hc => h.1 c (by simpa using hc)
    | cons u ts =>
      rw [List.intercalate_cons_cons, List.forall_mem_append, List.forall_mem_append]
      exact ⟨⟨h.1, List.forall_mem_singleton.2 rfl⟩, ih h.2⟩

end CallLine

/-- Text that divides nothing in the line where it stands. -/
structure CallLine.Apart (s : String) : Prop where
  ne_empty : s ≠ ""
  whole : Whole s.toList
  unbroken : ∀ c ∈ s.toList, isBreak c = false

/-- Text in which only the characters of identifiers occur. -/
def Identifier.IsName (id : String) : Prop :=
  ∀ c ∈ id.toList, isKept c = true

lemma Identifier.isBreak_of_isKept {c : Char} (hc : isKept c = true) :
    CallLine.isBreak c = false := by
  rw [CallLine.isBreak, Bool.or_eq_false_iff, beq_eq_false_iff_ne, beq_eq_false_iff_ne]
  constructor
  · rintro rfl
    exact absurd hc (by decide)
  · rintro rfl
    exact absurd hc (by decide)

/-- The text of some calls. -/
def renderCalls (cs : List Call) : String :=
  String.join (cs.map Call.render)

namespace Call

/-- The name of the function and the texts of the arguments. -/
def texts (c : Call) : String × List String :=
  (c.function, c.args.map Operand.render)

/-- The line of a call, as characters. -/
def line (c : Call) : List Char :=
  CallLine.indent ++ (c.function.toList ++
    '(' :: ([','].intercalate (c.args.map fun o => o.render.toList) ++ [')']))

lemma toList_render (c : Call) : c.render.toList = c.line ++ newline.toList := by
  simp [render, line, CallLine.indent, String.toList_intercalate, Function.comp_def]

variable {c : Call}

lemma readArgs_args (hargs : ∀ o ∈ c.args, CallLine.Apart o.render) :
    CallLine.readArgs ([','].intercalate (c.args.map fun o => o.render.toList)) =
      some (c.args.map fun o => o.render.toList) := by
  cases hc : c.args with
  | nil => rfl
  | cons o os =>
    rw [hc] at hargs
    have hwhole : ∀ t ∈ o.render.toList :: os.map (fun o => o.render.toList),
        CallLine.Whole t := by
      rw [← List.map_cons (f := fun o : Operand => o.render.toList), List.forall_mem_map]
      exact fun o ho => (hargs o ho).whole
    have hsplit := CallLine.splitArgs_intercalate hwhole
    rw [List.map_cons, CallLine.readArgs, if_neg ?_, hsplit]
    -- a text that is empty has one part, which is empty as well
    intro hempty
    rw [List.isEmpty_iff.1 hempty] at hsplit
    have hnil : [] = o.render.toList := (List.cons.inj (Option.some.inj hsplit)).1
    exact (hargs o List.mem_cons_self).ne_empty (String.toList_eq_nil_iff.1 hnil.symm)

lemma read_line (hname : Identifier.IsName c.function)
    (hargs : ∀ o ∈ c.args, CallLine.Apart o.render) : CallLine.read c.line = some c.texts := by
  have hparen : Identifier.isKept '(' = false := by decide
  rw [CallLine.read, line, StringTable.isPrefixOf?_append]
  simp only [Option.bind_eq_bind, Option.bind_some]
  rw [List.dropWhile_append_of_pos hname, List.takeWhile_append_of_pos hname]
  simp only [List.dropWhile_cons, List.takeWhile_cons, hparen]
  simp [readArgs_args hargs, texts, Function.comp_def]

lemma unbroken_line (hname : Identifier.IsName c.function)
    (hargs : ∀ o ∈ c.args, CallLine.Apart o.render) : ∀ x ∈ c.line, CallLine.isBreak x = false := by
  have hintercalate := CallLine.unbroken_intercalate
    (List.forall_mem_map.2 fun o ho => (hargs o ho).unbroken)
  rw [line, List.forall_mem_append, List.forall_mem_append, List.forall_mem_cons,
    List.forall_mem_append]
  refine ⟨by simp [CallLine.indent, CallLine.isBreak], ?_, rfl, hintercalate,
    List.forall_mem_singleton.2 rfl⟩
  exact fun x hx => Identifier.isBreak_of_isKept (hname x hx)

lemma mapM_read_line {cs : List Call} (hname : ∀ c ∈ cs, Identifier.IsName c.function)
    (hargs : ∀ c ∈ cs, ∀ o ∈ c.args, CallLine.Apart o.render) :
    (cs.map line).mapM CallLine.read = some (cs.map texts) := by
  induction cs with
  | nil => rfl
  | cons c cs ih =>
    rw [List.forall_mem_cons] at hname hargs
    rw [List.map_cons, List.mapM_cons, read_line hname.1 hargs.1, ih hname.2 hargs.2]
    rfl

end Call

/-- Calls are read from their text if no argument divides anything. -/
lemma readCalls_renderCalls {cs : List Call} (hname : ∀ c ∈ cs, Identifier.IsName c.function)
    (hargs : ∀ c ∈ cs, ∀ o ∈ c.args, CallLine.Apart o.render) :
    readCalls (renderCalls cs) = some (cs.map Call.texts) := by
  have htext : (renderCalls cs).toList =
      (cs.map Call.line).flatMap fun l => l ++ newline.toList := by
    simp only [renderCalls, String.toList_join, List.flatMap_map, Call.toList_render]
  rw [readCalls, htext, CallLine.lines_flatMap]
  · exact Call.mapM_read_line hname hargs
  · rw [List.forall_mem_map]
    exact fun c _ => by simp [Call.line]
  · rw [List.forall_mem_map]
    exact fun c hc => Call.unbroken_line (hname c hc) (hargs c hc)

/-! ### The names of functions -/

namespace Identifier

lemma isName_ofName (s : String) : IsName (ofName s) := by
  have hguard : ∀ cs, (∀ c ∈ cs, isKept c = true) → ∀ c ∈ guardStart cs, isKept c = true := by
    intro cs hcs
    cases cs with
    | nil => exact List.forall_mem_singleton.2 rfl
    | cons c cs =>
      rw [guardStart]
      split_ifs
      · exact List.forall_mem_cons.2 ⟨rfl, hcs⟩
      · exact hcs
  rw [IsName, ofName, String.toList_ofList, ofChars]
  split
  · exact List.forall_mem_singleton.2 rfl
  · exact hguard _ fun c hc => (List.mem_filter.1 hc).2

lemma isName_of_ofValue {v : Value} {id : String} (h : ofValue v = .ok id) : IsName id := by
  cases v with
  | text s =>
    cases h
    exact isName_ofName s
  | _ => cases h

lemma isDigit_of_mem_toString {n : Nat} {c : Char} (hc : c ∈ (toString n).toList) :
    c.isDigit = true :=
  Nat.isDigit_of_mem_toDigits (by norm_num) le_rfl (Nat.toList_repr ▸ hc)

lemma IsName.numbered {base : String} (h : IsName base) (n : Nat) :
    IsName (base ++ toString n) := by
  rw [IsName, String.toList_append, List.forall_mem_append]
  exact ⟨h, fun c hc => by simp [isKept, Char.isAlphanum, isDigit_of_mem_toString hc]⟩

end Identifier

namespace Draft

open Identifier

variable {s s' : Draft} {d : Definition} {id : String}

lemma isName_freshId {ids : List String} {base : String} (h : IsName base) :
    IsName (freshId ids base) := by
  rw [freshId]
  split_ifs
  · exact h.numbered _
  · exact h

lemma isName_of_link (h : Yields (link d) s id s') : IsName id := by
  simp only [link, yields_bind_iff, yields_liftFault_iff, yields_get_iff, yields_set_iff,
    yields_pure_iff] at h
  obtain ⟨base, _, ⟨hbase, rfl⟩, _, _, ⟨rfl, rfl⟩, _, _, rfl, rfl, rfl⟩ := h
  exact isName_freshId (isName_of_ofValue hbase)

lemma isName_of_nextSourceId (h : Yields (nextSourceId d) s id s') : IsName id := by
  simp only [nextSourceId, yields_bind_iff, yields_liftFault_iff, yields_get_iff, yields_set_iff,
    yields_pure_iff] at h
  obtain ⟨base, _, ⟨hbase, rfl⟩, _, _, ⟨rfl, rfl⟩, _, _, rfl, rfl, rfl⟩ := h
  exact (isName_of_ofValue hbase).numbered _

/-- Definitions are linked to names only. -/
def Named (s : Draft) : Prop :=
  ∀ name id, s.linked.get? name = some id → IsName id

lemma named_empty : Draft.empty.Named := by
  intro name id hid
  cases hid

lemma Named.link (hs : s.Named) (h : Yields (link d) s id s') : s'.Named := by
  have hid := isName_of_link h
  obtain ⟨text, hname, -, rfl⟩ := yields_link h
  intro name id' hid'
  simp only [hname, Table.get?_put_text] at hid'
  split_ifs at hid'
  · cases hid'
    exact hid
  · exact hs name id' hid'

end Draft

namespace Compile

variable {h : Header} {defs : Catalogue} {ns : List Node} {s s' : Draft} {cs : List Call}
  {vs : List Visit}

lemma Compiles.isName_of_block (hc : Compiles h defs ns s cs s' vs) {v : Visit} (hv : v ∈ vs)
    {f : FunctionBlock} (hf : v.block = some (.function f)) : Identifier.IsName f.id := by
  induction hc with
  | nil => cases hv
  | disabled _ _ ih => exact ih hv
  | again _ _ _ _ ih =>
    obtain rfl | hv := List.mem_cons.1 hv
    · cases hf
    · exact ih hv
  | first _ _ _ link _ _ _ _ _ _ ihc iht ihr =>
    simp only [List.mem_append, List.mem_cons] at hv
    obtain (hv | hv) | rfl | hv := hv
    · exact ihc hv
    · exact iht hv
    · cases hf
      exact Draft.isName_of_link link
    · exact ihr hv
  | topLevel _ _ _ _ _ _ ihc ihr =>
    simp only [List.mem_append, List.mem_cons] at hv
    obtain hv | rfl | hv := hv
    · exact ihc hv
    · cases hf
    · exact ihr hv
  | inline _ _ _ _ number _ _ ihc ihr =>
    simp only [List.mem_append, List.mem_cons] at hv
    obtain hv | rfl | hv := hv
    · exact ihc hv
    · cases hf
      exact Draft.isName_of_nextSourceId number
    · exact ihr hv

lemma Compiles.named (hc : Compiles h defs ns s cs s' vs) (hs : s.Named) : s'.Named := by
  intro name id hid
  obtain hid | ⟨v, hv, f, -, -, hf, rfl⟩ := hc.linked hid
  · exact hs name id hid
  · exact hc.isName_of_block hv hf

lemma kept_named : Kept Draft.Named where
  empty := Draft.named_empty
  constants _ hs := hs
  link hlink hs := hs.link hlink
  compiles hc hs := hc.named hs

/-- Whatever was done before, definitions are linked to names only. -/
lemma Workbench.named_after {w : Workbench} (hw : w.draft.Named) (actions : List Action) :
    (w.after h actions).draft.Named :=
  keeps_after kept_named hw actions

lemma Compiles.isName_of_call (hc : Compiles h defs ns s cs s' vs) (hs : s.Named) {v : Visit}
    (hv : v ∈ vs) {c : Call} (hcall : c ∈ v.calls) : Identifier.IsName c.function := by
  obtain ⟨f, hf, hid⟩ | hlinked := (hc.fits v hv).function_of_call hcall
  · rw [← hid]
    exact hc.isName_of_block hv hf
  · exact hc.named hs _ _ hlinked

end Compile

end NodeScript
