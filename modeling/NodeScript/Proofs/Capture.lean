import NodeScript.Proofs.Execution
import NodeScript.Proofs.Statements

/-!
# Captured names

A program relies on names that are not its own: the calls of the session, the constants for log
levels and the names of its own constants. Identifiers of functions are kept apart from each other
and from nothing else, so a function can capture such a name.

`Draft.Issued` says how a function gets its identifier. It is the identifier of the definition as it
stands, or with a number where another function has it already. A definition therefore captures the
calls that its name gives, and numbers matter for constants only, whose names are the only ones to
hold digits. The constants for log levels are safe, because an identifier holds an underscore at its
start only.
-/

namespace NodeScript

/-! ### Underscores -/

namespace Text

/-- The run does not lead to an underscore. -/
def CaseRun.Misses (r : CaseRun) : Prop :=
  r.last + r.shift < 0x5f ∨ 0x5f < r.first + r.shift

instance (r : CaseRun) : Decidable r.Misses := inferInstanceAs (Decidable (_ ∨ _))

lemma CaseRun.Misses.map?_ne {r : CaseRun} (hr : r.Misses) (n : Nat) :
    r.map? n ≠ some 0x5f := by
  rw [map?]
  split_ifs with hn
  · simp only [Bool.and_eq_true, decide_eq_true_eq] at hn
    simp only [Misses] at hr
    simp only [ne_eq, Option.some.injEq]
    omega
  · simp

lemma ofNat_eq_underscore_iff {n : Nat} : Char.ofNat n = '_' ↔ n = 0x5f := by
  constructor
  · intro h
    have hn := congrArg Char.toNat h
    rw [Char.toNat_ofNat] at hn
    split_ifs at hn
    · exact hn
    · cases hn
  · rintro rfl
    rfl

lemma toUpper_ne_underscore {c : Char} (hc : c ≠ '_') (hascii : c.toNat < 0x80) :
    c.toUpper ≠ '_' := by
  have hall : ∀ n < 0x80, (Char.ofNat n).toUpper = '_' → Char.ofNat n = '_' := by decide
  intro h
  rw [← Char.ofNat_toNat c] at h
  exact hc (Char.ofNat_toNat c ▸ hall _ hascii h)

lemma upperRuns_miss : ∀ r ∈ upperRuns, r.Misses := by decide +kernel

lemma upperExpansions_miss : ∀ e ∈ upperExpansions, 0x5f ∉ e.2 := by decide +kernel

/-- Only an underscore has an underscore as its upper case form. -/
lemma underscore_not_mem_upperChar {c : Char} (hc : c ≠ '_') : '_' ∉ upperChar c := by
  rw [upperChar]
  split_ifs with hascii
  · simpa using (toUpper_ne_underscore hc hascii).symm
  rw [mapCase]
  split
  next image himage =>
    obtain ⟨before, after, hlist, -⟩ := List.lookup_eq_some_iff.1 himage
    have hmiss := upperExpansions_miss (c.toNat, image) (by simp [hlist])
    simpa [ofNat_eq_underscore_iff] using hmiss
  next =>
    rw [List.mem_singleton, eq_comm, ofNat_eq_underscore_iff]
    cases hrun : upperRuns.findSome? (·.map? c.toNat) with
    | none =>
      rw [Option.getD_none, ← ofNat_eq_underscore_iff, Char.ofNat_toNat]
      exact hc
    | some n =>
      obtain ⟨r, hr, hn⟩ := List.exists_of_findSome?_eq_some hrun
      rintro rfl
      exact (upperRuns_miss r hr).map?_ne _ hn

end Text

namespace Identifier

/-- The parts of a name hold no separators. -/
lemma isSeparator_of_mem_parts {cs w : List Char} (hw : w ∈ parts cs) :
    ∀ c ∈ w, isSeparator c = false := by
  induction cs generalizing w with
  | nil =>
    rw [List.mem_singleton.1 hw]
    simp
  | cons c cs ih =>
    rw [parts] at hw
    split_ifs at hw with hc
    · obtain rfl | hw := List.mem_cons.1 hw
      · simp
      · exact ih hw
    · cases hparts : parts cs with
      | nil =>
        rw [hparts, extendFirst, List.mem_singleton] at hw
        simpa [hw] using hc
      | cons v vs =>
        rw [hparts] at ih
        rw [hparts, extendFirst, List.mem_cons] at hw
        obtain rfl | hw := hw
        · exact List.forall_mem_cons.2 ⟨by simpa using hc, ih List.mem_cons_self⟩
        · exact ih (List.mem_cons_of_mem _ hw)

lemma underscore_not_mem_of_mem_words {cs w : List Char} (hw : w ∈ words cs) : '_' ∉ w :=
  fun h => absurd (isSeparator_of_mem_parts (List.mem_filter.1 hw).1 _ h) (by decide)

lemma underscore_not_mem_capitalize {w : List Char} (hw : '_' ∉ w) : '_' ∉ capitalize w := by
  cases w with
  | nil => simp [capitalize]
  | cons c rest =>
    rw [List.mem_cons, not_or] at hw
    rw [capitalize, List.mem_append, not_or]
    exact ⟨Text.underscore_not_mem_upperChar (Ne.symm hw.1), hw.2⟩

lemma underscore_not_mem_tail_guardStart {cs : List Char} (hcs : '_' ∉ cs) :
    '_' ∉ (guardStart cs).tail := by
  cases cs with
  | nil => simp [guardStart]
  | cons c rest =>
    rw [guardStart]
    split_ifs
    · exact hcs
    · exact fun h => hcs (List.mem_cons_of_mem _ h)

/-- Words that are joined hold no underscore. -/
lemma underscore_not_mem_joined {cs w : List Char} {ws : List (List Char)}
    (hwords : words cs = w :: ws) : '_' ∉ w ++ (ws.map capitalize).flatten := by
  have hword : ∀ v ∈ w :: ws, '_' ∉ v := fun v hv =>
    underscore_not_mem_of_mem_words (hwords ▸ hv)
  intro h
  obtain h | h := List.mem_append.1 h
  · exact hword w List.mem_cons_self h
  · obtain ⟨v, hv, h⟩ := List.mem_flatten.1 h
    obtain ⟨u, hu, rfl⟩ := List.mem_map.1 hv
    exact underscore_not_mem_capitalize (hword u (List.mem_cons_of_mem _ hu)) h

/-- An identifier holds an underscore at its start only. -/
lemma underscore_not_mem_tail (s : String) : '_' ∉ (ofName s).toList.tail := by
  rw [ofName, String.toList_ofList, ofChars]
  split
  · simp
  next w ws hwords =>
    exact underscore_not_mem_tail_guardStart fun h =>
      underscore_not_mem_joined hwords (List.mem_filter.1 h).1

end Identifier

/-! ### Numbered names -/

/-- A text without digits. -/
def Undigited (s : String) : Prop :=
  ∀ c ∈ s.toList, c.isDigit = false

instance : DecidablePred Undigited := fun s =>
  List.decidableBAll (fun c : Char => c.isDigit = false) s.toList

lemma not_undigited_numbered (base : String) (n : Nat) : ¬ Undigited (base ++ toString n) := by
  intro h
  obtain ⟨c, hc⟩ := List.exists_mem_of_ne_nil _ (Nat.toDigits_ne_nil (n := n) (b := 10))
  rw [← Nat.toList_repr] at hc
  have hdigit := Identifier.isDigit_of_mem_toString hc
  rw [h c (by rw [String.toList_append]; exact List.mem_append_right _ hc)] at hdigit
  cases hdigit

/-- The first digits of a number are those of a number that is not larger. -/
lemma exists_of_prefix_toDigits {ds : List Char} {n : Nat} (hds : ds <+: Nat.toDigits 10 n)
    (hne : ds ≠ []) : ∃ m ≤ n, ds = Nat.toDigits 10 m := by
  induction n using Nat.strong_induction_on with
  | _ n ih =>
    obtain hlt | hle := Nat.lt_or_ge n 10
    · rw [Nat.toDigits_of_lt_base hlt] at hds
      refine ⟨n, le_rfl, ?_⟩
      rw [Nat.toDigits_of_lt_base hlt]
      obtain rfl | ⟨rest, rfl, hrest⟩ := List.prefix_cons_iff.1 hds
      · exact absurd rfl hne
      · rw [List.prefix_nil.1 hrest]
    · rw [Nat.toDigits_of_base_le (by norm_num) hle, List.prefix_concat_iff,
        ← Nat.toDigits_of_base_le (by norm_num) hle] at hds
      obtain rfl | hds := hds
      · exact ⟨n, le_rfl, rfl⟩
      · obtain ⟨m, hm, heq⟩ := ih (n / 10) (by omega) hds
        exact ⟨m, by omega, heq⟩

namespace StringTable

lemma toList_reference (n : Nat) : (reference n).toList = "STR".toList ++ Nat.toDigits 10 n := by
  rw [reference, String.toList_append]
  exact congrArg _ Nat.toList_repr

/-- A numbered name is that of a constant only if it extends `STR` or the name of a constant. -/
lemma base_of_numbered_eq_reference {base : String} {k n : Nat}
    (h : base ++ toString k = reference n) :
    (base = "STR" ∧ k = n) ∨ ∃ m ≤ n, base = reference m := by
  have hlist : base.toList ++ Nat.toDigits 10 k = "STR".toList ++ Nat.toDigits 10 n := by
    rw [← toList_reference, ← h, String.toList_append]
    exact congrArg _ Nat.toList_repr.symm
  have hbare : base.toList = "STR".toList → base = "STR" ∧ k = n := by
    intro hbase
    obtain rfl := String.toList_inj.1 hbase
    exact ⟨rfl, Draft.numbered_injective "STR" h⟩
  obtain ⟨ds, hbase, hk⟩ | ⟨ds, hbase, hn⟩ := List.append_eq_append_iff.1 hlist
  · -- the letters are no digits, so none of them belongs to the number
    cases ds with
    | nil => exact .inl (hbare (by rw [hbase, List.append_nil]))
    | cons d ds =>
      have hd : d ∈ "STR".toList := hbase ▸ List.mem_append_right _ List.mem_cons_self
      have hdigit : d.isDigit = true :=
        Nat.isDigit_of_mem_toDigits (n := k) (by norm_num) le_rfl (by simp [hk])
      have hstr : Undigited "STR" := by decide
      rw [hstr d hd] at hdigit
      cases hdigit
  · obtain rfl | hne := eq_or_ne ds []
    · exact .inl (hbare (by rw [hbase, List.append_nil]))
    · obtain ⟨m, hm, rfl⟩ := exists_of_prefix_toDigits ⟨_, hn.symm⟩ hne
      exact .inr ⟨m, hm, String.toList_inj.1 (by rw [hbase, toList_reference])⟩

end StringTable

/-! ### How functions get their identifiers -/

/-- The identifier that numbers are added to for code of the user. -/
def Identifier.ofSource : String := ofName Definition.sourceCodeName

namespace Draft

/-- How a function got its identifier, if `ids` are the identifiers in use. -/
inductive Issued (ids : List String) (f : FunctionBlock) : Prop
  /-- The identifier of the definition was free. -/
  | plain (wanted : Identifier.ofValue f.definition = .ok f.id)
  /-- It was in use, and so were the numbers up to the one that was taken. -/
  | numbered {base : String} {k : Nat} (wanted : Identifier.ofValue f.definition = .ok base)
      (taken : base ∈ ids) (two_le : 2 ≤ k) (below : ∀ j, 2 ≤ j → j < k → base ++ toString j ∈ ids)
      (id_eq : f.id = base ++ toString k)
  /-- Code of the user always gets a number. -/
  | source {n : Nat} (named : f.definition = .text Definition.sourceCodeName)
      (id_eq : f.id = Identifier.ofSource ++ toString n)

namespace Issued

variable {ids ids' : List String} {f : FunctionBlock} {base : String}

lemma mono (hf : Issued ids f) (hids : ids ⊆ ids') : Issued ids' f := by
  cases hf with
  | plain wanted => exact .plain wanted
  | numbered wanted taken two_le below id_eq =>
    exact .numbered wanted (hids taken) two_le (fun j hj hjk => hids (below j hj hjk)) id_eq
  | source named id_eq => exact .source named id_eq

/-- An identifier without digits is that of the definition. -/
lemma wanted_of_undigited (hf : Issued ids f) (hid : Undigited f.id) :
    Identifier.ofValue f.definition = .ok f.id := by
  cases hf with
  | plain wanted => exact wanted
  | numbered _ _ _ _ id_eq | source _ id_eq =>
    rw [id_eq] at hid
    exact (not_undigited_numbered _ _ hid).elim

/-- The identifier of a definition is in use, and so is its first number if the function of the
definition did not get the identifier itself. -/
lemma mem_of_wanted (hf : Issued ids f) (hmem : f.id ∈ ids)
    (hbase : Identifier.ofValue f.definition = .ok base) (hne : base ≠ Identifier.ofSource) :
    base ∈ ids ∧ (f.id = base ∨ base ++ toString 2 ∈ ids) := by
  cases hf with
  | plain wanted =>
    cases wanted.symm.trans hbase
    exact ⟨hmem, .inl rfl⟩
  | @numbered _ k wanted taken two_le below id_eq =>
    cases wanted.symm.trans hbase
    refine ⟨taken, .inr ?_⟩
    obtain hlt | rfl := two_le.lt_or_eq
    · exact below 2 le_rfl hlt
    · exact id_eq ▸ hmem
  | source named =>
    rw [named] at hbase
    cases hbase
    exact (hne rfl).elim

end Issued

variable {s s' : Draft} {d : Definition} {id : String} {f : FunctionBlock}

lemma issued_of_link (h : Yields (link d) s id s') (hname : f.definition = d.name)
    (hid : f.id = id) : Issued s'.ids f := by
  simp only [link, yields_bind_iff, yields_liftFault_iff, yields_get_iff, yields_set_iff,
    yields_pure_iff] at h
  obtain ⟨base, _, ⟨hbase, rfl⟩, _, s, ⟨rfl, rfl⟩, _, _, rfl, rfl, rfl⟩ := h
  rw [← hname] at hbase
  rw [freshId] at hid
  split_ifs at hid with htaken
  · obtain ⟨k, -, hk, hbelow, -⟩ := firstFree_spec s.ids (numbered_injective base) 2
    simp only [hk] at hid
    refine .numbered hbase (List.mem_append_left _ (by simpa using htaken)) (Nat.le_add_right 2 k)
      (fun j hj hjk => ?_) hid
    obtain ⟨i, rfl⟩ := Nat.exists_eq_add_of_le hj
    exact List.mem_append_left _ (hbelow i (by omega))
  · exact .plain (hid ▸ hbase)

lemma issued_of_nextSourceId (h : Yields (nextSourceId d) s id s') (hd : d.isSourceCode = true)
    (hname : f.definition = d.name) (hid : f.id = id) (ids : List String) : Issued ids f := by
  have hsource : d.name = .text Definition.sourceCodeName := (Value.same_text_iff _ _).1 hd
  simp only [nextSourceId, yields_bind_iff, yields_liftFault_iff, yields_get_iff, yields_set_iff,
    yields_pure_iff, hsource] at h
  obtain ⟨base, _, ⟨hbase, rfl⟩, _, _, ⟨rfl, rfl⟩, _, _, rfl, rfl, rfl⟩ := h
  cases hbase
  exact .source (hname.trans hsource) hid

end Draft

namespace Compile

open Draft

variable {h : Header} {defs : Catalogue} {ns : List Node} {s s' : Draft} {cs : List Call}
  {vs : List Visit} {root : Definition} {values : Value} {p : Program}

lemma Compiles.ids_subset (hc : Compiles h defs ns s cs s' vs) : s.ids ⊆ s'.ids :=
  fun _ hid => hc.ids_perm.mem_iff.2 (List.mem_append_left _ hid)

/-- Each function got its identifier with regard to those that are in use at the end. -/
lemma Compiles.issued (hc : Compiles h defs ns s cs s' vs) {v : Visit} (hv : v ∈ vs)
    {f : FunctionBlock} (hf : v.block = some (.function f)) : Issued s'.ids f := by
  induction hc with
  | nil => cases hv
  | disabled _ _ ih => exact ih hv
  | again _ _ _ _ ih =>
    obtain rfl | hv := List.mem_cons.1 hv
    · cases hf
    · exact ih hv
  | @first _ _ _ _ _ _ _ _ _ s₂ s₃ s₄ s₅ s₆ _ _ _ _ _ _ _ _ _ _ link children _ interned tree add
      rest ihc iht ihr =>
    -- what was reserved stays reserved until the end
    have hlast : s₅.ids ⊆ _ := (Draft.yields_addFunction add).2.2.1 ▸ rest.ids_subset
    obtain ⟨c, rfl, -⟩ := yields_predefinedOf interned
    have htree : s₃.ids ⊆ _ := List.Subset.trans tree.ids_subset hlast
    simp only [List.mem_append, List.mem_cons] at hv
    obtain (hv | hv) | rfl | hv := hv
    · exact (ihc hv).mono htree
    · exact (iht hv).mono hlast
    · cases hf
      exact (issued_of_link link rfl rfl).mono (List.Subset.trans children.ids_subset htree)
    · exact ihr hv
  | topLevel _ _ _ _ add rest ihc ihr =>
    obtain rfl := Draft.yields_addBlock add
    simp only [List.mem_append, List.mem_cons] at hv
    obtain hv | rfl | hv := hv
    · exact (ihc hv).mono rest.ids_subset
    · cases hf
    · exact ihr hv
  | inline _ source _ _ number add rest ihc ihr =>
    have hids := (Draft.yields_addFunction add).2.2.1
    rw [(Draft.yields_nextSourceId number).2.1] at hids
    simp only [List.mem_append, List.mem_cons] at hv
    obtain hv | rfl | hv := hv
    · refine (ihc hv).mono fun id hid => rest.ids_subset ?_
      exact hids ▸ List.mem_append_left _ hid
    · cases hf
      exact issued_of_nextSourceId number source rfl rfl _
    · exact ihr hv

lemma Traces.issued (ht : Traces h defs root values p vs) {f : FunctionBlock}
    (hf : f ∈ p.functions) : Issued (p.functions.map (·.id)) f := by
  obtain ⟨v, hv, hblock⟩ := ht.mem_functions_iff.1 hf
  obtain ⟨s, s', hc, -, hs, -⟩ := ht.compiles
  refine (hc.issued hv hblock).mono fun id hid => ?_
  have hperm := hc.ids_perm
  rw [hs, List.nil_append] at hperm
  rw [ht.functions_eq]
  exact hperm.mem_iff.1 hid

/-- Apart from code of the user, a definition has one identifier. -/
lemma Traces.id_eq (ht : Traces h defs root values p vs) {f g : FunctionBlock}
    (hf : f ∈ p.functions) (hg : g ∈ p.functions) (hdef : f.definition = g.definition)
    (hne : f.definition ≠ .text Definition.sourceCodeName) : f.id = g.id := by
  obtain ⟨s, s', hc, -⟩ := ht.compiles
  have hlinked : ∀ e ∈ p.functions, e.definition = f.definition →
      s'.linked.get? f.definition = some e.id := by
    intro e he hedef
    obtain ⟨v, hv, hblock⟩ := ht.mem_functions_iff.1 he
    have hname := (hc.fits v hv).function_definition hblock
    rw [← hedef, hname]
    refine ((hc.fits v hv).ordinary_function (Bool.eq_false_iff.2 fun hd => hne ?_) hblock).1
    rw [← hedef, hname]
    exact (Value.same_text_iff _ _).1 hd
  exact Option.some.inj ((hlinked f hf rfl).symm.trans (hlinked g hg hdef.symm))

end Compile

/-! ### What a program relies on -/

namespace Program

/-- The constants for log levels. -/
def levelNames : List String :=
  ["LOG_DISABLE", "LOG_ERROR", "LOG_WARN", "LOG_INFO", "LOG_DEBUG"]

example : levelsBlock = "const IOTA \x7b " ++ " ".intercalate levelNames ++ " \x7d" ++ newline := by
  decide

/-- The names that a program relies on besides those of its functions. -/
def reserved (p : Program) : List String :=
  Command.names ++ levelNames ++ (List.range p.constants.length).map StringTable.reference

lemma mem_reserved_iff {p : Program} {name : String} :
    name ∈ p.reserved ↔ (name ∈ Command.names ∨ name ∈ levelNames) ∨
      ∃ n < p.constants.length, StringTable.reference n = name := by
  simp [reserved, or_assoc]

lemma reference_mem_reserved {p : Program} {n : Nat} (hn : n < p.constants.length) :
    StringTable.reference n ∈ p.reserved :=
  mem_reserved_iff.2 (.inr ⟨n, hn, rfl⟩)

lemma undigited_of_mem {name : String} (hname : name ∈ Command.names ∨ name ∈ levelNames) :
    Undigited name := by
  have hall : ∀ name ∈ Command.names ++ levelNames, Undigited name := by decide +kernel
  exact hall name (List.mem_append.2 hname)

/-- Of the names that a program relies on, only those of constants can be numbered names. -/
lemma exists_reference_of_numbered {p : Program} {base : String} {k : Nat}
    (h : base ++ toString k ∈ p.reserved) :
    ∃ n < p.constants.length, StringTable.reference n = base ++ toString k :=
  (mem_reserved_iff.1 h).resolve_left fun hname =>
    not_undigited_numbered base k (undigited_of_mem hname)

lemma ofSource_not_mem_reserved (p : Program) : Identifier.ofSource ∉ p.reserved := by
  rw [mem_reserved_iff, ← List.mem_append, not_or]
  refine ⟨by decide +kernel, ?_⟩
  rintro ⟨n, -, hn⟩
  have hhead := congrArg (fun name => name.toList.head?) hn
  simp only [StringTable.toList_reference] at hhead
  have hsource : Identifier.ofSource.toList.head? = some 's' := by decide +kernel
  rw [hsource] at hhead
  cases hhead

end Program

namespace Compile

variable {h : Header} {defs : Catalogue} {root : Definition} {values : Value} {p : Program}
  {vs : List Visit}

/-- No function has the name of a constant for a log level. -/
lemma Traces.id_not_mem_levelNames (ht : Traces h defs root values p vs) {f : FunctionBlock}
    (hf : f ∈ p.functions) : f.id ∉ Program.levelNames := by
  intro hid
  have hwanted := (ht.issued hf).wanted_of_undigited (Program.undigited_of_mem (.inr hid))
  have hinside : ∀ name ∈ Program.levelNames, '_' ∈ name.toList.tail := by decide
  have hmem := hinside f.id hid
  cases hdef : f.definition with
  | text name =>
    rw [hdef] at hwanted
    rw [← Except.ok.inj hwanted] at hmem
    exact Identifier.underscore_not_mem_tail name hmem
  | _ => rw [hdef] at hwanted; cases hwanted

/-- Two definitions with the identifier `STR` take the name of the third constant. -/
lemma Traces.third_reference_mem (ht : Traces h defs root values p vs) {f g : FunctionBlock}
    (hf : f ∈ p.functions) (hg : g ∈ p.functions)
    (hbase : Identifier.ofValue f.definition = .ok "STR")
    (hbase' : Identifier.ofValue g.definition = .ok "STR") (hne : f.definition ≠ g.definition) :
    StringTable.reference 2 ∈ p.functions.map (·.id) := by
  have hsource : "STR" ≠ Identifier.ofSource := by decide +kernel
  obtain ⟨-, hid | hmem⟩ := (ht.issued hf).mem_of_wanted (List.mem_map_of_mem hf) hbase hsource
  swap; · exact hmem
  obtain ⟨-, hid' | hmem⟩ := (ht.issued hg).mem_of_wanted (List.mem_map_of_mem hg) hbase' hsource
  swap; · exact hmem
  have hfg : f = g := List.inj_on_of_nodup_map ht.ids_nodup hf hg (hid.trans hid'.symm)
  exact (hne (congrArg _ hfg)).elim

/-- A definition whose identifier went to another function is not the only one with it. -/
lemma Traces.exists_other (ht : Traces h defs root values p vs) {f : FunctionBlock} {base : String}
    (hf : f ∈ p.functions) (hbase : Identifier.ofValue f.definition = .ok base)
    (hsource : base ≠ Identifier.ofSource) (hund : Undigited base)
    (htaken : base ∈ p.functions.map (·.id)) (hid : f.id ≠ base) :
    ∃ g ∈ p.functions, Identifier.ofValue g.definition = .ok base ∧
      f.definition ≠ g.definition := by
  obtain ⟨g, hg, rfl⟩ := List.mem_map.1 htaken
  refine ⟨g, hg, (ht.issued hg).wanted_of_undigited hund, fun hdef => hid ?_⟩
  refine ht.id_eq hf hg hdef fun hname => hsource ?_
  rw [hname] at hbase
  exact (Except.ok.inj hbase).symm

/-- No name that a program relies on is captured by one of its functions, if and only if none is the
identifier of a definition and no two definitions have the identifier `STR` in a program with more
than two constants. A constant for a log level is never captured. -/
theorem captures_nothing_iff
    (hp : (Draft.empty.perform (program h defs root values)).1 = .ok p) :
    (∀ f ∈ p.functions, f.id ∉ Program.levelNames) ∧
    ((∀ f ∈ p.functions, f.id ∉ p.reserved) ↔
      (∀ f ∈ p.functions, ∀ base, Identifier.ofValue f.definition = .ok base →
        base ∉ p.reserved) ∧
      (2 < p.constants.length → ∀ f ∈ p.functions, ∀ g ∈ p.functions,
        Identifier.ofValue f.definition = .ok "STR" →
        Identifier.ofValue g.definition = .ok "STR" → f.definition = g.definition)) := by
  obtain ⟨vs, ht⟩ := exists_traces hp
  refine ⟨fun f hf => ht.id_not_mem_levelNames hf, ?_⟩
  constructor
  · intro hfree
    refine ⟨fun f hf base hbase hmem => ?_, fun hlen f hf g hg hbase hbase' => ?_⟩
    · have hsource : base ≠ Identifier.ofSource := fun heq =>
        p.ofSource_not_mem_reserved (heq ▸ hmem)
      obtain ⟨htaken, -⟩ :=
        (ht.issued hf).mem_of_wanted (List.mem_map_of_mem hf) hbase hsource
      obtain ⟨g, hg, rfl⟩ := List.mem_map.1 htaken
      exact hfree g hg hmem
    · by_contra hne
      obtain ⟨e, he, hid⟩ := List.mem_map.1 (ht.third_reference_mem hf hg hbase hbase' hne)
      exact hfree e he (hid ▸ Program.reference_mem_reserved hlen)
  · rintro ⟨hbases, htwo⟩ f hf hid
    cases ht.issued hf with
    | plain wanted => exact hbases f hf _ wanted hid
    | @numbered base k wanted taken two_le _ id_eq =>
      obtain ⟨n, hn, hname⟩ := Program.exists_reference_of_numbered (id_eq ▸ hid)
      obtain ⟨rfl, rfl⟩ | ⟨m, hm, rfl⟩ := StringTable.base_of_numbered_eq_reference hname.symm
      · obtain ⟨g, hg, hgbase, hne⟩ := ht.exists_other hf wanted (by decide +kernel) (by decide)
          taken (fun heq => not_undigited_numbered "STR" k (id_eq ▸ heq ▸ (by decide)))
        exact hne (htwo (two_le.trans_lt hn) f hf g hg wanted hgbase)
      · exact hbases f hf _ wanted (Program.reference_mem_reserved (hm.trans_lt hn))
    | source _ id_eq =>
      obtain ⟨n, hn, hname⟩ := Program.exists_reference_of_numbered (id_eq ▸ hid)
      obtain ⟨hstr, -⟩ | ⟨m, hm, heq⟩ := StringTable.base_of_numbered_eq_reference hname.symm
      · exact absurd hstr (by decide +kernel)
      · exact p.ofSource_not_mem_reserved (heq ▸ Program.reference_mem_reserved (hm.trans_lt hn))

/-- Definitions whose names give the identifier `STR`. -/
def stringers : Catalogue :=
  [("STR", { name := "STR", params := [{ name := "x" }] }),
    ("S.T.R", { name := "S.T.R", params := [{ name := "x" }] })]

/-- A root that uses both, with three texts. -/
def stringersRoot : Definition where
  name := "main"
  tree := [.mk "STR" false [("x", "one")] [], .mk "S.T.R" false [("x", "two")] [],
    .mk "STR" false [("x", "three")] []]

/-- The number that keeps the two functions apart gives the name of a constant. -/
theorem stringers_capture : ∃ p,
    (Draft.empty.perform (program .standard stringers stringersRoot (.table []))).1 = .ok p ∧
      p.constants.length = 3 ∧ (∀ f ∈ p.functions, f.id ∉ Program.levelNames) ∧
      ¬ ∀ f ∈ p.functions, f.id ∉ p.reserved := by
  have hshape : ((Draft.empty.perform (program .standard stringers stringersRoot (.table [])))
      |>.1.toOption.map fun p => (p.functions.map (·.definition), p.constants.length)) =
        some ([.text "STR", .text "S.T.R"], 3) := by decide +kernel
  cases hp : (Draft.empty.perform (program .standard stringers stringersRoot (.table []))).1 with
  | error e => rw [hp] at hshape; cases hshape
  | ok p =>
    rw [hp] at hshape
    obtain ⟨hdefs, hlen⟩ := Prod.mk.inj (Option.some.inj hshape)
    obtain ⟨hlevels, hiff⟩ := captures_nothing_iff hp
    refine ⟨p, rfl, hlen, hlevels, fun hfree => ?_⟩
    obtain ⟨f, hf, hfdef⟩ := List.mem_map.1 (hdefs ▸ List.mem_cons_self)
    obtain ⟨g, hg, hgdef⟩ := List.mem_map.1 (hdefs ▸ List.mem_cons_of_mem _ List.mem_cons_self)
    have heq := (hiff.1 hfree).2 (hlen ▸ by norm_num) f hf g hg
    rw [hfdef, hgdef] at heq
    exact absurd (heq (by decide +kernel) (by decide +kernel)) (by decide)

/-- A definition with the name of a call of the session. -/
def initDefs : Catalogue := [("init", { name := "init" })]

/-- A root that uses it. -/
def initRoot : Definition where
  name := "main"
  tree := [.mk "init" false [] []]

/-- The function of the definition takes the name of the call that opens a session. -/
theorem init_captured : ∃ p,
    (Draft.empty.perform (program .standard initDefs initRoot (.table []))).1 = .ok p ∧
      ∃ f ∈ p.functions, f.id = "init" ∧ f.id ∈ p.reserved := by
  have hcapture : (Draft.empty.perform (program .standard initDefs initRoot (.table []))).1
      |>.toOption.any (fun p => p.functions.any fun f =>
        f.id == "init" && p.reserved.contains f.id) := by decide +kernel
  cases hp : (Draft.empty.perform (program .standard initDefs initRoot (.table []))).1 with
  | error e => rw [hp] at hcapture; cases hcapture
  | ok p =>
    rw [hp] at hcapture
    obtain ⟨f, hf, hid⟩ := List.any_eq_true.1 hcapture
    rw [Bool.and_eq_true, beq_iff_eq, List.contains_iff_mem] at hid
    exact ⟨p, rfl, f, hf, hid⟩

end Compile

end NodeScript
