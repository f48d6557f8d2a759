import NodeScript.Proofs.Operands

/-!
# Interning

A string table finds the position of a text by a hash, but the hash must not be seen from outside: a
table gives the positions that a search through the plain list of its texts would give, however
many texts share a hash. The reason is that the buckets sort the positions by the hash of the text
that stands there, and leave none out. Each interning keeps this.
-/

namespace NodeScript

lemma Table.get?_put_int {α : Type} (t : Table Int α) (k : Int) (v : α) (k' : Int) :
    (t.put k v).get? k' = if k' = k then some v else t.get? k' :=
  get?_put t (fun _ => beq_iff_eq) (fun _ => beq_iff_eq.trans eq_comm) v k'

namespace StringTable

/-! ### Interning in a plain list -/

/-- The position of a text in a list, to which it is added if it is not there. -/
def internPlain (strings : List String) (s : String) : Nat × List String :=
  match strings.idxOf? s with
  | some i => (i, strings)
  | none => (strings.length, strings ++ [s])

/-- Interns texts in a plain list, one after the other. Gives the names of their constants and the
list after all of them. -/
def internAllPlain (strings : List String) : List String → List String × List String
  | [] => ([], strings)
  | s :: rest =>
    let more := internAllPlain (internPlain strings s).2 rest
    (reference (internPlain strings s).1 :: more.1, more.2)

/-- Interns texts in a table, one after the other. Gives the names of their constants and the table
after all of them. -/
def internAll (hash : String → Int) (t : StringTable) : List String → List String × StringTable
  | [] => ([], t)
  | s :: rest =>
    let more := internAll hash (t.intern hash s).2.1 rest
    (reference (t.intern hash s).1 :: more.1, more.2)

/-- Adding a text to the distinct ones of some texts gives the distinct ones with it. -/
lemma internPlain_eraseDups (seen : List String) (s : String) :
    (internPlain seen.eraseDups s).2 = (seen ++ [s]).eraseDups := by
  rw [List.eraseDups_append, internPlain]
  cases hfind : seen.eraseDups.idxOf? s with
  | some i =>
    have hmem : s ∈ seen := by
      rw [← List.mem_eraseDups, ← List.isSome_idxOf?, hfind]
      rfl
    simp [List.removeAll, hmem]
  | none =>
    have hmem : s ∉ seen := by
      rwa [List.idxOf?_eq_none_iff, List.mem_eraseDups] at hfind
    simp [List.removeAll, hmem, List.eraseDups_cons]

/-- A plain list holds the distinct texts, each where it was first seen. -/
lemma internAllPlain_eraseDups (seen texts : List String) :
    (internAllPlain seen.eraseDups texts).2 = (seen ++ texts).eraseDups := by
  induction texts generalizing seen with
  | nil => rw [List.append_nil, internAllPlain]
  | cons s rest ih =>
    change (internAllPlain (internPlain seen.eraseDups s).2 rest).2 = _
    rw [internPlain_eraseDups, ih, List.append_assoc, List.singleton_append]

/-! ### The buckets -/

variable {hash : String → Int} {t : StringTable} {s : String}

/-- A table holds no text twice, and its buckets sort all positions by the hash of their text. -/
structure Faithful (hash : String → Int) (t : StringTable) : Prop where
  nodup : t.strings.Nodup
  mem_bucket : ∀ digest i, i ∈ t.bucket digest ↔ ∃ s, t.strings[i]? = some s ∧ hash s = digest

lemma faithful_empty (hash : String → Int) : Faithful hash empty :=
  ⟨List.nodup_nil, by simp [bucket, empty, Table.get?]⟩

/-- Looking through the bucket of a text finds what looking through all texts finds. -/
lemma Faithful.find_bucket (ht : Faithful hash t) (s : String) :
    ((t.bucket (hash s)).find? fun i => t.strings[i]? == some s) = t.strings.idxOf? s := by
  -- a text stands at one position only, so any position that holds it is the one that is found
  have hunique : ∀ {i j : Nat}, t.strings[i]? = some s → t.strings[j]? = some s → i = j := by
    intro i j hi hj
    exact (List.getElem?_inj (List.getElem?_eq_some_iff.1 hi).1 ht.nodup).1 (hi.trans hj.symm)
  cases hidx : t.strings.idxOf? s with
  | none =>
    rw [List.idxOf?_eq_none_iff] at hidx
    rw [List.find?_eq_none]
    intro i _ hi
    exact hidx (List.mem_of_getElem? (beq_iff_eq.1 hi))
  | some i =>
    obtain ⟨hlt, hi, -⟩ := List.idxOf?_eq_some_iff.1 hidx
    have hget : t.strings[i]? = some s := List.getElem?_eq_some_iff.2 ⟨hlt, hi⟩
    have hmem : i ∈ t.bucket (hash s) := (ht.mem_bucket _ i).2 ⟨s, hget, rfl⟩
    cases hfind : (t.bucket (hash s)).find? fun i => t.strings[i]? == some s with
    | none => exact absurd (beq_iff_eq.2 hget) (List.find?_eq_none.1 hfind i hmem)
    | some j =>
      have hj := List.find?_some hfind
      rw [hunique (beq_iff_eq.1 hj) hget]

/-- Adding a text that is new, with its position in the bucket of its hash, keeps the buckets
faithful. -/
lemma Faithful.add (ht : Faithful hash t) (hnew : s ∉ t.strings) :
    Faithful hash ⟨t.strings ++ [s],
      t.buckets.put (hash s) (t.bucket (hash s) ++ [t.strings.length])⟩ := by
  refine ⟨List.concat_eq_append ▸ ht.nodup.concat hnew, fun digest i => ?_⟩
  have hold : ∀ i, i ∈ t.bucket digest → i < t.strings.length := by
    intro i hi
    obtain ⟨_, hget, -⟩ := (ht.mem_bucket digest i).1 hi
    exact (List.getElem?_eq_some_iff.1 hget).1
  simp only [bucket, Table.get?_put_int]
  obtain hlt | rfl | hgt := Nat.lt_trichotomy i t.strings.length
  · -- an old position stays in its bucket
    rw [List.getElem?_append_left hlt, ← ht.mem_bucket digest i]
    split_ifs with hdigest
    · subst hdigest
      simp [hlt.ne, bucket]
    · rfl
  · rw [List.getElem?_concat_length]
    split_ifs with hdigest
    · simp [hdigest]
    · have hout : t.strings.length ∉ t.bucket digest := fun hi => (hold _ hi).false
      rw [bucket] at hout
      simp [hout, Ne.symm hdigest]
  · have hout : i ∉ t.bucket digest := fun hi => (hgt.trans (hold _ hi)).false
    have hnone : (t.strings ++ [s])[i]? = none := by
      rw [List.getElem?_eq_none_iff, List.length_append]
      exact hgt
    rw [bucket] at hout
    rw [hnone]
    split_ifs with hdigest
    · subst hdigest
      simp [hout, hgt.ne']
    · simp [hout]

/-- One interning gives the position and the texts that it gives in a plain list. -/
lemma Faithful.intern_eq (ht : Faithful hash t) (s : String) :
    (t.intern hash s).1 = (internPlain t.strings s).1 ∧
      (t.intern hash s).2.1.strings = (internPlain t.strings s).2 := by
  rw [intern, internPlain, ← ht.find_bucket s]
  cases (t.bucket (hash s)).find? fun i => t.strings[i]? == some s with
  | some i => exact ⟨rfl, rfl⟩
  | none => exact ⟨rfl, rfl⟩

/-- One interning keeps the buckets faithful. -/
lemma Faithful.intern (ht : Faithful hash t) (s : String) :
    Faithful hash (t.intern hash s).2.1 := by
  have hfind := ht.find_bucket s
  rw [StringTable.intern]
  cases hbucket : (t.bucket (hash s)).find? fun i => t.strings[i]? == some s with
  | some i => exact ht
  | none =>
    rw [hbucket] at hfind
    exact ht.add (List.idxOf?_eq_none_iff.1 hfind.symm)

/-! ### Interning again and again -/

/-- Interning texts gives the constants and the texts that it gives in a plain list. -/
lemma Faithful.internAll_eq (ht : Faithful hash t) (texts : List String) :
    (internAll hash t texts).1 = (internAllPlain t.strings texts).1 ∧
      (internAll hash t texts).2.strings = (internAllPlain t.strings texts).2 := by
  induction texts generalizing t with
  | nil => exact ⟨rfl, rfl⟩
  | cons s rest ih =>
    obtain ⟨hindex, hstrings⟩ := ht.intern_eq s
    obtain ⟨hrefs, hmore⟩ := ih (ht.intern s)
    rw [hstrings] at hrefs hmore
    exact ⟨congrArg₂ List.cons (congrArg reference hindex) hrefs, hmore⟩

lemma Faithful.internAll (ht : Faithful hash t) (texts : List String) :
    Faithful hash (StringTable.internAll hash t texts).2 := by
  induction texts generalizing t with
  | nil => exact ht
  | cons s rest ih => exact ih (ht.intern s)

/-- Interning never moves a text. -/
lemma prefix_internAll (hash : String → Int) (t : StringTable) (texts : List String) :
    t.strings <+: (internAll hash t texts).2.strings := by
  induction texts generalizing t with
  | nil => exact List.prefix_rfl
  | cons s rest ih => exact (intern_spec hash t s).2.trans (ih _)

/-- Each constant that was given out stands for its text at the end. -/
lemma internAll_denotes (hash : String → Int) (t : StringTable) {texts : List String} {j : Nat}
    (hj : texts[j]? = some s) :
    ∃ i, (internAll hash t texts).1[j]? = some (reference i) ∧
      (internAll hash t texts).2.strings[i]? = some s := by
  induction texts generalizing t j with
  | nil => cases hj
  | cons r rest ih =>
    cases j with
    | zero =>
      cases hj
      exact ⟨_, rfl, getElem?_of_isPrefix (prefix_internAll hash _ rest) (intern_spec hash t s).1⟩
    | succ j => exact ih _ hj

/-- The constants that two calls give are the same just if their texts are. -/
lemma Faithful.internAll_inj (ht : Faithful hash t) {texts : List String} {j k : Nat}
    (hj : j < texts.length) (hk : k < texts.length) :
    (StringTable.internAll hash t texts).1[j]? = (StringTable.internAll hash t texts).1[k]? ↔
      texts[j]? = texts[k]? := by
  obtain ⟨i, hrefj, hi⟩ := internAll_denotes hash t (List.getElem?_eq_getElem hj)
  obtain ⟨l, hrefk, hl⟩ := internAll_denotes hash t (List.getElem?_eq_getElem hk)
  rw [hrefj, hrefk, List.getElem?_eq_getElem hj, List.getElem?_eq_getElem hk, ← hi, ← hl,
    Option.some_inj,
    List.getElem?_inj (List.getElem?_eq_some_iff.1 hi).1 (ht.internAll texts).nodup]
  exact (Draft.numbered_injective "STR").eq_iff

/-- A string table is a list of distinct texts, whatever the hash. -/
theorem interning_refines_list (hash : String → Int) (texts : List String) :
    let refs := (internAll hash empty texts).1
    let t := (internAll hash empty texts).2
    (refs, t.strings) = internAllPlain [] texts ∧ t.strings = texts.eraseDups ∧
      (∀ j < texts.length, ∀ k < texts.length, refs[j]? = refs[k]? ↔ texts[j]? = texts[k]?) ∧
      ∀ (j : Nat) (s : String), texts[j]? = some s →
        ∃ i, refs[j]? = some (reference i) ∧ t.strings[i]? = some s ∧
          ∀ more, (internAll hash t more).2.strings[i]? = some s := by
  have hempty := faithful_empty hash
  obtain ⟨hrefs, hstrings⟩ := hempty.internAll_eq texts
  refine ⟨Prod.ext hrefs hstrings, ?_, fun j hj k hk => hempty.internAll_inj hj hk, ?_⟩
  · exact hstrings.trans (internAllPlain_eraseDups [] texts)
  · intro j s hj
    obtain ⟨i, hi, hget⟩ := internAll_denotes hash empty hj
    exact ⟨i, hi, hget, fun more => getElem?_of_isPrefix (prefix_internAll hash _ more) hget⟩

/-- Texts of one hash are told apart, also where they come in turns. -/
theorem collisions_refine_list :
    let refs := (internAll (fun _ => 42) empty ["first", "second", "first", "second"]).1
    let t := (internAll (fun _ => 42) empty ["first", "second", "first", "second"]).2
    refs = ["STR0", "STR1", "STR0", "STR1"] ∧ t.strings = ["first", "second"] ∧
      ∃ i, refs[3]? = some (reference i) ∧ t.strings[i]? = some "second" := by
  obtain ⟨hplain, -, -, hdenotes⟩ :=
    interning_refines_list (fun _ => 42) ["first", "second", "first", "second"]
  obtain ⟨hrefs, hstrings⟩ := Prod.mk.inj hplain
  obtain ⟨i, href, hget, -⟩ := hdenotes 3 "second" rfl
  exact ⟨hrefs.trans (by decide), hstrings.trans (by decide), i, href, hget⟩

end StringTable

end NodeScript
