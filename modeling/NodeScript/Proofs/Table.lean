import Mathlib
import NodeScript.Value.Table

/-!
# Tables with texts for keys

A text names the same entry as itself and as nothing else, so a table behaves at its texts like a
function that is updated in one place.
-/

namespace NodeScript

lemma Value.same_text_iff (v : Value) (s : String) :
    Value.same v (.text s) = true ↔ v = .text s := by
  cases v <;> simp [Value.same, Value.sameNumber, Value.numeric?]

lemma Value.text_same_iff (s : String) (v : Value) :
    Value.same (.text s) v = true ↔ v = .text s := by
  cases v with
  | text t =>
    simp only [Value.same, beq_iff_eq, Value.text.injEq]
    exact eq_comm
  | _ => simp [Value.same]

namespace Table

variable {α : Type}

lemma get?_cons (k' : Value) (v : α) (t : Table Value α) (k : Value) :
    Table.get? ((k', v) :: t) k = if Value.same k' k = true then some v else t.get? k := rfl

lemma put_cons (k' : Value) (w : α) (t : Table Value α) (k : Value) (v : α) :
    Table.put ((k', w) :: t) k v =
      if Value.same k' k = true then (k', v) :: t else (k', w) :: t.put k v := rfl

lemma hasKey_cons (k' : Value) (w : α) (t : Table Value α) (k : Value) :
    Table.hasKey ((k', w) :: t) k = (Value.same k' k || t.hasKey k) := rfl

lemma get?_append (t u : Table Value α) (k : Value) :
    Table.get? (t ++ u) k = (t.get? k).or (u.get? k) := by
  induction t with
  | nil => rfl
  | cons e t ih =>
    obtain ⟨k', w⟩ := e
    rw [List.cons_append, get?_cons, get?_cons]
    split_ifs
    · rfl
    · exact ih

lemma put_append (t u : Table Value α) (k : Value) (v : α) :
    Table.put (t ++ u) k v = if t.hasKey k = true then t.put k v ++ u else t ++ u.put k v := by
  induction t with
  | nil => rfl
  | cons e t ih =>
    obtain ⟨k', w⟩ := e
    rw [List.cons_append, put_cons, put_cons, hasKey_cons, ih]
    cases Value.same k' k with
    | true => rfl
    | false =>
      simp only [Bool.false_eq_true, if_false, Bool.false_or]
      split_ifs <;> rfl

/-- Writing under a key that names no other entry changes what is found under it and nothing
else. -/
lemma get?_put {κ : Type} [TableKey κ] [DecidableEq κ] (t : Table κ α) {k : κ}
    (hleft : ∀ k', TableKey.same k' k = true ↔ k' = k)
    (hright : ∀ k', TableKey.same k k' = true ↔ k' = k) (v : α) (k' : κ) :
    (t.put k v).get? k' = if k' = k then some v else t.get? k' := by
  induction t with
  | nil => simp only [put, get?, hright]
  | cons e t ih =>
    obtain ⟨l, w⟩ := e
    by_cases hl : l = k
    · subst hl
      simp only [put, hleft, if_true, get?, hright]
      by_cases hk : k' = l
      · simp only [if_pos hk]
      · simp only [if_neg hk]
    · simp only [put, hleft, if_neg hl, get?, ih]
      by_cases hk : k' = k
      · simp only [hk, hleft, if_neg hl, if_true]
      · simp only [if_neg hk]

lemma get?_put_text (t : Table Value α) (s : String) (v : α) (k : Value) :
    (t.put (.text s) v).get? k = if k = .text s then some v else t.get? k :=
  get?_put t (fun k' => Value.same_text_iff k' s) (Value.text_same_iff s) v k

lemma get?_put_self (t : Table Value α) (s : String) (v : α) :
    (t.put (.text s) v).get? (.text s) = some v := by
  rw [get?_put_text, if_pos rfl]

lemma get?_put_of_ne {t : Table Value α} {s : String} {v : α} {k : Value} (h : k ≠ .text s) :
    (t.put (.text s) v).get? k = t.get? k := by
  rw [get?_put_text, if_neg h]

/-- What is found in a table stands in it, under a key that names the same entry. -/
lemma exists_mem_of_get? {t : Table Value α} {k : Value} {v : α} (h : t.get? k = some v) :
    ∃ k', (k', v) ∈ t ∧ Value.same k' k = true := by
  induction t with
  | nil => cases h
  | cons e t ih =>
    obtain ⟨k', w⟩ := e
    rw [get?_cons] at h
    split_ifs at h with hk
    · cases h
      exact ⟨k', List.mem_cons_self, hk⟩
    · obtain ⟨k'', hmem, hsame⟩ := ih h
      exact ⟨k'', List.mem_cons_of_mem _ hmem, hsame⟩

/-! ### Tables of texts -/

section

variable {t u : Table Value Value} {s : String} {k : Value}

/-- A table that maps texts to texts, with one entry for each of its keys. -/
structure IsTexts (t : Table Value Value) : Prop where
  texts : ∀ e ∈ t, ∃ k v, e = (.text k, .text v)
  nodup : t.keys.Nodup

lemma isTexts_nil : IsTexts [] :=
  ⟨by simp, List.nodup_nil⟩

lemma IsTexts.tail {e : Value × Value} (h : IsTexts (e :: t)) : IsTexts t :=
  ⟨fun e he => h.texts e (List.mem_cons_of_mem _ he), (List.nodup_cons.1 h.nodup).2⟩

lemma IsTexts.perm (h : IsTexts t) (hp : t.Perm u) : IsTexts u :=
  ⟨fun e he => h.texts e (hp.mem_iff.2 he), (hp.map Prod.fst).nodup_iff.1 h.nodup⟩

lemma IsTexts.not_mem {v w : Value} (h : IsTexts ((k, w) :: t)) : (k, v) ∉ t := by
  intro hmem
  have hkey : k ∈ t.keys := List.mem_map_of_mem hmem
  exact (List.nodup_cons.1 h.nodup).1 hkey

lemma mem_put {e : Value × Value} {v : Value} (h : e ∈ t.put (.text s) v) :
    e ∈ t ∨ e = (.text s, v) := by
  induction t with
  | nil => exact .inr (List.mem_singleton.1 h)
  | cons e' t ih =>
    obtain ⟨k', w⟩ := e'
    rw [put_cons] at h
    split_ifs at h with hk
    · rcases List.mem_cons.1 h with rfl | h
      · rw [(Value.same_text_iff k' s).1 hk]
        exact .inr rfl
      · exact .inl (List.mem_cons_of_mem _ h)
    · rcases List.mem_cons.1 h with rfl | h
      · exact .inl List.mem_cons_self
      · exact (ih h).imp_left (List.mem_cons_of_mem _)

lemma IsTexts.put (h : IsTexts t) (s v : String) : IsTexts (t.put (.text s) (.text v)) := by
  refine ⟨fun e he => ?_, ?_⟩
  · rcases mem_put he with he | rfl
    · exact h.texts e he
    · exact ⟨s, v, rfl⟩
  · induction t with
    | nil => exact List.nodup_singleton _
    | cons e t ih =>
      obtain ⟨k', w⟩ := e
      rw [put_cons]
      split_ifs with hk
      · exact h.nodup
      · refine List.nodup_cons.2 ⟨fun hmem => ?_, ih h.tail⟩
        obtain ⟨⟨_, v'⟩, he, rfl⟩ := List.mem_map.1 hmem
        rcases mem_put he with he | heq
        · exact h.not_mem he
        · cases heq
          exact hk ((Value.same_text_iff _ s).2 rfl)

lemma IsTexts.get?_eq_some_iff (h : IsTexts t) {v : Value} :
    t.get? (.text s) = some v ↔ (.text s, v) ∈ t := by
  constructor
  · intro hget
    obtain ⟨k', hmem, hsame⟩ := exists_mem_of_get? hget
    rwa [← (Value.same_text_iff k' s).1 hsame]
  · intro hmem
    induction t with
    | nil => cases hmem
    | cons e t ih =>
      obtain ⟨k', w⟩ := e
      rw [get?_cons]
      rcases List.mem_cons.1 hmem with heq | hmem
      · cases heq
        rw [if_pos ((Value.same_text_iff _ s).2 rfl)]
      · rw [if_neg fun hsame => ?_, ih h.tail hmem]
        rw [(Value.same_text_iff k' s).1 hsame] at h
        exact h.not_mem hmem

lemma IsTexts.get?_tail {v : Value} (h : IsTexts ((.text s, v) :: t)) :
    t.get? (.text s) = none := by
  rw [Option.eq_none_iff_forall_ne_some]
  intro w hw
  exact h.not_mem (h.tail.get?_eq_some_iff.1 hw)

lemma IsTexts.get?_perm (h : IsTexts t) (hp : t.Perm u) (s : String) :
    t.get? (.text s) = u.get? (.text s) := by
  refine Option.ext fun v => ?_
  rw [h.get?_eq_some_iff, (h.perm hp).get?_eq_some_iff, hp.mem_iff]

/-- A table of texts holds nothing under other keys. -/
lemma IsTexts.get?_of_ne_text (h : IsTexts t) (hk : ∀ s, k ≠ .text s) : t.get? k = none := by
  cases hget : t.get? k with
  | none => rfl
  | some v =>
    obtain ⟨k', hmem, hsame⟩ := exists_mem_of_get? hget
    obtain ⟨s, w, heq⟩ := h.texts _ hmem
    cases heq
    exact absurd ((Value.text_same_iff s k).1 hsame) (hk s)

lemma IsTexts.merge (ht : IsTexts t) (hu : ∀ e ∈ u, ∃ k v, e = (.text k, .text v)) :
    IsTexts (t.merge u) := by
  induction u generalizing t with
  | nil => exact ht
  | cons e u ih =>
    obtain ⟨k, v, rfl⟩ := hu e List.mem_cons_self
    exact ih (ht.put k v) fun e he => hu e (List.mem_cons_of_mem _ he)

lemma mem_merge {e : Value × Value} (hu : ∀ e ∈ u, ∃ k v, e = (.text k, .text v))
    (h : e ∈ t.merge u) : e ∈ t ∨ e ∈ u := by
  induction u generalizing t with
  | nil => exact .inl h
  | cons e' u ih =>
    obtain ⟨k, v, rfl⟩ := hu e' List.mem_cons_self
    rcases ih (fun e he => hu e (List.mem_cons_of_mem _ he)) h with h | h
    · rcases mem_put h with h | rfl
      · exact .inl h
      · exact .inr List.mem_cons_self
    · exact .inr (List.mem_cons_of_mem _ h)

/-- What is written over a table is found first. -/
lemma get?_merge (hu : IsTexts u) (k : Value) :
    (t.merge u).get? k = (u.get? k).or (t.get? k) := by
  induction u generalizing t with
  | nil => rfl
  | cons e u ih =>
    obtain ⟨s, v, rfl⟩ := hu.texts e List.mem_cons_self
    change ((t.put (.text s) (.text v)).merge u).get? k = _
    rw [ih hu.tail, get?_put_text, get?_cons]
    simp only [Value.text_same_iff]
    split_ifs with hk
    · rw [hk, hu.get?_tail]
      rfl
    · rfl

end

/-! ### Entries in another order -/

section

variable {t u : Table Value α} {k : Value} {v : α}

/-- No key names two of the entries. -/
def Apart (t : Table Value α) : Prop :=
  t.keys.Pairwise fun k k' => ∀ l, ¬ (Value.same k l = true ∧ Value.same k' l = true)

lemma apart_of_texts (ht : ∀ k ∈ t.keys, ∃ s, k = .text s) (hnodup : t.keys.Nodup) : t.Apart := by
  refine hnodup.imp_of_mem fun {k k'} hk hk' hne l hl => hne ?_
  obtain ⟨s, rfl⟩ := ht k hk
  obtain ⟨r, rfl⟩ := ht k' hk'
  rw [Value.text_same_iff, Value.text_same_iff] at hl
  rw [← hl.1, ← hl.2]

lemma Apart.perm (h : t.Apart) (hp : t.Perm u) : u.Apart :=
  (hp.map Prod.fst).pairwise h fun hkk' l hl => hkk' l hl.symm

lemma Apart.get?_eq_some_iff (h : t.Apart) :
    t.get? k = some v ↔ ∃ k', (k', v) ∈ t ∧ Value.same k' k = true := by
  refine ⟨exists_mem_of_get?, ?_⟩
  rintro ⟨k', hmem, hsame⟩
  induction t with
  | nil => cases hmem
  | cons e t ih =>
    obtain ⟨hfirst, hrest⟩ := List.pairwise_cons.1 h
    rw [get?_cons]
    rcases List.mem_cons.1 hmem with heq | hmem
    · cases heq
      rw [if_pos hsame]
    · rw [if_neg fun he => hfirst _ (List.mem_map_of_mem hmem) k ⟨he, hsame⟩, ih hrest hmem]

/-- What is found under a key does not depend on the order of the entries. -/
lemma Apart.get?_perm (h : t.Apart) (hp : t.Perm u) (k : Value) : t.get? k = u.get? k := by
  refine Option.ext fun v => ?_
  rw [h.get?_eq_some_iff, (h.perm hp).get?_eq_some_iff]
  simp only [hp.mem_iff]

/-- Tables with the same entries in any order, where no key names two of them. -/
structure Reordered (t u : Table Value α) : Prop where
  perm : t.Perm u
  apart : t.Apart

end

/-- Tables whose values are related entry by entry have related values under each key. -/
lemma get?_rel {β : Type} {R : α → β → Prop} {t : Table Value α} {u : Table Value β}
    (h : List.Forall₂ (fun e f => f.1 = e.1 ∧ R e.2 f.2) t u) (k : Value) :
    Option.Rel R (t.get? k) (u.get? k) := by
  induction h with
  | nil => exact .none
  | @cons e f t u hef _ ih =>
    rw [get?_cons, get?_cons, hef.1]
    split_ifs
    · exact .some hef.2
    · exact ih

lemma keys_eq_of_rel {β : Type} {R : α → β → Prop} {t : Table Value α} {u : Table Value β}
    (h : List.Forall₂ (fun e f => f.1 = e.1 ∧ R e.2 f.2) t u) : u.keys = t.keys := by
  induction h with
  | nil => rfl
  | cons hef _ ih => exact congrArg₂ List.cons hef.1 ih

lemma hasKey_eq_isSome_get? {κ : Type} [TableKey κ] (t : Table κ α) (k : κ) :
    t.hasKey k = (t.get? k).isSome := by
  induction t with
  | nil => rfl
  | cons e t ih =>
    rw [hasKey, List.any_cons, get?]
    change (TableKey.same e.1 k || Table.hasKey t k) = _
    rw [ih]
    cases TableKey.same e.1 k <;> rfl

/-- Tables of texts in which the same is found have the same entries. -/
lemma IsTexts.perm_of_get? {t u : Table Value Value} (ht : IsTexts t) (hu : IsTexts u)
    (h : ∀ s, t.get? (.text s) = u.get? (.text s)) : t.Perm u := by
  rw [List.perm_ext_iff_of_nodup (.of_map _ ht.nodup) (.of_map _ hu.nodup)]
  have hmem : ∀ {t : Table Value Value}, IsTexts t → ∀ e : Value × Value, e ∈ t ↔
      ∃ s, e.1 = .text s ∧ t.get? (.text s) = some e.2 := by
    intro t ht e
    constructor
    · intro he
      obtain ⟨s, v, rfl⟩ := ht.texts e he
      exact ⟨s, rfl, ht.get?_eq_some_iff.2 he⟩
    · rintro ⟨s, hs, hget⟩
      rw [← Prod.mk.eta (p := e), hs]
      exact ht.get?_eq_some_iff.1 hget
  intro e
  rw [hmem ht, hmem hu]
  simp only [h]

end Table

end NodeScript
