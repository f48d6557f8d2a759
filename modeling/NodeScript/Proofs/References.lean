import NodeScript.Proofs.Segments

/-!
# References

The value of a variable may refer to other variables, so texts and variables form a graph. An
expansion follows the references of a text one after the other and goes as deep as they lead. It
stops where it meets a name that is being expanded already, or where too many names are. The names
that are being expanded always form a chain of references; `expandBySegments_stop` says which chain
stands at the end of an expansion that stops.
-/

namespace NodeScript

namespace Placeholder

/-- The name that a part refers to. -/
def Part.key? : Part → Option String
  | .literal _ => none
  | .reference key => some key

/-- The names that a text refers to. -/
def refs (m : Table String String) (text : String) : List String :=
  (parts m.hasKey text).filterMap Part.key?

/-- The value of a variable refers to another. -/
def Refers (m : Table String String) (k k' : String) : Prop :=
  ∃ value, m.get? k = some value ∧ k' ∈ refs m value

/-- A chain of references, the first of them in a text. -/
structure ChainFrom (m : Table String String) (text : String) (ks : List String) : Prop where
  head : ∀ k ∈ ks.head?, k ∈ refs m text
  links : ks.IsChain (Refers m)

/-- Resolves known names to nothing, except for one at which it stops. -/
def probe (m : Table String String) (key name : String) : Except Stop (Option Piece) :=
  if m.hasKey name then
    if name = key then .error (.selfReference key, []) else .ok (some (some []))
  else .ok none

variable {m : Table String String} {trail : Trail} {text last key : String} {ks : List String}

lemma mem_refs_iff : key ∈ refs m text ↔ .reference key ∈ parts m.hasKey text := by
  rw [refs, List.mem_filterMap]
  constructor
  · rintro ⟨p, hp, hkey⟩
    cases p with
    | literal cs => cases hkey
    | reference k =>
      cases hkey
      exact hp
  · intro h
    exact ⟨_, h, rfl⟩

lemma exists_get?_of_mem_refs (h : key ∈ refs m text) : ∃ value, m.get? key = some value := by
  have hkey := (known_of_mem_parts (mem_refs_iff.1 h)).1
  rwa [Table.hasKey_eq_isSome_get?, Option.isSome_iff_exists] at hkey

/-! ### What a reference does to an expansion -/

section

variable {f : String → Except Stop String} {stop : Stop}

/-- If the expansion of a text stops, then that of a reference does. -/
lemma exists_ref_of_splice (h : spliceText (resolveKnown m.hasKey f) text = .error stop) :
    ∃ key ∈ refs m text, f key = .error stop := by
  rw [spliceText_eq_parts] at h
  cases hall : (parts m.hasKey text).mapM (Part.expand f) with
  | ok css =>
    rw [hall] at h
    cases h
  | error stop' =>
    rw [hall] at h
    cases h
    obtain ⟨p, hp, hstop⟩ := mapM_eq_error hall
    cases p with
    | literal cs => cases hstop
    | reference key =>
      refine ⟨key, mem_refs_iff.2 hp, ?_⟩
      rw [Part.expand] at hstop
      cases hf : f key with
      | ok s =>
        rw [hf] at hstop
        cases hstop
      | error stop' =>
        rw [hf] at hstop
        cases hstop
        rfl

/-- If the expansion of a reference stops, then that of the text does. -/
lemma splice_of_ref (hkey : key ∈ refs m text) (hf : f key = .error stop) :
    ∃ stop', spliceText (resolveKnown m.hasKey f) text = .error stop' := by
  have hpart : (Part.reference key).expand f = .error stop := by
    rw [Part.expand, hf]
    rfl
  obtain ⟨stop', hall⟩ := exists_mapM_eq_error (mem_refs_iff.1 hkey) hpart
  exact ⟨stop', by rw [spliceText_eq_parts, hall]; rfl⟩

end

/-- The names that a text refers to are those at which its scan can stop. -/
lemma mem_refs_iff_probe :
    key ∈ refs m text ↔ ∃ stop, expandWith [] (probe m key) (.text text) = .error stop := by
  -- the same way to resolve names, said for known names
  let f : String → Except Stop String := fun name =>
    if name = key then .error (.selfReference key, []) else .ok ""
  have hprobe : ∀ name, probe m key name =
      (resolveKnown m.hasKey f name).map (Option.map fun v => some v.toList) := by
    intro name
    rw [probe, resolveKnown]
    dsimp only [f]
    split_ifs <;> rfl
  rw [expandWith_text hprobe]
  constructor
  · intro hkey
    have hf : f key = .error (.selfReference key, []) := if_pos rfl
    obtain ⟨stop, hstop⟩ := splice_of_ref hkey hf
    exact ⟨stop, by rw [hstop]; rfl⟩
  · rintro ⟨stop, h⟩
    cases hsplice : spliceText (resolveKnown m.hasKey f) text with
    | ok s =>
      rw [hsplice] at h
      cases h
    | error stop' =>
      obtain ⟨name, hname, hf⟩ := exists_ref_of_splice hsplice
      by_cases hne : name = key
      · exact hne ▸ hname
      · rw [show f name = .ok "" from if_neg hne] at hf
        cases hf

/-! ### Chains of references -/

/-- References lead from a text through some names to another text. -/
def Leads (m : Table String String) : String → List String → String → Prop
  | text, [], last => last = text
  | text, k :: ks, last => k ∈ refs m text ∧ ∃ value, m.get? k = some value ∧ Leads m value ks last

lemma leads_append {js : List String} :
    Leads m text (js ++ ks) last ↔ ∃ mid, Leads m text js mid ∧ Leads m mid ks last := by
  induction js generalizing text with
  | nil => simp [Leads]
  | cons j js ih =>
    simp only [List.cons_append, Leads, ih]
    constructor
    · rintro ⟨hj, value, hvalue, mid, hjs, hks⟩
      exact ⟨mid, ⟨hj, value, hvalue, hjs⟩, hks⟩
    · rintro ⟨mid, ⟨hj, value, hvalue, hjs⟩, hks⟩
      exact ⟨hj, value, hvalue, mid, hjs, hks⟩

lemma leads_concat (h : Leads m text ks last) (hkey : key ∈ refs m last) :
    ∃ last', Leads m text (ks ++ [key]) last' := by
  obtain ⟨value, hvalue⟩ := exists_get?_of_mem_refs hkey
  exact ⟨value, leads_append.2 ⟨last, h, hkey, value, hvalue, rfl⟩⟩

/-- A chain may be cut short. -/
lemma leads_take (h : Leads m text ks last) (n : Nat) : ∃ mid, Leads m text (ks.take n) mid := by
  rw [← List.take_append_drop n ks, leads_append] at h
  obtain ⟨mid, hmid, -⟩ := h
  exact ⟨mid, hmid⟩

/-- A chain is what leads somewhere. -/
lemma chainFrom_iff : ChainFrom m text ks ↔ ∃ last, Leads m text ks last := by
  induction ks generalizing text with
  | nil => exact ⟨fun _ => ⟨text, rfl⟩, fun _ => ⟨by simp, .nil⟩⟩
  | cons k ks ih =>
    constructor
    · rintro ⟨hhead, hlinks⟩
      have hk : k ∈ refs m text := hhead k rfl
      obtain ⟨value, hvalue⟩ := exists_get?_of_mem_refs hk
      have hrest : ChainFrom m value ks := by
        refine ⟨fun k' hk' => ?_, hlinks.tail⟩
        cases ks with
        | nil => cases hk'
        | cons k'' ks =>
          cases hk'
          obtain ⟨value', hvalue', hmem⟩ := (List.isChain_cons_cons.1 hlinks).1
          rw [hvalue] at hvalue'
          cases hvalue'
          exact hmem
      obtain ⟨last, hlast⟩ := ih.1 hrest
      exact ⟨last, hk, value, hvalue, hlast⟩
    · rintro ⟨last, hk, value, hvalue, hlast⟩
      obtain ⟨hhead, hlinks⟩ := ih.2 ⟨last, hlast⟩
      refine ⟨by rintro _ ⟨⟩; exact hk, ?_⟩
      cases ks with
      | nil => exact .singleton k
      | cons k' ks => exact .cons_cons ⟨value, hvalue, hhead k' rfl⟩ hlinks

/-- What a chain leads to is reached by references. -/
lemma transGen_of_leads {j value : String} (hvalue : m.get? j = some value)
    (h : Leads m value ks last) (hkey : key ∈ refs m last) :
    Relation.TransGen (Refers m) j key := by
  induction ks generalizing j value with
  | nil =>
    obtain rfl : last = value := h
    exact .single ⟨last, hvalue, hkey⟩
  | cons k ks ih =>
    obtain ⟨hk, value', hvalue', h⟩ := h
    exact .head ⟨value, hvalue, hk⟩ (ih hvalue' h)

lemma reachable_of_leads (h : Leads m text ks last) (hkey : key ∈ refs m last) :
    ∃ k ∈ refs m text, Relation.ReflTransGen (Refers m) k key := by
  cases ks with
  | nil =>
    obtain rfl : last = text := h
    exact ⟨key, hkey, .refl⟩
  | cons k ks =>
    obtain ⟨hk, value, hvalue, h⟩ := h
    exact ⟨k, hk, (transGen_of_leads hvalue h hkey).to_reflTransGen⟩

/-- A chain that comes back to one of its names goes round from there. -/
lemma exists_round (h : Leads m text ks last) (hmem : key ∈ ks) :
    ∃ value js, m.get? key = some value ∧ Leads m value js last := by
  obtain ⟨before, after, rfl⟩ := List.append_of_mem hmem
  obtain ⟨mid, -, -, value, hvalue, hafter⟩ := leads_append.1 h
  exact ⟨value, after, hvalue, hafter⟩

/-- A chain that comes back to one of its names can be made as long as one likes. -/
lemma exists_longer (h : Leads m text ks last) (hkey : key ∈ refs m last) (hmem : key ∈ ks)
    (n : Nat) : ∃ js, n ≤ js.length ∧ Leads m text js last := by
  obtain ⟨value, round, hvalue, hround⟩ := exists_round h hmem
  induction n with
  | zero => exact ⟨ks, Nat.zero_le _, h⟩
  | succ n ih =>
    obtain ⟨js, hlength, hjs⟩ := ih
    refine ⟨js ++ key :: round, ?_, leads_append.2 ⟨last, hjs, hkey, value, hvalue, hround⟩⟩
    simp only [List.length_append, List.length_cons]
    omega

/-! ### Where an expansion stops -/

/-- The names that are being expanded when an expansion stops go on from those at its start along a
chain of references. The chain ends in a text with a reference that is among them, or for which
there are too many of them. -/
lemma expandBySegments_stop {trail : Trail} {text : String} {why : Failure} {trail' : Trail}
    (h : expandBySegments m trail text = .error (why, trail')) :
    ∃ ks last, Leads m text ks last ∧ trail' = trail ++ ks ∧ (trail.Nodup → trail'.Nodup) ∧
      ∃ key ∈ refs m last, why = .selfReference key ∧ key ∈ trail' ∨
        why = .tooDeep depthLimit ∧ depthLimit ≤ trail'.length ∧ key ∉ trail' := by
  rw [expandBySegments_eq] at h
  obtain ⟨key, hkey, h⟩ := exists_ref_of_splice h
  rw [expandReference] at h
  split_ifs at h with hloop hdeep
  · cases h
    exact ⟨[], text, rfl, (List.append_nil _).symm, id, key, hkey,
      .inl ⟨rfl, List.contains_iff_mem.1 hloop⟩⟩
  · cases h
    exact ⟨[], text, rfl, (List.append_nil _).symm, id, key, hkey,
      .inr ⟨rfl, hdeep, mt List.contains_iff_mem.2 hloop⟩⟩
  · obtain ⟨value, hvalue⟩ := exists_get?_of_mem_refs hkey
    rw [hvalue, Option.getD_some] at h
    obtain ⟨ks, last, hleads, rfl, hnodup, hend⟩ := expandBySegments_stop h
    refine ⟨key :: ks, last, ⟨hkey, value, hvalue, hleads⟩, by simp, fun htrail => ?_, hend⟩
    exact hnodup (List.concat_eq_append ▸ htrail.concat (mt List.contains_iff_mem.2 hloop))
termination_by depthLimit - trail.length
decreasing_by
  rw [List.length_append, List.length_singleton]
  omega

/-- An expansion stops if references lead further than there is room. -/
lemma stops_of_leads (h : Leads m text ks last) (hroom : depthLimit - trail.length < ks.length) :
    ∃ stop, expandBySegments m trail text = .error stop := by
  induction ks generalizing trail text with
  | nil => cases hroom
  | cons k ks ih =>
    obtain ⟨hk, value, hvalue, h⟩ := h
    have hstop : ∃ stop, expandReference m trail k = .error stop := by
      rw [expandReference]
      split_ifs with hloop hdeep
      · exact ⟨_, rfl⟩
      · exact ⟨_, rfl⟩
      · rw [hvalue, Option.getD_some]
        refine ih h ?_
        rw [List.length_append, List.length_singleton]
        rw [List.length_cons] at hroom
        omega
    obtain ⟨stop, hstop⟩ := hstop
    rw [expandBySegments_eq]
    exact splice_of_ref hk hstop

/-! ### When an expansion fails -/

/-- An expansion that fails has stopped somewhere. -/
lemma expand_eq_error_iff {why : Failure} :
    expand (.ofTexts m) (.text text) = .error why ↔
      ∃ trail, expandBySegments m [] text = .error (why, trail) := by
  rw [expand, expandFrom_text]
  cases expandBySegments m [] text with
  | ok s =>
    constructor
    · intro h
      cases h
    · rintro ⟨_, ⟨⟩⟩
  | error stop =>
    constructor
    · intro h
      cases h
      exact ⟨stop.2, rfl⟩
    · rintro ⟨trail, h⟩
      cases h
      rfl

lemma expand_of_selfReference (h : expand (.ofTexts m) (.text text) = .error (.selfReference key)) :
    ∃ ks last, Leads m text ks last ∧ key ∈ refs m last ∧ key ∈ ks := by
  obtain ⟨trail, h⟩ := expand_eq_error_iff.1 h
  obtain ⟨ks, last, hleads, htrail, -, k, hk, ⟨⟨⟩, hmem⟩ | ⟨⟨⟩, -⟩⟩ := expandBySegments_stop h
  rw [htrail, List.nil_append] at hmem
  exact ⟨ks, last, hleads, hk, hmem⟩

lemma expand_of_tooDeep {n : Nat} (h : expand (.ofTexts m) (.text text) = .error (.tooDeep n)) :
    ∃ ks, ks.length = depthLimit + 1 ∧ ks.Nodup ∧ ChainFrom m text ks := by
  obtain ⟨trail, h⟩ := expand_eq_error_iff.1 h
  obtain ⟨ks, last, hleads, htrail, hnodup, k, hk, ⟨⟨⟩, -⟩ | ⟨-, hlength, hmem⟩⟩ :=
    expandBySegments_stop h
  rw [htrail, List.nil_append] at hnodup hlength hmem
  obtain ⟨last', hleads'⟩ := leads_concat hleads hk
  obtain ⟨mid, hmid⟩ := leads_take hleads' (depthLimit + 1)
  have hks : (ks ++ [k]).Nodup := List.concat_eq_append ▸ (hnodup List.nodup_nil).concat hmem
  refine ⟨_, ?_, hks.sublist (List.take_sublist _ _), chainFrom_iff.2 ⟨mid, hmid⟩⟩
  rw [List.length_take, List.length_append, List.length_singleton]
  exact Nat.min_eq_left (Nat.succ_le_succ hlength)

/-- Expansions of texts fail for two reasons only. -/
lemma expand_eq_error {why : Failure} (h : expand (.ofTexts m) (.text text) = .error why) :
    why = .tooDeep depthLimit ∨ ∃ k, why = .selfReference k := by
  obtain ⟨trail, h⟩ := expand_eq_error_iff.1 h
  obtain ⟨-, -, -, -, -, k, -, ⟨rfl, -⟩ | ⟨rfl, -⟩⟩ := expandBySegments_stop h
  · exact .inr ⟨k, rfl⟩
  · exact .inl rfl

/-- An expansion fails just if there is a chain of one more references than may be nested. -/
lemma expand_fails_iff :
    (∃ why, expand (.ofTexts m) (.text text) = .error why) ↔
      ∃ ks, ks.length = depthLimit + 1 ∧ ChainFrom m text ks := by
  constructor
  · rintro ⟨why, h⟩
    obtain rfl | ⟨k, rfl⟩ := expand_eq_error h
    · obtain ⟨ks, hlength, -, hchain⟩ := expand_of_tooDeep h
      exact ⟨ks, hlength, hchain⟩
    · obtain ⟨ks, last, hleads, hk, hmem⟩ := expand_of_selfReference h
      obtain ⟨js, hlength, hjs⟩ := exists_longer hleads hk hmem (depthLimit + 1)
      exact ⟨js.take (depthLimit + 1), List.length_take_of_le hlength,
        chainFrom_iff.2 (leads_take hjs _)⟩
  · rintro ⟨ks, hlength, hchain⟩
    obtain ⟨last, hleads⟩ := chainFrom_iff.1 hchain
    have hroom : depthLimit - List.length ([] : Trail) < ks.length := by
      rw [hlength]
      exact Nat.lt_succ_self depthLimit
    obtain ⟨⟨why, trail⟩, hstop⟩ := stops_of_leads hleads hroom
    exact ⟨why, expand_eq_error_iff.2 ⟨trail, hstop⟩⟩

/-- The expansion of a text fails just if there is a chain of 17 references. A failure for a name
that refers to itself comes from a cycle that can be reached, and one for too deep nesting from 17
names that are all different. -/
theorem expansion_fails_iff_chain (m : Table String String) (text : String) :
    let outcome := expand (.ofTexts m) (.text text)
    (∀ t key, key ∈ refs m t ↔ ∃ stop, expandWith [] (probe m key) (.text t) = .error stop) ∧
      ((∃ v, outcome = .ok v) ↔ ¬ ∃ ks, ks.length = depthLimit + 1 ∧ ChainFrom m text ks) ∧
      (∀ why, outcome = .error why → why = .tooDeep depthLimit ∨ ∃ k, why = .selfReference k) ∧
      (∀ k, outcome = .error (.selfReference k) → Relation.TransGen (Refers m) k k ∧
        ∃ j ∈ refs m text, Relation.ReflTransGen (Refers m) j k) ∧
      (∀ n, outcome = .error (.tooDeep n) →
        ∃ ks, ks.length = depthLimit + 1 ∧ ks.Nodup ∧ ChainFrom m text ks) ∧
      ((∀ k, ¬ Relation.TransGen (Refers m) k k) → ∀ k, outcome ≠ .error (.selfReference k)) ∧
      ((∀ ks : List String, ks.Nodup → ks.IsChain (Refers m) → ks.length ≤ depthLimit) →
        ∀ n, outcome ≠ .error (.tooDeep n)) := by
  intro outcome
  have hcycle : ∀ k, outcome = .error (.selfReference k) → Relation.TransGen (Refers m) k k := by
    intro k h
    obtain ⟨ks, last, hleads, hk, hmem⟩ := expand_of_selfReference h
    obtain ⟨value, js, hvalue, hjs⟩ := exists_round hleads hmem
    exact transGen_of_leads hvalue hjs hk
  refine ⟨fun t key => mem_refs_iff_probe, ?_, fun why => expand_eq_error, fun k h => ?_,
    fun n => expand_of_tooDeep, fun hacyclic k h => hacyclic k (hcycle k h), fun hshort n h => ?_⟩
  · rw [← expand_fails_iff]
    constructor
    · rintro ⟨v, hv⟩ ⟨why, hwhy⟩
      cases hv.symm.trans hwhy
    · intro hno
      cases hout : outcome with
      | ok v => exact ⟨v, rfl⟩
      | error why => exact absurd ⟨why, hout⟩ hno
  · obtain ⟨ks, last, hleads, hk, -⟩ := expand_of_selfReference h
    exact ⟨hcycle k h, reachable_of_leads hleads hk⟩
  · obtain ⟨ks, hlength, hnodup, hchain⟩ := expand_of_tooDeep h
    have := hshort ks hnodup hchain.links
    omega

/-- Variables that refer to each other in a ring, which a text enters from outside. -/
def ring : Table String String :=
  [("door", "in #a#"), ("a", "x#b#"), ("b", "#u##a#")]

theorem ring_refers_to_itself :
    expand (.ofTexts ring) (.text "at #door#") = .error (.selfReference "a") ∧
      Relation.TransGen (Refers ring) "a" "a" ∧
      ∃ j ∈ refs ring "at #door#", Relation.ReflTransGen (Refers ring) j "a" := by
  have h : expand (.ofTexts ring) (.text "at #door#") = .error (.selfReference "a") := by
    decide +kernel
  obtain ⟨-, -, -, hloop, -⟩ := expansion_fails_iff_chain ring "at #door#"
  exact ⟨h, hloop "a" h⟩

end Placeholder

end NodeScript
