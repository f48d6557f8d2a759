import NodeScript.Placeholder.Stacked
import NodeScript.Proofs.References

/-!
# The stack as a guard

The stack of the names that are being expanded has no part in what an expansion gives: it only
decides whether the expansion may go on. An expansion that succeeds leaves the stack as it was, and
succeeds with the same text on every stack that has no other names and is not longer. One that fails
leaves the chain of references behind that it was following.

`Settles` compares an expansion on a stack with one that is told the names that are being expanded
and cannot change them. The two come to the same, so what is known of the latter applies.
-/

namespace NodeScript.Placeholder

/-! ### Expansions that put the stack back -/

/-- What a caller sees of an expansion: its result, and the stack that it leaves. One that succeeds
leaves the stack as it was. -/
def settle {α : Type} (trail : Trail) : Except Stop α → Except Failure α × Trail
  | .ok a => (.ok a, trail)
  | .error stop => (.error stop.1, stop.2)

/-- Work on the stack comes to a given outcome, and puts the stack back if it succeeds. -/
def Settles {α : Type} (trail : Trail) (w : Stacked α) (r : Except Stop α) : Prop :=
  w.run trail = settle trail r

section

variable {α β : Type} {trail : Trail}

lemma settles_pure (a : α) : Settles trail (pure a) (.ok a) :=
  rfl

lemma settles_throw (why : Failure) :
    Settles trail (throw why : Stacked α) (.error (why, trail)) :=
  rfl

lemma Settles.bind {w : Stacked α} {r : Except Stop α} {f : α → Stacked β}
    {g : α → Except Stop β} (hw : Settles trail w r) (hf : ∀ a, Settles trail (f a) (g a)) :
    Settles trail (w >>= f) (r >>= g) := by
  have hrun : (w >>= f).run trail = ExceptT.bindCont f (w.run trail).1 (w.run trail).2 := rfl
  rw [Settles, hrun, hw]
  cases r with
  | ok a => exact hf a
  | error stop => rfl

end

section

variable {trail : Trail} {resolve : String → Stacked (Option Piece)}
  {resolve' : String → Except Stop (Option Piece)}

lemma settles_scanPieces (hresolve : ∀ key, Settles trail (resolve key) (resolve' key))
    (name : Option (List Piece)) (ps : List Piece) :
    Settles trail (scanPieces resolve name ps) (expandPieces trail resolve' name ps) := by
  fun_induction expandPieces trail resolve' name ps with
  | case1 => exact settles_pure []
  | case2 name => exact settles_pure _
  | case3 p rest hp ih =>
    rw [scanPieces, if_pos hp]
    exact ih
  | case4 p rest hp ih =>
    rw [scanPieces, if_neg hp]
    exact ih.bind fun done => settles_pure _
  | case5 name p rest hp hjoin =>
    rw [scanPieces, if_pos hp]
    simp only [hjoin]
    exact settles_throw _
  | case6 name p rest hp key hjoin ihu ihk =>
    rw [scanPieces, if_pos hp]
    simp only [hjoin]
    refine (hresolve _).bind fun found => ?_
    cases found with
    | none => exact ihu.bind fun done => settles_pure _
    | some value => exact ihk.bind fun done => settles_pure _
  | case7 name p rest hp hlimit ih =>
    rw [scanPieces, if_neg hp, if_pos hlimit]
    exact ih.bind fun done => settles_pure _
  | case8 name p rest hp hlimit ih =>
    rw [scanPieces, if_neg hp, if_neg hlimit]
    exact ih

lemma settles_scanValue (hresolve : ∀ key, Settles trail (resolve key) (resolve' key))
    (v : Value) : Settles trail (scanValue resolve v) (expandWith trail resolve' v) := by
  rw [scanValue, expandWith]
  split_ifs
  · exact settles_pure v
  · cases pieces? v with
    | none => exact settles_throw _
    | some ps =>
      dsimp only
      split_ifs
      · exact settles_pure v
      · refine (settles_scanPieces hresolve none ps).bind fun done => ?_
        cases join? done with
        | some cs => exact settles_pure _
        | none => exact settles_throw _

end

/-! ### Names on the stack -/

lemma push_run (key : String) (trail : Trail) :
    (push key).run trail =
      if trail.contains key = true then (.error (.selfReference key), trail)
      else if depthLimit ≤ trail.length then (.error (.tooDeep depthLimit), trail)
      else (.ok (), trail ++ [key]) := by
  change (if trail.contains key = true then throw (.selfReference key)
    else if depthLimit ≤ trail.length then throw (.tooDeep depthLimit)
    else set (trail ++ [key]) : Stacked Unit).run trail = _
  split_ifs <;> rfl

/-- Work with one more name on the stack takes that name away again, if it succeeds. -/
lemma settles_within {α : Type} {trail : Trail} {key : String} {w : Stacked α} {r : Except Stop α}
    (hw : ¬ depthLimit ≤ trail.length → Settles (trail ++ [key]) w r) :
    Settles trail (within key w)
      (if trail.contains key = true then .error (.selfReference key, trail)
        else if depthLimit ≤ trail.length then .error (.tooDeep depthLimit, trail)
        else r) := by
  have hrun : (within key w).run trail = ExceptT.bindCont
      (fun _ => do let a ← w; pop; return a) ((push key).run trail).1
        ((push key).run trail).2 := rfl
  rw [Settles, hrun, push_run]
  split_ifs with hloop hdeep
  · rfl
  · rfl
  · have hinner : (do let a ← w; pop; return a : Stacked α).run (trail ++ [key]) =
        ExceptT.bindCont (fun a => do pop; return a) (w.run (trail ++ [key])).1
          (w.run (trail ++ [key])).2 := rfl
    change (do let a ← w; pop; return a : Stacked α).run (trail ++ [key]) = _
    rw [hinner, hw hdeep]
    cases r with
    | ok a =>
      change (Except.ok a, (trail ++ [key]).dropLast) = _
      rw [List.dropLast_concat]
      rfl
    | error stop => rfl

/-- One level of an expansion puts the stack back if the expansions inside it do. -/
lemma settles_expandFuel_succ {values : Table Value Value} {fuel room : Nat} {trail : Trail}
    (hroom : depthLimit - trail.length = room)
    (hinner : ∀ inside, room = inside + 1 → ∀ key w, Settles (trail ++ [key])
      (expandFuel values fuel w) (expandAt values inside (trail ++ [key]) w)) (v : Value) :
    Settles trail (expandFuel values (fuel + 1) v) (expandAt values room trail v) := by
  cases room with
  | zero =>
    have hdeep : depthLimit ≤ trail.length := Nat.le_of_sub_eq_zero hroom
    rw [expandFuel, expandAt]
    refine settles_scanValue (fun key => ?_) v
    rw [Table.hasKey_eq_isSome_get?]
    cases values.get? (.text key) with
    | none => exact settles_pure none
    | some w =>
      have hwithin : Settles trail (within key (expandFuel values fuel w)) _ :=
        settles_within (r := .error (.tooDeep depthLimit, trail)) fun hroom => absurd hdeep hroom
      have hresolve := hwithin.bind fun expanded => settles_pure (some (Piece.ofValue expanded))
      change Settles trail _ (if trail.contains key = true then .error (.selfReference key, trail)
        else .error (.tooDeep depthLimit, trail))
      rw [if_pos hdeep] at hresolve
      split_ifs at hresolve ⊢
      · exact hresolve
      · exact hresolve
  | succ inside =>
    have hdeep : ¬ depthLimit ≤ trail.length := by omega
    rw [expandFuel, expandAt]
    refine settles_scanValue (fun key => ?_) v
    cases values.get? (.text key) with
    | none => exact settles_pure none
    | some w =>
      have hwithin : Settles trail (within key (expandFuel values fuel w)) _ :=
        settles_within fun _ => hinner inside rfl key w
      have hresolve := hwithin.bind fun expanded => settles_pure (some (Piece.ofValue expanded))
      change Settles trail _ (if trail.contains key = true then .error (.selfReference key, trail)
        else do let expanded ← expandAt values inside (trail ++ [key]) w
                return some (Piece.ofValue expanded))
      rw [if_neg hdeep] at hresolve
      split_ifs at hresolve ⊢
      · exact hresolve
      · exact hresolve

lemma settles_expandFuel {values : Table Value Value} {fuel : Nat} {trail : Trail}
    (hfuel : depthLimit ≤ fuel + trail.length) (v : Value) :
    Settles trail (expandFuel values (fuel + 1) v)
      (expandAt values (depthLimit - trail.length) trail v) := by
  induction fuel generalizing trail v with
  | zero =>
    refine settles_expandFuel_succ rfl (fun inside hroom => ?_) v
    omega
  | succ fuel ih =>
    refine settles_expandFuel_succ rfl (fun inside hroom key w => ?_) v
    have hlength : (trail ++ [key]).length = trail.length + 1 := by
      rw [List.length_append, List.length_singleton]
    have hinside : inside = depthLimit - (trail ++ [key]).length := by omega
    rw [hinside]
    exact ih (by omega) w

/-- An expansion on a stack comes to what the expansion with the names of the stack comes to, and
puts the stack back if it succeeds. -/
lemma settles_expandOn (values : Table Value Value) (trail : Trail) (v : Value) :
    Settles trail (expandOn values v) (expandFrom values trail v) :=
  settles_expandFuel (Nat.le_add_right _ _) v

/-! ### Smaller stacks -/

/-- An expansion that succeeds succeeds with the same text if fewer names are being expanded. -/
lemma expandBySegments_of_subset {m : Table String String} {trail trail' : Trail}
    {text s : String} (hsub : trail' ⊆ trail) (hlength : trail'.length ≤ trail.length)
    (h : expandBySegments m trail text = .ok s) :
    expandBySegments m trail' text = .ok s := by
  rw [expandBySegments_eq_parts] at h ⊢
  cases hall : (parts m.hasKey text).mapM (Part.expand (expandReference m trail)) with
  | error stop =>
    rw [hall] at h
    cases h
  | ok css =>
    have hparts : ∀ p ∈ parts m.hasKey text, ∀ cs, p.expand (expandReference m trail) = .ok cs →
        p.expand (expandReference m trail') = .ok cs := by
      intro p _ cs hp
      cases p with
      | literal cs => exact hp
      | reference key =>
        rw [Part.expand, expandReference] at hp ⊢
        split_ifs at hp with hloop hdeep
        · cases hp
        · cases hp
        · have hloop' : ¬ trail'.contains key = true := by
            simp only [List.contains_iff_mem] at hloop ⊢
            exact fun hmem => hloop (hsub hmem)
          rw [if_neg hloop', if_neg (by omega)]
          cases hvalue : expandBySegments m (trail ++ [key]) ((m.get? key).getD "") with
          | error stop =>
            rw [hvalue] at hp
            cases hp
          | ok value =>
            have hsub' : trail' ++ [key] ⊆ trail ++ [key] := by
              intro k hk
              simp only [List.mem_append] at hk ⊢
              exact hk.imp_left fun hk => hsub hk
            rw [expandBySegments_of_subset hsub' (by simpa using hlength) hvalue, ← hvalue]
            exact hp
    rw [mapM_eq_ok_of_imp hparts hall, ← hall]
    exact h
termination_by depthLimit - trail.length
decreasing_by
  rw [List.length_append, List.length_singleton]
  omega

/-! ### What a caller sees -/

/-- The expansion of a text on a stack, by its segments. -/
lemma expandOn_run (m : Table String String) (stack : Trail) (text : String) :
    (expandOn (.ofTexts m) (.text text)).run stack =
      settle stack ((expandBySegments m stack text).map Value.text) := by
  rw [← expandFrom_text]
  exact settles_expandOn _ stack _

/-- The stack only guards an expansion. One that succeeds leaves the stack as it was and gives the
same text on every stack that has no other names and is not longer. One that fails leaves the names
of a chain of references on the stack, above those that were there: the first stands in the text and
each other one in the value of the name before it. In the text at the end of the chain stands a name
that is on the stack, or one for which the stack has no room. The names that stand in a text are
those at which its scan can stop. -/
theorem stack_only_guards (m : Table String String) (text : String) (stack : Trail) :
    let outcome := (expandOn (.ofTexts m) (.text text)).run stack
    (∀ v, outcome.1 = .ok v → outcome.2 = stack ∧ (∃ s, v = .text s) ∧
        ∀ stack' : Trail, stack' ⊆ stack → stack'.length ≤ stack.length →
          (expandOn (.ofTexts m) (.text text)).run stack' = (.ok v, stack')) ∧
      (∀ why, outcome.1 = .error why → ∃ ks last, outcome.2 = stack ++ ks ∧ Leads m text ks last ∧
        ∃ key ∈ refs m last, why = .selfReference key ∧ key ∈ outcome.2 ∨
          why = .tooDeep depthLimit ∧ depthLimit ≤ outcome.2.length ∧ key ∉ outcome.2) ∧
      ∀ t key, key ∈ refs m t ↔ ∃ stop, expandWith [] (probe m key) (.text t) = .error stop := by
  intro outcome
  have houtcome : outcome = settle stack ((expandBySegments m stack text).map Value.text) :=
    expandOn_run m stack text
  refine ⟨?_, ?_, fun t key => mem_refs_iff_probe⟩
  · intro v hv
    cases hexpand : expandBySegments m stack text with
    | error stop =>
      rw [houtcome, hexpand] at hv
      cases hv
    | ok s =>
      rw [houtcome, hexpand] at hv ⊢
      cases hv
      refine ⟨rfl, ⟨s, rfl⟩, fun stack' hsub hlength => ?_⟩
      rw [expandOn_run, expandBySegments_of_subset hsub hlength hexpand]
      rfl
  · intro why hwhy
    cases hexpand : expandBySegments m stack text with
    | ok s =>
      rw [houtcome, hexpand] at hwhy
      cases hwhy
    | error stop =>
      rw [houtcome, hexpand] at hwhy ⊢
      cases hwhy
      obtain ⟨ks, last, hleads, htrail, -, hend⟩ := expandBySegments_stop hexpand
      exact ⟨ks, last, htrail, hleads, hend⟩

/-- Variables of which two refer to each other. -/
def letter : Table String String :=
  [("hello", "Dear #name#"), ("name", "N"), ("egg", "laid by #hen#"), ("hen", "out of #egg#")]

theorem letter_stack_only_guards :
    (expandOn (.ofTexts letter) (.text "#hello#, #hello#")).run ["egg", "x", "egg"] =
        (.ok (.text "Dear N, Dear N"), ["egg", "x", "egg"]) ∧
      (expandOn (.ofTexts letter) (.text "#hello#, #hello#")).run ["egg"] =
        (.ok (.text "Dear N, Dear N"), ["egg"]) ∧
      (expandOn (.ofTexts letter) (.text "#name#: #egg#")).run ["x"] =
        (.error (.selfReference "egg"), ["x", "egg", "hen"]) ∧
      ∃ ks last, ["x", "egg", "hen"] = "x" :: ks ∧ Leads letter "#name#: #egg#" ks last := by
  have hgreets : (expandOn (.ofTexts letter) (.text "#hello#, #hello#")).run ["egg", "x", "egg"] =
      (.ok (.text "Dear N, Dear N"), ["egg", "x", "egg"]) := by
    change @Eq (Except Failure Value × Trail) _ _
    decide +kernel
  have hlays : (expandOn (.ofTexts letter) (.text "#name#: #egg#")).run ["x"] =
      (.error (.selfReference "egg"), ["x", "egg", "hen"]) := by
    change @Eq (Except Failure Value × Trail) _ _
    decide +kernel
  obtain ⟨hok, -⟩ := stack_only_guards letter "#hello#, #hello#" ["egg", "x", "egg"]
  obtain ⟨-, herror, -⟩ := stack_only_guards letter "#name#: #egg#" ["x"]
  obtain ⟨-, -, hsmaller⟩ := hok _ (congrArg Prod.fst hgreets)
  obtain ⟨ks, last, hstack, hleads, -⟩ := herror _ (congrArg Prod.fst hlays)
  rw [hlays] at hstack
  exact ⟨hgreets, hsmaller ["egg"] (by decide) (by decide), hlays, ks, last, hstack, hleads⟩

end NodeScript.Placeholder
