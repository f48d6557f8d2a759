import NodeScript.Proofs.Operands

/-!
# Segments

Sigils divide a text into segments. Expansion reads a text character by character, with a name that
grows until a sigil closes it or it is too long; seen from the segments it is simpler. A segment
between two sigils is a reference if it is a known name that is not too long, and then the segment
after it stands as it is. Otherwise it stays with its sigil, and the segment after it is tried.

The parts of a text are its references and what stands between them. They depend on which names are
known, but not on their values, so a value that is put in never forms references with the text
around it.
-/

namespace NodeScript

/-! ### Tables of texts -/

/-- A table that maps texts to texts, as a table of values. -/
def Table.ofTexts (m : Table String String) : Table Value Value :=
  m.map fun e => (.text e.1, .text e.2)

lemma Table.get?_ofTexts (m : Table String String) (key : String) :
    (ofTexts m).get? (.text key) = (m.get? key).map Value.text := by
  induction m with
  | nil => rfl
  | cons e m ih =>
    change (if (e.1 == key) = true then some (Value.text e.2) else (ofTexts m).get? _) =
      (if (e.1 == key) = true then some e.2 else Table.get? m key).map Value.text
    rw [ih]
    cases e.1 == key <;> rfl

namespace Placeholder

/-! ### Expansion by segments -/

/-- What a segment between two sigils stands for, if it is a reference. -/
def resolveSegment (resolve : String → Except Stop (Option String)) (x : List Char) :
    Except Stop (Option String) :=
  if x.length ≤ nameLimit then resolve (String.ofList x) else .ok none

/-- Expands what follows the first sigil of a text, divided into segments. -/
def spliceSegments (resolve : String → Except Stop (Option String)) :
    List (List Char) → Except Stop (List Char)
  | [] => .ok []
  | [x] => .ok (sigil :: x)
  | x :: y :: rest => do
    match ← resolveSegment resolve x with
    | some value =>
      let done ← spliceSegments resolve rest
      return value.toList ++ y ++ done
    | none =>
      let done ← spliceSegments resolve (y :: rest)
      return sigil :: x ++ done

/-- Expands a text with a given way to resolve names. What stands before its first sigil stays. -/
def spliceText (resolve : String → Except Stop (Option String)) (text : String) :
    Except Stop String :=
  match text.toList.splitOn sigil with
  | [] => .ok ""
  | first :: rest =>
    (spliceSegments resolve rest).map fun done => String.ofList (first ++ done)

/-- Expands a text by its segments, while some names are being expanded already. -/
def expandBySegments (m : Table String String) (trail : Trail) (text : String) :
    Except Stop String :=
  spliceText (fun key =>
    match m.get? key with
    | none => .ok none
    | some value =>
      if trail.contains key then .error (.selfReference key, trail)
      else if depthLimit ≤ trail.length then .error (.tooDeep depthLimit, trail)
      else (expandBySegments m (trail ++ [key]) value).map some) text
termination_by depthLimit - trail.length
decreasing_by
  rw [List.length_append, List.length_singleton]
  omega

/-! ### The pieces of a text -/

/-- The pieces of some characters. -/
def charPieces (cs : List Char) : List Piece :=
  cs.map fun c => some [c]

lemma charPieces_concat (cs : List Char) (c : Char) :
    charPieces cs ++ [some [c]] = charPieces (cs ++ [c]) := by
  simp [charPieces]

lemma join?_cons (cs : List Char) (ps : List Piece) :
    join? (some cs :: ps) = (join? ps).map (cs ++ ·) := by
  rw [join?, join?, List.mapM_cons]
  cases List.mapM id ps <;> rfl

lemma join?_charPieces_append (cs : List Char) (ps : List Piece) :
    join? (charPieces cs ++ ps) = (join? ps).map (cs ++ ·) := by
  induction cs with
  | nil => simp [charPieces]
  | cons c cs ih =>
    change join? (some [c] :: (charPieces cs ++ ps)) = _
    rw [join?_cons, ih, Option.map_map]
    rfl

lemma join?_charPieces (cs : List Char) : join? (charPieces cs) = some cs := by
  have h := join?_charPieces_append cs []
  rwa [List.append_nil, show join? [] = some [] from rfl, Option.map_some, List.append_nil] at h

lemma charPiece_beq_sigil (c : Char) : ((some [c] : Piece) == Piece.sigil) = (c == sigil) := by
  rw [Bool.eq_iff_iff, beq_iff_eq, beq_iff_eq, Piece.sigil]
  simp

lemma charPieces_intercalate (x y : List Char) (rest : List (List Char)) :
    charPieces ([sigil].intercalate (x :: y :: rest)) =
      charPieces x ++ (charPieces [sigil] ++ charPieces ([sigil].intercalate (y :: rest))) := by
  simp only [charPieces, List.intercalate_cons_cons, List.map_append, List.append_assoc]

/-- The pieces that come out make up the characters that come out. -/
inductive Joins : Except Stop (List Piece) → Except Stop (List Char) → Prop
  | ok {ps : List Piece} {cs : List Char} (h : join? ps = some cs) : Joins (.ok ps) (.ok cs)
  | error (stop : Stop) : Joins (.error stop) (.error stop)

lemma Joins.prepend {r : Except Stop (List Piece)} {r' : Except Stop (List Char)} (h : Joins r r')
    {qs : List Piece} {cs : List Char} (hqs : ∀ ps, join? (qs ++ ps) = (join? ps).map (cs ++ ·)) :
    Joins (do let done ← r; return qs ++ done) (do let done ← r'; return cs ++ done) := by
  cases h with
  | ok h => exact .ok (by rw [hqs, h, Option.map_some])
  | error stop => exact .error stop

/-! ### The scan of a text -/

section

variable {trail : Trail} {resolve : String → Except Stop (Option Piece)}
  {resolve' : String → Except Stop (Option String)}

/-- Outside of names, characters are copied. -/
lemma expandPieces_copy {l : List Char} (hl : sigil ∉ l) (ps : List Piece) :
    expandPieces trail resolve none (charPieces l ++ ps) = do
      let done ← expandPieces trail resolve none ps
      return charPieces l ++ done := by
  induction l with
  | nil =>
    change _ = expandPieces trail resolve none ps >>= pure
    rw [bind_pure]
    rfl
  | cons c l ih =>
    obtain ⟨hc, hl⟩ := not_or.1 (mt List.mem_cons.2 hl)
    change expandPieces trail resolve none (some [c] :: (charPieces l ++ ps)) = _
    rw [expandPieces, charPiece_beq_sigil, if_neg (by simpa using Ne.symm hc), ih hl, bind_assoc]
    rfl

/-- A sigil outside of names opens a name. -/
lemma expandPieces_open (ps : List Piece) :
    expandPieces trail resolve none (charPieces [sigil] ++ ps) =
      expandPieces trail resolve (some []) ps :=
  rfl

/-- A name grows as long as it is not too long. -/
lemma expandPieces_short {x : List Char} (hx : sigil ∉ x) (n : List Char)
    (hlimit : n.length + x.length ≤ nameLimit) (ps : List Piece) :
    expandPieces trail resolve (some (charPieces n)) (charPieces x ++ ps) =
      expandPieces trail resolve (some (charPieces (n ++ x))) ps := by
  induction x generalizing n with
  | nil => simp [charPieces]
  | cons c x ih =>
    obtain ⟨hc, hx⟩ := not_or.1 (mt List.mem_cons.2 hx)
    rw [List.length_cons] at hlimit
    have hfits : ¬ nameLimit < (charPieces n).length + 1 := by
      rw [charPieces, List.length_map]
      omega
    change expandPieces trail resolve _ (some [c] :: (charPieces x ++ ps)) = _
    rw [expandPieces, charPiece_beq_sigil, if_neg (by simpa using Ne.symm hc), if_neg hfits]
    rw [charPieces_concat, ih hx (n ++ [c]) (by simp; omega), List.append_assoc,
      List.singleton_append]

/-- A name that gets too long is given up in its middle, and what follows is copied. -/
lemma expandPieces_long {x : List Char} (hx : sigil ∉ x) (n : List Char)
    (hn : n.length ≤ nameLimit) (hlimit : nameLimit < n.length + x.length) (ps : List Piece) :
    expandPieces trail resolve (some (charPieces n)) (charPieces x ++ ps) = do
      let done ← expandPieces trail resolve none ps
      return (Piece.sigil :: charPieces (n ++ x)) ++ done := by
  induction x generalizing n with
  | nil =>
    rw [List.length_nil] at hlimit
    omega
  | cons c x ih =>
    obtain ⟨hc, hx⟩ := not_or.1 (mt List.mem_cons.2 hx)
    rw [List.length_cons] at hlimit
    have hlength : (charPieces n).length = n.length := List.length_map _
    change expandPieces trail resolve _ (some [c] :: (charPieces x ++ ps)) = _
    rw [expandPieces, charPiece_beq_sigil, if_neg (by simpa using Ne.symm hc), hlength]
    by_cases hfull : nameLimit < n.length + 1
    · rw [if_pos hfull, expandPieces_copy hx, bind_assoc]
      refine bind_congr fun done => ?_
      simp [charPieces]
    · rw [if_neg hfull, charPieces_concat, ih hx (n ++ [c]) (by simp; omega) (by simp; omega)]
      simp

lemma expandPieces_name {x : List Char} (hx : sigil ∉ x) (hlimit : x.length ≤ nameLimit)
    (ps : List Piece) :
    expandPieces trail resolve (some []) (charPieces x ++ ps) =
      expandPieces trail resolve (some (charPieces x)) ps :=
  expandPieces_short hx [] (by simpa using hlimit) ps

lemma expandPieces_overlong {x : List Char} (hx : sigil ∉ x) (hlimit : nameLimit < x.length)
    (ps : List Piece) :
    expandPieces trail resolve (some []) (charPieces x ++ ps) = do
      let done ← expandPieces trail resolve none ps
      return (Piece.sigil :: charPieces x) ++ done :=
  expandPieces_long hx [] (Nat.zero_le _) (by simpa using hlimit) ps

/-- Outside of names, the first segment is copied, and a sigil behind it opens a name. -/
lemma expandPieces_outside {first : List Char} {rest : List (List Char)} (hfirst : sigil ∉ first)
    (hrest : rest ≠ [] →
      Joins (expandPieces trail resolve (some []) (charPieces ([sigil].intercalate rest)))
        (spliceSegments resolve' rest)) :
    Joins (expandPieces trail resolve none (charPieces ([sigil].intercalate (first :: rest))))
      (do let done ← spliceSegments resolve' rest; return first ++ done) := by
  cases rest with
  | nil =>
    rw [List.intercalate_singleton, ← List.append_nil (charPieces first), expandPieces_copy hfirst]
    have hnil : Joins (expandPieces trail resolve none []) (spliceSegments resolve' []) := .ok rfl
    exact hnil.prepend (join?_charPieces_append first)
  | cons x rest =>
    rw [charPieces_intercalate, expandPieces_copy hfirst, expandPieces_open]
    exact (hrest (List.cons_ne_nil _ _)).prepend (join?_charPieces_append first)

/-- A sigil behind a name closes it. A name that is known is replaced; any other name stays, and the
sigil opens the next one. -/
lemma expandPieces_close (x : List Char) (ps : List Piece) :
    expandPieces trail resolve (some (charPieces x)) (charPieces [sigil] ++ ps) =
      resolve (String.ofList x) >>= fun found => found.elim
        (do let done ← expandPieces trail resolve (some []) ps
            return [Piece.sigil, some x] ++ done)
        fun value => do let done ← expandPieces trail resolve none ps; return [value] ++ done := by
  change expandPieces trail resolve (some (charPieces x)) (some [sigil] :: ps) = _
  rw [expandPieces, charPiece_beq_sigil, if_pos (beq_self_eq_true _)]
  simp only [join?_charPieces]
  refine bind_congr fun found => ?_
  cases found <;> rfl

/-- Inside of names, the scan of the characters comes to what the segments come to. -/
lemma expandPieces_segments
    (hresolve : ∀ key, resolve key = (resolve' key).map (Option.map fun v => some v.toList))
    {segs : List (List Char)} (hne : segs ≠ []) (hsegs : ∀ x ∈ segs, sigil ∉ x) :
    Joins (expandPieces trail resolve (some []) (charPieces ([sigil].intercalate segs)))
      (spliceSegments resolve' segs) := by
  have hsigil : ∀ x ps, join? (Piece.sigil :: charPieces x ++ ps) =
      (join? ps).map ((sigil :: x) ++ ·) := fun x ps => join?_charPieces_append (sigil :: x) ps
  fun_induction spliceSegments resolve' segs with
  | case1 => exact absurd rfl hne
  | case2 x =>
    have hx := hsegs x List.mem_cons_self
    have hjoin : join? (Piece.sigil :: charPieces x) = some (sigil :: x) :=
      join?_charPieces (sigil :: x)
    rw [List.intercalate_singleton, ← List.append_nil (charPieces x)]
    by_cases hlimit : x.length ≤ nameLimit
    · rw [expandPieces_name hx hlimit]
      exact .ok hjoin
    · rw [expandPieces_overlong hx (Nat.lt_of_not_le hlimit)]
      exact .ok (by rw [List.append_nil, hjoin])
  | case3 x y rest ihk ihu =>
    have hx := hsegs x List.mem_cons_self
    have htail : ∀ z ∈ y :: rest, sigil ∉ z := fun z hz => hsegs z (List.mem_cons_of_mem x hz)
    have hunknown := ihu (List.cons_ne_nil y rest) htail
    rw [charPieces_intercalate]
    by_cases hlimit : x.length ≤ nameLimit
    · rw [expandPieces_name hx hlimit, expandPieces_close, hresolve, resolveSegment, if_pos hlimit]
      cases resolve' (String.ofList x) with
      | error stop => exact .error stop
      | ok found =>
        cases found with
        | none =>
          refine hunknown.prepend fun ps => ?_
          change join? (some [sigil] :: some x :: ps) = _
          rw [join?_cons, join?_cons, Option.map_map]
          rfl
        | some value =>
          have hrest := fun hne => ihk hne fun z hz => htail z (List.mem_cons_of_mem y hz)
          have hknown := expandPieces_outside (htail y List.mem_cons_self) hrest
          have hvalue : ∀ ps, join? ([some value.toList] ++ ps) =
              (join? ps).map (value.toList ++ ·) := join?_cons value.toList
          have hjoins := hknown.prepend hvalue
          simp only [bind_assoc, pure_bind, ← List.append_assoc] at hjoins
          exact hjoins
    · rw [expandPieces_overlong hx (Nat.lt_of_not_le hlimit), expandPieces_open, resolveSegment,
        if_neg hlimit]
      exact hunknown.prepend (hsigil x)

/-- A segment holds no sigil. -/
lemma not_mem_segment {cs l : List Char} (hl : l ∈ cs.splitOn sigil) : sigil ∉ l := by
  rw [List.splitOn] at hl
  induction cs generalizing l with
  | nil =>
    obtain rfl := List.mem_singleton.1 hl
    exact List.not_mem_nil
  | cons c cs ih =>
    rw [List.splitOnP_cons_eq_if_modifyHead] at hl
    obtain ⟨first, rest, hsplit⟩ :=
      List.exists_cons_of_ne_nil (List.splitOnP_ne_nil (· == sigil) cs)
    rw [hsplit] at hl ih
    split_ifs at hl with hc
    · obtain rfl | hl := List.mem_cons.1 hl
      · exact List.not_mem_nil
      · exact ih hl
    · obtain rfl | hl := List.mem_cons.1 hl
      · have hfirst := ih List.mem_cons_self
        simp only [List.mem_cons, not_or]
        exact ⟨fun h => hc (beq_iff_eq.2 h.symm), hfirst⟩
      · exact ih (List.mem_cons_of_mem _ hl)

/-- The scan of a text comes to what its segments come to. -/
lemma expandPieces_text
    (hresolve : ∀ key, resolve key = (resolve' key).map (Option.map fun v => some v.toList))
    (text : String) :
    Joins (expandPieces trail resolve none (charPieces text.toList))
      ((spliceText resolve' text).map String.toList) := by
  obtain ⟨first, rest, hsplit⟩ := List.exists_cons_of_ne_nil (List.splitOn_ne_nil sigil text.toList)
  have hfree : ∀ x ∈ first :: rest, sigil ∉ x := fun x hx => not_mem_segment (hsplit ▸ hx)
  have hrest : rest ≠ [] →
      Joins (expandPieces trail resolve (some []) (charPieces ([sigil].intercalate rest)))
        (spliceSegments resolve' rest) := fun hne =>
    expandPieces_segments hresolve hne fun x hx => hfree x (List.mem_cons_of_mem first hx)
  have hjoins := expandPieces_outside (hfree first List.mem_cons_self) hrest
  rw [← hsplit, List.intercalate_splitOn] at hjoins
  simp only [spliceText, hsplit]
  cases hsplice : spliceSegments resolve' rest with
  | error stop =>
    rw [hsplice] at hjoins
    exact hjoins
  | ok done =>
    rw [hsplice] at hjoins
    rw [Except.map, Except.map, String.toList_ofList]
    exact hjoins

/-- Expanding a text is expanding its segments. -/
lemma expandWith_text
    (hresolve : ∀ key, resolve key = (resolve' key).map (Option.map fun v => some v.toList))
    (text : String) :
    expandWith trail resolve (.text text) = (spliceText resolve' text).map Value.text := by
  by_cases hsigil : sigil ∈ text.toList
  · have htruthy : (Value.text text).isTruthy = true := by
      rw [Value.isTruthy, Bool.not_eq_true', String.isEmpty_eq_false_iff]
      rintro rfl
      cases hsigil
    have hpieces : pieces? (.text text) = some (charPieces text.toList) := rfl
    have hcontains : (charPieces text.toList).contains Piece.sigil = true :=
      List.contains_iff_mem.2 (List.mem_map_of_mem hsigil)
    have hjoins : Joins (expandPieces trail resolve none (charPieces text.toList))
      ((spliceText resolve' text).map String.toList) := expandPieces_text hresolve text
    simp only [expandWith, htruthy, hpieces, hcontains, Bool.not_true, Bool.false_eq_true, if_false]
    cases hsplice : spliceText resolve' text with
    | error stop =>
      rw [hsplice] at hjoins
      generalize expandPieces trail resolve none (charPieces text.toList) = scanned at hjoins ⊢
      cases hjoins with
      | error => rfl
    | ok s =>
      rw [hsplice] at hjoins
      generalize expandPieces trail resolve none (charPieces text.toList) = scanned at hjoins ⊢
      cases hjoins with
      | ok hjoin =>
        simp only [bind, Except.bind, hjoin, String.ofList_toList]
        rfl
  · have hsplit : text.toList.splitOn sigil = [text.toList] :=
      List.splitOnP_eq_singleton fun c hc => beq_eq_false_iff_ne.2 (ne_of_mem_of_not_mem hc hsigil)
    rw [expandWith_of_not_mem hsigil, spliceText, hsplit]
    change Except.ok (Value.text text) = .ok (.text (String.ofList (text.toList ++ [])))
    rw [List.append_nil, String.ofList_toList]

end

lemma expandAt_text (m : Table String String) (room : Nat) (trail : Trail)
    (hroom : depthLimit - trail.length = room) (text : String) :
    expandAt (.ofTexts m) room trail (.text text) =
      (expandBySegments m trail text).map Value.text := by
  induction room generalizing trail text with
  | zero =>
    rw [expandAt, expandBySegments]
    refine expandWith_text (fun key => ?_) text
    rw [Table.hasKey_eq_isSome_get?, Table.get?_ofTexts]
    cases m.get? key with
    | none => rfl
    | some value =>
      have hdeep : depthLimit ≤ trail.length := Nat.le_of_sub_eq_zero hroom
      by_cases hloop : trail.contains key = true
      · simp only [hloop]
        rfl
      · simp only [hloop, hdeep]
        rfl
  | succ room ih =>
    rw [expandAt, expandBySegments]
    refine expandWith_text (fun key => ?_) text
    rw [Table.get?_ofTexts]
    cases m.get? key with
    | none => rfl
    | some value =>
      have hdeep : ¬ depthLimit ≤ trail.length := by omega
      by_cases hloop : trail.contains key = true
      · simp only [Option.map_some, hloop, if_true]
        rfl
      · have hnext : depthLimit - (trail ++ [key]).length = room := by
          rw [List.length_append, List.length_singleton]
          omega
        simp only [Option.map_some, hloop, hdeep, if_false, ih _ hnext]
        cases expandBySegments m (trail ++ [key]) value with
        | error stop => rfl
        | ok s => rfl

/-- The expansion of a text is its expansion by segments. -/
lemma expandFrom_text (m : Table String String) (trail : Trail) (text : String) :
    expandFrom (.ofTexts m) trail (.text text) = (expandBySegments m trail text).map Value.text :=
  expandAt_text m _ trail rfl text

/-! ### Parts -/

/-- A part of a text: characters that stay as they are, or a reference. -/
inductive Part where
  | literal (cs : List Char)
  | reference (key : String)
deriving DecidableEq

/-- The parts of what follows the first sigil of a text, for some known names. -/
def partsOfSegments (known : String → Bool) : List (List Char) → List Part
  | [] => []
  | [x] => [.literal (sigil :: x)]
  | x :: y :: rest =>
    if x.length ≤ nameLimit ∧ known (String.ofList x) = true then
      .reference (String.ofList x) :: .literal y :: partsOfSegments known rest
    else .literal (sigil :: x) :: partsOfSegments known (y :: rest)

/-- The parts of a text, for some known names. -/
def parts (known : String → Bool) (text : String) : List Part :=
  match text.toList.splitOn sigil with
  | [] => []
  | first :: rest => .literal first :: partsOfSegments known rest

/-- The characters of a text that a part stands for. -/
def Part.source : Part → List Char
  | .literal cs => cs
  | .reference key => sigil :: key.toList ++ [sigil]

/-- What a part becomes, with a given way to expand references. -/
def Part.expand (f : String → Except Stop String) : Part → Except Stop (List Char)
  | .literal cs => .ok cs
  | .reference key => (f key).map String.toList

/-- Resolves known names by expanding them. -/
def resolveKnown (known : String → Bool) (f : String → Except Stop String) (key : String) :
    Except Stop (Option String) :=
  if known key then (f key).map some else .ok none

/-- Expands a reference while some names are being expanded already. -/
def expandReference (m : Table String String) (trail : Trail) (key : String) : Except Stop String :=
  if trail.contains key then .error (.selfReference key, trail)
  else if depthLimit ≤ trail.length then .error (.tooDeep depthLimit, trail)
  else expandBySegments m (trail ++ [key]) ((m.get? key).getD "")

section

variable {m : Table String String} {known : String → Bool} {trail : Trail}

/-- The segments are expanded part by part. -/
lemma spliceSegments_eq_parts (known : String → Bool) (f : String → Except Stop String)
    (segs : List (List Char)) :
    spliceSegments (resolveKnown known f) segs =
      ((partsOfSegments known segs).mapM (Part.expand f)).map List.flatten := by
  fun_induction partsOfSegments known segs with
  | case1 => rfl
  | case2 x => exact congrArg Except.ok (List.append_nil _).symm
  | case3 x y rest hx ih =>
    simp only [spliceSegments, resolveSegment, if_pos hx.1, resolveKnown, hx.2, if_true, ih,
      List.mapM_cons, Part.expand]
    cases f (String.ofList x) with
    | error stop => rfl
    | ok value =>
      cases (partsOfSegments known rest).mapM (Part.expand f) with
      | error stop => rfl
      | ok css => exact congrArg Except.ok (List.append_assoc _ _ _)
  | case4 x y rest hx ih =>
    have hunknown : resolveSegment (resolveKnown known f) x = .ok none := by
      rw [resolveSegment]
      split_ifs with hlimit
      · rw [resolveKnown, if_neg fun hkey => hx ⟨hlimit, hkey⟩]
      · rfl
    simp only [spliceSegments, hunknown, List.mapM_cons, Part.expand]
    change (do let done ← spliceSegments (resolveKnown known f) (y :: rest); _) = _
    rw [ih]
    cases (partsOfSegments known (y :: rest)).mapM (Part.expand f) with
    | error stop => rfl
    | ok css => rfl

/-- A text is expanded part by part. -/
lemma spliceText_eq_parts (known : String → Bool) (f : String → Except Stop String)
    (text : String) :
    spliceText (resolveKnown known f) text =
      ((parts known text).mapM (Part.expand f)).map fun css => String.ofList css.flatten := by
  rw [spliceText, parts]
  cases text.toList.splitOn sigil with
  | nil => rfl
  | cons first rest =>
    simp only [spliceSegments_eq_parts, List.mapM_cons, Part.expand]
    cases (partsOfSegments known rest).mapM (Part.expand f) with
    | error stop => rfl
    | ok css => rfl

lemma expandBySegments_eq (m : Table String String) (trail : Trail) (text : String) :
    expandBySegments m trail text =
      spliceText (resolveKnown m.hasKey (expandReference m trail)) text := by
  rw [expandBySegments]
  congr 1
  funext key
  rw [resolveKnown, Table.hasKey_eq_isSome_get?, expandReference]
  cases m.get? key with
  | none => rfl
  | some value =>
    simp only [Option.isSome_some, Option.getD_some, if_true]
    split_ifs <;> rfl

lemma expandBySegments_eq_parts (m : Table String String) (trail : Trail) (text : String) :
    expandBySegments m trail text =
      ((parts m.hasKey text).mapM (Part.expand (expandReference m trail))).map fun css =>
        String.ofList css.flatten := by
  rw [expandBySegments_eq, spliceText_eq_parts]

/-- The parts make up the segments, with the sigils before them. -/
lemma flatMap_source_segments (known : String → Bool) {segs : List (List Char)} (hne : segs ≠ []) :
    (partsOfSegments known segs).flatMap Part.source = sigil :: [sigil].intercalate segs := by
  fun_induction partsOfSegments known segs with
  | case1 => exact absurd rfl hne
  | case2 x => simp [Part.source]
  | case3 x y rest hx ih =>
    simp only [List.flatMap_cons, Part.source, String.toList_ofList, List.intercalate_cons_cons]
    cases rest with
    | nil => simp [partsOfSegments]
    | cons z rest => simp [ih (List.cons_ne_nil z rest), List.intercalate_cons_cons]
  | case4 x y rest hx ih =>
    rw [List.flatMap_cons, ih (List.cons_ne_nil y rest), List.intercalate_cons_cons]
    simp [Part.source]

/-- The parts make up the text. -/
lemma flatMap_source (known : String → Bool) (text : String) :
    (parts known text).flatMap Part.source = text.toList := by
  have htext : [sigil].intercalate (text.toList.splitOn sigil) = text.toList :=
    List.intercalate_splitOn sigil
  obtain ⟨first, rest, hsplit⟩ := List.exists_cons_of_ne_nil (List.splitOn_ne_nil sigil text.toList)
  rw [hsplit] at htext
  rw [parts, hsplit, ← htext]
  cases rest with
  | nil => simp [partsOfSegments, Part.source]
  | cons x rest =>
    rw [List.flatMap_cons, flatMap_source_segments known (List.cons_ne_nil x rest),
      List.intercalate_cons_cons]
    simp [Part.source]

/-- A reference is to a known name that is not too long. -/
lemma known_of_mem_parts {text key : String} (h : .reference key ∈ parts known text) :
    known key = true ∧ key.length ≤ nameLimit := by
  have hsegs : ∀ segs, .reference key ∈ partsOfSegments known segs →
      known key = true ∧ key.length ≤ nameLimit := by
    intro segs h
    fun_induction partsOfSegments known segs with
    | case1 => cases h
    | case2 x => simp at h
    | case3 x y rest hx ih =>
      simp only [List.mem_cons, Part.reference.injEq, reduceCtorEq, false_or] at h
      obtain rfl | h := h
      · exact ⟨hx.2, String.length_ofList.trans_le hx.1⟩
      · exact ih h
    | case4 x y rest hx ih =>
      simp only [List.mem_cons, reduceCtorEq, false_or] at h
      exact ih h
  rw [parts] at h
  split at h
  · cases h
  · simp only [List.mem_cons, reduceCtorEq, false_or] at h
    exact hsegs _ h

/-- A text without references to known names stays as it is. -/
lemma expandBySegments_of_no_reference {text : String}
    (h : ∀ key, m.hasKey key = true → key.length ≤ nameLimit →
      ¬ (sigil :: key.toList ++ [sigil]) <:+: text.toList) :
    expandBySegments m trail text = .ok text := by
  have hsource : ∀ p ∈ parts m.hasKey text, p.expand (expandReference m trail) = .ok p.source := by
    intro p hp
    cases p with
    | literal cs => rfl
    | reference key =>
      obtain ⟨hkey, hlimit⟩ := known_of_mem_parts hp
      have hinfix : (Part.reference key).source <:+: text.toList := by
        rw [← flatMap_source m.hasKey text]
        exact List.infix_of_mem_flatten (List.mem_map_of_mem hp)
      exact absurd hinfix (h key hkey hlimit)
  rw [expandBySegments_eq_parts, mapM_eq_ok hsource]
  change Except.ok (String.ofList ((parts m.hasKey text).map Part.source).flatten) = _
  rw [← List.flatMap_def, flatMap_source, String.ofList_toList]

end

/-! ### Overlong names -/

/-- Only names that are not too long are looked up. -/
lemma spliceText_congr {resolve resolve' : String → Except Stop (Option String)}
    (h : ∀ key, key.length ≤ nameLimit → resolve key = resolve' key) (text : String) :
    spliceText resolve text = spliceText resolve' text := by
  have hsegment : resolveSegment resolve = resolveSegment resolve' := by
    funext x
    rw [resolveSegment, resolveSegment]
    split_ifs with hlimit
    · exact h _ (String.length_ofList.trans_le hlimit)
    · rfl
  have hsegs : ∀ segs, spliceSegments resolve segs = spliceSegments resolve' segs := by
    intro segs
    fun_induction spliceSegments resolve segs with
    | case1 => rfl
    | case2 x => rfl
    | case3 x y rest ihk ihu => rw [spliceSegments, hsegment, ihk, ihu]
  simp only [spliceText, hsegs]

/-- The entries under names that are not too long. -/
def nameable (m : Table String String) : Table String String :=
  m.filter fun e => e.1.length ≤ nameLimit

lemma get?_nameable (m : Table String String) {key : String} (hkey : key.length ≤ nameLimit) :
    (nameable m).get? key = m.get? key := by
  induction m with
  | nil => rfl
  | cons e m ih =>
    change _ = if (e.1 == key) = true then some e.2 else Table.get? m key
    rw [nameable, List.filter_cons]
    split_ifs with hlimit hsame hsame
    · change (if (e.1 == key) = true then some e.2 else _) = _
      rw [if_pos hsame]
    · change (if (e.1 == key) = true then some e.2 else (nameable m).get? key) = _
      rw [if_neg hsame, ih]
    · rw [beq_iff_eq.1 hsame] at hlimit
      exact absurd (decide_eq_true hkey) hlimit
    · exact ih

/-- Entries under names that are too long make no difference. -/
lemma expandBySegments_nameable (m : Table String String) (trail : Trail) (text : String) :
    expandBySegments (nameable m) trail text = expandBySegments m trail text := by
  rw [expandBySegments_eq, expandBySegments_eq]
  refine spliceText_congr (fun key hkey => ?_) text
  simp only [resolveKnown, expandReference, Table.hasKey_eq_isSome_get?, get?_nameable m hkey]
  by_cases hdeep : depthLimit ≤ trail.length
  · simp only [if_pos hdeep]
  · simp only [if_neg hdeep, expandBySegments_nameable m (trail ++ [key])]
termination_by depthLimit - trail.length
decreasing_by
  rw [List.length_append, List.length_singleton]
  omega

/-- Reading a text character by character comes to expanding it by its segments: it gives the same
text, or stops for the same reason with the same names being expanded. So names that are too long
count as unknown, values are put between parts that do not depend on them, and a text in which no
known name stands between sigils stays as it is. -/
theorem expansion_by_segments (m : Table String String) (trail : Trail) (text : String) :
    expandFrom (.ofTexts m) trail (.text text) =
        (expandBySegments m trail text).map Value.text ∧
      expandFrom (.ofTexts (nameable m)) trail (.text text) =
        expandFrom (.ofTexts m) trail (.text text) ∧
      expandBySegments m trail text =
        (((parts m.hasKey text).mapM (Part.expand (expandReference m trail))).map fun css =>
          String.ofList css.flatten) ∧
      ((∀ key, m.hasKey key = true → key.length ≤ nameLimit →
          ¬ (sigil :: key.toList ++ [sigil]) <:+: text.toList) →
        expandFrom (.ofTexts m) trail (.text text) = .ok (.text text)) := by
  refine ⟨expandFrom_text m trail text, ?_, expandBySegments_eq_parts m trail text, fun h => ?_⟩
  · rw [expandFrom_text, expandFrom_text, expandBySegments_nameable]
  · rw [expandFrom_text, expandBySegments_of_no_reference h]
    rfl

/-- A known name that does not stand between sigils stays, also while it is being expanded. -/
theorem bare_name_stays :
    (∀ key, Table.hasKey [("b", "B")] key = true → key.length ≤ nameLimit →
      ¬ (sigil :: key.toList ++ [sigil]) <:+: "b #a##b".toList) ∧
    expandFrom (.ofTexts [("b", "B")]) ["b"] (.text "b #a##b") = .ok (.text "b #a##b") := by
  have hno : ∀ key, Table.hasKey [("b", "B")] key = true → key.length ≤ nameLimit →
      ¬ (sigil :: key.toList ++ [sigil]) <:+: "b #a##b".toList := by
    intro key hkey _
    have hb : "b" = key := by
      rw [Table.hasKey, List.any_cons, List.any_nil, Bool.or_false] at hkey
      exact beq_iff_eq.1 hkey
    subst hb
    decide
  exact ⟨hno, (expansion_by_segments [("b", "B")] ["b"] "b #a##b").2.2.2 hno⟩

end Placeholder

end NodeScript
