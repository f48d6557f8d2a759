import NodeScript.Json.Reader
import NodeScript.Proofs.Arguments
import NodeScript.Proofs.Failures

/-!
# Lists as constants

The value of a list parameter becomes a constant in JSON, and nothing is lost in it: a reader gives
the list back, with its tuples as lists and with the entries of its objects in their order. So two
lists share a constant only if they are the same.

`Json.chars` is the text that is written, in the shape in which it is read: an item is followed by a
comma and another one, or by the bracket that closes the list. `Json.marks` splits a text into what
stands outside of its literals and the characters of the literals, and tells which of these are
escaped.
-/

namespace NodeScript

/-! ### Data -/

namespace Value

mutual

/-- A value with lists in place of tuples. -/
def asLists : Value → Value
  | .list items => .list (itemsAsLists items)
  | .tuple items => .list (itemsAsLists items)
  | .table entries => .table (entriesAsLists entries)
  | v => v

/-- Items with lists in place of tuples. -/
def itemsAsLists : List Value → List Value
  | [] => []
  | v :: rest => asLists v :: itemsAsLists rest

/-- Entries with lists in place of tuples. -/
def entriesAsLists : List (Value × Value) → List (Value × Value)
  | [] => []
  | (k, v) :: rest => (k, asLists v) :: entriesAsLists rest

end

end Value

namespace Json

/-- The values that JSON has, without the numbers that are not integers. The keys of an object are
texts, no two of them the same. -/
inductive IsData : Value → Prop
  | null : IsData .null
  | bool (b : Bool) : IsData (.bool b)
  | int (n : Int) : IsData (.int n)
  | text (s : String) : IsData (.text s)
  | list {items : List Value} (data : ∀ v ∈ items, IsData v) : IsData (.list items)
  | tuple {items : List Value} (data : ∀ v ∈ items, IsData v) : IsData (.tuple items)
  | table {entries : List (Value × Value)} (keys : ∀ e ∈ entries, ∃ s, e.1 = .text s)
      (distinct : (entries.map Prod.fst).Nodup) (data : ∀ e ∈ entries, IsData e.2) :
      IsData (.table entries)

/-- A list or tuple of data that is not empty. -/
def IsListData (raw : Value) : Prop :=
  ∃ items, items ≠ [] ∧ (raw = .list items ∨ raw = .tuple items) ∧ ∀ v ∈ items, IsData v

lemma IsListData.isData {raw : Value} (h : IsListData raw) : IsData raw := by
  obtain ⟨items, -, rfl | rfl, hdata⟩ := h
  · exact .list hdata
  · exact .tuple hdata

/-! ### The text of data -/

/-- What follows a part of a list: further parts, each after a comma, and what closes the list. -/
def followed (close : Char) : List (List Char) → List Char
  | [] => [close]
  | part :: parts => ',' :: (part ++ followed close parts)

/-- Parts with commas between them, and what closes them. -/
def joined (close : Char) : List (List Char) → List Char
  | [] => [close]
  | part :: parts => part ++ followed close parts

/-- A text up to its closing quote. -/
def textChars (s : String) : List Char :=
  s.toList.flatMap Style.plain.escape ++ ['"']

/-- The text of a key. -/
def keyChars : Value → List Char
  | .text s => '"' :: textChars s
  | _ => []

mutual

/-- The text of data. -/
def chars : Value → List Char
  | .null => "null".toList
  | .bool b => (if b then "true" else "false").toList
  | .int n => (toString n).toList
  | .text s => '"' :: textChars s
  | .list items => '[' :: joined ']' (itemChars items)
  | .tuple items => '[' :: joined ']' (itemChars items)
  | .table entries => '{' :: joined '}' (entryChars entries)
  | _ => []

/-- The texts of some items. -/
def itemChars : List Value → List (List Char)
  | [] => []
  | v :: rest => chars v :: itemChars rest

/-- The texts of some entries. -/
def entryChars : List (Value × Value) → List (List Char)
  | [] => []
  | (k, v) :: rest => (keyChars k ++ ':' :: chars v) :: entryChars rest

end

lemma toList_intercalate_parts (close : Char) (parts : List (List Char)) :
    (",".intercalate (parts.map String.ofList)).toList ++ [close] = joined close parts := by
  cases parts with
  | nil => rfl
  | cons part parts =>
    rw [joined]
    induction parts generalizing part with
    | nil => simp [followed]
    | cons next parts ih =>
      rw [List.map_cons, List.map_cons, String.intercalate_cons_cons, ← List.map_cons,
        String.toList_append, List.append_assoc, ih]
      simp [followed]

lemma quote_eq (s : String) : Style.plain.quote s = String.ofList ('"' :: textChars s) := rfl

/-- The result of writing is a text, or it fails for an integer that is too long or for want of
room. -/
def Writes {α : Type} (r : Except WriteFault α) (a : α) (long deep : Prop) : Prop :=
  r = .ok a ∧ ¬ long ∧ ¬ deep ∨ r = .error .longInteger ∧ long ∨ r = .error .tooNested ∧ deep

lemma Writes.bind {α β : Type} {r : Except WriteFault α} {f : α → Except WriteFault β} {a : α}
    {b : β} {long deep long' deep' : Prop} (hr : Writes r a long deep)
    (hf : Writes (f a) b long' deep') :
    Writes (r >>= f) b (long ∨ long') (deep ∨ deep') := by
  obtain ⟨rfl, hlong, hdeep⟩ | ⟨rfl, hlong⟩ | ⟨rfl, hdeep⟩ := hr
  · obtain ⟨h, hlong', hdeep'⟩ | ⟨h, hlong'⟩ | ⟨h, hdeep'⟩ := hf
    · exact .inl ⟨h, not_or.2 ⟨hlong, hlong'⟩, not_or.2 ⟨hdeep, hdeep'⟩⟩
    · exact .inr (.inl ⟨h, .inr hlong'⟩)
    · exact .inr (.inr ⟨h, .inr hdeep'⟩)
  · exact .inr (.inl ⟨rfl, .inl hlong⟩)
  · exact .inr (.inr ⟨rfl, .inl hdeep⟩)

lemma Writes.map {α β : Type} {r : Except WriteFault α} {a : α} {long deep : Prop} (g : α → β)
    (hr : Writes r a long deep) : Writes (do return g (← r)) (g a) long deep := by
  obtain ⟨rfl, h⟩ | ⟨rfl, h⟩ | ⟨rfl, h⟩ := hr
  · exact .inl ⟨rfl, h⟩
  · exact .inr (.inl ⟨rfl, h⟩)
  · exact .inr (.inr ⟨rfl, h⟩)

lemma writes_ok {α : Type} (a : α) : Writes (.ok a) a False False :=
  .inl ⟨rfl, not_false, not_false⟩

/-- What makes writing fail may be said in another way. -/
lemma Writes.congr {α : Type} {r : Except WriteFault α} {a : α} {long deep long' deep' : Prop}
    (h : Writes r a long deep) (hlong : long ↔ long') (hdeep : deep ↔ deep') :
    Writes r a long' deep' := by
  rwa [Writes, ← hlong, ← hdeep]

/-- A value of data is written as its text, unless there is an integer in it that is too long or it
is deeper than the room. -/
def Written (room : Nat) (v : Value) : Prop :=
  Writes (writeValue .plain room v) (String.ofList (chars v)) (v.hasLongInteger = true)
    (room < v.height)

lemma longInteger_eq : Value.longInteger = 10 ^ Reading.digitLimit := by
  unfold Value.longInteger Reading.digitLimit
  generalize 4300 = k
  rfl

lemma written_int (room : Nat) (n : Int) : Written room (.int n) := by
  have hlong : (Value.int n).hasLongInteger = true ↔ 10 ^ Reading.digitLimit ≤ n.natAbs := by
    rw [Value.hasLongInteger, decide_eq_true_iff, longInteger_eq]
  have hany : Style.plain.digits.any (Nat.pow 10 · ≤ n.natAbs) = true ↔
      10 ^ Reading.digitLimit ≤ n.natAbs := by
    rw [Style.plain, Option.any_some, decide_eq_true_iff, Nat.pow_eq]
  rw [Written, writeValue, Style.integer, chars, String.ofList_toList]
  by_cases h : 10 ^ Reading.digitLimit ≤ n.natAbs
  · rw [if_pos (hany.2 h)]
    exact .inr (.inl ⟨rfl, hlong.2 h⟩)
  · rw [if_neg (mt hany.1 h)]
    exact .inl ⟨rfl, mt hlong.1 h, Nat.not_lt_zero _⟩

lemma writes_items {room : Nat} {items : List Value} (h : ∀ v ∈ items, Written room v) :
    Writes (writeItems .plain room items) ((itemChars items).map String.ofList)
      (Value.anyLongInteger items = true) (room < Value.heightItems items) := by
  induction items with
  | nil => exact (writes_ok _).congr (by simp [Value.anyLongInteger]) (by simp [Value.heightItems])
  | cons v items ih =>
    obtain ⟨hv, hitems⟩ := List.forall_mem_cons.1 h
    rw [writeItems]
    refine (hv.bind ((ih hitems).map (String.ofList (chars v) :: ·))).congr ?_ ?_
    · rw [Value.anyLongInteger, Bool.or_eq_true]
    · rw [Value.heightItems, lt_max_iff]

lemma writes_entries {room : Nat} {entries : List (Value × Value)}
    (hkeys : ∀ e ∈ entries, ∃ s, e.1 = .text s) (h : ∀ e ∈ entries, Written room e.2) :
    Writes (writeEntries .plain room entries) ((entryChars entries).map String.ofList)
      (Value.anyLongEntry entries = true) (room < Value.heightEntries entries) := by
  induction entries with
  | nil => exact (writes_ok _).congr (by simp [Value.anyLongEntry]) (by simp [Value.heightEntries])
  | cons e entries ih =>
    obtain ⟨k, v⟩ := e
    obtain ⟨hv, hentries⟩ := List.forall_mem_cons.1 h
    obtain ⟨⟨s, rfl⟩, hrest⟩ := List.forall_mem_cons.1 hkeys
    have hentry : Style.plain.quote s ++ ":" ++ String.ofList (chars v) =
        String.ofList (keyChars (.text s) ++ ':' :: chars v) := by
      rw [quote_eq, keyChars, ← String.toList_inj]
      simp
    rw [writeEntries, entryChars, List.map_cons, ← hentry]
    refine (hv.bind ((ih hrest hentries).map (_ :: ·))).congr ?_ ?_
    · simp [Value.anyLongEntry, Value.hasLongInteger]
    · simp [Value.heightEntries, Value.height]

lemma bracketed_eq (opening close : Char) (parts : List (List Char)) :
    String.singleton opening ++ ",".intercalate (parts.map String.ofList) ++
        String.singleton close =
      String.ofList (opening :: joined close parts) := by
  rw [← toList_intercalate_parts, ← String.toList_inj]
  simp

/-- A container needs room for itself and for what is in it. -/
lemma Writes.enclosed (opening close : Char) {room : Nat}
    {work : Nat → Except WriteFault (List String)} {parts : List (List Char)} {long : Prop}
    {height : Nat} (h : ∀ left, Writes (work left) (parts.map String.ofList) long (left < height)) :
    Writes (do
        let texts ← work (← enter room)
        return String.singleton opening ++ ",".intercalate texts ++ String.singleton close)
      (String.ofList (opening :: joined close parts)) long (room < height + 1) := by
  rw [← bracketed_eq]
  cases room with
  | zero => exact .inr (.inr ⟨rfl, Nat.succ_pos _⟩)
  | succ left =>
    exact ((h left).map _).congr Iff.rfl Nat.succ_lt_succ_iff.symm

/-- What is written for data. -/
lemma written_of_isData {v : Value} (hv : IsData v) (room : Nat) : Written room v := by
  induction hv generalizing room with
  | null => exact (writes_ok _).congr (by simp [Value.hasLongInteger]) (by simp [Value.height])
  | bool b =>
    cases b <;>
      exact (writes_ok _).congr (by simp [Value.hasLongInteger]) (by simp [Value.height])
  | int n => exact written_int room n
  | text s => exact (writes_ok _).congr (by simp [Value.hasLongInteger]) (by simp [Value.height])
  | list data ih | tuple data ih =>
    rw [Written, writeValue, chars, Value.hasLongInteger, Value.height]
    exact Writes.enclosed '[' ']' fun left => writes_items fun v hv => ih v hv left
  | table keys distinct data ih =>
    rw [Written, writeValue, chars, Value.hasLongInteger, Value.height]
    exact Writes.enclosed '{' '}' fun left => writes_entries keys fun e he => ih e he left

/-! ### Reading texts -/

/-- The escape of a control character has four digits, which are read as its number. -/
lemma exists_escapeUnit {n : Nat} (hn : n < 0x20) :
    ∃ a b c d, escapeUnit n = ['\\', 'u', a, b, c, d] ∧ Text.unit? a b c d = some n := by
  have hall : ∀ n < 0x20,
      let digit (i : Nat) := (Text.hexChars 4 n).getD i '0'
      Text.hexChars 4 n = [digit 0, digit 1, digit 2, digit 3] ∧
        Text.unit? (digit 0) (digit 1) (digit 2) (digit 3) = some n := by decide +kernel
  obtain ⟨hdigits, hunit⟩ := hall n hn
  exact ⟨_, _, _, _, congrArg ('\\' :: 'u' :: ·) hdigits, hunit⟩

/-- A character of a text: it is written with a backslash and a letter, as a control character by
its number, or as it is. -/
lemma escape_cases (c : Char) :
    (∃ letter, Style.plain.escape c = ['\\', letter] ∧ letter ≠ 'u' ∧
      unescape? letter = some c ∧ (c.toNat < 0x20 ∨ c = '"' ∨ c = '\\')) ∨
    (Style.plain.escape c = escapeUnit c.toNat ∧ c.toNat < 0x20) ∨
    (Style.plain.escape c = [c] ∧ 0x20 ≤ c.toNat ∧ c ≠ '"' ∧ c ≠ '\\') := by
  rw [Style.escape]
  split_ifs with hquote hslash hfeed hreturn htab hback hform hcontrol
  -- the characters with a letter of their own
  iterate 7
    · obtain rfl := beq_iff_eq.1 (by assumption)
      exact .inl ⟨_, rfl, by decide⟩
  · have hn : c.toNat < 0x20 := by simpa [Style.plain] using hcontrol
    exact .inr (.inl ⟨if_pos (by omega), hn⟩)
  · have hn : ¬ c.toNat < 0x20 := by simpa [Style.plain] using hcontrol
    exact .inr (.inr ⟨rfl, by omega, by simpa using hquote, by simpa using hslash⟩)

lemma units?_escape (c : Char) (cs : List Char) :
    units? (Style.plain.escape c ++ cs) = (units? cs).map fun r => (c.toNat :: r.1, r.2) := by
  obtain ⟨letter, hc, hletter, hread, -⟩ | ⟨hc, hn⟩ | ⟨hc, hn, hquote, hslash⟩ := escape_cases c
  · rw [hc]
    simp only [List.cons_append, List.nil_append]
    rw [units?, hread]
    · cases units? cs <;> rfl
    · rintro _ _ _ _ _ rfl
      exact absurd rfl hletter
  · obtain ⟨d₁, d₂, d₃, d₄, hdigits, hunit⟩ := exists_escapeUnit hn
    rw [hc, hdigits]
    simp only [List.cons_append, List.nil_append]
    rw [units?, hunit]
    cases units? cs <;> rfl
  · rw [hc, List.singleton_append, units?]
    · have hplain : ¬ (decide (c.toNat < 0x20) || c == '\\') = true := by simp [hn, hslash]
      rw [if_neg hplain]
      cases units? cs <;> rfl
    · exact hquote
    · intro _ _ _ _ _ h
      exact absurd h hslash
    · intro _ _ h
      exact absurd h hslash

/-- A text is read up to its closing quote. -/
lemma textBody?_textChars (s : String) (rest : List Char) :
    textBody? (textChars s ++ rest) = some (s.toList, rest) := by
  have hunits (cs : List Char) :
      units? (cs.flatMap Style.plain.escape ++ '"' :: rest) = some (cs.map Char.toNat, rest) := by
    induction cs with
    | nil => rfl
    | cons c cs ih =>
      rw [List.flatMap_cons, List.append_assoc, units?_escape, ih]
      rfl
  rw [textBody?, textChars, List.append_assoc, List.singleton_append, hunits, Option.map_some,
    Text.joinUnits_map_toNat]

/-! ### Reading numbers -/

variable {limit : Option Nat}

/-- What may follow a value: the end of the text, or a part of the list or object around it. -/
def Ends (rest : List Char) : Prop :=
  ∀ c ∈ rest.head?, c = ',' ∨ c = ']' ∨ c = '}'

lemma digits_append {ds rest : List Char} (hds : ∀ c ∈ ds, c.isDigit = true) (hrest : Ends rest) :
    digits (ds ++ rest) = (ds.map fun c => c.toNat - 0x30, rest) := by
  have hnone : rest.takeWhile Char.isDigit = [] := by
    cases rest with
    | nil => rfl
    | cons c rest => obtain rfl | rfl | rfl := hrest c rfl <;> rfl
  have htake : (ds ++ rest).takeWhile Char.isDigit = ds := by
    rw [List.takeWhile_append_of_pos hds, hnone, List.append_nil]
  rw [digits, htake, List.drop_left]

lemma fraction_of_ends {rest : List Char} (hrest : Ends rest) : fraction rest = (none, rest) := by
  cases rest with
  | nil => rfl
  | cons c rest => obtain rfl | rfl | rfl := hrest c rfl <;> rfl

lemma exponent_of_ends {rest : List Char} (hrest : Ends rest) : exponent rest = (none, rest) := by
  cases rest with
  | nil => rfl
  | cons c rest => obtain rfl | rfl | rfl := hrest c rfl <;> rfl

/-- A numeral begins with a zero only if it is the zero. -/
lemma head?_toDigits {n : Nat} (hn : 0 < n) : (Nat.toDigits 10 n).head? ≠ some '0' := by
  have hdigit : ∀ d < 10, 0 < d → Nat.digitChar d ≠ '0' := by decide
  induction n using Nat.strong_induction_on with
  | _ n ih =>
    rw [Nat.toDigits_eq_if (by decide)]
    split_ifs with hlt
    · simpa using hdigit n hlt hn
    · rw [List.head?_append_of_ne_nil _ Nat.toDigits_ne_nil]
      exact ih (n / 10) (by omega) (by omega)

/-- Whether a reader with a limit on digits can read the integers of a value. -/
def Within (limit : Option Nat) (v : Value) : Prop :=
  limit = none ∨ limit = some Reading.digitLimit ∧ v.hasLongInteger = false

lemma Within.length_le {n : Int} (h : Within limit (.int n)) :
    limit.any (· < (Nat.toDigits 10 n.natAbs).length) = false := by
  obtain rfl | ⟨rfl, hshort⟩ := h
  · rfl
  · rw [Value.hasLongInteger, decide_eq_false_iff_not, Nat.not_le, longInteger_eq] at hshort
    have hlength := (Nat.length_toDigits_le_iff (by decide : 1 < 10) (by decide)).2 hshort
    exact decide_eq_false (Nat.not_lt.2 hlength)

lemma number?_toDigits {n : Int} (hlimit : Within limit (.int n))
    (negative : Bool) {rest : List Char} (hrest : Ends rest) :
    number? limit negative (Nat.toDigits 10 n.natAbs ++ rest) =
      some (.int (if negative then -n.natAbs else n.natAbs), rest) := by
  have hlength := hlimit.length_le
  have hvalue := Text.ofDigits_toDigits n.natAbs
  obtain hzero | hpos := Nat.eq_zero_or_pos n.natAbs
  · rw [hzero] at hlength ⊢
    have hone : limit.any (· < [0].length) = false := hlength
    change number? limit negative ('0' :: rest) = _
    rw [number?]
    simp only [fraction_of_ends hrest, exponent_of_ends hrest, hone]
    rfl
  · have hdigits := digits_append
      (fun c hc => Nat.isDigit_of_mem_toDigits (n := n.natAbs) (by decide) le_rfl hc) hrest
    rw [number?, hdigits]
    · simp only [fraction_of_ends hrest, exponent_of_ends hrest, hvalue, List.length_map, hlength,
        List.isEmpty_map]
      rw [if_neg (by simp)]
      rfl
    · intro rest' heq
      have hhead := congrArg List.head? heq
      rw [List.head?_append_of_ne_nil _ Nat.toDigits_ne_nil] at hhead
      exact head?_toDigits hpos hhead

lemma chars_int (n : Int) :
    chars (.int n) = (if n < 0 then ['-'] else []) ++ Nat.toDigits 10 n.natAbs := by
  rw [chars, toList_toString]
  exact congrArg _ Nat.toList_repr

lemma exists_toDigits_eq_cons (n : Nat) :
    ∃ d ds, Nat.toDigits 10 n = d :: ds ∧ ∀ c, c.isDigit = false → c ≠ d := by
  obtain ⟨d, ds, hds⟩ := List.exists_cons_of_ne_nil (Nat.toDigits_ne_nil (n := n) (b := 10))
  refine ⟨d, ds, hds, fun c hc => ?_⟩
  rintro rfl
  rw [Nat.isDigit_of_mem_toDigits (by decide) le_rfl (hds ▸ List.mem_cons_self)] at hc
  cases hc

/-- An integer is no word. -/
lemma atom?_int {n : Int} (hlimit : Within limit (.int n)) {rest : List Char}
    (hrest : Ends rest) : atom? limit (chars (.int n) ++ rest) = some (.int n, rest) := by
  obtain ⟨d, ds, hds, hne⟩ := exists_toDigits_eq_cons n.natAbs
  have hnumber (negative : Bool) := number?_toDigits hlimit negative hrest
  rw [hds, List.cons_append] at hnumber
  rw [chars_int, hds]
  split_ifs with hn
  · have hfind : words.find? (fun w => w.1.isPrefixOf ('-' :: d :: (ds ++ rest))) = none := by
      simp [words, hne 'I' rfl]
    have hvalue : -(n.natAbs : Int) = n := by omega
    change atom? limit ('-' :: d :: (ds ++ rest)) = _
    rw [atom?, hfind]
    simp only [hnumber, if_true, hvalue]
  · have hfind : words.find? (fun w => w.1.isPrefixOf (d :: (ds ++ rest))) = none := by
      simp [words, hne 'n' rfl, hne 't' rfl, hne 'f' rfl, hne 'N' rfl, hne 'I' rfl, hne '-' rfl]
    have hvalue : (n.natAbs : Int) = n := by omega
    change atom? limit (d :: (ds ++ rest)) = _
    rw [atom?, hfind]
    · simp only [hnumber, Bool.false_eq_true, if_false, hvalue]
    · intro rest' heq
      exact absurd (List.cons.inj heq).1.symm (hne '-' rfl)

/-! ### Reading data -/

lemma skip_cons {c : Char} (hc : isSpace c = false) (cs : List Char) :
    skip (c :: cs) = c :: cs := by
  rw [skip, List.dropWhile_cons_of_neg (by simp [hc])]

/-- A value is read from its text, whatever part of a list or object follows, with two steps for
each character. -/
structure Reads (limit : Option Nat) (v : Value) : Prop where
  starts : ∃ c cs, chars v = c :: cs ∧ isSpace c = false ∧ c ≠ ']'
  value : ∀ {steps : Nat} {rest : List Char}, 2 * (chars v).length ≤ steps → Ends rest →
    value? limit steps (chars v ++ rest) = some (v.asLists, rest)

lemma ends_followed {close : Char} (hclose : close = ']' ∨ close = '}') (parts : List (List Char))
    (rest : List Char) : Ends (followed close parts ++ rest) := by
  cases parts with
  | nil =>
    rintro c hc
    cases hc
    exact .inr hclose
  | cons part parts =>
    rintro c hc
    cases hc
    exact .inl rfl

lemma Reads.skip_append {v : Value} (h : Reads limit v) (rest : List Char) :
    skip (chars v ++ rest) = chars v ++ rest := by
  obtain ⟨c, cs, hcs, hspace, -⟩ := h.starts
  rw [hcs]
  exact skip_cons hspace _

lemma items?_succ {v : Value} (hv : Reads limit v) {steps : Nat}
    (hsteps : 2 * (chars v).length ≤ steps) (parts : List (List Char)) (rest : List Char) :
    items? limit (steps + 1) (chars v ++ (followed ']' parts ++ rest)) =
      match parts with
      | [] => some ([v.asLists], rest)
      | part :: parts =>
        (items? limit steps (skip (part ++ (followed ']' parts ++ rest)))).map
          fun r => (v.asLists :: r.1, r.2) := by
  rw [items?, hv.value hsteps (ends_followed (.inl rfl) parts rest)]
  cases parts with
  | nil => rfl
  | cons part parts =>
    rw [followed, List.cons_append, List.append_assoc]
    change (items? limit steps (skip (part ++ (followed ']' parts ++ rest))) >>= _) = _
    dsimp only
    cases items? limit steps (skip (part ++ (followed ']' parts ++ rest))) <;> rfl

/-- The items of a list are read up to its closing bracket. -/
lemma items?_chars {v : Value} {items : List Value} (hv : Reads limit v)
    (hitems : ∀ w ∈ items, Reads limit w) {steps : Nat}
    (hsteps : 2 * (joined ']' (itemChars (v :: items))).length ≤ steps) (rest : List Char) :
    items? limit steps (joined ']' (itemChars (v :: items)) ++ rest) =
      some (Value.itemsAsLists (v :: items), rest) := by
  induction items generalizing v steps with
  | nil =>
    simp only [itemChars, joined, followed, List.length_append, List.length_singleton] at hsteps
    obtain ⟨steps, rfl⟩ := Nat.exists_eq_add_one.2 (by omega : 0 < steps)
    rw [itemChars, joined, List.append_assoc, items?_succ hv (by omega)]
    rfl
  | cons w items ih =>
    obtain ⟨hw, hitems⟩ := List.forall_mem_cons.1 hitems
    simp only [itemChars, joined, followed, List.length_append, List.length_cons] at hsteps
    obtain ⟨steps, rfl⟩ := Nat.exists_eq_add_one.2 (by omega : 0 < steps)
    have hsteps' : 2 * (joined ']' (itemChars (w :: items))).length ≤ steps := by
      simp only [itemChars, joined, List.length_append]
      omega
    have hrest := ih hw hitems hsteps'
    rw [itemChars, joined, List.append_assoc] at hrest
    rw [itemChars, joined, List.append_assoc, items?_succ hv (by omega), itemChars]
    simp only [hw.skip_append, hrest]
    rfl

lemma put_of_nodup {t : Table Value Value} {s : String} {keys : List Value}
    (h : (t.map Prod.fst ++ .text s :: keys).Nodup) (v : Value) :
    Table.put t (.text s) v = t ++ [(.text s, v)] := by
  have hnew : Value.text s ∉ t.map Prod.fst :=
    fun hmem => (List.nodup_middle.1 h).notMem (List.mem_append_left _ hmem)
  have hkey : Table.hasKey t (.text s) = false := by
    rw [Table.hasKey, List.any_eq_false]
    intro e he hsame
    exact hnew ((Value.same_text_iff _ _).1 hsame ▸ List.mem_map_of_mem he)
  have hput := Table.put_append t [] (.text s) v
  rw [List.append_nil, hkey] at hput
  exact hput

lemma entries?_succ {v : Value} (hv : Reads limit v) {steps : Nat}
    (hsteps : 2 * (chars v).length ≤ steps) (s : String) (done : Table Value Value)
    (parts : List (List Char)) (rest : List Char) :
    entries? limit (steps + 1) done
        (keyChars (.text s) ++ ':' :: chars v ++ (followed '}' parts ++ rest)) =
      match parts with
      | [] => some (done.put (.text s) v.asLists, rest)
      | part :: parts =>
        entries? limit steps (done.put (.text s) v.asLists)
          (skip (part ++ (followed '}' parts ++ rest))) := by
  have hkey : keyChars (.text s) ++ ':' :: chars v ++ (followed '}' parts ++ rest) =
      '"' :: (textChars s ++ ':' :: (chars v ++ (followed '}' parts ++ rest))) := by
    simp [keyChars]
  rw [hkey, entries?, textBody?_textChars]
  change (value? limit steps (skip (chars v ++ (followed '}' parts ++ rest))) >>= _) = _
  rw [hv.skip_append, hv.value hsteps (ends_followed (.inr rfl) parts rest), String.ofList_toList]
  cases parts with
  | nil => rfl
  | cons part parts =>
    rw [followed, List.cons_append, List.append_assoc]
    rfl

/-- The entries of an object are read up to its closing brace, and come after those that were read
before. -/
lemma entries?_chars {s : String} {v : Value} {entries : List (Value × Value)}
    (hv : Reads limit v) (hkeys : ∀ e ∈ entries, ∃ s, e.1 = .text s)
    (hentries : ∀ e ∈ entries, Reads limit e.2) {done : Table Value Value}
    (hdistinct : (done.map Prod.fst ++ .text s :: entries.map Prod.fst).Nodup) {steps : Nat}
    (hsteps : 2 * (joined '}' (entryChars ((.text s, v) :: entries))).length ≤ steps)
    (rest : List Char) :
    entries? limit steps done (joined '}' (entryChars ((.text s, v) :: entries)) ++ rest) =
      some (done ++ Value.entriesAsLists ((.text s, v) :: entries), rest) := by
  induction entries generalizing s v done steps with
  | nil =>
    simp only [entryChars, joined, followed, List.length_append, List.length_cons] at hsteps
    obtain ⟨steps, rfl⟩ := Nat.exists_eq_add_one.2 (by omega : 0 < steps)
    rw [entryChars, joined, List.append_assoc, entries?_succ hv (by omega), put_of_nodup hdistinct]
    rfl
  | cons e entries ih =>
    obtain ⟨k, w⟩ := e
    obtain ⟨⟨s', rfl⟩, hrestKeys⟩ := List.forall_mem_cons.1 hkeys
    obtain ⟨hw, hrestReads⟩ := List.forall_mem_cons.1 hentries
    dsimp only at hw
    simp only [entryChars, joined, followed, List.length_append, List.length_cons] at hsteps
    obtain ⟨steps, rfl⟩ := Nat.exists_eq_add_one.2 (by omega : 0 < steps)
    have hsteps' : 2 * (joined '}' (entryChars ((.text s', w) :: entries))).length ≤ steps := by
      simp only [entryChars, joined, List.length_append, List.length_cons]
      omega
    have hdistinct' : ((done ++ [(Value.text s, v.asLists)]).map Prod.fst ++
        Value.text s' :: entries.map Prod.fst).Nodup := by
      simpa using hdistinct
    have hrest := ih hw hrestKeys hrestReads hdistinct' hsteps'
    rw [entryChars, joined, List.append_assoc] at hrest
    have hskip (cs : List Char) : skip (keyChars (.text s') ++ ':' :: chars w ++ cs) =
        keyChars (.text s') ++ ':' :: chars w ++ cs := rfl
    rw [entryChars, joined, List.append_assoc, entries?_succ hv (by omega),
      put_of_nodup hdistinct, entryChars]
    dsimp only
    rw [hskip, hrest, List.append_assoc]
    rfl

/-! ### Data is read back -/

lemma hasLongInteger_items {items : List Value} (h : Value.anyLongInteger items = false) :
    ∀ v ∈ items, v.hasLongInteger = false := by
  induction items with
  | nil => exact List.forall_mem_nil _
  | cons v items ih =>
    rw [Value.anyLongInteger, Bool.or_eq_false_iff] at h
    exact List.forall_mem_cons.2 ⟨h.1, ih h.2⟩

lemma hasLongInteger_entries {entries : List (Value × Value)}
    (h : Value.anyLongEntry entries = false) : ∀ e ∈ entries, e.2.hasLongInteger = false := by
  induction entries with
  | nil => exact List.forall_mem_nil _
  | cons e entries ih =>
    rw [Value.anyLongEntry, Bool.or_eq_false_iff, Bool.or_eq_false_iff] at h
    exact List.forall_mem_cons.2 ⟨h.1.2, ih h.2⟩

lemma value?_items {items : List Value} (hitems : ∀ v ∈ items, Reads limit v)
    {steps : Nat} (hsteps : 2 * ('[' :: joined ']' (itemChars items)).length ≤ steps)
    (rest : List Char) :
    value? limit steps ('[' :: joined ']' (itemChars items) ++ rest) =
      some (.list (Value.itemsAsLists items), rest) := by
  rw [List.length_cons] at hsteps
  obtain ⟨steps, rfl⟩ := Nat.exists_eq_add_one.2 (by omega : 0 < steps)
  cases items with
  | nil => rfl
  | cons v items =>
    obtain ⟨hv, hitems⟩ := List.forall_mem_cons.1 hitems
    obtain ⟨c, cs, hcs, hspace, hclose⟩ := hv.starts
    have hread := items?_chars hv hitems (by omega : _ ≤ steps) rest
    obtain ⟨cs', hcs'⟩ : ∃ cs', joined ']' (itemChars (v :: items)) ++ rest = c :: cs' := by
      rw [itemChars, joined, hcs]
      exact ⟨_, rfl⟩
    rw [List.cons_append, hcs', value?, skip_cons hspace]
    rw [hcs'] at hread
    split
    · rename_i heq
      exact absurd (List.cons.inj heq).1 hclose
    · rw [hread]
      rfl

lemma value?_entries {entries : List (Value × Value)}
    (hkeys : ∀ e ∈ entries, ∃ s, e.1 = .text s) (hdistinct : (entries.map Prod.fst).Nodup)
    (hentries : ∀ e ∈ entries, Reads limit e.2) {steps : Nat}
    (hsteps : 2 * ('{' :: joined '}' (entryChars entries)).length ≤ steps) (rest : List Char) :
    value? limit steps ('{' :: joined '}' (entryChars entries) ++ rest) =
      some (.table (Value.entriesAsLists entries), rest) := by
  rw [List.length_cons] at hsteps
  obtain ⟨steps, rfl⟩ := Nat.exists_eq_add_one.2 (by omega : 0 < steps)
  cases entries with
  | nil => rfl
  | cons e entries =>
    obtain ⟨k, v⟩ := e
    obtain ⟨⟨s, rfl⟩, hrestKeys⟩ := List.forall_mem_cons.1 hkeys
    obtain ⟨hv, hrestReads⟩ := List.forall_mem_cons.1 hentries
    dsimp only at hv
    have hread : entries? limit steps []
        (joined '}' (entryChars ((.text s, v) :: entries)) ++ rest) =
          some ([] ++ Value.entriesAsLists ((.text s, v) :: entries), rest) := by
      refine entries?_chars hv hrestKeys hrestReads ?_ (by omega) rest
      exact hdistinct
    rw [List.cons_append, value?]
    change (entries? limit steps [] (joined '}' (entryChars ((.text s, v) :: entries)) ++ rest) >>=
      _) = _
    rw [hread]
    rfl

lemma Within.mono {v w : Value} (h : Within limit v)
    (hw : v.hasLongInteger = false → w.hasLongInteger = false) : Within limit w :=
  h.imp_right fun ⟨hlimit, hv⟩ => ⟨hlimit, hw hv⟩

lemma exists_chars_int (n : Int) :
    ∃ c cs, chars (.int n) = c :: cs ∧ ∀ d, d ≠ '-' → d.isDigit = false → c ≠ d := by
  rw [chars_int]
  split_ifs
  · exact ⟨'-', _, rfl, fun d hd _ => hd.symm⟩
  · obtain ⟨c, cs, hcs, hne⟩ := exists_toDigits_eq_cons n.natAbs
    exact ⟨c, cs, hcs, fun d _ hd => (hne d hd).symm⟩

lemma value?_int {n : Int} (hlimit : Within limit (.int n)) (steps : Nat) {rest : List Char}
    (hrest : Ends rest) :
    value? limit (steps + 1) (chars (.int n) ++ rest) = some (.int n, rest) := by
  obtain ⟨c, cs, hcs, hc⟩ := exists_chars_int n
  have hatom := atom?_int hlimit hrest
  rw [hcs, List.cons_append] at hatom ⊢
  rw [value?]
  · exact hatom
  · intro _ heq
    exact hc '"' (by decide) rfl (List.cons.inj heq).1
  · intro _ heq
    exact hc '[' (by decide) rfl (List.cons.inj heq).1
  · intro _ heq
    exact hc '{' (by decide) rfl (List.cons.inj heq).1

/-- A value without values inside it is read in one step. -/
lemma Reads.of_step {v : Value} {c : Char} {cs : List Char} (hcs : chars v = c :: cs)
    (hc : isSpace c = false ∧ c ≠ ']')
    (hvalue : ∀ steps {rest}, Ends rest →
      value? limit (steps + 1) (chars v ++ rest) = some (v.asLists, rest)) : Reads limit v := by
  refine ⟨⟨c, cs, hcs, hc⟩, fun {steps rest} hsteps hrest => ?_⟩
  rw [hcs, List.length_cons] at hsteps
  obtain ⟨steps, rfl⟩ := Nat.exists_eq_add_one.2 (by omega : 0 < steps)
  exact hvalue steps hrest

/-- Data is read back from its text. -/
lemma reads_of_isData {v : Value} (hv : IsData v) (hlimit : Within limit v) :
    Reads limit v := by
  induction hv with
  | null => exact .of_step rfl (by decide) fun steps _ _ => rfl
  | bool b => cases b <;> exact .of_step rfl (by decide) fun steps _ _ => rfl
  | int n =>
    obtain ⟨c, cs, hcs, hc⟩ := exists_chars_int n
    refine .of_step hcs ⟨?_, hc ']' (by decide) rfl⟩ fun steps _ => value?_int hlimit steps
    simp [isSpace, hc ' ', hc '\t', hc '\n', hc '\r']
  | text s =>
    refine .of_step rfl (by decide) fun steps rest _ => ?_
    rw [chars, List.cons_append, value?, textBody?_textChars]
    change some (Value.text (String.ofList s.toList), rest) = _
    rw [String.ofList_toList]
    rfl
  | list data ih | tuple data ih =>
    have hitems := fun v hv => ih v hv (hlimit.mono fun hlong => hasLongInteger_items hlong v hv)
    exact ⟨⟨'[', _, rfl, by decide⟩, fun hsteps _ => value?_items hitems hsteps _⟩
  | table keys distinct data ih =>
    have hentries := fun e he =>
      ih e he (hlimit.mono fun hlong => hasLongInteger_entries hlong e he)
    exact ⟨⟨'{', _, rfl, by decide⟩,
      fun hsteps _ => value?_entries keys distinct hentries hsteps _⟩

/-- A text with data in it, and nothing else, is read as this data. -/
lemma readWithin?_chars {v : Value} (hv : IsData v) (hlimit : Within limit v) :
    readWithin? limit (chars v) = some v.asLists := by
  have hreads := reads_of_isData hv hlimit
  have hskip := hreads.skip_append []
  have hend : Ends [] := by simp [Ends]
  have hvalue := hreads.value (by omega : 2 * (chars v).length ≤ 2 * (chars v).length + 2) hend
  rw [List.append_nil] at hskip hvalue
  rw [readWithin?, hskip, hvalue]
  rfl

/-! ### The text is compact -/

/-- A character of a JSON text, or what an escape in it stands for. -/
inductive Mark where
  /-- A character outside of the literals. -/
  | outside (c : Char)
  /-- A character of a literal that is written as it is. -/
  | literal (c : Char)
  /-- The number of a character of a literal that is escaped. -/
  | escaped (n : Nat)
  /-- An escape that stands for nothing, or a literal that does not end. -/
  | broken

/-- The marks of a text, without the quotes around its literals. `quoted` tells whether the text
begins inside a literal. -/
def marks : (quoted : Bool) → List Char → List Mark
  | false, [] => []
  | true, [] => [.broken]
  | false, c :: rest => if c == '"' then marks true rest else .outside c :: marks false rest
  | true, '"' :: rest => marks false rest
  | true, '\\' :: 'u' :: a :: b :: c :: d :: rest =>
    (match Text.unit? a b c d with
      | some n => .escaped n
      | none => .broken) :: marks true rest
  | true, '\\' :: c :: rest =>
    (match unescape? c with
      | some c => .escaped c.toNat
      | none => .broken) :: marks true rest
  | true, c :: rest => (if c == '\\' then .broken else .literal c) :: marks true rest

/-- A mark of a compact text: there are no blanks outside of its literals, and only those characters
are escaped that have to be. -/
def Mark.Compact : Mark → Prop
  | .outside c => Text.isBlank c = false
  | .literal c => 0x20 ≤ c.toNat ∧ c ≠ '"' ∧ c ≠ '\\'
  | .escaped n => n < 0x20 ∨ n = '"'.toNat ∨ n = '\\'.toNat
  | .broken => False

/-- A part of a text with whole literals and compact marks. -/
def Compact (cs : List Char) : Prop :=
  ∃ ms, (∀ m ∈ ms, Mark.Compact m) ∧ ∀ rest, marks false (cs ++ rest) = ms ++ marks false rest

lemma Compact.append {cs cs' : List Char} (h : Compact cs) (h' : Compact cs') :
    Compact (cs ++ cs') := by
  obtain ⟨ms, hms, hcs⟩ := h
  obtain ⟨ms', hms', hcs'⟩ := h'
  refine ⟨ms ++ ms', List.forall_mem_append.2 ⟨hms, hms'⟩, fun rest => ?_⟩
  rw [List.append_assoc, hcs, hcs', List.append_assoc]

/-- Whether a character may stand outside of the literals of a compact text. -/
def staysOutside (c : Char) : Bool :=
  c != '"' && !Text.isBlank c

lemma compact_outside {cs : List Char} (h : cs.all staysOutside = true) : Compact cs := by
  have hcs : ∀ c ∈ cs, c ≠ '"' ∧ Text.isBlank c = false := by
    simpa [staysOutside] using h
  refine ⟨cs.map .outside, List.forall_mem_map.2 fun c hc => (hcs c hc).2, fun rest => ?_⟩
  clear h
  induction cs with
  | nil => rfl
  | cons c cs ih =>
    obtain ⟨⟨hquote, -⟩, hcs⟩ := List.forall_mem_cons.1 hcs
    rw [List.cons_append, marks, if_neg (by simpa using hquote), ih hcs]
    rfl

lemma marks_escape (c : Char) :
    ∃ m, Mark.Compact m ∧
      ∀ cs, marks true (Style.plain.escape c ++ cs) = m :: marks true cs := by
  obtain ⟨letter, hc, hletter, hread, hn⟩ | ⟨hc, hn⟩ | ⟨hc, hn, hquote, hslash⟩ := escape_cases c
  · refine ⟨.escaped c.toNat, ?_, fun cs => ?_⟩
    · exact hn.imp_right (Or.imp (congrArg Char.toNat) (congrArg Char.toNat))
    · rw [hc]
      simp only [List.cons_append, List.nil_append]
      rw [marks, hread]
      rintro _ _ _ _ _ rfl
      exact absurd rfl hletter
  · obtain ⟨d₁, d₂, d₃, d₄, hdigits, hunit⟩ := exists_escapeUnit hn
    refine ⟨.escaped c.toNat, .inl hn, fun cs => ?_⟩
    rw [hc, hdigits]
    simp only [List.cons_append, List.nil_append]
    rw [marks, hunit]
  · refine ⟨.literal c, ⟨hn, hquote, hslash⟩, fun cs => ?_⟩
    rw [hc, List.singleton_append, marks, if_neg (by simpa using hslash)]
    · exact hquote
    · intro _ _ _ _ _ h
      exact absurd h hslash
    · intro _ _ h
      exact absurd h hslash

lemma compact_text (s : String) : Compact ('"' :: textChars s) := by
  have hbody (cs : List Char) : ∃ ms, (∀ m ∈ ms, Mark.Compact m) ∧ ∀ rest,
      marks true (cs.flatMap Style.plain.escape ++ '"' :: rest) = ms ++ marks false rest := by
    induction cs with
    | nil => exact ⟨[], List.forall_mem_nil _, fun rest => rfl⟩
    | cons c cs ih =>
      obtain ⟨ms, hms, hcs⟩ := ih
      obtain ⟨m, hm, hc⟩ := marks_escape c
      refine ⟨m :: ms, List.forall_mem_cons.2 ⟨hm, hms⟩, fun rest => ?_⟩
      rw [List.flatMap_cons, List.append_assoc, hc, hcs]
      rfl
  obtain ⟨ms, hms, hcs⟩ := hbody s.toList
  refine ⟨ms, hms, fun rest => ?_⟩
  change marks true (textChars s ++ rest) = _
  rw [textChars, List.append_assoc, List.singleton_append, hcs]

lemma compact_joined {opening close : Char} (hopening : staysOutside opening = true)
    (hclose : staysOutside close = true) {parts : List (List Char)}
    (hparts : ∀ part ∈ parts, Compact part) : Compact (opening :: joined close parts) := by
  have hstart : Compact [opening] := compact_outside (by simpa using hopening)
  have hend : Compact [close] := compact_outside (by simpa using hclose)
  have hcomma : Compact [','] := compact_outside rfl
  have hfollowed : ∀ {parts : List (List Char)}, (∀ part ∈ parts, Compact part) →
      Compact (followed close parts) := by
    intro parts hparts
    induction parts with
    | nil => exact hend
    | cons part parts ih =>
      obtain ⟨hpart, hparts⟩ := List.forall_mem_cons.1 hparts
      exact hcomma.append (hpart.append (ih hparts))
  cases parts with
  | nil => exact hstart.append hend
  | cons part parts =>
    obtain ⟨hpart, hparts⟩ := List.forall_mem_cons.1 hparts
    exact hstart.append (hpart.append (hfollowed hparts))

lemma compact_items {items : List Value} (h : ∀ v ∈ items, Compact (chars v)) :
    ∀ part ∈ itemChars items, Compact part := by
  induction items with
  | nil => exact List.forall_mem_nil _
  | cons v items ih =>
    obtain ⟨hv, hitems⟩ := List.forall_mem_cons.1 h
    exact List.forall_mem_cons.2 ⟨hv, ih hitems⟩

lemma compact_entries {entries : List (Value × Value)} (hkeys : ∀ e ∈ entries, ∃ s, e.1 = .text s)
    (h : ∀ e ∈ entries, Compact (chars e.2)) : ∀ part ∈ entryChars entries, Compact part := by
  induction entries with
  | nil => exact List.forall_mem_nil _
  | cons e entries ih =>
    obtain ⟨k, v⟩ := e
    obtain ⟨⟨s, rfl⟩, hrestKeys⟩ := List.forall_mem_cons.1 hkeys
    obtain ⟨hv, hentries⟩ := List.forall_mem_cons.1 h
    have hcolon : Compact [':'] := compact_outside rfl
    exact List.forall_mem_cons.2
      ⟨(compact_text s).append (hcolon.append hv), ih hrestKeys hentries⟩

lemma compact_int (n : Int) : Compact (chars (.int n)) := by
  apply compact_outside
  have hdigits : (Nat.toDigits 10 n.natAbs).all staysOutside = true := by
    rw [List.all_eq_true]
    intro c hc
    have hdigit := Nat.isDigit_of_mem_toDigits (by decide) le_rfl hc
    have hquote : c ≠ '"' := by
      rintro rfl
      cases hdigit
    simp [staysOutside, hquote, Text.isBlank_of_isDigit hdigit]
  rw [chars_int, List.all_append, hdigits]
  split_ifs <;> rfl

lemma compact_chars {v : Value} (hv : IsData v) : Compact (chars v) := by
  induction hv with
  | null => exact compact_outside rfl
  | bool b => cases b <;> exact compact_outside rfl
  | int n => exact compact_int n
  | text s => exact compact_text s
  | list data ih | tuple data ih => exact compact_joined rfl rfl (compact_items ih)
  | table keys distinct data ih => exact compact_joined rfl rfl (compact_entries keys ih)

lemma Compact.forall_marks {cs : List Char} (h : Compact cs) :
    ∀ m ∈ marks false cs, Mark.Compact m := by
  obtain ⟨ms, hms, hcs⟩ := h
  have hcs := hcs []
  rw [List.append_nil] at hcs
  rw [hcs]
  simpa [marks] using hms

end Json

/-! ### Lists as constants -/

namespace Argument

variable {raw : Value}

/-- A list of data is written, unless an integer of it is too long or there is no room for it. -/
lemma exists_listItems? (hraw : Json.IsListData raw) (room : Option Nat) :
    ∃ items, listItems? raw = some items ∧
      Json.Writes (Json.write .plain (.list items) room) (String.ofList (Json.chars raw))
        (raw.hasLongInteger = true) (room.getD raw.height < raw.height) := by
  obtain ⟨items, hitems, hraw, hdata⟩ := hraw
  have hempty : items.isEmpty = false := by simpa using hitems
  refine ⟨items, ?_, ?_⟩
  · obtain rfl | rfl := hraw <;> simp [listItems?, hempty]
  · obtain rfl | rfl := hraw <;> exact Json.written_of_isData (.list hdata) _

/-- The text of a list of data. -/
lemma eq_of_listText? {t : String} (hraw : Json.IsListData raw) (ht : listText? raw = some t) :
    t = String.ofList (Json.chars raw) := by
  obtain ⟨items, hitems, hwrites⟩ := exists_listItems? hraw none
  rw [listText?, hitems] at ht
  obtain ⟨hwrite, -⟩ | ⟨hwrite, -⟩ | ⟨hwrite, -⟩ := hwrites
  all_goals
    simp only [hwrite] at ht
    cases ht
  rfl

/-- The argument for a list of data is a constant with its text. -/
lemma exists_yields_ofList (h : Header) (d : Definition) (p : ParamSpec) {room : Option Nat}
    (hraw : Json.IsListData raw) (hshort : raw.hasLongInteger = false)
    (hroom : raw.height ≤ room.getD raw.height) (c : Constants) :
    ∃ i c', Yields (ofList h d p raw true room) c ⟨p.name, "str", .constant i⟩ c' ∧
      c.texts <+: c'.texts ∧ c'.texts[i]? = some (String.ofList (Json.chars raw)) := by
  obtain ⟨items, hitems, ⟨hwrite, -⟩ | ⟨-, hlong⟩ | ⟨-, hdeep⟩⟩ := exists_listItems? hraw room
  · obtain ⟨i, c', hi⟩ : ∃ i c', Yields (internText (String.ofList (Json.chars raw))) c i c' :=
      ⟨_, _, rfl⟩
    obtain ⟨hget, hgrows⟩ := yields_internText hi
    refine ⟨i, c', ?_, hgrows, hget⟩
    rw [ofList, hitems]
    simp only [hwrite, textOperand, if_true, yields_bind_iff, yields_pure_iff]
    exact ⟨_, c, ⟨rfl, rfl⟩, _, c', ⟨i, c', hi, rfl, rfl⟩, rfl, rfl⟩
  · rw [hshort] at hlong
    cases hlong
  · exact absurd hdeep (Nat.not_lt.2 hroom)

/-- A list of data that is no argument is refused for an integer that is too long or for want of
room, and no constant is added. -/
lemma exists_stops_ofList (h : Header) (d : Definition) (p : ParamSpec) {room : Option Nat}
    (hraw : Json.IsListData raw)
    (hunfit : raw.hasLongInteger = true ∨ room.getD raw.height < raw.height) (intern : Bool)
    (c : Constants) :
    ∃ e, Stops (ofList h d p raw intern room) c e c ∧
      (e = .listUnwritable .longInteger p.name d.name ∧ raw.hasLongInteger = true ∨
        e = .fault .tooNested ∧ room.getD raw.height < raw.height) := by
  obtain ⟨items, hitems, hwrites⟩ := exists_listItems? hraw room
  obtain ⟨-, hshort, hroom⟩ | ⟨hwrite, hlong⟩ | ⟨hwrite, hdeep⟩ := hwrites
  · exact absurd hunfit (not_or.2 ⟨hshort, hroom⟩)
  · refine ⟨_, stops_ofList_iff.2 ⟨.inr ⟨items, _, hitems, hwrite, rfl⟩, rfl⟩, .inl ⟨rfl, hlong⟩⟩
  · refine ⟨_, stops_ofList_iff.2 ⟨.inr ⟨items, _, hitems, hwrite, rfl⟩, rfl⟩, .inr ⟨rfl, hdeep⟩⟩

/-- A constant that is the argument for a list of data has its text. -/
lemma getElem?_of_ofList {h : Header} {d : Definition} {p : ParamSpec} {c c' : Constants}
    {name : Value} {type : String} {i : Nat} {room : Option Nat} (hraw : Json.IsListData raw)
    (ha : Yields (ofList h d p raw true room) c ⟨name, type, .constant i⟩ c') :
    c.texts <+: c'.texts ∧ c'.texts[i]? = some (String.ofList (Json.chars raw)) := by
  obtain ⟨t, o, ht, ho, heq⟩ := textOperand_of_ofList ha
  cases heq
  obtain rfl := eq_of_listText? hraw ht
  obtain ⟨hgrows, hconstant⟩ := yields_textOperand ho
  obtain ⟨j, hj, hget⟩ := hconstant rfl
  cases hj
  exact ⟨hgrows, hget⟩

/-- A list of data becomes a constant from which it is read back, and whose text is compact. Another
list that becomes the same constant later on is the same. This is so for a list without integers of
more digits than a decimal numeral may have and with room for its nesting; any other list is
refused, and adds no constant. -/
theorem list_constant_read_back (h : Header) (d : Definition) (p : ParamSpec)
    (hraw : Json.IsListData raw) (room : Option Nat) (c : Constants) :
    (raw.hasLongInteger = false → raw.height ≤ room.getD raw.height →
      ∃ i c' text, Yields (ofList h d p raw true room) c ⟨p.name, "str", .constant i⟩ c' ∧
        c.texts <+: c'.texts ∧ c'.texts[i]? = some text ∧
        Json.read? text.toList = some raw.asLists ∧
        (∀ m ∈ Json.marks false text.toList, m.Compact) ∧
        ∀ (h' : Header) (d' : Definition) (p' : ParamSpec) (raw' name : Value) (type : String)
          (room' : Option Nat) (later later' : Constants), Json.IsListData raw' →
          c'.texts <+: later.texts →
          Yields (ofList h' d' p' raw' true room') later ⟨name, type, .constant i⟩ later' →
          raw'.asLists = raw.asLists) ∧
    (raw.hasLongInteger = true ∨ room.getD raw.height < raw.height →
      ∃ e, Stops (ofList h d p raw true room) c e c ∧
        (e = .listUnwritable .longInteger p.name d.name ∧ raw.hasLongInteger = true ∨
          e = .fault .tooNested ∧ room.getD raw.height < raw.height)) := by
  refine ⟨fun hshort hroom => ?_, fun hunfit => exists_stops_ofList h d p hraw hunfit true c⟩
  obtain ⟨i, c', hyields, hgrows, hget⟩ := exists_yields_ofList h d p hraw hshort hroom c
  have hread {v : Value} (hv : Json.IsListData v) :=
    Json.readWithin?_chars hv.isData (.inl rfl)
  refine ⟨i, c', _, hyields, hgrows, hget, ?_⟩
  rw [String.toList_ofList]
  refine ⟨Json.readWithin?_chars hraw.isData (.inr ⟨rfl, hshort⟩),
    (Json.compact_chars hraw.isData).forall_marks, ?_⟩
  intro h' d' p' raw' name type room' later later' hraw' hlater ha
  obtain ⟨hgrows', hget'⟩ := getElem?_of_ofList hraw' ha
  have htext := getElem?_of_isPrefix (hlater.trans hgrows') hget
  rw [hget', Option.some.injEq] at htext
  have hchars := congrArg String.toList htext
  rw [String.toList_ofList, String.toList_ofList] at hchars
  have hsame := hread hraw'
  rw [hchars, hread hraw] at hsame
  exact (Option.some.inj hsame).symm

/-- A tuple with an object and an empty tuple in it. -/
def receipt : Value :=
  .tuple [.text "5€ \"net\"\n", .int (-12),
    .table [("paid", .list [.null, .bool true]), ("tip", .tuple [])]]

theorem receipt_read_back :
    Json.IsListData receipt ∧ ∃ i c' text,
      Yields (ofList .standard { name := "post" } { name := "rows", kind := .list } receipt true
          (some 3))
        .empty ⟨"rows", "str", .constant i⟩ c' ∧ c'.texts[i]? = some text ∧
      Json.read? text.toList = some (.list [.text "5€ \"net\"\n", .int (-12),
        .table [("paid", .list [.null, .bool true]), ("tip", .list [])]]) ∧
      ∀ m ∈ Json.marks false text.toList, m.Compact := by
  have hraw : Json.IsListData receipt := by
    have hpaid : Json.IsData (.list [.null, .bool true]) :=
      .list (by simp [Json.IsData.null, Json.IsData.bool])
    have htip : Json.IsData (.tuple []) := .tuple (List.forall_mem_nil _)
    have htable : Json.IsData (.table [("paid", .list [.null, .bool true]), ("tip", .tuple [])]) :=
      .table (by simp) (by simp) (by simp [hpaid, htip])
    refine ⟨_, by simp, .inr rfl, ?_⟩
    simp [Json.IsData.text, Json.IsData.int, htable]
  have hshort : receipt.hasLongInteger = false := by decide +kernel
  obtain ⟨i, c', text, hyields, -, hget, hread, hcompact, -⟩ :=
    (list_constant_read_back .standard { name := "post" } { name := "rows", kind := .list } hraw
      (some 3) .empty).1 hshort (by decide)
  exact ⟨hraw, i, c', text, hyields, hget, hread, hcompact⟩

/-- A list is no constant if an integer of it has a digit too many, or if its nesting is deeper than
the room that is left. -/
theorem unfit_lists_refused :
    Stops (ofList .standard { name := "post" } { name := "rows", kind := .list }
        (.list [.int Value.longInteger]) true) .empty
        (.listUnwritable .longInteger "rows" "post") .empty ∧
      Stops (ofList .standard { name := "post" } { name := "rows", kind := .list }
        (.list [.list [], .int 1]) true (some 1)) .empty (.fault .tooNested) .empty := by
  have hlong : Json.write .plain (.list [.int Value.longInteger]) = .error .longInteger := by
    decide +kernel
  exact ⟨stops_ofList_iff.2 ⟨.inr ⟨_, _, rfl, hlong, rfl⟩, rfl⟩, rfl⟩

end Argument

end NodeScript
