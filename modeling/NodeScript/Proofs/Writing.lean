import NodeScript.Json.Writer
import NodeScript.Proofs.Yields

/-!
# Room for containers

A value is written with room for containers nested so deep. The room makes no difference as long as
it is enough: a value that is no deeper than the room never fails for want of it, and with less room
a value fails for want of it or is written in the same way.
-/

namespace NodeScript.Json

variable {α β : Type} {style : Style} {room : Nat}

/-- A result is given up for want of room, or it is the one that there is with more room. -/
def Bounded (r r' : Except WriteFault α) : Prop :=
  r = .error .tooNested ∨ r = r'

lemma Bounded.bind {r r' : Except WriteFault α} {f f' : α → Except WriteFault β}
    (hr : Bounded r r') (hf : ∀ a, Bounded (f a) (f' a)) : Bounded (r >>= f) (r' >>= f') := by
  obtain rfl | rfl := hr
  · exact .inl rfl
  · cases r with
    | error e => exact .inr rfl
    | ok a => exact hf a

lemma bounded_enter_bind {room' : Nat} (hle : room ≤ room') {f f' : Nat → Except WriteFault α}
    (hf : ∀ n n', n ≤ n' → Bounded (f n) (f' n')) :
    Bounded (enter room >>= f) (enter room' >>= f') := by
  cases room with
  | zero => exact .inl rfl
  | succ room =>
    obtain ⟨room', rfl⟩ := Nat.exists_eq_add_one_of_ne_zero (Nat.ne_zero_of_lt hle)
    exact hf _ _ (Nat.le_of_succ_le_succ hle)

mutual

/-- With less room a value is given up or written in the same way. -/
lemma bounded_writeValue {room room' : Nat} (hle : room ≤ room') (v : Value) :
    Bounded (writeValue style room v) (writeValue style room' v) := by
  match v with
  | .list items | .tuple items =>
    rw [writeValue, writeValue]
    refine bounded_enter_bind hle fun n n' hn => ?_
    exact (bounded_writeItems hn items).bind fun _ => .inr rfl
  | .table entries =>
    rw [writeValue, writeValue]
    refine bounded_enter_bind hle fun n n' hn => ?_
    exact (bounded_writeEntries hn entries).bind fun _ => .inr rfl
  | .null | .bool _ | .int _ | .real _ | .text _ | .octets _ | .date _ | .moment _ | .set _
  | .foreign _ | .loop _ _ => exact .inr rfl
termination_by structural v

lemma bounded_writeItems {room room' : Nat} (hle : room ≤ room') (items : List Value) :
    Bounded (writeItems style room items) (writeItems style room' items) := by
  match items with
  | [] => exact .inr rfl
  | v :: rest =>
    rw [writeItems, writeItems]
    refine (bounded_writeValue hle v).bind fun _ => ?_
    exact (bounded_writeItems hle rest).bind fun _ => .inr rfl
termination_by structural items

lemma bounded_writeEntries {room room' : Nat} (hle : room ≤ room')
    (entries : List (Value × Value)) :
    Bounded (writeEntries style room entries) (writeEntries style room' entries) := by
  match entries with
  | [] => exact .inr rfl
  | (k, v) :: rest =>
    rw [writeEntries, writeEntries]
    refine Bounded.bind (.inr rfl) fun _ => (bounded_writeValue hle v).bind fun _ => ?_
    exact (bounded_writeEntries hle rest).bind fun _ => .inr rfl
termination_by structural entries

end

/-! ### Room that is enough -/

lemma bind_ne_tooNested {r : Except WriteFault α} {f : α → Except WriteFault β}
    (hr : r ≠ .error .tooNested) (hf : ∀ a, f a ≠ .error .tooNested) :
    r >>= f ≠ .error .tooNested := by
  intro h
  obtain h | ⟨a, -, h⟩ := Except.bind_eq_error_iff.1 h
  · exact hr h
  · exact hf a h

lemma integer_ne_tooNested (n : Int) : style.integer n ≠ .error .tooNested := by
  rw [Style.integer]
  split_ifs <;> simp

lemma keyText_ne_tooNested (k : Value) : keyText style k ≠ .error .tooNested := by
  cases k with
  | int n => exact integer_ne_tooNested n
  | _ => simp [keyText]

/-- A container that is no deeper than the room leaves room for what is in it. -/
lemma enter_bind_ne_tooNested {n : Nat} (hroom : n + 1 ≤ room) {f : Nat → Except WriteFault α}
    (hf : ∀ left, n ≤ left → f left ≠ .error .tooNested) :
    enter room >>= f ≠ .error .tooNested := by
  obtain ⟨left, rfl⟩ := Nat.exists_eq_add_one_of_ne_zero (Nat.ne_zero_of_lt hroom)
  exact hf left (Nat.le_of_succ_le_succ hroom)

mutual

lemma writeValue_ne_tooNested {room : Nat} (v : Value) (hroom : v.height ≤ room) :
    writeValue style room v ≠ .error .tooNested := by
  match v with
  | .list items | .tuple items =>
    rw [writeValue]
    refine enter_bind_ne_tooNested hroom fun left hleft => ?_
    exact bind_ne_tooNested (writeItems_ne_tooNested items hleft) (by simp [pure, Except.pure])
  | .table entries =>
    rw [writeValue]
    refine enter_bind_ne_tooNested hroom fun left hleft => ?_
    exact bind_ne_tooNested (writeEntries_ne_tooNested entries hleft) (by simp [pure, Except.pure])
  | .int n => exact integer_ne_tooNested n
  | .null | .bool _ | .real _ | .text _ | .octets _ | .date _ | .moment _ | .set _
  | .foreign _ | .loop _ _ => simp [writeValue]
termination_by structural v

lemma writeItems_ne_tooNested {room : Nat} (items : List Value)
    (hroom : Value.heightItems items ≤ room) :
    writeItems style room items ≠ .error .tooNested := by
  match items with
  | [] => simp [writeItems]
  | v :: rest =>
    rw [Value.heightItems, max_le_iff] at hroom
    rw [writeItems]
    refine bind_ne_tooNested (writeValue_ne_tooNested v hroom.1) fun _ => ?_
    exact bind_ne_tooNested (writeItems_ne_tooNested rest hroom.2) (by simp [pure, Except.pure])
termination_by structural items

lemma writeEntries_ne_tooNested {room : Nat} (entries : List (Value × Value))
    (hroom : Value.heightEntries entries ≤ room) :
    writeEntries style room entries ≠ .error .tooNested := by
  match entries with
  | [] => simp [writeEntries]
  | (k, v) :: rest =>
    rw [Value.heightEntries, max_le_iff, max_le_iff] at hroom
    rw [writeEntries]
    refine bind_ne_tooNested (keyText_ne_tooNested k) fun _ => ?_
    refine bind_ne_tooNested (writeValue_ne_tooNested v hroom.1.2) fun _ => ?_
    exact bind_ne_tooNested (writeEntries_ne_tooNested rest hroom.2) (by simp [pure, Except.pure])
termination_by structural entries

end

/-- A value that is no deeper than the room is written as if there were no bound. -/
lemma write_eq_of_height {v : Value} (hroom : v.height ≤ room) :
    write style v (some room) = write style v :=
  ((bounded_writeValue hroom v).resolve_left (writeValue_ne_tooNested v le_rfl)).symm

/-- Where there is a bound on the room, a value is given up or written as if there were none. -/
lemma bounded_write (room : Nat) (v : Value) :
    Bounded (write style v (some room)) (write style v) := by
  obtain hle | hlt := le_or_gt v.height room
  · exact .inr (write_eq_of_height hle)
  · exact bounded_writeValue hlt.le v

/-- What is written with a bound on the room is written without one. -/
lemma write_eq_ok {v : Value} {room : Option Nat} {t : String}
    (h : write style v room = .ok t) : write style v = .ok t := by
  cases room with
  | none => exact h
  | some room =>
    obtain hdeep | heq := bounded_write room v
    · rw [hdeep] at h
      cases h
    · rwa [← heq]

end NodeScript.Json
