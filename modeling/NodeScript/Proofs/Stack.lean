import NodeScript.Proofs.Interruption
import NodeScript.Proofs.Shapes
import NodeScript.Proofs.Writing

/-!
# A bounded stack

A compilation on a bounded stack gives up for want of room, or does what it does on a stack without
a bound. It does not give up if uses of definitions are nested no deeper than the stack allows, and
data no deeper than the room that is left above them.
-/

namespace NodeScript

/-! ### Work that may give up -/

section

variable {σ α β : Type}

/-- Work gives up for want of room, or does what other work does. -/
def Curtails (w w' : ExceptT Failure (StateM σ) α) : Prop :=
  ∀ s, w.run s = w'.run s ∨ ∃ s', Stops w s (.fault .tooNested) s'

namespace Curtails

lemma refl (w : ExceptT Failure (StateM σ) α) : Curtails w w :=
  fun _ => .inl rfl

lemma throw (w : ExceptT Failure (StateM σ) α) : Curtails (throw (.fault .tooNested)) w :=
  fun s => .inr ⟨s, rfl⟩

lemma bind {w w' : ExceptT Failure (StateM σ) α} {f f' : α → ExceptT Failure (StateM σ) β}
    (hw : Curtails w w') (hf : ∀ a, Curtails (f a) (f' a)) : Curtails (w >>= f) (w' >>= f') := by
  intro s
  obtain heq | ⟨s', hs'⟩ := hw s
  · rcases hrun : w.run s with ⟨e | a, s₁⟩
    · left
      rw [run_bind_of_error hrun, run_bind_of_error (heq.symm.trans hrun)]
    · rw [run_bind_of_ok hrun, run_bind_of_ok (heq.symm.trans hrun)]
      refine (hf a s₁).imp_right ?_
      rintro ⟨s', hs'⟩
      exact ⟨s', (run_bind_of_ok hrun).trans hs'⟩
  · exact .inr ⟨s', run_bind_of_error hs'⟩

lemma mapM {γ : Type} {f f' : γ → ExceptT Failure (StateM σ) α} (hf : ∀ c, Curtails (f c) (f' c))
    (cs : List γ) : Curtails (cs.mapM f) (cs.mapM f') := by
  induction cs with
  | nil => exact .refl _
  | cons c cs ih =>
    rw [List.mapM_cons, List.mapM_cons]
    exact (hf c).bind fun _ => ih.bind fun _ => .refl _

lemma interning {w w' : Interning α} (hw : Curtails w w') :
    Curtails (Draft.interning w) (Draft.interning w') := by
  intro s
  obtain heq | ⟨c, hc⟩ := hw s.constants
  · left
    rw [run_interning, run_interning, heq]
  · exact .inr ⟨_, stops_interning_iff.2 ⟨c, hc, rfl⟩⟩

/-- Where work gives up or does what other work does, so do its outcomes. -/
lemma perform {w w' : Drafting α} (hw : Curtails w w') (d : Draft) :
    (d.perform w).1 = (d.perform w').1 ∨ (d.perform w).1 = .error (.fault .tooNested) := by
  rw [Draft.perform, Draft.perform]
  obtain heq | ⟨s', hs'⟩ := hw { d with constants.journal := [] }
  · rw [heq]
    exact .inl rfl
  · rw [hs']
    exact .inr rfl

end Curtails

end

namespace Argument

variable {h : Header} {d : Definition} {p : ParamSpec} {intern : Bool} {room : Nat}

end Argument

namespace Compile

variable {h : Header} {defs : Catalogue} {below below' : Drafting (List Call)}
  {tree tree' : List Node → Drafting (List Call)} {room : Nat}

end Compile

/-! ### Stacks that suffice -/

namespace Compile

variable {h : Header} {defs : Catalogue}

/-- Whether nodes are compiled with uses that are nested at most `depth` deep. A definition is
entered at its first use; `entered` are those inside which the nodes stand. -/
def fits (defs : Catalogue) : (depth : Nat) → (entered : List Value) → List Node → Bool
  | 0, _, _ => false
  | depth + 1, entered, ns => ns.all fun n =>
    n.disabled ||
      match Table.get? defs n.name with
      | none => true
      | some d =>
        if d.isSourceCode then fits defs depth entered n.children
        else entered.contains d.name ||
          fits defs depth (d.name :: entered) n.children &&
            fits defs depth (d.name :: entered) d.tree

end Compile

end NodeScript
