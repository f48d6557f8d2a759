import Mathlib
import NodeScript.Program.Compile

/-!
# Work that succeeds

`Yields w s a s'` says that work `w` on a state `s` succeeds with `a` and leaves `s'`. The lemmas
take the sequencing of such work apart, for constants as well as for drafts.
-/

namespace NodeScript

variable {σ ε α β : Type} {s s' : σ}

lemma exists_ok_of_isOk {r : Except ε α} (h : r.isOk = true) : ∃ a, r = .ok a := by
  cases r with
  | error e => cases h
  | ok a => exact ⟨a, rfl⟩

lemma isOk_of_eq_ok {r : Except ε α} {a : α} (h : r = .ok a) : r.isOk = true := by
  rw [h]
  rfl

lemma Except.bind_eq_error_iff {x : Except ε α} {f : α → Except ε β} {e : ε} :
    x >>= f = .error e ↔ x = .error e ∨ ∃ a, x = .ok a ∧ f a = .error e := by
  cases x with
  | error e' => simp [bind, Except.bind]
  | ok a => simp [bind, Except.bind]

lemma Except.bind_eq_ok_iff {x : Except ε α} {f : α → Except ε β} {b : β} :
    x >>= f = .ok b ↔ ∃ a, x = .ok a ∧ f a = .ok b := by
  cases x with
  | error e => simp [bind, Except.bind]
  | ok a => simp [bind, Except.bind]

lemma mapM_eq_ok {f : α → Except ε β} {g : α → β} {as : List α}
    (h : ∀ a ∈ as, f a = .ok (g a)) : as.mapM f = .ok (as.map g) := by
  induction as with
  | nil => rfl
  | cons a as ih =>
    obtain ⟨ha, has⟩ := List.forall_mem_cons.1 h
    rw [List.mapM_cons, ha, ih has]
    rfl

lemma isOk_mapM_iff {f : α → Except ε β} {as : List α} :
    (as.mapM f).isOk = true ↔ ∀ a ∈ as, (f a).isOk = true := by
  induction as with
  | nil => exact iff_of_true rfl (List.forall_mem_nil _)
  | cons a as ih =>
    rw [List.mapM_cons, List.forall_mem_cons, ← ih]
    cases f a with
    | error e => exact iff_of_false Bool.false_ne_true fun h => Bool.false_ne_true h.1
    | ok b => cases as.mapM f <;> simp [bind, Except.bind, pure, Except.pure, Except.isOk,
        Except.toBool]

/-- Things that are each read back are read back as a list. -/
lemma mapM_map_eq_ok {f : β → Except ε α} {g : α → β} {as : List α}
    (h : ∀ a ∈ as, f (g a) = .ok a) : (as.map g).mapM f = .ok as := by
  rw [List.mapM_map]
  exact (mapM_eq_ok (g := id) h).trans (by rw [List.map_id])

lemma mapM_eq_ok_of_imp {f g : α → Except ε β} {as : List α} {bs : List β}
    (hfg : ∀ a ∈ as, ∀ b, f a = .ok b → g a = .ok b) (h : as.mapM f = .ok bs) :
    as.mapM g = .ok bs := by
  induction as generalizing bs with
  | nil => exact h
  | cons a as ih =>
    obtain ⟨ha, has⟩ := List.forall_mem_cons.1 hfg
    rw [List.mapM_cons] at h ⊢
    obtain ⟨b, hb, h⟩ := Except.bind_eq_ok_iff.1 h
    obtain ⟨bs', hbs', h⟩ := Except.bind_eq_ok_iff.1 h
    rw [ha b hb, ih has hbs']
    exact h

lemma exists_of_mem_mapM {f : α → Except ε β} {as : List α} {bs : List β}
    (h : as.mapM f = .ok bs) {b : β} (hb : b ∈ bs) : ∃ a ∈ as, f a = .ok b := by
  induction as generalizing bs with
  | nil =>
    cases h
    cases hb
  | cons a as ih =>
    rw [List.mapM_cons] at h
    obtain ⟨b', hb', h⟩ := Except.bind_eq_ok_iff.1 h
    obtain ⟨bs', hbs', h⟩ := Except.bind_eq_ok_iff.1 h
    cases h
    rcases List.mem_cons.1 hb with rfl | hb
    · exact ⟨a, List.mem_cons_self, hb'⟩
    · obtain ⟨a', ha', hfa'⟩ := ih hbs' hb
      exact ⟨a', List.mem_cons_of_mem _ ha', hfa'⟩

lemma mapM_eq_error {f : α → Except ε β} {as : List α} {e : ε}
    (h : as.mapM f = .error e) : ∃ a ∈ as, f a = .error e := by
  induction as with
  | nil => cases h
  | cons a as ih =>
    rw [List.mapM_cons] at h
    obtain h | ⟨b, -, h⟩ := Except.bind_eq_error_iff.1 h
    · exact ⟨a, List.mem_cons_self, h⟩
    · obtain h | ⟨bs, -, h⟩ := Except.bind_eq_error_iff.1 h
      · obtain ⟨a', ha', hf⟩ := ih h
        exact ⟨a', List.mem_cons_of_mem a ha', hf⟩
      · cases h

lemma exists_mapM_eq_error {f : α → Except ε β} {as : List α} {a : α} {e : ε}
    (ha : a ∈ as) (h : f a = .error e) : ∃ e', as.mapM f = .error e' := by
  cases hall : as.mapM f with
  | error e' => exact ⟨e', rfl⟩
  | ok bs =>
    have hok := isOk_mapM_iff.1 (isOk_of_eq_ok hall) a ha
    rw [h] at hok
    cases hok

/-! ### Runs of work on a state -/

section

variable {w : ExceptT ε (StateM σ) α} {f : α → ExceptT ε (StateM σ) β}

lemma run_get_bind (f : σ → ExceptT ε (StateM σ) β) (s : σ) : (get >>= f).run s = (f s).run s :=
  rfl

lemma run_bind_of_ok {a : α} (h : w.run s = (.ok a, s')) : (w >>= f).run s = (f a).run s' := by
  have hrun : (w >>= f).run s = ExceptT.bindCont f (w.run s).1 (w.run s).2 := rfl
  rw [hrun, h]
  rfl

lemma run_bind_of_error {e : ε} (h : w.run s = (.error e, s')) :
    (w >>= f).run s = (.error e, s') := by
  have hrun : (w >>= f).run s = ExceptT.bindCont f (w.run s).1 (w.run s).2 := rfl
  rw [hrun, h]
  rfl

end

/-- Work on a state succeeds with a result and leaves another state. -/
def Yields (w : ExceptT ε (StateM σ) α) (s : σ) (a : α) (s' : σ) : Prop :=
  w.run s = (.ok a, s')

lemma yields_pure_iff {a b : α} :
    Yields (pure a : ExceptT ε (StateM σ) α) s b s' ↔ b = a ∧ s' = s := by
  constructor
  · intro h
    cases h
    exact ⟨rfl, rfl⟩
  · rintro ⟨rfl, rfl⟩
    rfl

/-- A sequence succeeds when its parts do, one after the other. -/
lemma yields_bind_iff {w : ExceptT ε (StateM σ) α} {f : α → ExceptT ε (StateM σ) β} {b : β} :
    Yields (w >>= f) s b s' ↔ ∃ a s₁, Yields w s a s₁ ∧ Yields (f a) s₁ b s' := by
  unfold Yields
  rcases hw : w.run s with ⟨e | a, s₁⟩
  · rw [run_bind_of_error hw]
    constructor
    · intro h
      cases h
    · rintro ⟨_, _, h, _⟩
      cases h
  · rw [run_bind_of_ok hw]
    constructor
    · intro h
      exact ⟨a, s₁, rfl, h⟩
    · rintro ⟨_, _, h, hf⟩
      cases h
      exact hf

lemma yields_throw_iff {e : ε} {a : α} :
    Yields (throw e : ExceptT ε (StateM σ) α) s a s' ↔ False := by
  constructor
  · intro h
    cases h
  · exact False.elim

lemma yields_get_iff {t : σ} :
    Yields (get : ExceptT ε (StateM σ) σ) s t s' ↔ t = s ∧ s' = s := by
  constructor
  · intro h
    cases h
    exact ⟨rfl, rfl⟩
  · rintro ⟨rfl, rfl⟩
    rfl

lemma yields_set_iff {t : σ} {u : PUnit} :
    Yields (set t : ExceptT ε (StateM σ) PUnit) s u s' ↔ s' = t := by
  constructor
  · intro h
    cases h
    rfl
  · rintro rfl
    rfl

lemma yields_modify_iff {f : σ → σ} {u : PUnit} :
    Yields (modify f : ExceptT ε (StateM σ) PUnit) s u s' ↔ s' = f s := by
  constructor
  · intro h
    cases h
    rfl
  · rintro rfl
    rfl

lemma liftFailure_ok (a : α) :
    (liftM (.ok a : Except Failure α) : ExceptT Failure (StateM σ) α) = pure a := rfl

lemma liftFault_ok (a : α) :
    (liftM (.ok a : Except Fault α) : ExceptT Failure (StateM σ) α) = pure a := rfl

/-- Work that touches no state leaves it alone. -/
lemma yields_liftFailure_iff {r : Except Failure α} {a : α} :
    Yields (liftM r : ExceptT Failure (StateM σ) α) s a s' ↔ r = .ok a ∧ s' = s := by
  constructor
  · intro h
    cases h
    exact ⟨rfl, rfl⟩
  · rintro ⟨rfl, rfl⟩
    rfl

/-- A check of the data leaves the state alone. -/
lemma yields_liftFault_iff {r : Except Fault α} {a : α} :
    Yields (liftM r : ExceptT Failure (StateM σ) α) s a s' ↔ r = .ok a ∧ s' = s := by
  have hlift : (liftM r : ExceptT Failure (StateM σ) α) =
      liftM (r.mapError Failure.fault) := rfl
  rw [hlift, yields_liftFailure_iff]
  cases r <;> simp [Except.mapError]

/-- What is performed on a draft is done to it as it is, with nothing reported. -/
lemma Draft.run_of_perform {d d' : Draft} {w : Drafting α} {r : Except Failure α}
    {reports : Journal} (h : d.perform w = (r, d', reports)) :
    w.run { d with constants.journal := [] } = (r, d') := by
  have hresult := congrArg Prod.fst h
  have hdraft := congrArg (·.2.1) h
  exact Prod.ext hresult hdraft

lemma run_interning (w : Interning α) (d : Draft) :
    (Draft.interning w).run d =
      ((w.run d.constants).1, { d with constants := (w.run d.constants).2 }) := rfl

/-- Interning inside a draft changes its constants only. -/
lemma run_interning_eq_iff {w : Interning α} {d d' : Draft} {r : Except Failure α} :
    (Draft.interning w).run d = (r, d') ↔
      ∃ c, w.run d.constants = (r, c) ∧ d' = { d with constants := c } := by
  rw [run_interning]
  rcases w.run d.constants with ⟨r', c⟩
  constructor
  · intro h
    cases h
    exact ⟨c, rfl, rfl⟩
  · rintro ⟨_, hw, rfl⟩
    cases hw
    rfl

lemma yields_interning_iff {w : Interning α} {d d' : Draft} {a : α} :
    Yields (Draft.interning w) d a d' ↔
      ∃ c, Yields w d.constants a c ∧ d' = { d with constants := c } :=
  run_interning_eq_iff

end NodeScript
