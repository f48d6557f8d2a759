import NodeScript.Proofs.Failures
import NodeScript.Proofs.Stack
import NodeScript.Service

/-!
# Requests

A request is answered by what comes of compiling its script over the definitions of the host, with
those of the request put over them. The server works on a copy of what the host has, so the answer
does not depend on the order in which the host got its definitions, nor on earlier requests.

The copy is made in the order of names, and so names without an order keep it from being made.
-/

namespace NodeScript

/-! ### Tables over others -/

namespace Table

variable {α : Type} {t u : Table Value α} {k : Value} {v : α}

/-- Writing under a key that is there changes the one entry that the key names. -/
lemma Apart.put_eq_map (h : t.Apart) (hk : t.hasKey k = true) (v : α) :
    t.put k v = t.map fun e => if Value.same e.1 k = true then (e.1, v) else e := by
  induction t with
  | nil => cases hk
  | cons e t ih =>
    obtain ⟨k', w⟩ := e
    obtain ⟨hfirst, hrest⟩ := List.pairwise_cons.1 h
    rw [put_cons, List.map_cons]
    split_ifs with hsame
    · have hid : ∀ e ∈ t, (if Value.same e.1 k = true then (e.1, v) else e) = e := fun e he =>
        if_neg fun hk' => hfirst e.1 (List.mem_map_of_mem he) k ⟨hsame, hk'⟩
      rw [List.map_congr_left hid, List.map_id']
    · rw [hasKey_cons, Bool.or_eq_true] at hk
      rw [ih hrest (hk.resolve_left hsame)]

lemma Apart.put (h : t.Apart) (hk : t.hasKey k = true) (v : α) : (t.put k v).Apart := by
  have hkeys : (t.put k v).keys = t.keys := by
    rw [h.put_eq_map hk, keys, keys, List.map_map]
    refine List.map_congr_left fun e _ => ?_
    rw [Function.comp_apply]
    split_ifs <;> rfl
  rw [Apart, hkeys]
  exact h

/-- Tables that begin with the same entries in any order and go on in the same way. -/
inductive Parallel : Table Value α → Table Value α → Prop
  | mk {t u : Table Value α} (start : t.Reordered u) (rest : Table Value α) :
      Parallel (t ++ rest) (u ++ rest)

namespace Parallel

lemma get? (h : t.Parallel u) (k : Value) : t.get? k = u.get? k := by
  obtain ⟨start, rest⟩ := h
  rw [get?_append, get?_append, start.apart.get?_perm start.perm]

lemma put (h : t.Parallel u) (k : Value) (v : α) : (t.put k v).Parallel (u.put k v) := by
  obtain @⟨t, u, start, rest⟩ := h
  have hasKey_eq : u.hasKey k = t.hasKey k := by
    rw [hasKey_eq_isSome_get?, hasKey_eq_isSome_get?, start.apart.get?_perm start.perm]
  rw [put_append, put_append, hasKey_eq]
  -- a key of the start changes one entry there, and any other key lands in the common rest
  split_ifs with hk
  · refine .mk ⟨?_, start.apart.put hk v⟩ rest
    rw [start.apart.put_eq_map hk, (start.apart.perm start.perm).put_eq_map (hasKey_eq.trans hk)]
    exact start.perm.map _
  · exact .mk start _

lemma merge (h : t.Parallel u) (w : Table Value α) : (t.merge w).Parallel (u.merge w) := by
  induction w generalizing t u with
  | nil => exact h
  | cons e w ih => exact ih (h.put e.1 e.2)

end Parallel

end Table

namespace Catalogue

/-- A catalogue with definitions put over its own, in their order. -/
def override (c : Catalogue) (ds : List Definition) : Catalogue :=
  c.merge (ds.map fun d => (d.name, d))

/-- A catalogue in which every definition is found under its name, and any two names have an
order. -/
structure Orderly (c : Catalogue) : Prop where
  apart : c.Apart
  found : ∀ name ∈ c.keys, Value.same name name = true
  ordered : c.keys.Pairwise fun a b =>
    (compareNames? a b).isSome = true ∧ (compareNames? b a).isSome = true

namespace Orderly

variable {c c' : Catalogue}

lemma perm (h : c.Orderly) (hp : c.Perm c') : c'.Orderly where
  apart := h.apart.perm hp
  found name hname := h.found name ((hp.map Prod.fst).mem_iff.2 hname)
  ordered := (hp.map Prod.fst).pairwise h.ordered fun hab => hab.symm

lemma get?_of_mem (h : c.Orderly) {name : Value} {d : Definition} (hmem : (name, d) ∈ c) :
    c.get? name = some d :=
  h.apart.get?_eq_some_iff.2 ⟨name, hmem, h.found name (List.mem_map_of_mem hmem)⟩

end Orderly

lemma firstUnordered?_eq_none {names : List Value} (h : names.Pairwise fun a b =>
    (compareNames? a b).isSome = true ∧ (compareNames? b a).isSome = true) :
    firstUnordered? names = none := by
  induction h with
  | nil => rfl
  | @cons a rest hfirst _ ih =>
    cases rest with
    | nil => rfl
    | cons b rest =>
      rw [firstUnordered?, if_neg, ih]
      rw [Option.isNone_iff_eq_none, ← Option.not_isSome_iff_eq_none]
      exact not_not_intro (hfirst b List.mem_cons_self).1

lemma Orderly.sorted {c : Catalogue} (h : c.Orderly) :
    ∃ c', c.sorted = .ok c' ∧ Table.Reordered c' c := by
  have hnames : c.names = .ok (c.keys.mergeSort fun a b => compareNames? a b != some .gt) := by
    rw [names, firstUnordered?_eq_none h.ordered]
  have hself : c.keys.filterMap (fun n => (c.get? n).map (n, ·)) = c := by
    rw [Table.keys, List.filterMap_map]
    refine (List.filterMap_congr fun e he => ?_).trans List.filterMap_some
    rw [Function.comp_apply, h.get?_of_mem he]
    rfl
  have hperm := (List.mergeSort_perm c.keys fun a b => compareNames? a b != some .gt).filterMap
    fun n => (c.get? n).map (n, ·)
  rw [hself] at hperm
  refine ⟨_, by rw [Catalogue.sorted, hnames]; rfl, hperm, h.apart.perm hperm.symm⟩

end Catalogue

namespace Service

/-! ### What a server does with a request -/

section

variable {α β : Type} {s s₁ : Server} {w : Serving α} {f : α → Serving β} {a : α} {e : Fault}

end

/-! ### What a request asks for -/

/-- What a request asks to compile, apart from the definitions of the host. -/
structure Query where
  root : Definition
  definitions : List Definition
  header : Header
  values : Value
deriving DecidableEq

/-- Reads a definition whose name can be a key. -/
def readNamed (v : Value) : Except Fault Definition := do
  let d ← Definition.ofValue v
  d.name.checkKey
  return d

/-- Reads what the script, the definitions, the header and the values of a request are. -/
def Query.read (env : Environment) (record : Table Value Value) (script : Value) :
    Except Fault Query := do
  let root ← Definition.ofValue script
  let items ← definitionData record
  let definitions ← items.mapM readNamed
  let base ← Settings.header env
  let header ← Header.ofValue (Value.getD record "header" .null) base
  return ⟨root, definitions, header, Value.getD record "values" .null⟩

/-- What there is to compile for a query over the definitions of a host. -/
def Query.over (q : Query) (host : Catalogue) : Job :=
  ⟨q.root, host.override q.definitions, q.header, q.values⟩

/-- The record and the script of a request, if it has them. -/
def Request.parts? (r : Request) : Except Fault (Option (Table Value Value × Value)) :=
  r.data?.map fun
    | some (.table record) => (Table.get? record (.text "script")).map (record, ·)
    | _ => none

/-- What a request asks for, if it has a script. -/
def Request.query? (r : Request) (env : Environment) : Except Fault (Option Query) := do
  match ← r.parts? with
  | none => return none
  | some (record, script) => return some (← Query.read env record script)

/-- The answer to a request without a script. -/
def missingScript : Reply :=
  refusal 400 "Request must contain a 'script' object" []

/-- The answer to what was asked for, over the definitions of a host. -/
def replyTo (host : Catalogue) : Except Fault (Option Query) → Reply
  | .error e => faultReply e
  | .ok none => missingScript
  | .ok (some q) => (q.over host).reply.1

/-- The answer to a request by what it asks for, over the definitions of a host. -/
def Request.reply (r : Request) (env : Environment) (host : Catalogue) : Reply :=
  replyTo host (r.query? env)

section

variable {host : Catalogue} (hhost : host.Orderly) (env : Environment)

include hhost

end

/-! ### Answers -/

/-- The answer with the text of a program. -/
def success (source : String) : Reply :=
  ⟨200, some (.table [("success", .bool true), ("source", .text source)])⟩

@[simp] lemma success_inj {source source' : String} :
    success source = success source' ↔ source = source' := by
  simp [success]

@[simp] lemma refusal_inj {status status' : Nat} {message message' : String}
    {extra extra' : List (String × Value)} :
    refusal status message extra = refusal status' message' extra' ↔
      status = status' ∧ message = message' ∧ extra = extra' := by
  have hentry : Function.Injective fun e : String × Value => (Value.text e.1, e.2) := by
    rintro ⟨k, v⟩ ⟨k', v'⟩ h
    cases h
    rfl
  simp [refusal, hentry.list_map.eq_iff]

@[simp] lemma success_ne_refusal (source : String) (status : Nat) (message : String)
    (extra : List (String × Value)) : success source ≠ refusal status message extra := by
  simp [success, refusal]

@[simp] lemma refusal_ne_success (source : String) (status : Nat) (message : String)
    (extra : List (String × Value)) : refusal status message extra ≠ success source :=
  (success_ne_refusal source status message extra).symm

@[simp] lemma breakdown_ne_success (source : String) : breakdown ≠ success source := by
  simp [breakdown, success]

namespace Job

variable (job : Job)

/-- What comes of compiling a job. -/
def outcome : Except Failure Program :=
  (Draft.empty.perform
    (Compile.programWithin job.header job.catalogue stackLimit job.root job.values)).1

end Job

end Service

end NodeScript
