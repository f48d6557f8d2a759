import Mathlib
import NodeScript.Program.Compile

/-!
# Fresh identifiers

Identifiers with different numbers differ, so among one more numbers than there are identifiers in
use one gives an identifier that is free. The search for it therefore always succeeds.
-/

namespace NodeScript.Draft

/-- Numbers tell identifiers apart. -/
lemma numbered_injective (base : String) :
    Function.Injective fun n : Nat => base ++ toString n := by
  intro m n h
  have hrepr : m.repr = n.repr := (String.append_right_inj base).1 h
  exact Nat.repr_injective hrepr

/-- Not all of the names that are tried can be in use. -/
lemma exists_free (ids : List String) {name : Nat → String} (hname : Function.Injective name)
    (start : Nat) : ∃ k ∈ List.range (ids.length + 1), name (start + k) ∉ ids := by
  by_contra hall
  simp only [not_exists, not_and, not_not] at hall
  have hnodup : ((List.range (ids.length + 1)).map fun k => name (start + k)).Nodup :=
    List.nodup_range.map fun j k h => Nat.add_left_cancel (hname h)
  have hsub : ((List.range (ids.length + 1)).map fun k => name (start + k)) ⊆ ids := by
    intro id hid
    obtain ⟨k, hk, rfl⟩ := List.mem_map.1 hid
    exact hall k hk
  have hle := (hnodup.subperm hsub).length_le
  simp only [List.length_map, List.length_range] at hle
  omega

/-- What is found is the first number whose name is free, and it is found among one more numbers
than there are names in use. -/
lemma firstFree_spec (ids : List String) {name : Nat → String} (hname : Function.Injective name)
    (start : Nat) :
    ∃ k ≤ ids.length, firstFree ids name start = start + k ∧
      (∀ j < k, name (start + j) ∈ ids) ∧ name (start + k) ∉ ids := by
  obtain ⟨k, hk, hfree⟩ := exists_free ids hname start
  rw [firstFree]
  cases hfind : (List.range (ids.length + 1)).find? fun k => !ids.contains (name (start + k)) with
  | none =>
    have := List.find?_eq_none.1 hfind k hk
    simp [hfree] at this
  | some j =>
    rw [List.find?_range_eq_some] at hfind
    obtain ⟨hj, hmem, htaken⟩ := hfind
    refine ⟨j, ?_, by rw [Option.getD_some, Nat.add_comm], ?_, by simpa using hj⟩
    · exact Nat.lt_succ_iff.1 (List.mem_range.1 hmem)
    · intro i hi
      simpa using htaken i hi

lemma firstFree_not_mem (ids : List String) {name : Nat → String}
    (hname : Function.Injective name) (start : Nat) :
    name (firstFree ids name start) ∉ ids := by
  obtain ⟨k, -, heq, -, hfree⟩ := firstFree_spec ids hname start
  rw [heq]
  exact hfree

lemma freshId_not_mem (ids : List String) (base : String) : freshId ids base ∉ ids := by
  rw [freshId]
  split_ifs with hbase
  · exact firstFree_not_mem ids (numbered_injective base) 2
  · simpa using hbase

end NodeScript.Draft
