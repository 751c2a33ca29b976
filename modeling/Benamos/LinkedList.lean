import Mathlib.Data.List.Nodup
import Mathlib.Data.List.Perm.Subperm
import Mathlib.Logic.Function.Iterate

/-!
# Null-terminated linked lists

Which nodes a pointer leads to is a matter of where each node points. A chain that ends at the null
pointer visits no node twice, so it is shorter than its address space is large.
-/

namespace LinkedList

variable {Address : Type*} {next : Address → Address} {null : Address}

/-- From the first address, `next` leads through the nodes to `null`. -/
inductive Linked (next : Address → Address) (null : Address) : Address → List Address → Prop
  | nil : Linked next null null []
  | cons {address : Address} {nodes : List Address} (nonnull : address ≠ null)
      (rest : Linked next null (next address) nodes) :
      Linked next null address (address :: nodes)

namespace Linked

variable {start : Address} {nodes : List Address}

theorem nil_iff : Linked next null start [] ↔ start = null := by
  constructor
  · rintro ⟨⟩
    rfl
  · rintro rfl
    exact .nil

theorem cons_iff {node : Address} : Linked next null start (node :: nodes) ↔
    start = node ∧ start ≠ null ∧ Linked next null (next start) nodes := by
  constructor
  · intro linked
    cases linked with
    | cons nonnull rest => exact ⟨rfl, nonnull, rest⟩
  · rintro ⟨rfl, nonnull, rest⟩
    exact .cons nonnull rest

theorem eq_nil_of_null (linked : Linked next null null nodes) : nodes = [] := by
  cases linked with
  | nil => rfl
  | cons nonnull => exact absurd rfl nonnull

/-- The first pointer decides the whole list. -/
theorem unique {other : List Address} (linked : Linked next null start nodes)
    (otherLinked : Linked next null start other) : nodes = other := by
  induction linked generalizing other with
  | nil => exact otherLinked.eq_nil_of_null.symm
  | cons nonnull rest ih =>
      cases otherLinked with
      | nil => exact absurd rfl nonnull
      | cons _ otherRest => rw [ih otherRest]

theorem of_append {passed : List Address} {node : Address} {rest : List Address}
    (linked : Linked next null start (passed ++ node :: rest)) :
    Linked next null node (node :: rest) := by
  induction passed generalizing start with
  | nil =>
      cases linked with
      | cons nonnull rest => exact .cons nonnull rest
  | cons first passed ih =>
      cases linked with
      | cons _ rest => exact ih rest

theorem null_notMem (linked : Linked next null start nodes) : null ∉ nodes := by
  induction linked with
  | nil => exact List.not_mem_nil
  | cons nonnull _ ih =>
      intro mem
      rcases List.mem_cons.mp mem with same | later
      · exact nonnull same.symm
      · exact ih later

/-- A node that came again would start the same list again, and so on without an end. -/
theorem nodup (linked : Linked next null start nodes) : nodes.Nodup := by
  induction linked with
  | nil => exact List.nodup_nil
  | @cons address nodes nonnull rest ih =>
      apply List.nodup_cons.mpr
      refine ⟨?_, ih⟩
      intro again
      rcases List.append_of_mem again with ⟨passed, remaining, split⟩
      have whole : Linked next null address (address :: nodes) := .cons nonnull rest
      rw [split] at rest
      have suffix := rest.of_append
      have lengths := congrArg List.length (whole.unique suffix)
      simp only [split, List.length_cons, List.length_append] at lengths
      omega

theorem length_lt (linked : Linked next null start nodes) {code : Address → ℕ}
    (injective : Function.Injective code) {bound : ℕ} (code_lt : ∀ address, code address < bound) :
    nodes.length < bound := by
  have distinct : ((null :: nodes).map code).Nodup := by
    apply List.Nodup.map injective
    exact List.nodup_cons.mpr ⟨linked.null_notMem, linked.nodup⟩
  have inside : (null :: nodes).map code ⊆ List.range bound := by
    intro value mem
    rcases List.mem_map.mp mem with ⟨address, _, rfl⟩
    exact List.mem_range.mpr (code_lt address)
  have shorter := (List.subperm_of_subset distinct inside).length_le
  rw [List.length_map, List.length_cons, List.length_range] at shorter
  exact shorter

/-- Following `next` from the start reaches the nodes in their order. -/
theorem getElem?_eq (linked : Linked next null start nodes) {place : ℕ}
    (inside : place < nodes.length) : nodes[place]? = some (next^[place] start) := by
  induction linked generalizing place with
  | nil => simp at inside
  | cons _ _ ih =>
      cases place with
      | zero => rfl
      | succ place =>
          rw [List.getElem?_cons_succ, Function.iterate_succ_apply]
          exact ih (by simpa using inside)

end Linked

end LinkedList
