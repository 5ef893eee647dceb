import CatalogBrowser.ConceptTree.Ancestors
import Mathlib.Logic.Relation

/-!
The walk up from a concept meets all that is above it: its transitive displayed parents, and with
grouping by source the groups of the roots among them.
-/

namespace CatalogBrowser.ConceptTree

/-- One concept is above another: it can be reached by going up from parent to parent. -/
def Above (tree : ConceptTree) (iri above : Iri) : Prop :=
  Relation.TransGen (fun child parent => parent ∈ tree.parents child) iri above

section

variable {tree : ConceptTree} {met queue : List Iri} {iri other : Iri}

theorem notMem_of_mem_climb (climbed : other ∈ tree.climb met queue) : other ∉ met := by
  fun_induction climb tree met queue with
  | case1 met => simp at climbed
  | case2 met first rest seen ih => exact ih climbed
  | case3 met first rest fresh ih =>
      rcases List.mem_cons.mp climbed with rfl | later
      · exact fresh
      · exact fun seen => ih later (List.mem_cons_of_mem _ seen)

theorem mem_climb_of_mem_queue (queued : other ∈ queue) :
    other ∈ met ∨ other ∈ tree.climb met queue := by
  fun_induction climb tree met queue with
  | case1 met => simp at queued
  | case2 met first rest seen ih =>
      rcases List.mem_cons.mp queued with rfl | later
      · exact Or.inl seen
      · exact ih later
  | case3 met first rest fresh ih =>
      rcases List.mem_cons.mp queued with rfl | later
      · exact Or.inr List.mem_cons_self
      · rcases ih (List.mem_append_left _ later) with seen | climbed
        · rcases List.mem_cons.mp seen with rfl | before
          · exact Or.inr List.mem_cons_self
          · exact Or.inl before
        · exact Or.inr (List.mem_cons_of_mem _ climbed)

/-- What a walk up lists is closed under parents, but for what was met before. -/
theorem parents_mem_climb (climbed : iri ∈ tree.climb met queue)
    (parent : other ∈ tree.parents iri) :
    other ∈ met ∨ other ∈ tree.climb met queue := by
  fun_induction climb tree met queue with
  | case1 met => simp at climbed
  | case2 met first rest seen ih => exact ih climbed
  | case3 met first rest fresh ih =>
      -- `first` is met from here on, and listed itself
      have reached : other ∈ first :: met ∨
          other ∈ tree.climb (first :: met) (rest ++ tree.parents first) := by
        rcases List.mem_cons.mp climbed with rfl | later
        · exact mem_climb_of_mem_queue (List.mem_append_right _ parent)
        · exact ih later
      rcases reached with seen | later
      · rcases List.mem_cons.mp seen with rfl | before
        · exact Or.inr List.mem_cons_self
        · exact Or.inl before
      · exact Or.inr (List.mem_cons_of_mem _ later)

theorem climb_above (below : ∀ start ∈ queue, tree.Above iri start)
    (climbed : other ∈ tree.climb met queue) : tree.Above iri other := by
  fun_induction climb tree met queue with
  | case1 met => simp at climbed
  | case2 met first rest seen ih =>
      exact ih (fun start queued => below start (List.mem_cons_of_mem _ queued)) climbed
  | case3 met first rest fresh ih =>
      have firstAbove := below first List.mem_cons_self
      rcases List.mem_cons.mp climbed with rfl | later
      · exact firstAbove
      · refine ih ?_ later
        intro start queued
        rcases List.mem_append.mp queued with old | parent
        · exact below start (List.mem_cons_of_mem _ old)
        · exact firstAbove.tail parent

theorem eq_or_mem_ancestors (above : tree.Above iri other) :
    other = iri ∨ other ∈ tree.ancestors iri := by
  unfold ancestors
  induction above with
  | @single parent listed =>
      have reached := @mem_climb_of_mem_queue tree [iri] (tree.parents iri) parent listed
      simpa using reached
  | @tail middle parent _ listed ih =>
      have reached : parent ∈ [iri] ∨ parent ∈ tree.climb [iri] (tree.parents iri) := by
        rcases ih with rfl | climbed
        · exact mem_climb_of_mem_queue listed
        · exact parents_mem_climb climbed listed
      simpa using reached

theorem mem_ancestors : other ∈ tree.ancestors iri ↔ other ≠ iri ∧ tree.Above iri other := by
  constructor
  · intro climbed
    have unmet := notMem_of_mem_climb climbed
    have above := climb_above (fun start parent => Relation.TransGen.single parent) climbed
    exact ⟨by simpa using unmet, above⟩
  · rintro ⟨different, above⟩
    exact (eq_or_mem_ancestors above).resolve_left different

theorem mem_nodesToExpand {node : DisplayNode} : node ∈ tree.nodesToExpand iri ↔
    (∃ above, node = .concept above ∧ above ≠ iri ∧ tree.Above iri above) ∨
      tree.options.groupBySource = true ∧ ∃ root ∈ tree.roots, (root = iri ∨ tree.Above iri root) ∧
        ∃ source, tree.sourceOf? root = some source ∧ node = .source source := by
  have rooted : ∀ root, root ∈ tree.ancestors iri ++ [iri] ↔ root = iri ∨ tree.Above iri root := by
    intro root
    rw [List.mem_append, List.mem_singleton, mem_ancestors]
    by_cases same : root = iri <;> simp [same]
  have concepts : node ∈ (tree.ancestors iri).map DisplayNode.concept ↔
      ∃ above, node = .concept above ∧ above ≠ iri ∧ tree.Above iri above := by
    rw [List.mem_map]
    constructor
    · rintro ⟨above, listed, rfl⟩
      exact ⟨above, rfl, mem_ancestors.mp listed⟩
    · rintro ⟨above, rfl, different⟩
      exact ⟨above, mem_ancestors.mpr different, rfl⟩
  rw [nodesToExpand, NodeSet.mem_insertAll, nodesAbove, List.mem_append, concepts]
  simp only [List.not_mem_nil, false_or]
  refine or_congr_right ?_
  cases tree.options.groupBySource with
  | false => simp
  | true =>
      simp only [if_true, true_and, List.mem_filterMap, List.mem_filter, decide_eq_true_eq,
        rooted, Option.map_eq_some_iff]
      constructor
      · rintro ⟨root, ⟨above, isRoot⟩, source, owned, rfl⟩
        exact ⟨root, isRoot, above, source, owned, rfl⟩
      · rintro ⟨root, isRoot, above, source, owned, rfl⟩
        exact ⟨root, ⟨above, isRoot⟩, source, owned, rfl⟩

theorem not_above_of_parents_nil (parents : tree.parents iri = []) : ¬ tree.Above iri other := by
  intro climbs
  obtain ⟨parent, listed, _⟩ := Relation.TransGen.head'_iff.mp climbs
  simp [parents] at listed

theorem nodesToExpand_of_parents_nil (parents : tree.parents iri = [])
    (ungrouped : tree.options.groupBySource = false ∨ iri ∉ tree.order) :
    tree.nodesToExpand iri = [] := by
  rw [List.eq_nil_iff_forall_not_mem]
  intro node member
  rcases mem_nodesToExpand.mp member with ⟨above, _, _, climbs⟩ | ⟨grouped, root, isRoot, here, _⟩
  · exact not_above_of_parents_nil parents climbs
  · rcases here with rfl | climbs
    · rcases ungrouped with plain | missing
      · simp [plain] at grouped
      · exact missing (List.mem_filter.mp isRoot |>.1)
    · exact not_above_of_parents_nil parents climbs

end

end CatalogBrowser.ConceptTree
