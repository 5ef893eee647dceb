import CatalogBrowser.ConceptTree.Node

/-!
The way up from a concept, and the nodes that must be expanded for it to be seen.
-/

namespace CatalogBrowser.ConceptTree

def unmet (all met : List Iri) : List Iri := all.filter fun iri => !decide (iri ∈ met)

theorem unmet_cons_le (all met : List Iri) (iri : Iri) :
    (unmet all (iri :: met)).length ≤ (unmet all met).length := by
  unfold unmet
  rw [← List.countP_eq_length_filter, ← List.countP_eq_length_filter]
  refine List.countP_mono_left fun other _ fresh => ?_
  simp only [List.mem_cons, not_or, Bool.not_eq_eq_eq_not, Bool.not_true,
    decide_eq_false_iff_not] at fresh ⊢
  exact fresh.2

theorem unmet_cons_lt {all met : List Iri} {iri : Iri} (member : iri ∈ all) (fresh : iri ∉ met) :
    (unmet all (iri :: met)).length < (unmet all met).length := by
  have smaller : unmet all (iri :: met) = (unmet all met).filter fun other => other ≠ iri := by
    simp only [unmet, List.filter_filter, List.mem_cons]
    refine List.filter_congr fun other _ => ?_
    by_cases same : other = iri <;> by_cases seen : other ∈ met <;> simp [same, seen]
  rw [smaller]
  refine List.length_filter_lt_length_iff_exists.mpr ⟨iri, ?_, by simp⟩
  simp [unmet, member, fresh]

def placed (tree : ConceptTree) : List Iri := tree.display.parents.map Prod.fst

theorem parents_eq_nil {tree : ConceptTree} {iri : Iri} (missing : iri ∉ tree.placed) :
    tree.parents iri = [] := by
  have absent : tree.display.parents.lookup iri = none := by
    rw [List.lookup_eq_none_iff]
    intro row member
    have different : iri ≠ row.1 := fun same => missing (List.mem_map.mpr ⟨row, member, same.symm⟩)
    simpa using different
  simp [parents, LinkTable.under, absent]

/-- Walks up breadth first from the concepts of `queue` and lists those that were not met. -/
def climb (tree : ConceptTree) (met : List Iri) : List Iri → List Iri
  | [] => []
  | iri :: rest =>
    if iri ∈ met then tree.climb met rest
    else iri :: tree.climb (iri :: met) (rest ++ tree.parents iri)
termination_by queue => ((unmet tree.placed met).length, queue.length)
decreasing_by
  · exact Prod.Lex.right _ (by simp)
  · next fresh =>
    by_cases placed : iri ∈ tree.placed
    · exact Prod.Lex.left _ _ (unmet_cons_lt placed fresh)
    · rw [parents_eq_nil placed]
      rcases Nat.lt_or_eq_of_le (unmet_cons_le tree.placed met iri) with less | same
      · exact Prod.Lex.left _ _ less
      · rw [same]
        exact Prod.Lex.right _ (by simp)

def ancestors (tree : ConceptTree) (iri : Iri) : List Iri :=
  tree.climb [iri] (tree.parents iri)

def nodesAbove (tree : ConceptTree) (iri : Iri) : List DisplayNode :=
  (tree.ancestors iri).map .concept ++
    if tree.options.groupBySource then
      ((tree.ancestors iri ++ [iri]).filter fun candidate => candidate ∈ tree.roots).filterMap
        fun root => (tree.sourceOf? root).map .source
    else []

def nodesToExpand (tree : ConceptTree) (iri : Iri) : NodeSet :=
  NodeSet.insertAll [] (tree.nodesAbove iri)

end CatalogBrowser.ConceptTree
