import CatalogBrowser.Proofs.ConceptTree.Construction
import CatalogBrowser.Proofs.ConceptTree.Drawing

/-!
The neighbourhood of a loaded concept: the records of its parents and children, and of those that
share a parent with it.
-/

namespace CatalogBrowser.ConceptTree

section

variable {tree : ConceptTree}

theorem mem_resolve {iris : List Iri} {concept : Concept} :
    concept ∈ tree.resolve iris ↔ concept.iri ∈ iris ∧ tree.get? concept.iri = some concept := by
  rw [resolve, List.mem_filterMap]
  constructor
  · rintro ⟨iri, listed, found⟩
    rw [iri_of_get? found]
    exact ⟨listed, found⟩
  · rintro ⟨listed, found⟩
    exact ⟨concept.iri, listed, found⟩

theorem eq_of_neighbourhood? {iri : Iri} {hierarchy : Neighbourhood}
    (found : tree.neighbourhood? iri = some hierarchy) :
    tree.get? iri = some hierarchy.concept ∧ hierarchy.concept.iri = iri ∧
      hierarchy.parents = tree.resolve (tree.statedParents iri) ∧
      hierarchy.children = tree.resolve (tree.statedChildren iri) ∧
      hierarchy.siblings = tree.resolve (tree.statedSiblings iri) := by
  obtain ⟨concept, held, rfl⟩ := Option.map_eq_some_iff.mp found
  exact ⟨held, iri_of_get? held, rfl, rfl, rfl⟩

theorem map_iri_resolve {iris : List Iri} (inside : ∀ iri ∈ iris, iri ∈ tree.order) :
    (tree.resolve iris).map Concept.iri = iris := by
  induction iris with
  | nil => rfl
  | cons iri rest ih =>
      obtain ⟨concept, found⟩ := get?_of_mem_order (inside iri List.mem_cons_self)
      rw [resolve, List.filterMap_cons_some found, List.map_cons, iri_of_get? found, ← resolve,
        ih fun other member => inside other (List.mem_cons_of_mem _ member)]

theorem head?_resolve {iris : List Iri} {concept : Concept}
    (first : iris.head? = some concept.iri) (found : tree.get? concept.iri = some concept) :
    (tree.resolve iris).head? = some concept := by
  obtain ⟨rest, rfl⟩ := List.head?_eq_some_iff.mp first
  rw [resolve, List.filterMap_cons_some found, List.head?_cons]

end

section

variable {input : List Concept} {options : DisplayOptions}

theorem mem_statedSiblings {iri other : Iri} :
    other ∈ (ofConcepts input options).statedSiblings iri ↔ other ≠ iri ∧
      ∃ parent, parent ∈ (ofConcepts input options).statedParents iri ∧
        parent ∈ (ofConcepts input options).statedParents other := by
  have linked := statedLinks_wellLinked input options
  rw [statedSiblings, mem_distinct, List.mem_filter, List.mem_flatMap, decide_eq_true_eq, and_comm]
  simp only [linked.converse]

theorem statedParents_inside {iri parent : Iri}
    (listed : parent ∈ (ofConcepts input options).statedParents iri) :
    parent ∈ (ofConcepts input options).order :=
  (statedLinks_wellLinked input options).inside iri parent listed

theorem mem_statedParents_of_get? {above below : Concept}
    (foundAbove : (ofConcepts input options).get? above.iri = some above)
    (foundBelow : (ofConcepts input options).get? below.iri = some below) :
    above.iri ∈ (ofConcepts input options).statedParents below.iri ↔ above.iri ≠ below.iri ∧
      (above.iri ∈ below.parents ∨ below.parents = [] ∧ below.iri ∈ above.children) := by
  have nodup : (ofConcepts input options).order.Nodup := nodup_order_loadedOf options input
  have loadedAbove := List.mem_of_find?_eq_some foundAbove
  have loadedBelow := List.mem_of_find?_eq_some foundBelow
  rw [mem_statedParents, EffectiveParent]
  refine and_congr_right fun _ => ?_
  constructor
  · rintro ⟨parent, member, child, member', sameAbove, sameBelow, stated⟩
    obtain rfl := List.inj_on_of_nodup_map nodup member loadedAbove sameAbove
    obtain rfl := List.inj_on_of_nodup_map nodup member' loadedBelow sameBelow
    exact stated
  · intro stated
    exact ⟨above, loadedAbove, below, loadedBelow, rfl, rfl, stated⟩

theorem mem_parents_of_mem_statedParents {iri : Iri} {below : Concept}
    (found : (ofConcepts input options).get? below.iri = some below) (stated : below.parents ≠ [])
    (listed : iri ∈ (ofConcepts input options).statedParents below.iri) : iri ∈ below.parents := by
  obtain ⟨above, held⟩ := get?_of_mem_order (statedParents_inside listed)
  obtain rfl : above.iri = iri := iri_of_get? held
  obtain ⟨_, states | ⟨nothing, _⟩⟩ := (mem_statedParents_of_get? held found).mp listed
  · exact states
  · exact absurd nothing stated

end

end CatalogBrowser.ConceptTree
