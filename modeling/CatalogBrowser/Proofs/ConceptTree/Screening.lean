import CatalogBrowser.Proofs.Concept.Flattening
import CatalogBrowser.Proofs.ConceptTree.Construction
import CatalogBrowser.Proofs.ConceptTree.Drawing

/-!
What records that are not shown do to the tree of grouped concepts: nothing, but that the first
record of an identifier decides for all of them whether it is loaded.
-/

namespace CatalogBrowser

namespace ConceptGroups

def keep (grouped : ConceptGroups) (test : Concept → Bool) : ConceptGroups where
  groups := grouped.groups.map fun group => (group.1, group.2.filter test)
  ordered := by
    unfold SourceGroups.Ordered
    exact List.pairwise_map.mpr grouped.ordered

theorem records_keep {test : Concept → Bool}
    (alike : ∀ source concept, test (inheritSource source concept) = test concept)
    (grouped : ConceptGroups) : (grouped.keep test).records = grouped.records.filter test := by
  have tests : ∀ source, test ∘ inheritSource source = test := fun source => funext (alike source)
  simp only [records, keep, List.flatMap_map, List.filter_flatMap, List.filter_map, tests]

def leads (grouped : ConceptGroups) (options : DisplayOptions) (iri : Iri) : Bool :=
  (grouped.records.find? fun concept => concept.iri = iri).any fun first =>
    options.shows first.conceptType

section

variable {grouped : ConceptGroups} {options : DisplayOptions}

theorem shows_of_leads {iri : Iri} {first : Concept} (leads : grouped.leads options iri = true)
    (found : grouped.records.find? (fun concept => concept.iri = iri) = some first) :
    options.shows first.conceptType = true := by
  rwa [ConceptGroups.leads, found, Option.any_some] at leads

theorem leads_of_kept {concept : Concept}
    (kept : concept ∈ firstBy Concept.iri [] grouped.records) :
    grouped.leads options concept.iri = options.shows concept.conceptType := by
  rw [leads, find?_of_mem_firstBy kept, Option.any_some]

theorem firstBy_screened : firstBy Concept.iri [] (grouped.records.filter fun concept =>
      options.shows concept.conceptType && grouped.leads options concept.iri) =
    (firstBy Concept.iri [] grouped.records).filter fun concept =>
      options.shows concept.conceptType && grouped.leads options concept.iri := by
  refine firstBy_filter fun concept _ passes _ first found => ?_
  have leads := (Bool.and_eq_true_iff.mp passes).2
  have same : first.iri = concept.iri := by simpa using List.find?_some found
  rw [shows_of_leads leads found, same, leads]
  rfl

end

end ConceptGroups

namespace ConceptTree

/-! What is drawn depends on the loaded concepts and their links only -/

theorem branchAt?_congr {left right : ConceptTree} (concepts : left.concepts = right.concepts)
    (display : left.display = right.display) (above : List Iri) (iri : Iri) :
    left.branchAt? above iri = right.branchAt? above iri := by
  have finds : left.get? iri = right.get? iri := by rw [get?, get?, concepts]
  cases found : right.get? iri with
  | none => rw [branchAt?_of_missing found, branchAt?_of_missing (finds.trans found)]
  | some concept =>
      rw [branchAt?_of_get? found, branchAt?_of_get? (finds.trans found)]
      by_cases again : iri ∈ above
      · simp only [if_pos again]
      · have below : left.children iri = right.children iri := by rw [children, children, display]
        simp only [if_neg again, below]
        refine congrArg (fun branches => some (Branch.node _ _ _ branches)) ?_
        exact List.filterMap_congr fun child _ =>
          branchAt?_congr concepts display (iri :: above) child
termination_by (unmet right.order above).length
decreasing_by exact unmet_cons_lt (mem_order_of_get? found) again

/-- Trees that cannot be told apart but by the list that they were built from. -/
structure Alike (left right : ConceptTree) : Prop where
  concepts : left.concepts = right.concepts
  hierarchy : left.hierarchy = right.hierarchy
  display : left.display = right.display
  roots : left.roots = right.roots
  view : left.view = right.view

theorem alike_iff {options : DisplayOptions} {left right : List Concept} :
    (ofConcepts left options).Alike (ofConcepts right options) ↔
      loadedOf options left = loadedOf options right := by
  constructor
  · exact Alike.concepts
  · intro same
    have concepts : (ofConcepts left options).concepts = (ofConcepts right options).concepts := same
    have hierarchy :
        (ofConcepts left options).hierarchy = (ofConcepts right options).hierarchy := by
      simp only [ofConcepts, same]
    have display : (ofConcepts left options).display = (ofConcepts right options).display := by
      simp only [ofConcepts, same]
    have roots : (ofConcepts left options).roots = (ofConcepts right options).roots := by
      simp only [ConceptTree.roots, order, parents, concepts, display]
    refine ⟨concepts, hierarchy, display, roots, ?_⟩
    have sources : (ofConcepts left options).sourceOf? = (ofConcepts right options).sourceOf? := by
      funext iri
      simp only [sourceOf?, get?, concepts]
    have layer : (ofConcepts left options).firstLayer = (ofConcepts right options).firstLayer := by
      simp only [firstLayer, rootSources, roots, sources]
      rfl
    have branches : (ofConcepts left options).branchOf? = (ofConcepts right options).branchOf? := by
      have drawn := fun iri => branchAt?_congr concepts display [] iri
      funext node
      cases node with
      | concept iri => exact drawn iri
      | source source => simp only [branchOf?, roots, sources, funext drawn]
    rw [view_eq, view_eq, layer, branches]

/-! Records by their identifiers -/

theorem loadedOf_keep {options : DisplayOptions} {test : Concept → Bool}
    (alike : ∀ source concept, test (ConceptGroups.inheritSource source concept) = test concept)
    (grouped : ConceptGroups) : loadedOf options (grouped.keep test).flatten =
      (firstBy Concept.iri [] (grouped.records.filter test)).filter fun concept =>
        options.shows concept.conceptType := by
  rw [loadedOf, Concept.firstOfEach_eq, ConceptGroups.flatten_eq, ConceptGroups.records_keep alike]
  exact firstBy_eq_self (nodup_map_firstBy.sublist (List.filter_sublist.map _)) (by simp)

theorem loadedOf_flatten (options : DisplayOptions) (grouped : ConceptGroups) :
    loadedOf options grouped.flatten =
      (firstBy Concept.iri [] grouped.records).filter fun concept =>
        options.shows concept.conceptType := by
  have all : grouped.keep (fun _ => true) = grouped := by
    cases grouped
    simp [ConceptGroups.keep]
  simpa [all] using @loadedOf_keep options (fun _ => true) (fun _ _ => rfl) grouped

/-- Removing the records that are not shown keeps the tree if those that share an identifier with a
first one go too. -/
theorem screening_keeps_tree (grouped : ConceptGroups) (options : DisplayOptions) :
    let tree := ofConcepts grouped.flatten options
    let shown := fun concept : Concept => options.shows concept.conceptType
    let leading := fun concept : Concept => grouped.leads options concept.iri
    tree.Alike (ofConcepts
        (grouped.keep fun concept => shown concept && leading concept).flatten options) ∧
      (tree.Alike (ofConcepts (grouped.keep shown).flatten options) ↔
        ∀ concept ∈ grouped.records, shown concept → leading concept) := by
  intro tree shown leading
  constructor
  · rw [alike_iff, loadedOf_flatten, loadedOf_keep fun _ _ => rfl, ConceptGroups.firstBy_screened,
      List.filter_filter]
    refine List.filter_congr fun concept kept => ?_
    rw [ConceptGroups.leads_of_kept kept, Bool.and_self, Bool.and_self]
  · have screened : (firstBy Concept.iri [] (grouped.records.filter shown)).filter shown =
        firstBy Concept.iri [] (grouped.records.filter shown) := by
      rw [List.filter_eq_self]
      intro concept kept
      exact (List.mem_filter.mp (firstBy_sublist.subset kept)).2
    rw [alike_iff, loadedOf_flatten, loadedOf_keep fun _ _ => rfl, screened]
    constructor
    · intro same concept member passes
      have listed : concept.iri ∈ (firstBy Concept.iri [] (grouped.records.filter shown)).map
          Concept.iri := by
        refine mem_map_firstBy.mpr ⟨List.mem_map_of_mem ?_, List.not_mem_nil⟩
        exact List.mem_filter.mpr ⟨member, passes⟩
      rw [← same] at listed
      obtain ⟨leader, kept, sameIri⟩ := List.mem_map.mp listed
      obtain ⟨leaderKept, leaderShown⟩ := List.mem_filter.mp kept
      change grouped.leads options concept.iri = true
      rw [← sameIri]
      exact (ConceptGroups.leads_of_kept leaderKept).trans leaderShown
    · intro leads
      refine (firstBy_filter fun concept member passes _ leader found => ?_).symm
      exact ConceptGroups.shows_of_leads (leads concept member passes) found

/-- A record that is not shown keeps a class with its identifier out of the tree. -/
theorem screening_reveals_later_record :
    let x : Iri := ⟨"X", by decide⟩
    let grouped := (ConceptGroups.empty.insert ⟨"core"⟩
      [{ iri := x, conceptType := .sourceGroup }]).insert ⟨"other"⟩
      [{ iri := x, conceptType := .ontologyClass }]
    let tree := ofConcepts grouped.flatten {}
    let screened := ofConcepts
      (grouped.keep fun concept => ({} : DisplayOptions).shows concept.conceptType).flatten {}
    tree.order = [] ∧ screened.order = [x] ∧ ¬ tree.Alike screened := by
  intro x grouped tree screened
  have empty : tree.order = [] := by decide
  have single : screened.order = [x] := by decide
  refine ⟨empty, single, fun alike => ?_⟩
  have same : tree.order = screened.order := congrArg (List.map Concept.iri) alike.concepts
  simp [empty, single] at same

end ConceptTree

end CatalogBrowser
