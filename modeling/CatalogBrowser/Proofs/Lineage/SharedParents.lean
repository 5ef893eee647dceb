import CatalogBrowser.Proofs.ConceptTree.Neighbourhood
import CatalogBrowser.Proofs.Lineage.Relations

/-!
From which parents the siblings of a loaded concept hang, when the hierarchy comes from the tree.

The tree knows parents from both sides: those that a record states, and for a record that states
none those that state it as a child.  The graph looks at what a record states alone, so a sibling
of the second kind hangs from the first parent of the focus, whether it shares that one or not.
-/

namespace CatalogBrowser

namespace Lineage

open ConceptTree

section

variable {input : List Concept} {options : DisplayOptions} {setting : Setting} {iri : Iri}

theorem exists_classParents_eq
    (found : (ofConcepts input options).neighbourhood? iri = some setting.hierarchy) :
    ∃ others, setting.classParents = (ofConcepts input options).statedParents iri ++ others := by
  obtain ⟨_, focal, parents, _⟩ := eq_of_neighbourhood? found
  have linked := statedLinks_wellLinked input options
  have loaded : setting.hierarchy.parents.map Concept.iri =
      (ofConcepts input options).statedParents iri := by
    rw [parents]
    exact map_iri_resolve fun _ => statedParents_inside
  have kept : ((ofConcepts input options).statedParents iri).filter
      (fun other => other ∉ [setting.focal.iri]) =
        (ofConcepts input options).statedParents iri := by
    refine List.filter_eq_self.mpr fun parent listed => decide_eq_true fun same => ?_
    have own : parent = iri := (List.mem_singleton.mp same).trans focal
    exact linked.irreflexive iri (own ▸ listed)
  rw [Setting.classParents, neighbours, loaded, List.filter_append, kept,
    distinct_append (linked.parents_nodup iri)]
  exact ⟨_, rfl⟩

theorem exists_sibling_of_dashed (ordinary : setting.focal.isProperty = false)
    {edge : LineageEdge} (drawn : edge ∈ setting.graph.edges) (dashed : edge.style = .dashed) :
    ∃ sibling ∈ setting.classSiblings, ∃ parent, setting.sharedParent? sibling = some parent ∧
      edge.source = parent.text ∧ edge.target = sibling.iri.text := by
  rw [Setting.edges_graph] at drawn
  obtain ⟨part, kept, own⟩ := List.mem_filterMap.mp (firstBy_sublist.subset drawn)
  rcases Setting.cases_added_of_class ordinary kept with
    ⟨iri, index, rfl⟩ | ⟨iri, index, rfl⟩ | ⟨sibling, listed, index, rfl⟩
  · cases own
    cases dashed
  · cases own
    cases dashed
  · obtain ⟨parent, shared, rfl⟩ := Option.map_eq_some_iff.mp own
    exact ⟨sibling, firstBy_sublist.subset listed, parent, shared, rfl, rfl⟩

theorem ne_of_mem_classSiblings
    (found : (ofConcepts input options).neighbourhood? iri = some setting.hierarchy)
    {sibling : Concept} (aside : sibling ∈ setting.classSiblings) {parent : Iri}
    (listed : parent ∈ (ofConcepts input options).statedParents iri) : parent ≠ sibling.iri := by
  rintro rfl
  obtain ⟨others, row⟩ := exists_classParents_eq found
  have above : sibling.iri ∈ setting.classParents := by
    rw [row]
    exact List.mem_append_left _ listed
  have apart := (List.mem_filter.mp aside).2
  simp [above] at apart

/-- A sibling hangs from a parent that the tree knows: from one that it states, or from the first
if it states none. -/
theorem sharedParent?_cases
    (found : (ofConcepts input options).neighbourhood? iri = some setting.hierarchy)
    {sibling : Concept} (listed : sibling ∈ setting.hierarchy.siblings) {parent : Iri}
    (shared : setting.sharedParent? sibling = some parent) :
    parent ∈ (ofConcepts input options).statedParents iri ∧
      (sibling.parents ≠ [] → parent ∈ sibling.parents) ∧
      (sibling.parents = [] →
        ((ofConcepts input options).statedParents iri).head? = some parent) := by
  obtain ⟨others, row⟩ := exists_classParents_eq found
  obtain ⟨_, _, _, _, siblings⟩ := eq_of_neighbourhood? found
  rw [siblings] at listed
  obtain ⟨related, held⟩ := mem_resolve.mp listed
  obtain ⟨_, common, ofFocus, ofSibling⟩ := mem_statedSiblings.mp related
  rw [Setting.sharedParent?, row, List.find?_append, List.head?_append_of_ne_nil _
    (List.ne_nil_of_mem ofFocus)] at shared
  by_cases silent : sibling.parents = []
  · have nothing : ∀ row : List Iri, row.find? (fun parent => parent ∈ sibling.parents) = none := by
      simp [silent]
    rw [nothing, nothing, Option.none_or, Option.none_or] at shared
    exact ⟨List.mem_of_mem_head? shared, absurd silent, fun _ => shared⟩
  · have commonly : common ∈ sibling.parents :=
      mem_parents_of_mem_statedParents held silent ofSibling
    have first : (((ofConcepts input options).statedParents iri).find? fun parent =>
        parent ∈ sibling.parents).isSome := by
      rw [List.find?_isSome]
      exact ⟨common, ofFocus, decide_eq_true commonly⟩
    rw [Option.or_assoc, Option.or_of_isSome first] at shared
    have states := List.find?_some shared
    exact ⟨List.mem_of_find?_eq_some shared, fun _ => of_decide_eq_true states,
      fun nothing => absurd nothing silent⟩

end

/-- A sibling hangs from a parent of the focus, which is its own parent too exactly if it states
parents or that one states it. -/
theorem siblings_hang_from_parents (input : List Concept) (options : DisplayOptions)
    (layout : Geometry) {iri : Iri} {hierarchy : Neighbourhood}
    (found : (ConceptTree.ofConcepts input options).neighbourhood? iri = some hierarchy)
    (ordinary : hierarchy.concept.isProperty = false) :
    let tree := ConceptTree.ofConcepts input options
    ∀ edge ∈ (graphOf hierarchy tree.get? layout).edges, edge.style = .dashed →
      ∃ parent ∈ hierarchy.parents, ∃ sibling ∈ hierarchy.siblings, ∃ around,
        edge.source = parent.iri.text ∧ edge.target = sibling.iri.text ∧
        tree.neighbourhood? sibling.iri = some around ∧
        (parent ∈ around.parents ↔ sibling.parents ≠ [] ∨ sibling.iri ∈ parent.children) ∧
        (sibling.parents = [] → hierarchy.parents.head? = some parent) := by
  intro tree edge drawn dashed
  let setting : Setting := ⟨hierarchy, tree.get?, layout⟩
  have own : tree.neighbourhood? iri = some setting.hierarchy := found
  have focal : setting.focal.isProperty = false := ordinary
  have listed : edge ∈ setting.graph.edges := drawn
  obtain ⟨_, _, parents, _, siblings⟩ := eq_of_neighbourhood? found
  obtain ⟨sibling, aside, parent, shared, source, target⟩ :=
    exists_sibling_of_dashed focal listed dashed
  have related : sibling ∈ hierarchy.siblings := List.mem_of_mem_filter aside
  obtain ⟨known, states, first⟩ := sharedParent?_cases own related shared
  have held : tree.get? sibling.iri = some sibling := by
    rw [siblings] at related
    exact (mem_resolve.mp related).2
  obtain ⟨above, heldAbove⟩ := get?_of_mem_order (statedParents_inside known)
  obtain rfl : above.iri = parent := iri_of_get? heldAbove
  have member : above ∈ hierarchy.parents := by
    rw [parents]
    exact mem_resolve.mpr ⟨known, heldAbove⟩
  have different : above.iri ≠ sibling.iri := ne_of_mem_classSiblings own aside known
  obtain ⟨around, beside⟩ : ∃ around, tree.neighbourhood? sibling.iri = some around :=
    ⟨_, Option.map_eq_some_iff.mpr ⟨sibling, held, rfl⟩⟩
  obtain ⟨_, _, parentsAround, _⟩ := eq_of_neighbourhood? beside
  refine ⟨above, member, sibling, related, around, source, target, beside, ?_, ?_⟩
  · have both := mem_statedParents_of_get? heldAbove held
    rw [parentsAround, mem_resolve, and_iff_left heldAbove, both, and_iff_right different]
    constructor
    · rintro (stated | ⟨_, stated⟩)
      · exact Or.inl (List.ne_nil_of_mem stated)
      · exact Or.inr stated
    · rintro (stated | stated)
      · exact Or.inl (states stated)
      · by_cases silent : sibling.parents = []
        · exact Or.inr ⟨silent, stated⟩
        · exact Or.inl (states silent)
  · intro silent
    rw [parents]
    exact head?_resolve (first silent) heldAbove

theorem siblings_hang_from_parents_stated :
    let p : Iri := ⟨"P", by decide⟩
    let q : Iri := ⟨"Q", by decide⟩
    let second : Concept := { iri := q, conceptType := .concept }
    let focal : Concept := {
      iri := ⟨"F", by decide⟩
      conceptType := .ontologyClass
      parents := [p, q] }
    let sibling : Concept := {
      iri := ⟨"S", by decide⟩
      conceptType := .ontologyClass
      parents := [q] }
    let tree := ConceptTree.ofConcepts [{ iri := p, conceptType := .concept }, second, focal,
      sibling] {}
    ∃ hierarchy around, tree.neighbourhood? focal.iri = some hierarchy ∧
      hierarchy.concept.isProperty = false ∧
      { source := "Q", target := "S", style := .dashed } ∈
        (graphOf hierarchy tree.get? {}).edges ∧
      tree.neighbourhood? sibling.iri = some around ∧ second ∈ around.parents := by
  intro p q second focal sibling tree
  let hierarchy : Neighbourhood := {
    concept := focal
    parents := [{ iri := p, conceptType := .concept }, second]
    siblings := [sibling] }
  have found : tree.neighbourhood? focal.iri = some hierarchy := by decide
  have drawn : { source := "Q", target := "S", style := .dashed } ∈
      (graphOf hierarchy tree.get? {}).edges := by decide
  obtain ⟨parent, member, other, listed, around, source, _, known, both, _⟩ :=
    siblings_hang_from_parents _ _ _ found rfl _ drawn rfl
  obtain rfl : other = sibling := List.mem_singleton.mp listed
  obtain rfl : parent = second := by
    rcases List.mem_cons.mp member with rfl | last
    · exact absurd source (by decide)
    · exact List.mem_singleton.mp last
  have states : sibling.parents ≠ [] := List.cons_ne_nil q []
  exact ⟨hierarchy, around, found, rfl, drawn, known, both.mpr (Or.inl states)⟩

/-- A sibling that states no parents hangs from the first parent of the focus, although the one
that states it is the second. -/
theorem sibling_hangs_from_unshared_parent :
    let p : Iri := ⟨"P", by decide⟩
    let q : Iri := ⟨"Q", by decide⟩
    let s : Iri := ⟨"S", by decide⟩
    let focal : Concept := {
      iri := ⟨"F", by decide⟩
      conceptType := .ontologyClass
      parents := [p, q] }
    let tree := ConceptTree.ofConcepts [{ iri := p, conceptType := .ontologyClass },
      { iri := q, conceptType := .ontologyClass, children := [s] }, focal,
      { iri := s, conceptType := .ontologyClass }] {}
    ∃ hierarchy around, tree.neighbourhood? focal.iri = some hierarchy ∧
      hierarchy.concept.isProperty = false ∧ tree.neighbourhood? s = some around ∧
      { source := "P", target := "S", style := .dashed } ∈
        (graphOf hierarchy tree.get? {}).edges ∧
      hierarchy.parents.map (fun parent => parent.iri.text) = ["P", "Q"] ∧
      around.parents.map (fun parent => parent.iri.text) = ["Q"] := by
  intro p q s focal tree
  let first : Concept := { iri := p, conceptType := .ontologyClass }
  let second : Concept := { iri := q, conceptType := .ontologyClass, children := [s] }
  let sibling : Concept := { iri := s, conceptType := .ontologyClass }
  let hierarchy : Neighbourhood := {
    concept := focal
    parents := [first, second]
    siblings := [sibling] }
  let around : Neighbourhood := {
    concept := sibling
    parents := [second]
    siblings := [focal] }
  have found : tree.neighbourhood? focal.iri = some hierarchy := by decide
  have beside : tree.neighbourhood? s = some around := by decide
  have drawn : { source := "P", target := "S", style := .dashed } ∈
      (graphOf hierarchy tree.get? {}).edges := by decide
  exact ⟨hierarchy, around, found, rfl, beside, drawn, rfl, rfl⟩

end Lineage

end CatalogBrowser
