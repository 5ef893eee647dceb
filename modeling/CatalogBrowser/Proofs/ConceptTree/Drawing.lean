import CatalogBrowser.ConceptTree.View
import Mathlib.Data.List.Forall2

/-!
Drawing restores the path after every branch, so each branch depends only on the concepts above it,
and shows of its concept what the record and the links say.
-/

namespace CatalogBrowser.ConceptTree

def branchAt? (tree : ConceptTree) (above : List Iri) (iri : Iri) : Option Branch :=
  (tree.drawBranch above iri).val.1

theorem drawBranch_eq (tree : ConceptTree) (above : List Iri) (iri : Iri) :
    (tree.drawBranch above iri).val = (tree.branchAt? above iri, above) :=
  Prod.ext rfl (tree.drawBranch above iri).property

theorem drawBranches_eq (tree : ConceptTree) (above iris : List Iri) :
    (tree.drawBranches above iris).val = (iris.filterMap (tree.branchAt? above), above) := by
  induction iris with
  | nil => simp [drawBranches]
  | cons iri rest ih =>
      rw [drawBranches]
      have drawn := tree.drawBranch_eq above iri
      generalize tree.drawBranch above iri = first at drawn
      rcases first with ⟨⟨branch, between⟩, kept⟩
      obtain ⟨rfl, restored⟩ := Prod.mk.inj drawn
      obtain rfl : above = between := restored.symm
      simp only [ih, List.filterMap_cons]
      cases tree.branchAt? above iri <;> rfl

theorem branchAt?_of_missing {tree : ConceptTree} {iri : Iri} (missing : tree.get? iri = none)
    (above : List Iri) : tree.branchAt? above iri = none := by
  rw [branchAt?, drawBranch]
  split
  · rfl
  · next found => simp [missing] at found

theorem branchAt?_of_get? {tree : ConceptTree} {iri : Iri} {concept : Concept}
    (found : tree.get? iri = some concept) (above : List Iri) :
    tree.branchAt? above iri = some (.node iri.text concept.shownLabel concept.conceptType
      (if iri ∈ above then []
        else (tree.children iri).filterMap (tree.branchAt? (iri :: above)))) := by
  rw [branchAt?, drawBranch]
  split
  · next missing => simp [found] at missing
  · next other same =>
    obtain rfl : concept = other := Option.some.inj (found.symm.trans same)
    split
    · simp
    · next fresh =>
      have drawn := tree.drawBranches_eq (iri :: above) (tree.children iri)
      generalize tree.drawBranches (iri :: above) (tree.children iri) = below at drawn
      rcases below with ⟨⟨branches, after⟩, kept⟩
      obtain ⟨rfl, rfl⟩ := Prod.mk.inj drawn
      simp

def branchOf? (tree : ConceptTree) : DisplayNode → Option Branch
  | .source source =>
    some (.node source.groupId source.name .sourceGroup
      ((tree.roots.filter fun iri => tree.sourceOf? iri = some source).filterMap
        (tree.branchAt? [])))
  | .concept iri => tree.branchAt? [] iri

theorem drawNode_eq (tree : ConceptTree) (node : DisplayNode) :
    tree.drawNode [] node = (tree.branchOf? node, []) := by
  cases node with
  | concept iri => exact tree.drawBranch_eq [] iri
  | source source =>
      have members : (tree.nodesBelow (.source source)).filterMap DisplayNode.iri? =
          tree.roots.filter fun iri => tree.sourceOf? iri = some source := by
        rw [nodesBelow, List.filterMap_map]
        exact List.filterMap_some
      simp only [drawNode, members, tree.drawBranches_eq, branchOf?]

theorem foldl_drawNext (tree : ConceptTree) (nodes : List DisplayNode) (drawn : List Branch) :
    nodes.foldl tree.drawNext (drawn, []) = (drawn ++ nodes.filterMap tree.branchOf?, []) := by
  induction nodes generalizing drawn with
  | nil => simp
  | cons node rest ih =>
      rw [List.foldl_cons, drawNext, tree.drawNode_eq, ih, List.append_assoc,
        List.filterMap_cons]
      cases tree.branchOf? node <;> rfl

theorem view_eq (tree : ConceptTree) : tree.view = tree.firstLayer.filterMap tree.branchOf? := by
  rw [view, foldl_drawNext, List.nil_append]

/-! What is shown -/

def Shows (tree : ConceptTree) (above : List Iri) : DisplayNode → Branch → Prop
  | .source source, branch =>
    branch.id = source.groupId ∧ branch.label = source.name ∧
      branch.conceptType = .sourceGroup ∧
      branch.children.map Branch.id = (tree.nodesBelow (.source source)).map DisplayNode.text
  | .concept iri, branch => ∃ concept, tree.get? iri = some concept ∧
      branch.id = iri.text ∧ branch.label = concept.shownLabel ∧
      branch.conceptType = concept.conceptType ∧
      branch.children.map Branch.id = if iri ∈ above then []
        else (tree.nodesBelow (.concept iri)).map DisplayNode.text

theorem get?_of_mem_order {tree : ConceptTree} {iri : Iri} (member : iri ∈ tree.order) :
    ∃ concept, tree.get? iri = some concept := by
  obtain ⟨concept, loaded, same⟩ := List.mem_map.mp member
  refine Option.isSome_iff_exists.mp ?_
  rw [get?, List.find?_isSome]
  exact ⟨concept, loaded, by simpa using same⟩

section

variable {tree : ConceptTree}

theorem mem_order_of_mem_roots {root : Iri} (member : root ∈ tree.roots) : root ∈ tree.order :=
  List.mem_of_mem_filter member

theorem branchAt?_eq_some {above : List Iri} {iri : Iri} {branch : Branch}
    (drawn : tree.branchAt? above iri = some branch) :
    ∃ concept, tree.get? iri = some concept ∧
      branch = .node iri.text concept.shownLabel concept.conceptType (if iri ∈ above then []
        else (tree.children iri).filterMap (tree.branchAt? (iri :: above))) := by
  cases found : tree.get? iri with
  | none => simp [branchAt?_of_missing found] at drawn
  | some concept =>
      rw [branchAt?_of_get? found, Option.some.injEq] at drawn
      exact ⟨concept, rfl, drawn.symm⟩

theorem id_of_branchAt? {above : List Iri} {iri : Iri} {branch : Branch}
    (drawn : tree.branchAt? above iri = some branch) : branch.id = iri.text := by
  obtain ⟨concept, _, rfl⟩ := branchAt?_eq_some drawn
  rfl

theorem exists_branchAt? {iri : Iri} (member : iri ∈ tree.order) (above : List Iri) :
    ∃ branch, tree.branchAt? above iri = some branch := by
  obtain ⟨concept, found⟩ := get?_of_mem_order member
  exact ⟨_, branchAt?_of_get? found above⟩

theorem map_id_branches {iris : List Iri} (inside : ∀ iri ∈ iris, iri ∈ tree.order)
    (above : List Iri) :
    (iris.filterMap (tree.branchAt? above)).map Branch.id = iris.map Iri.text := by
  induction iris with
  | nil => rfl
  | cons iri rest ih =>
      obtain ⟨branch, drawn⟩ := exists_branchAt? (inside iri (by simp)) above
      rw [List.filterMap_cons_some drawn, List.map_cons, List.map_cons,
        id_of_branchAt? drawn, ih fun other member => inside other (by simp [member])]

theorem shows_of_branchAt?
    (inside : ∀ iri child, child ∈ tree.children iri → child ∈ tree.order)
    {above : List Iri} {iri : Iri} {branch : Branch}
    (drawn : tree.branchAt? above iri = some branch) : tree.Shows above (.concept iri) branch := by
  obtain ⟨concept, found, rfl⟩ := branchAt?_eq_some drawn
  refine ⟨concept, found, rfl, rfl, rfl, ?_⟩
  by_cases again : iri ∈ above
  · simp [Branch.children, again]
  · simp only [Branch.children, again, if_false, map_id_branches (inside iri), nodesBelow,
      List.map_map]
    rfl

theorem children_eq_nil_of_shows {above : List Iri} {iri : Iri} {branch : Branch}
    (shows : tree.Shows above (.concept iri) branch) :
    branch.children = [] ↔ tree.children iri = [] ∨ iri ∈ above := by
  obtain ⟨_, _, _, _, _, ids⟩ := shows
  rw [← List.map_eq_nil_iff, ids]
  by_cases again : iri ∈ above
  · simp [again]
  · simp [again, nodesBelow]

theorem exists_branchOf? (inside : ∀ iri child, child ∈ tree.children iri → child ∈ tree.order)
    {node : DisplayNode} (listed : node ∈ tree.firstLayer) :
    ∃ branch, tree.branchOf? node = some branch ∧ tree.Shows [] node branch := by
  cases node with
  | source source =>
      refine ⟨_, rfl, rfl, rfl, rfl, ?_⟩
      rw [Branch.children, map_id_branches, nodesBelow, List.map_map]
      · rfl
      · exact fun iri member => mem_order_of_mem_roots (List.mem_of_mem_filter member)
  | concept iri =>
      have root : iri ∈ tree.roots := by
        unfold firstLayer at listed
        split at listed
        · simp only [List.mem_append, List.mem_map, reduceCtorEq, and_false, exists_false,
            false_or, DisplayNode.concept.injEq, exists_eq_right] at listed
          exact List.mem_of_mem_filter listed
        · simpa using listed
      obtain ⟨branch, drawn⟩ := exists_branchAt? (mem_order_of_mem_roots root) []
      exact ⟨branch, drawn, shows_of_branchAt? inside drawn⟩

theorem view_shows (inside : ∀ iri child, child ∈ tree.children iri → child ∈ tree.order) :
    List.Forall₂ (tree.Shows []) tree.firstLayer tree.view := by
  have shown := fun node => @exists_branchOf? tree inside node
  rw [view_eq]
  generalize tree.firstLayer = nodes at shown
  induction nodes with
  | nil => exact List.Forall₂.nil
  | cons node rest ih =>
      obtain ⟨branch, drawn, shows⟩ := shown node (by simp)
      rw [List.filterMap_cons_some drawn]
      exact List.Forall₂.cons shows (ih fun other listed => shown other (by simp [listed]))

end

end CatalogBrowser.ConceptTree
