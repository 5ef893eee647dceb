import CatalogBrowser.Proofs.Lineage.Assembly
import CatalogBrowser.Proofs.ConceptTree.Unfolding
import Mathlib.Data.List.Forall2

/-!
Who stands where around a class or concept: its parents, its children and its siblings, everyone
once and in one part, and what each of them shows.
-/

namespace CatalogBrowser

theorem forall₂_mapIdx {α β γ : Type} {related : β → γ → Prop} {first : Nat → α → β}
    {second : Nat → α → γ} (each : ∀ index item, related (first index item) (second index item))
    (items : List α) : List.Forall₂ related (items.mapIdx first) (items.mapIdx second) := by
  rw [List.mapIdx_eq_zipIdx_map, List.mapIdx_eq_zipIdx_map, List.forall₂_map_left_iff,
    List.forall₂_map_right_iff, List.forall₂_same]
  exact fun numbered _ => each numbered.2 numbered.1

/-- What an id of a part says before the identifier of the concept. -/
def LineageRole.idStem : LineageRole → String
  | .focus | .parent | .child | .sibling => ""
  | .parentProperty => "parent-prop-"
  | .childProperty => "child-prop-"
  | .domain => "domain-"
  | .range | .datatype => "range-"

namespace Lineage

/-! Who stands around -/

def parentsOf (hierarchy : Neighbourhood) : List Iri :=
  ((hierarchy.parents.map Concept.iri ++ hierarchy.concept.parents).filter fun iri =>
    iri ≠ hierarchy.concept.iri).eraseDups

/-- The children of the payload and then the stated ones, where they are not parents too. -/
def childrenOf (hierarchy : Neighbourhood) : List Iri :=
  ((hierarchy.children.map Concept.iri ++ hierarchy.concept.children).filter fun iri =>
    iri ≠ hierarchy.concept.iri ∧ iri ∉ parentsOf hierarchy).eraseDups

/-- The siblings of the payload that play no other part, with repeats. -/
def siblingsOf (hierarchy : Neighbourhood) : List Iri :=
  (hierarchy.siblings.map Concept.iri).filter fun iri =>
    iri ≠ hierarchy.concept.iri ∧ iri ∉ parentsOf hierarchy ∧ iri ∉ childrenOf hierarchy

structure Place where
  iri : Iri
  role : LineageRole
  position : Position

def Place.id (place : Place) : String := place.role.idStem ++ place.iri.text

def parentPlace (hierarchy : Neighbourhood) (layout : Geometry) (index : Nat) (iri : Iri) :
    Place where
  iri
  role := .parent
  position := ⟨spread layout.centerX index (parentsOf hierarchy).length layout.horizontalSpacing,
    layout.centerY - layout.verticalSpacing⟩

def childPlace (hierarchy : Neighbourhood) (layout : Geometry) (index : Nat) (iri : Iri) :
    Place where
  iri
  role := .child
  position := ⟨spread layout.centerX index (childrenOf hierarchy).length layout.horizontalSpacing,
    layout.centerY + layout.verticalSpacing⟩

/-- A sibling stands where its first record stands among the siblings. -/
def siblingPlace (hierarchy : Neighbourhood) (layout : Geometry) (iri : Iri) : Place where
  iri
  role := .sibling
  position := ⟨layout.centerX + layout.siblingOffset +
    Float.ofNat ((siblingsOf hierarchy).idxOf iri) * layout.horizontalSpacing, layout.centerY⟩

def placesOf (hierarchy : Neighbourhood) (layout : Geometry) : List Place :=
  ⟨hierarchy.concept.iri, .focus, ⟨layout.centerX, layout.centerY⟩⟩ ::
    ((parentsOf hierarchy).mapIdx (parentPlace hierarchy layout) ++
      (childrenOf hierarchy).mapIdx (childPlace hierarchy layout) ++
      (siblingsOf hierarchy).eraseDups.map (siblingPlace hierarchy layout))

/-- A node shows what the first record of its identifier says, in the payload or else in the
lookup; without a record it is a placeholder. -/
structure Depicts (hierarchy : Neighbourhood) (lookup : ConceptFinder) (place : Place)
    (node : LineageNode) : Prop where
  id : node.id = place.id
  role : node.role = place.role
  position : node.position = place.position
  conceptIri : node.conceptIri = if place.id = place.iri.text then none else some place.iri
  known : ∀ concept, (hierarchy.find? place.iri).or (lookup place.iri) = some concept →
    node.label = concept.shownLabel ∧ node.conceptType = some concept.conceptType ∧
      node.placeholder = false
  unknown : (hierarchy.find? place.iri).or (lookup place.iri) = none →
    node.label = place.iri.localName ∧ node.conceptType = none ∧ node.placeholder = true

theorem ids_of_depicted {α : Type} {hierarchy : Neighbourhood} {lookup : ConceptFinder}
    {places : List Place} {parts : List α} {node : α → LineageNode}
    (depicted : List.Forall₂ (fun place part => Depicts hierarchy lookup place (node part))
      places parts) :
    parts.map (fun part => (node part).id) = places.map Place.id := by
  induction depicted with
  | nil => rfl
  | cons first _ ih => rw [List.map_cons, List.map_cons, ih, first.id]

namespace Setting

section

variable {setting : Setting}

theorem node_depicts {iri : Iri} {role : LineageRole} {id : String} (position : Position)
    (named : id = role.idStem ++ iri.text) :
    Depicts setting.hierarchy setting.lookup ⟨iri, role, position⟩
      (setting.node iri id role position.x position.y) := by
  refine ⟨?_, setting.node_role .., ?_, ?_, ?_, ?_⟩
  · rw [node_id, named, Place.id]
  · unfold node
    dsimp only
    split <;> rfl
  · rw [conceptIri_node, named, Place.id]
  · intro concept record
    simp [node, record]
  · intro record
    simp [node, record]

theorem start_nodes (setting : Setting) : setting.start.nodes =
    [setting.node setting.focal.iri (LineageRole.focus.idStem ++ setting.focal.iri.text) .focus
      setting.layout.centerX setting.layout.centerY] := by
  have record : setting.hierarchy.find? setting.focal.iri = some setting.focal := by
    simp [Neighbourhood.find?, Neighbourhood.all, focal]
  simp [start, node, record, LineageRole.idStem, focusId]

theorem focus_depicted (setting : Setting) :
    List.Forall₂ (Depicts setting.hierarchy setting.lookup)
      [⟨setting.focal.iri, .focus, ⟨setting.layout.centerX, setting.layout.centerY⟩⟩]
      setting.start.nodes := by
  rw [start_nodes]
  exact .cons (node_depicts _ rfl) .nil

theorem classParents_eq : setting.classParents = parentsOf setting.hierarchy := by
  rw [classParents, neighbours, distinct_eq_eraseDups, parentsOf]
  simp only [List.mem_singleton, focal]

theorem classChildren_eq : setting.classChildren = childrenOf setting.hierarchy := by
  rw [classChildren, neighbours, distinct_eq_eraseDups, childrenOf, classParents_eq]
  refine congrArg List.eraseDups (List.filter_congr fun iri _ => decide_eq_decide.mpr ?_)
  rw [List.mem_append, List.mem_singleton, not_or, and_comm]
  rfl

theorem map_classSiblings :
    setting.classSiblings.map Concept.iri = siblingsOf setting.hierarchy := by
  rw [classSiblings, siblingsOf, List.filter_map, classParents_eq, classChildren_eq]
  refine congrArg (List.map Concept.iri) (List.filter_congr fun sibling _ => ?_)
  refine decide_eq_decide.mpr ?_
  rw [List.mem_append, List.mem_append, List.mem_singleton, not_or, not_or, and_comm (b := _ ≠ _),
    and_assoc]
  rfl

theorem nodup_neighbours (payload : List Concept) (stated excluded : List Iri) :
    (neighbours payload stated excluded).Nodup := nodup_distinct _

theorem notMem_of_mem_neighbours {payload : List Concept} {stated excluded : List Iri} {iri : Iri}
    (member : iri ∈ neighbours payload stated excluded) : iri ∉ excluded := by
  simpa using (List.mem_filter.mp (mem_distinct.mp member)).2

theorem partIds_parents : (setting.classParents.mapIdx fun index iri =>
    setting.parentPart iri index).map LineageGraph.partId = setting.classParents.map Iri.text :=
  map_mapIdx_of_named (fun index iri => partId_parentPart iri index) _

theorem partIds_children : (setting.classChildren.mapIdx fun index iri =>
    setting.childPart iri index).map LineageGraph.partId = setting.classChildren.map Iri.text :=
  map_mapIdx_of_named (fun index iri => partId_childPart iri index) _

theorem added_of_class (ordinary : setting.focal.isProperty = false) :
    setting.added = setting.classParents.mapIdx (fun index iri => setting.parentPart iri index) ++
      (setting.classChildren.mapIdx (fun index iri => setting.childPart iri index) ++
      (firstBy Concept.iri [] setting.classSiblings).map fun sibling =>
        setting.siblingPart sibling
          ((setting.classSiblings.map Concept.iri).idxOf sibling.iri)) := by
  have focus : [setting.focusId] = [setting.focal.iri].map Iri.text := rfl
  have parents := firstBy_eq_self_of_names [setting.focal.iri] Iri.text_injective partIds_parents
    (nodup_neighbours ..) fun _ => notMem_of_mem_neighbours
  have children := firstBy_eq_self_of_names ([setting.focal.iri] ++ setting.classParents)
    Iri.text_injective partIds_children (nodup_neighbours ..) fun iri member => by
      have apart := notMem_of_mem_neighbours member
      rwa [List.mem_append, or_comm, ← List.mem_append]
  have numbered := firstBy_mapIdx Concept.iri Iri.text_injective
    (fun index sibling => setting.siblingPart sibling index)
    (fun index sibling => partId_siblingPart sibling index)
    ([setting.focal.iri] ++ setting.classParents ++ setting.classChildren) setting.classSiblings
  have siblings : firstBy Concept.iri
      ([setting.focal.iri] ++ setting.classParents ++ setting.classChildren)
        setting.classSiblings = firstBy Concept.iri [] setting.classSiblings := by
    refine firstBy_congr fun sibling member => ?_
    have apart := (List.mem_filter.mp member).2
    simp only [decide_eq_true_eq, List.mem_append, List.mem_singleton, not_or] at apart
    simp [apart]
  rw [added, parts, ordinary, if_neg Bool.false_ne_true, classParts, focus, List.append_assoc,
    firstBy_append, parents, partIds_parents, ← List.map_append, firstBy_append, children,
    partIds_children, ← List.map_append, numbered, siblings]

theorem parents_depicted (setting : Setting) :
    List.Forall₂ (Depicts setting.hierarchy setting.lookup)
      ((parentsOf setting.hierarchy).mapIdx (parentPlace setting.hierarchy setting.layout))
      ((setting.classParents.mapIdx fun index iri =>
        setting.parentPart iri index).map Prod.fst) := by
  rw [List.forall₂_map_right_iff, classParents_eq]
  refine forall₂_mapIdx (fun index iri => ?_) _
  rw [parentPlace, ← classParents_eq]
  exact node_depicts _ String.empty_append.symm

theorem children_depicted (setting : Setting) :
    List.Forall₂ (Depicts setting.hierarchy setting.lookup)
      ((childrenOf setting.hierarchy).mapIdx (childPlace setting.hierarchy setting.layout))
      ((setting.classChildren.mapIdx fun index iri =>
        setting.childPart iri index).map Prod.fst) := by
  rw [List.forall₂_map_right_iff, classChildren_eq]
  refine forall₂_mapIdx (fun index iri => ?_) _
  rw [childPlace, ← classChildren_eq]
  exact node_depicts _ String.empty_append.symm

theorem siblings_depicted (setting : Setting) :
    List.Forall₂ (Depicts setting.hierarchy setting.lookup)
      ((siblingsOf setting.hierarchy).eraseDups.map (siblingPlace setting.hierarchy setting.layout))
      (((firstBy Concept.iri [] setting.classSiblings).map fun sibling =>
        setting.siblingPart sibling
          ((setting.classSiblings.map Concept.iri).idxOf sibling.iri)).map Prod.fst) := by
  have names : (siblingsOf setting.hierarchy).eraseDups =
      (firstBy Concept.iri [] setting.classSiblings).map Concept.iri := by
    have first := map_firstBy id Concept.iri [] setting.classSiblings
    rw [map_classSiblings, firstBy_id] at first
    simpa using first.symm
  rw [names, List.map_map, List.map_map, List.forall₂_map_left_iff, List.forall₂_map_right_iff,
    List.forall₂_same]
  intro sibling _
  rw [Function.comp_apply, siblingPlace, ← map_classSiblings]
  exact node_depicts _ String.empty_append.symm

end

end Setting

end Lineage

end CatalogBrowser
