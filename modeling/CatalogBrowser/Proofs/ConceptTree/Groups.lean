import CatalogBrowser.Proofs.ConceptTree.Drawing
import Mathlib.Data.String.Basic

/-!
The groups of the first layer: which branches of the displayed tree belong to which source.
-/

namespace CatalogBrowser

/-- The branches of a displayed tree that are in no group, or those in the group of a source. -/
def Branch.inGroup (view : List Branch) : Option SourceId → List Branch
  | none => view.filter fun branch => branch.conceptType ≠ .sourceGroup
  | some source => (view.filter fun branch =>
      branch.conceptType = .sourceGroup ∧ branch.id = source.groupId).flatMap Branch.children

theorem SourceId.groupId_injective : Function.Injective SourceId.groupId := by
  rintro ⟨left⟩ ⟨right⟩ same
  simpa [groupId] using same

namespace ConceptTree

def groupOf? (tree : ConceptTree) (root : Iri) : Option SourceId :=
  if tree.options.groupBySource then tree.sourceOf? root else none

section

variable {tree : ConceptTree}

theorem roots_nodup (nodup : tree.order.Nodup) : tree.roots.Nodup := nodup.filter _

theorem rootSources_sorted (tree : ConceptTree) :
    tree.rootSources.Pairwise fun left right => left.name < right.name := by
  have sorted : tree.rootSources.Pairwise fun left right => left.before right = true := by
    refine pairwise_sortedBy ?_ ?_
    · intro first second third
      simp only [SourceId.before, decide_eq_true_eq]
      exact String.lt_trans
    · rintro ⟨first⟩ _ ⟨second⟩ _ different
      simp only [SourceId.before, decide_eq_false_iff_not, decide_eq_true_eq]
      intro notBefore
      refine lt_of_le_of_ne (not_lt.mp notBefore) fun same => different ?_
      rw [same]
  exact sorted.imp of_decide_eq_true

theorem rootSources_nodup (tree : ConceptTree) : tree.rootSources.Nodup := by
  refine tree.rootSources_sorted.imp fun {left right} less same => ?_
  subst same
  exact lt_irrefl _ less

theorem mem_rootSources {source : SourceId} :
    source ∈ tree.rootSources ↔ ∃ root ∈ tree.roots, tree.sourceOf? root = some source := by
  rw [rootSources, mem_sortedBy, List.mem_filterMap]

theorem firstLayer_grouped (grouping : tree.options.groupBySource = true) :
    tree.firstLayer = tree.rootSources.map .source ++
      (tree.roots.filter fun root => tree.sourceOf? root = none).map .concept := by
  have alone : ∀ root, (tree.sourceOf? root).isNone = decide (tree.sourceOf? root = none) := by
    intro root
    cases tree.sourceOf? root <;> rfl
  simp only [firstLayer, grouping, if_true, alone]

theorem firstLayer_plain (plain : tree.options.groupBySource = false) :
    tree.firstLayer = tree.roots.map .concept := by
  simp only [firstLayer, plain, Bool.false_eq_true, if_false]

theorem conceptType_of_branchAt?
    (ungrouped : ∀ iri concept, tree.get? iri = some concept → concept.conceptType ≠ .sourceGroup)
    {above : List Iri} {iri : Iri} {branch : Branch}
    (drawn : tree.branchAt? above iri = some branch) : branch.conceptType ≠ .sourceGroup := by
  obtain ⟨concept, found, rfl⟩ := branchAt?_eq_some drawn
  exact ungrouped iri concept found

theorem inGroup_append (first second : List Branch) (group : Option SourceId) :
    Branch.inGroup (first ++ second) group =
      Branch.inGroup first group ++ Branch.inGroup second group := by
  cases group <;> simp [Branch.inGroup]

theorem inGroup_cons (branch : Branch) (rest : List Branch) (source : SourceId) :
    Branch.inGroup (branch :: rest) (some source) =
      (if branch.conceptType = .sourceGroup ∧ branch.id = source.groupId then branch.children
        else []) ++ Branch.inGroup rest (some source) := by
  by_cases here : branch.conceptType = .sourceGroup ∧ branch.id = source.groupId
  · simp [Branch.inGroup, here]
  · simp [Branch.inGroup, here]

theorem inGroup_branches
    (ungrouped : ∀ iri concept, tree.get? iri = some concept → concept.conceptType ≠ .sourceGroup)
    (iris : List Iri) (group : Option SourceId) :
    Branch.inGroup (iris.filterMap (tree.branchAt? [])) group =
      if group = none then iris.filterMap (tree.branchAt? []) else [] := by
  have concepts : ∀ branch ∈ iris.filterMap (tree.branchAt? []),
      branch.conceptType ≠ .sourceGroup := by
    intro branch member
    obtain ⟨iri, _, drawn⟩ := List.mem_filterMap.mp member
    exact conceptType_of_branchAt? ungrouped drawn
  cases group with
  | none => simpa [Branch.inGroup] using concepts
  | some source =>
      have none : (iris.filterMap (tree.branchAt? [])).filter (fun branch =>
          branch.conceptType = .sourceGroup ∧ branch.id = source.groupId) = [] := by
        rw [List.filter_eq_nil_iff]
        intro branch member
        simp [concepts branch member]
      rw [Branch.inGroup, none]
      rfl

theorem inGroup_sources (tree : ConceptTree) {sources : List SourceId} (nodup : sources.Nodup)
    (source : SourceId) :
    Branch.inGroup ((sources.map DisplayNode.source).filterMap tree.branchOf?) (some source) =
      if source ∈ sources then
        (tree.roots.filter fun iri => tree.sourceOf? iri = some source).filterMap
          (tree.branchAt? [])
      else [] := by
  induction sources with
  | nil => rfl
  | cons first rest ih =>
      obtain ⟨absent, restNodup⟩ := List.nodup_cons.mp nodup
      simp only [List.map_cons, List.filterMap_cons, branchOf?, inGroup_cons, ih restNodup,
        Branch.conceptType, Branch.id, Branch.children, SourceId.groupId_injective.eq_iff]
      by_cases same : first = source
      · subst same
        simp [absent]
      · simp [same, Ne.symm same]

theorem inGroup_groups (tree : ConceptTree) (group : Option SourceId) :
    Branch.inGroup ((tree.rootSources.map DisplayNode.source).filterMap tree.branchOf?) group =
      match group with
      | none => []
      | some source => (tree.roots.filter fun iri => tree.sourceOf? iri = some source).filterMap
          (tree.branchAt? []) := by
  cases group with
  | none =>
      rw [Branch.inGroup, List.filter_eq_nil_iff]
      intro branch member
      obtain ⟨node, listed, drawn⟩ := List.mem_filterMap.mp member
      obtain ⟨source, _, rfl⟩ := List.mem_map.mp listed
      rw [branchOf?, Option.some.injEq] at drawn
      subst drawn
      simp [Branch.conceptType]
  | some source =>
      rw [tree.inGroup_sources tree.rootSources_nodup]
      split
      · rfl
      · next absent =>
        have unowned : tree.roots.filter (fun iri => tree.sourceOf? iri = some source) = [] := by
          rw [List.filter_eq_nil_iff]
          intro root member
          simpa using fun owned => absent (mem_rootSources.mpr ⟨root, member, owned⟩)
        simp [unowned]

theorem inGroup_view
    (ungrouped : ∀ iri concept, tree.get? iri = some concept → concept.conceptType ≠ .sourceGroup)
    (group : Option SourceId) :
    Branch.inGroup tree.view group =
      (tree.roots.filter fun iri => tree.groupOf? iri = group).filterMap
        (tree.branchAt? []) := by
  have layer : ∀ iris : List Iri, (iris.map DisplayNode.concept).filterMap tree.branchOf? =
      iris.filterMap (tree.branchAt? []) := fun iris => List.filterMap_map ..
  unfold groupOf?
  cases grouping : tree.options.groupBySource with
  | false =>
      rw [view_eq, firstLayer_plain grouping, layer, inGroup_branches ungrouped]
      cases group <;> simp
  | true =>
      rw [view_eq, firstLayer_grouped grouping, List.filterMap_append, inGroup_append, layer,
        inGroup_groups, inGroup_branches ungrouped]
      cases group <;> simp

theorem view_plain (plain : tree.options.groupBySource = false) :
    tree.view = tree.roots.filterMap (tree.branchAt? []) := by
  rw [view_eq, firstLayer_plain plain, List.filterMap_map]
  rfl

theorem view_grouped (grouping : tree.options.groupBySource = true) :
    tree.view = (tree.rootSources.map fun source =>
        .node source.groupId source.name .sourceGroup
          ((tree.roots.filter fun root => tree.sourceOf? root = some source).filterMap
            (tree.branchAt? []))) ++
      (tree.roots.filter fun root => tree.sourceOf? root = none).filterMap (tree.branchAt? []) := by
  rw [view_eq, firstLayer_grouped grouping, List.filterMap_append, List.filterMap_map,
    List.filterMap_map]
  refine congrArg (· ++ _) ?_
  exact List.filterMap_eq_map ▸ rfl

end

end ConceptTree

end CatalogBrowser
