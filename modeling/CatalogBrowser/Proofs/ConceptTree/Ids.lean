import CatalogBrowser.Proofs.ConceptTree.Unfolding

/-!
The ids of the displayed tree.  Nodes that stand side by side have different ids, but that a root
without a source may have the id of a group; the type of a node tells these two apart.
-/

namespace CatalogBrowser

namespace Branch

/-- Branches that stand side by side: the displayed tree itself, or what is below one of its
branches. -/
inductive Level (view : List Branch) : List Branch → Prop
  | top : Level view view
  | below {ids last} : Leads view ids last → Level view last.children

def Discerned (branches : List Branch) : Prop :=
  (branches.map fun branch => (branch.id, branch.conceptType)).Nodup

theorem discerned_of_ids {branches : List Branch} (nodup : (branches.map id).Nodup) :
    Discerned branches := by
  refine List.Nodup.of_map Prod.fst ?_
  rwa [List.map_map]

end Branch

namespace ConceptTree

/-- A group and a root without a source that have the same id. -/
def Confused (tree : ConceptTree) (source : SourceId) (root : Iri) : Prop :=
  tree.options.groupBySource = true ∧ source ∈ tree.rootSources ∧ root ∈ tree.roots ∧
    tree.sourceOf? root = none ∧ source.groupId = root.text

section

variable {tree : ConceptTree}

theorem nodup_ids_branches {iris : List Iri} (nodup : iris.Nodup)
    (inside : ∀ iri ∈ iris, iri ∈ tree.order) (above : List Iri) :
    ((iris.filterMap (tree.branchAt? above)).map Branch.id).Nodup := by
  rw [map_id_branches inside]
  exact nodup.map Iri.text_injective

theorem nodup_ids_below (linked : WellLinked tree.order tree.parents tree.children)
    {above : List Iri} {iri : Iri} {branch : Branch}
    (drawn : tree.branchAt? above iri = some branch) :
    (branch.children.map Branch.id).Nodup := by
  obtain ⟨concept, _, rfl⟩ := branchAt?_eq_some drawn
  by_cases again : iri ∈ above
  · simp [Branch.children, again]
  · rw [Branch.children, if_neg again]
    exact nodup_ids_branches (linked.children_nodup iri)
      (fun child member => (linked.ordered iri).subset member) _

theorem nodup_ids_roots (nodup : tree.order.Nodup) (test : Iri → Bool) :
    (((tree.roots.filter test).filterMap (tree.branchAt? [])).map Branch.id).Nodup :=
  nodup_ids_branches ((roots_nodup nodup).filter _)
    (fun _ member => mem_order_of_mem_roots (List.mem_of_mem_filter member)) []

theorem nodup_ids_plain (nodup : tree.order.Nodup) (plain : tree.options.groupBySource = false) :
    (tree.view.map Branch.id).Nodup := by
  rw [view_plain plain]
  exact nodup_ids_branches (roots_nodup nodup) (fun _ => mem_order_of_mem_roots) []

theorem discerned_view (nodup : tree.order.Nodup)
    (ungrouped : ∀ iri concept, tree.get? iri = some concept → concept.conceptType ≠ .sourceGroup) :
    Branch.Discerned tree.view := by
  cases grouping : tree.options.groupBySource with
  | false => exact Branch.discerned_of_ids (nodup_ids_plain nodup grouping)
  | true =>
      have groups : (tree.rootSources.map fun source =>
          (source.groupId, ConceptType.sourceGroup)).Nodup := by
        refine tree.rootSources_nodup.map fun left right same => ?_
        exact SourceId.groupId_injective (Prod.mk.inj same).1
      rw [view_grouped grouping, Branch.Discerned, List.map_append, List.map_map]
      refine groups.append (Branch.discerned_of_ids (nodup_ids_roots nodup _)) ?_
      intro pair group root
      obtain ⟨source, _, rfl⟩ := List.mem_map.mp group
      obtain ⟨branch, member, same⟩ := List.mem_map.mp root
      obtain ⟨iri, _, drawn⟩ := List.mem_filterMap.mp member
      exact conceptType_of_branchAt? ungrouped drawn (Prod.mk.inj same).2

theorem map_id_view_grouped (grouping : tree.options.groupBySource = true) :
    tree.view.map Branch.id = tree.rootSources.map SourceId.groupId ++
      (tree.roots.filter fun root => tree.sourceOf? root = none).map Iri.text := by
  rw [view_grouped grouping, List.map_append, List.map_map, map_id_branches]
  · rfl
  · exact fun root member => mem_order_of_mem_roots (List.mem_of_mem_filter member)

theorem nodup_ids_view (nodup : tree.order.Nodup) :
    (tree.view.map Branch.id).Nodup ↔ ∀ source root, ¬ tree.Confused source root := by
  cases grouping : tree.options.groupBySource with
  | false =>
      refine iff_of_true (nodup_ids_plain nodup grouping) fun source root confused => ?_
      simp [confused.1] at grouping
  | true =>
      have alone : ((tree.roots.filter fun root => tree.sourceOf? root = none).map
          Iri.text).Nodup := ((roots_nodup nodup).filter _).map Iri.text_injective
      rw [map_id_view_grouped grouping, List.nodup_append]
      constructor
      · rintro ⟨_, _, apart⟩ source root ⟨_, owning, isRoot, unowned, same⟩
        refine apart _ (List.mem_map_of_mem owning) _ (List.mem_map_of_mem ?_) same
        exact List.mem_filter.mpr ⟨isRoot, by simpa using unowned⟩
      · intro distinct
        refine ⟨tree.rootSources_nodup.map SourceId.groupId_injective, alone, ?_⟩
        rintro _ group _ root same
        obtain ⟨source, owning, rfl⟩ := List.mem_map.mp group
        obtain ⟨iri, member, rfl⟩ := List.mem_map.mp root
        obtain ⟨isRoot, unowned⟩ := List.mem_filter.mp member
        exact distinct source iri ⟨grouping, owning, isRoot, by simpa using unowned, same⟩

end

/-- Side by side no two nodes share id and type, and only a group and a root without a source can
share an id. -/
theorem ids_tell_siblings_apart (input : List Concept) (options : DisplayOptions) :
    let tree := ofConcepts input options
    (∀ siblings, Branch.Level tree.view siblings →
      Branch.Discerned siblings) ∧
    (∀ ids last, Branch.Leads tree.view ids last → (last.children.map Branch.id).Nodup) ∧
    ((tree.view.map Branch.id).Nodup ↔ ∀ source root, ¬ tree.Confused source root) := by
  intro tree
  have nodup : tree.order.Nodup := nodup_order_loadedOf options input
  have linked : WellLinked tree.order tree.parents tree.children :=
    displayLinks_wellLinked input options
  have below : ∀ ids last, Branch.Leads tree.view ids last →
      (last.children.map Branch.id).Nodup := by
    intro ids last leads
    rcases branch_of_leads leads with ⟨source, drawn⟩ | ⟨above, iri, drawn⟩
    · obtain rfl := Option.some.inj drawn
      exact nodup_ids_roots nodup _
    · exact nodup_ids_below linked drawn
  refine ⟨?_, below, nodup_ids_view nodup⟩
  intro siblings level
  cases level with
  | top => exact discerned_view nodup fun _ _ => conceptType_of_get?
  | below leads => exact Branch.discerned_of_ids (below _ _ leads)

/-- A concept may be identified by what is the id of a group beside it. -/
theorem group_shares_id_with_root :
    let x : Iri := ⟨"x", by decide⟩
    let named : Iri := ⟨"source:core", by decide⟩
    let input : List Concept := [
      { iri := x, conceptType := .ontologyClass, source := some ⟨"core"⟩ },
      { iri := named, conceptType := .ontologyClass }]
    let tree := ofConcepts input { groupBySource := true }
    tree.view.map Branch.id = ["source:core", "source:core"] ∧
      ¬ (tree.view.map Branch.id).Nodup := by
  intro x named input tree
  have ids : tree.view.map Branch.id = ["source:core", "source:core"] := by
    rw [map_id_view_grouped rfl]
    decide
  refine ⟨ids, ?_⟩
  rw [ids]
  decide

end ConceptTree

end CatalogBrowser
