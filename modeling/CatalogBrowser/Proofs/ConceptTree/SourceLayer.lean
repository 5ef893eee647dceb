import CatalogBrowser.Proofs.ConceptTree.Construction
import CatalogBrowser.Proofs.ConceptTree.Groups
import CatalogBrowser.Proofs.ConceptTree.Screening

/-!
The layer of sources: it parts the roots by the source that they have, and leaves what is below
them as it is without the layer.
-/

namespace CatalogBrowser

theorem flatMap_filter_perm {α κ : Type} [DecidableEq κ] (keyOf : α → κ) {keys : List κ}
    (nodup : keys.Nodup) {items : List α} (covered : ∀ item ∈ items, keyOf item ∈ keys) :
    (keys.flatMap fun key => items.filter fun item => keyOf item = key).Perm items := by
  induction keys generalizing items with
  | nil =>
      have none : items = [] := List.eq_nil_iff_forall_not_mem.mpr fun item member =>
        List.not_mem_nil (covered item member)
      simp [none]
  | cons key keys ih =>
      obtain ⟨absent, restNodup⟩ := List.nodup_cons.mp nodup
      have others : (keys.flatMap fun later => items.filter fun item => keyOf item = later) =
          keys.flatMap fun later => (items.filter fun item => !decide (keyOf item = key)).filter
            fun item => keyOf item = later := by
        refine List.flatMap_congr fun later member => ?_
        have different : later ≠ key := fun same => absent (same ▸ member)
        rw [List.filter_filter]
        refine List.filter_congr fun item _ => ?_
        by_cases same : keyOf item = later
        · simp [same, different]
        · simp [same]
      rw [List.flatMap_cons, others]
      refine ((ih restNodup ?_).append_left _).trans (List.filter_append_perm _ items)
      intro item member
      obtain ⟨listed, different⟩ := List.mem_filter.mp member
      exact (List.mem_cons.mp (covered item listed)).resolve_left (by simpa using different)

theorem map_snd_filter_zip {α β : Type} (test : α → Bool) {items : List α} {find : α → Option β}
    (found : ∀ item ∈ items, ∃ result, find item = some result) :
    ((items.zip (items.filterMap find)).filter fun pair => test pair.1).map Prod.snd =
      (items.filter test).filterMap find := by
  induction items with
  | nil => rfl
  | cons item rest ih =>
      obtain ⟨result, here⟩ := found item List.mem_cons_self
      have later := ih fun other member => found other (List.mem_cons_of_mem _ member)
      rw [List.filterMap_cons_some here, List.zip_cons_cons]
      cases passes : test item with
      | true => simp [passes, here, later]
      | false => simp [passes, later]

namespace ConceptTree

/-- The roots that a node of the first layer stands for: those of its group, or the one it is. -/
def rootsAt (tree : ConceptTree) : DisplayNode → List DisplayNode
  | .source source => tree.nodesBelow (.source source)
  | .concept root => [.concept root]

/-- The branches that a tree without the layer of sources has at the roots of a source, or at those
without one. -/
def branchesOf (tree : ConceptTree) (source : Option SourceId) : List Branch :=
  ((tree.roots.zip tree.view).filter fun (root, _) => tree.sourceOf? root = source).map Prod.snd

section

variable {tree : ConceptTree}

theorem mem_nodesBelow_source {source : SourceId} {root : Iri} :
    .concept root ∈ tree.nodesBelow (.source source) ↔
      root ∈ tree.roots ∧ tree.sourceOf? root = some source := by
  simp [nodesBelow]

theorem nodesBelow_source_ne_nil {source : SourceId} :
    tree.nodesBelow (.source source) ≠ [] ↔ source ∈ tree.rootSources := by
  rw [mem_rootSources]
  constructor
  · intro some
    obtain ⟨node, member⟩ := List.exists_mem_of_ne_nil _ some
    obtain ⟨root, _, rfl⟩ := List.mem_map.mp member
    exact ⟨root, mem_nodesBelow_source.mp member⟩
  · rintro ⟨root, owned⟩
    exact List.ne_nil_of_mem (mem_nodesBelow_source.mpr owned)

theorem nodesBelow_disjoint {left right : SourceId} (different : left ≠ right) :
    (tree.nodesBelow (.source left)).Disjoint (tree.nodesBelow (.source right)) := by
  intro node first second
  obtain ⟨root, _, rfl⟩ := List.mem_map.mp first
  have one := (mem_nodesBelow_source.mp first).2
  have two := (mem_nodesBelow_source.mp second).2
  exact different (Option.some.inj (one.symm.trans two))

theorem rootsAt_perm (grouping : tree.options.groupBySource = true) :
    (tree.firstLayer.flatMap tree.rootsAt).Perm (tree.roots.map .concept) := by
  have keys : (tree.rootSources.map some ++ [none]).Nodup := by
    refine ((tree.rootSources_nodup.map (Option.some_injective _)).append
      (List.nodup_singleton _)) ?_
    simp
  have covered : ∀ root ∈ tree.roots,
      tree.sourceOf? root ∈ tree.rootSources.map some ++ [none] := by
    intro root member
    cases owner : tree.sourceOf? root with
    | none => simp
    | some source => simpa using mem_rootSources.mpr ⟨root, member, owner⟩
  have parted := (flatMap_filter_perm tree.sourceOf? keys covered).map DisplayNode.concept
  refine List.Perm.trans (List.Perm.of_eq ?_) parted
  have single : ∀ roots : List Iri,
      (roots.map DisplayNode.concept).flatMap tree.rootsAt = roots.map .concept := by
    intro roots
    rw [List.flatMap_map, List.map_eq_flatMap]
    rfl
  rw [firstLayer_grouped grouping, List.flatMap_append, single, List.flatMap_append,
    List.map_append, List.flatMap_map, List.flatMap_map, List.map_flatMap, List.flatMap_singleton]
  rfl

theorem branchesOf_plain (plain : tree.options.groupBySource = false) (source : Option SourceId) :
    tree.branchesOf source =
      (tree.roots.filter fun root => tree.sourceOf? root = source).filterMap
        (tree.branchAt? []) := by
  rw [branchesOf, view_plain plain]
  exact map_snd_filter_zip (fun root => tree.sourceOf? root = source)
    fun root member => exists_branchAt? (mem_order_of_mem_roots member) []

end

end ConceptTree

end CatalogBrowser
