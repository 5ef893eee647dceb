import CatalogBrowser.Proofs.ConceptTree.Ancestry
import CatalogBrowser.Proofs.ConceptTree.Construction
import CatalogBrowser.Proofs.ConceptTree.Drawing
import Mathlib.Data.List.Chain

/-!
Which nodes are in sight when some are expanded, and that the nodes to expand for a concept bring
it in sight along every chain of displayed nodes that ends in it.
-/

namespace CatalogBrowser.ConceptTree

/-- The nodes in sight: the first layer, and what is below nodes in sight that are expanded. -/
inductive Visible (tree : ConceptTree) (expanded : List DisplayNode) : DisplayNode → Prop
  | top {node} : node ∈ tree.firstLayer → Visible tree expanded node
  | under {above node} : Visible tree expanded above → above ∈ expanded →
      node ∈ tree.nodesBelow above → Visible tree expanded node

def Reaches (tree : ConceptTree) (node : DisplayNode) : Prop :=
  ∃ first ∈ tree.firstLayer,
    Relation.ReflTransGen (fun above below => below ∈ tree.nodesBelow above) first node

/-- A way down from the first layer that ends where it first meets a concept. -/
structure Chain (tree : ConceptTree) (front : List DisplayNode) (iri : Iri) : Prop where
  starts : ∃ first ∈ (front ++ [DisplayNode.concept iri]).head?, first ∈ tree.firstLayer
  linked : (front ++ [DisplayNode.concept iri]).IsChain fun above below =>
    below ∈ tree.nodesBelow above
  fresh : DisplayNode.concept iri ∉ front

section

variable {tree : ConceptTree} {iri : Iri}

theorem concept_of_mem_nodesBelow {above node : DisplayNode}
    (below : node ∈ tree.nodesBelow above) :
    ∃ child, node = .concept child := by
  cases above with
  | source source =>
      obtain ⟨child, _, rfl⟩ := List.mem_map.mp below
      exact ⟨child, rfl⟩
  | concept parent =>
      obtain ⟨child, _, rfl⟩ := List.mem_map.mp below
      exact ⟨child, rfl⟩

theorem grouping_of_source_mem_firstLayer {source : SourceId}
    (listed : .source source ∈ tree.firstLayer) : tree.options.groupBySource = true := by
  unfold firstLayer at listed
  split at listed
  · assumption
  · simp at listed

theorem above_of_below (linked : WellLinked tree.order tree.parents tree.children)
    {start : DisplayNode} {top : Iri} (same : start = .concept top)
    (down : Relation.ReflTransGen (fun above below => below ∈ tree.nodesBelow above) start
      (.concept iri)) : top = iri ∨ tree.Above iri top := by
  -- from the end of the way upwards, so that each edge adds a parent to the climb
  induction down using Relation.ReflTransGen.head_induction_on generalizing top with
  | refl => exact Or.inl (DisplayNode.concept.inj same).symm
  | @head above next edge _ ih =>
      subst same
      obtain ⟨child, listed, rfl⟩ := List.mem_map.mp edge
      have parent : top ∈ tree.parents child := (linked.converse top child).mp listed
      refine Or.inr ?_
      rcases ih rfl with rfl | climbs
      · exact Relation.TransGen.single parent
      · exact climbs.tail parent

theorem visible_of_isChain {expanded path : List DisplayNode}
    (starts : ∀ first ∈ path.head?, first ∈ tree.firstLayer)
    (linked : path.IsChain fun above below => below ∈ tree.nodesBelow above)
    (shown : ∀ node ∈ path.dropLast, node ∈ expanded) :
    ∀ node ∈ path, tree.Visible expanded node := by
  induction path using List.reverseRecOn with
  | nil => simp
  | append_singleton path last ih =>
      obtain ⟨before, _, edge⟩ := List.isChain_append.mp linked
      rw [List.dropLast_concat] at shown
      have earlier : ∀ node ∈ path, tree.Visible expanded node := by
        refine ih ?_ before fun node member => shown node ((List.dropLast_subset path) member)
        intro first here
        refine starts first ?_
        rw [List.head?_append, Option.mem_def.mp here]
        rfl
      intro node member
      rcases List.mem_append.mp member with old | new
      · exact earlier node old
      · obtain rfl := List.mem_singleton.mp new
        rcases List.eq_nil_or_concat path with rfl | ⟨init, above, rfl⟩
        · exact Visible.top (starts node (by simp))
        · have passed : above ∈ init.concat above := by simp
          have below := edge above (by simp) node (by simp)
          exact Visible.under (earlier above passed) (shown above passed) below

theorem Visible.mem_firstLayer_of_source {expanded : List DisplayNode} {source : SourceId}
    (visible : tree.Visible expanded (.source source)) : .source source ∈ tree.firstLayer := by
  cases visible with
  | top listed => exact listed
  | under _ _ below =>
      obtain ⟨child, same⟩ := concept_of_mem_nodesBelow below
      simp at same

namespace Chain

variable {front : List DisplayNode}

theorem visible (chain : tree.Chain front iri) {expanded : List DisplayNode}
    (shown : ∀ node ∈ front, node ∈ expanded) :
    ∀ node ∈ front ++ [.concept iri], tree.Visible expanded node := by
  refine visible_of_isChain ?_ chain.linked (by simpa using shown)
  obtain ⟨start, here, listed⟩ := chain.starts
  intro first again
  obtain rfl : start = first := Option.some.inj (here.symm.trans again)
  exact listed

theorem expands (chain : tree.Chain front iri)
    (linked : WellLinked tree.order tree.parents tree.children) {node : DisplayNode}
    (passed : node ∈ front) : node ∈ tree.nodesToExpand iri := by
  have down : Relation.ReflTransGen (fun above below => below ∈ tree.nodesBelow above) node
      (.concept iri) := by
    obtain ⟨before, after, rfl⟩ := List.append_of_mem passed
    have whole := chain.linked
    rw [List.append_assoc] at whole
    exact List.relationReflTransGen_of_exists_isChain_cons _ whole.right_of_append (by simp)
  rw [mem_nodesToExpand]
  cases node with
  | concept top =>
      have different : top ≠ iri := by
        rintro rfl
        exact chain.fresh passed
      have climbs := (above_of_below linked rfl down).resolve_left different
      exact Or.inl ⟨top, rfl, different, climbs⟩
  | source source =>
      obtain ⟨next, edge, further⟩ : ∃ next, next ∈ tree.nodesBelow (.source source) ∧
          Relation.ReflTransGen (fun above below => below ∈ tree.nodesBelow above) next
            (.concept iri) := by
        rcases down.cases_head with same | steps
        · simp at same
        · exact steps
      obtain ⟨root, owned, rfl⟩ := List.mem_map.mp edge
      obtain ⟨isRoot, owner⟩ := List.mem_filter.mp owned
      have visible := chain.visible (fun _ => id) _ (List.mem_append_left _ passed)
      have grouping := grouping_of_source_mem_firstLayer visible.mem_firstLayer_of_source
      refine Or.inr ⟨grouping, root, isRoot, above_of_below linked rfl further, source, ?_, rfl⟩
      simpa using owner

end Chain

/-- Whatever the displayed tree comes to, it comes to by a chain. -/
theorem Reaches.exists_chain (reached : tree.Reaches (.concept iri)) :
    ∃ front, tree.Chain front iri := by
  obtain ⟨start, listed, down⟩ := reached
  obtain ⟨rest, walk, ends⟩ := List.exists_isChain_cons_of_relationReflTransGen down
  have member : DisplayNode.concept iri ∈ start :: rest := ends ▸ List.getLast_mem _
  -- the walk is cut where it first meets the concept
  obtain ⟨front, after, parts, fresh⟩ := List.eq_append_cons_of_mem member
  rw [List.append_cons] at parts
  refine ⟨front, ?_, ?_, fresh⟩
  · refine ⟨start, ?_, listed⟩
    have head := congrArg List.head? parts
    cases front <;> simpa using head.symm
  · rw [parts] at walk
    exact walk.left_of_append

end

/-- The nodes to expand for a concept are those that the chains to it pass; expanded, they bring it
in sight. -/
theorem nodesToExpand_exact (input : List Concept) (options : DisplayOptions) (iri : Iri) :
    let tree := ofConcepts input options
    (∀ front, tree.Chain front iri → ∀ node ∈ front, node ∈ tree.nodesToExpand iri) ∧
    (∀ front, tree.Chain front iri →
      ∀ node ∈ front ++ [.concept iri], tree.Visible (tree.nodesToExpand iri) node) ∧
    (tree.Reaches (.concept iri) → ∃ front, tree.Chain front iri) ∧
    (∀ node, node ∈ tree.nodesToExpand iri ↔
      (∃ above, node = .concept above ∧ above ≠ iri ∧ tree.Above iri above) ∨
      options.groupBySource = true ∧
        ∃ root ∈ tree.roots, (root = iri ∨ tree.Above iri root) ∧
          ∃ source, tree.sourceOf? root = some source ∧ node = .source source) ∧
    (iri ∉ tree.order → tree.nodesToExpand iri = []) := by
  intro tree
  have linked : WellLinked tree.order tree.parents tree.children :=
    displayLinks_wellLinked input options
  refine ⟨?_, ?_, Reaches.exists_chain, ?_, ?_⟩
  · intro front chain node passed
    exact chain.expands linked passed
  · intro front chain
    exact chain.visible fun node passed => chain.expands linked passed
  · intro node
    exact mem_nodesToExpand
  · intro missing
    exact nodesToExpand_of_parents_nil (linked.unknown iri missing).1 (Or.inr missing)

end CatalogBrowser.ConceptTree
