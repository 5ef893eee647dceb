import CatalogBrowser.Proofs.Lineage.Relations

/-!
Which concept each node of a lineage graph stands for, and that a graph is well formed: its ids
tell nodes and edges apart, and edges run between different nodes of the graph.
-/

namespace CatalogBrowser

def Neighbourhood.givenAs (hierarchy : Neighbourhood) : LineageRole → List Iri
  | .focus => [hierarchy.concept.iri]
  | .parent | .parentProperty => hierarchy.parents.map Concept.iri ++ hierarchy.concept.parents
  | .child | .childProperty => hierarchy.children.map Concept.iri ++ hierarchy.concept.children
  | .sibling => hierarchy.siblings.map Concept.iri
  | .domain => hierarchy.concept.domain.toList
  | .range | .datatype => hierarchy.concept.range.toList

/-- A node stands for a concept that the hierarchy gives for its part; its id tells both. -/
structure LineageNode.StandsFor (hierarchy : Neighbourhood) (node : LineageNode) (iri : Iri) :
    Prop where
  given : iri ∈ hierarchy.givenAs node.role
  id : node.id = node.role.idStem ++ iri.text

structure LineageGraph.WellFormed (hierarchy : Neighbourhood) (graph : LineageGraph) : Prop where
  node_ids : (graph.nodes.map LineageNode.id).Nodup
  edge_ids : (graph.edges.map LineageEdge.id).Nodup
  focus : ∃ first others, graph.nodes = first :: others ∧ first.role = .focus ∧
    first.id = graph.focus ∧ ∀ node ∈ others, node.role ≠ .focus
  ends : ∀ edge ∈ graph.edges, edge.source ∈ graph.nodes.map LineageNode.id ∧
    edge.target ∈ graph.nodes.map LineageNode.id ∧ edge.source ≠ edge.target
  stands : ∀ node ∈ graph.nodes, ∃ iri, node.StandsFor hierarchy iri
  conceptIri : ∀ node ∈ graph.nodes, ∀ iri, node.StandsFor hierarchy iri →
    node.conceptIri = if node.id = iri.text then none else some iri

theorem LineageNode.StandsFor.unique {hierarchy : Neighbourhood} {node : LineageNode}
    {first second : Iri} (one : node.StandsFor hierarchy first)
    (other : node.StandsFor hierarchy second) : first = second := by
  have same := one.id.symm.trans other.id
  exact Iri.text_injective (String.append_right_inj _ |>.mp same)

namespace Lineage

theorem mem_of_mem_neighbours {payload : List Concept} {stated excluded : List Iri} {iri : Iri}
    (member : iri ∈ neighbours payload stated excluded) :
    iri ∈ payload.map Concept.iri ++ stated :=
  (List.mem_filter.mp (mem_distinct.mp member)).1

theorem mem_parentIds_of_siblingSource? {hierarchy : Neighbourhood} {graph : LineageGraph}
    {id source : String} (found : siblingSource? hierarchy graph id = some source) :
    source ∈ graph.parentIds := by
  rw [siblingSource?, Option.or_eq_some_iff] at found
  rcases found with stated | ⟨_, first⟩
  · exact List.mem_of_find?_eq_some stated
  · exact List.mem_of_mem_head? first

theorem ends_of_relation {hierarchy : Neighbourhood} {graph : LineageGraph} {node : LineageNode}
    {edge : LineageEdge} (relation : relationOf hierarchy graph node = some edge) :
    node.role ≠ .focus ∧
      (edge.source = graph.focus ∧ edge.target = node.id ∨
        edge.source = node.id ∧ edge.target = graph.focus ∨
        node.role = .sibling ∧ edge.source ∈ graph.parentIds ∧ edge.target = node.id) := by
  unfold relationOf at relation
  split at relation
  case h_1 => cases relation
  case h_4 role =>
      obtain ⟨source, found, rfl⟩ := Option.map_eq_some_iff.mp relation
      have listed := mem_parentIds_of_siblingSource? found
      exact ⟨by simp [role], Or.inr (Or.inr ⟨role, listed, rfl⟩)⟩
  all_goals
    next role =>
      cases relation
      simp [role]

namespace Setting

section

variable {setting : Setting}

theorem part_eq_node {part : LineageGraph.Part} (member : part ∈ setting.parts) :
    ∃ iri role id x y, iri ∈ setting.hierarchy.givenAs role ∧ role ≠ .focus ∧
      id = role.idStem ++ iri.text ∧ part.1 = setting.node iri id role x y := by
  rw [parts] at member
  split at member
  · simp only [propertyParts, List.mem_append, List.mem_mapIdx, Option.mem_toList,
      Option.map_eq_some_iff] at member
    rcases member with ((⟨index, bound, rfl⟩ | ⟨index, bound, rfl⟩) | ⟨domain, stated, rfl⟩) |
      ⟨range, stated, rfl⟩
    · have given := mem_of_mem_neighbours (List.getElem_mem bound)
      exact ⟨_, .parentProperty, _, _, _, given, by decide, rfl, rfl⟩
    · have given := mem_of_mem_neighbours (List.getElem_mem bound)
      exact ⟨_, .childProperty, _, _, _, given, by decide, rfl, rfl⟩
    · have given := Option.mem_toList.mpr stated
      exact ⟨_, .domain, _, _, _, given, by decide, rfl, rfl⟩
    · have given := Option.mem_toList.mpr stated
      refine ⟨range, if range.isLiteralType then .datatype else .range, _, _, _, ?_, ?_, ?_, rfl⟩
      · split <;> exact given
      · split <;> decide
      · split <;> rfl
  · simp only [classParts, List.mem_append, List.mem_mapIdx] at member
    rcases member with (⟨index, bound, rfl⟩ | ⟨index, bound, rfl⟩) | ⟨index, bound, rfl⟩
    · have given := mem_of_mem_neighbours (List.getElem_mem bound)
      exact ⟨_, .parent, _, _, _, given, by decide, String.empty_append.symm, rfl⟩
    · have given := mem_of_mem_neighbours (List.getElem_mem bound)
      exact ⟨_, .child, _, _, _, given, by decide, String.empty_append.symm, rfl⟩
    · have listed := (List.mem_filter.mp (List.getElem_mem bound)).1
      exact ⟨_, .sibling, _, _, _, List.mem_map_of_mem listed, by decide,
        String.empty_append.symm, rfl⟩

theorem node_eq_node {node : LineageNode} (member : node ∈ setting.graph.nodes) :
    ∃ iri role x y, iri ∈ setting.hierarchy.givenAs role ∧
      node = setting.node iri (role.idStem ++ iri.text) role x y := by
  rw [nodes_graph, List.mem_append] at member
  rcases member with start | added
  · rw [start_nodes, List.mem_singleton] at start
    exact ⟨_, .focus, _, _, List.mem_singleton_self _, start⟩
  · obtain ⟨part, kept, rfl⟩ := List.mem_map.mp added
    obtain ⟨iri, role, _, x, y, given, _, rfl, same⟩ := part_eq_node (firstBy_sublist.subset kept)
    exact ⟨iri, role, x, y, given, same⟩

theorem node_standsFor {iri : Iri} {role : LineageRole}
    (given : iri ∈ setting.hierarchy.givenAs role) (x y : Float) :
    (setting.node iri (role.idStem ++ iri.text) role x y).StandsFor setting.hierarchy iri where
  given := by rwa [node_role]
  id := by rw [node_role, node_id]

theorem role_of_added {part : LineageGraph.Part} (member : part ∈ setting.added) :
    part.1.role ≠ .focus := by
  obtain ⟨iri, role, _, x, y, _, other, _, same⟩ := part_eq_node (firstBy_sublist.subset member)
  rwa [same, node_role]

theorem mem_ids_graph {node : LineageNode} (member : node ∈ setting.graph.nodes) :
    node.id ∈ setting.graph.nodes.map LineageNode.id := List.mem_map_of_mem member

theorem id_ne_of_role_ne {first second : LineageNode} (member : first ∈ setting.graph.nodes)
    (member' : second ∈ setting.graph.nodes) (apart : first.role ≠ second.role) :
    first.id ≠ second.id := by
  intro same
  exact apart (congrArg LineageNode.role
    (List.inj_on_of_nodup_map setting.nodup_ids_graph member member' same))

theorem exists_focus (setting : Setting) : ∃ first ∈ setting.graph.nodes,
    first.role = .focus ∧ first.id = setting.graph.focus := by
  rw [nodes_graph, focus_graph]
  exact ⟨_, List.mem_append_left _ (List.mem_singleton_self _), rfl, rfl⟩

theorem ends_graph {edge : LineageEdge} (drawn : edge ∈ setting.graph.edges) :
    edge.source ∈ setting.graph.nodes.map LineageNode.id ∧
      edge.target ∈ setting.graph.nodes.map LineageNode.id ∧ edge.source ≠ edge.target := by
  rw [edges_eq_firstBy] at drawn
  obtain ⟨node, member, relation⟩ := List.mem_filterMap.mp (firstBy_sublist.subset drawn)
  obtain ⟨first, present, role, id⟩ := setting.exists_focus
  obtain ⟨other, ends⟩ := ends_of_relation relation
  have apart : first.id ≠ node.id := by
    refine id_ne_of_role_ne present member ?_
    rw [role]
    exact Ne.symm other
  rcases ends with ⟨source, target⟩ | ⟨source, target⟩ | ⟨sibling, source, target⟩
  · rw [source, target, ← id]
    exact ⟨mem_ids_graph present, mem_ids_graph member, apart⟩
  · rw [source, target, ← id]
    exact ⟨mem_ids_graph member, mem_ids_graph present, apart.symm⟩
  · obtain ⟨parent, listed, same⟩ := List.mem_map.mp source
    obtain ⟨listed, isParent⟩ := List.mem_filter.mp listed
    rw [target, ← same]
    refine ⟨mem_ids_graph listed, mem_ids_graph member, id_ne_of_role_ne listed member ?_⟩
    rw [sibling, of_decide_eq_true isParent]
    decide

end

end Setting

/-- Every lineage graph is well formed, whatever its hierarchy repeats or refers to. -/
theorem graphOf_wellFormed (hierarchy : Neighbourhood) (lookup : ConceptFinder)
    (layout : Geometry) : (graphOf hierarchy lookup layout).WellFormed hierarchy := by
  let setting : Setting := ⟨hierarchy, lookup, layout⟩
  change setting.graph.WellFormed hierarchy
  refine ⟨setting.nodup_ids_graph, ?_, ?_, fun _ => Setting.ends_graph, ?_, ?_⟩
  · rw [Setting.edges_graph]
    exact nodup_map_firstBy
  · refine ⟨_, setting.added.map Prod.fst, setting.nodes_graph, rfl, setting.focus_graph.symm, ?_⟩
    intro node member
    obtain ⟨part, kept, rfl⟩ := List.mem_map.mp member
    exact Setting.role_of_added kept
  · intro node member
    obtain ⟨iri, role, x, y, given, rfl⟩ := Setting.node_eq_node member
    exact ⟨iri, Setting.node_standsFor given x y⟩
  · intro node member iri stands
    obtain ⟨own, role, x, y, given, rfl⟩ := Setting.node_eq_node member
    obtain rfl := (Setting.node_standsFor given x y).unique stands
    rw [Setting.node_id, Setting.conceptIri_node]

end Lineage

end CatalogBrowser
