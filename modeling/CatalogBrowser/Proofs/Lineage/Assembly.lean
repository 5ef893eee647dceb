import CatalogBrowser.Lineage.Layout
import CatalogBrowser.Proofs.FirstBy

/-!
How a lineage graph grows: parts come in order, the first of every id is added, and with it its
edge, unless an edge of the same id is there already.
-/

namespace CatalogBrowser

namespace LineageGraph

abbrev Part := LineageNode × Option LineageEdge

def partId (part : Part) : String := part.1.id

theorem edges_insertEdge (graph : LineageGraph) (edge : LineageEdge) :
    (graph.insertEdge edge).edges =
      graph.edges ++ firstBy LineageEdge.id (graph.edges.map LineageEdge.id) [edge] := by
  have known : (graph.edges.any fun other => other.id = edge.id) = true ↔
      edge.id ∈ graph.edges.map LineageEdge.id := by simp
  rw [firstBy_singleton, insertEdge]
  by_cases present : edge.id ∈ graph.edges.map LineageEdge.id
  · rw [if_pos (known.mpr present), if_pos present, List.append_nil]
  · rw [if_neg (mt known.mp present), if_neg present]

theorem nodes_insertEdge (graph : LineageGraph) (edge : LineageEdge) :
    (graph.insertEdge edge).nodes = graph.nodes := by
  unfold insertEdge
  split <;> rfl

theorem focus_add (graph : LineageGraph) (part : Part) : (graph.add part).focus = graph.focus := by
  rw [add]
  rcases part with ⟨node, _ | edge⟩
  · split <;> rfl
  · dsimp only [Option.map_some, Option.getD_some, insertEdge]
    split
    · rfl
    · split <;> rfl

theorem focus_foldl_add (parts : List Part) (graph : LineageGraph) :
    (parts.foldl add graph).focus = graph.focus := by
  induction parts generalizing graph with
  | nil => rfl
  | cons part rest ih => rw [List.foldl_cons, ih, focus_add]

theorem add_of_present {graph : LineageGraph} {part : Part}
    (present : partId part ∈ graph.nodes.map LineageNode.id) : graph.add part = graph := by
  have taken : graph.hasNode part.1.id = true := by
    simpa [hasNode, partId] using present
  rw [add, if_pos taken]

theorem add_of_absent {graph : LineageGraph} {part : Part}
    (absent : partId part ∉ graph.nodes.map LineageNode.id) :
    (graph.add part).nodes = graph.nodes ++ [part.1] ∧
      (graph.add part).edges = graph.edges ++
        firstBy LineageEdge.id (graph.edges.map LineageEdge.id) part.2.toList := by
  have free : graph.hasNode part.1.id = false := by
    simpa [hasNode, partId] using absent
  rw [add, free]
  rcases part with ⟨node, _ | edge⟩
  · simp [firstBy]
  · simp [nodes_insertEdge, edges_insertEdge]

theorem nodes_foldl_add (parts : List Part) (graph : LineageGraph) :
    (parts.foldl add graph).nodes =
      graph.nodes ++ (firstBy partId (graph.nodes.map LineageNode.id) parts).map Prod.fst := by
  induction parts generalizing graph with
  | nil => simp [firstBy]
  | cons part rest ih =>
      rw [List.foldl_cons, ih, firstBy]
      split
      · next present => rw [add_of_present present]
      · next absent =>
        rw [(add_of_absent absent).1, List.map_append, List.append_assoc, List.map_cons]
        rfl

theorem edges_foldl_add (parts : List Part) (graph : LineageGraph) :
    (parts.foldl add graph).edges =
      graph.edges ++ firstBy LineageEdge.id (graph.edges.map LineageEdge.id)
        ((firstBy partId (graph.nodes.map LineageNode.id) parts).filterMap Prod.snd) := by
  induction parts generalizing graph with
  | nil => simp [firstBy]
  | cons part rest ih =>
      rw [List.foldl_cons, ih, firstBy]
      split
      · next present => rw [add_of_present present]
      · next absent =>
        obtain ⟨nodes, edges⟩ := add_of_absent absent
        have split : ∀ others : List Part, (part :: others).filterMap Prod.snd =
            part.2.toList ++ others.filterMap Prod.snd := by
          intro others
          rw [List.filterMap_cons]
          cases part.2 <;> rfl
        rw [nodes, edges, split, firstBy_append, List.map_append, List.map_append,
          List.append_assoc]
        rfl

end LineageGraph

namespace Lineage.Setting

section

variable {setting : Setting}

@[simp] theorem node_id (iri : Iri) (id : String) (role : LineageRole) (x y : Float) :
    (setting.node iri id role x y).id = id := by
  unfold node
  dsimp only
  split <;> rfl

@[simp] theorem node_role (iri : Iri) (id : String) (role : LineageRole) (x y : Float) :
    (setting.node iri id role x y).role = role := by
  unfold node
  dsimp only
  split <;> rfl

theorem conceptIri_node (iri : Iri) (id : String) (role : LineageRole) (x y : Float) :
    (setting.node iri id role x y).conceptIri = if id = iri.text then none else some iri := by
  unfold node
  dsimp only
  split <;> rfl

@[simp] theorem partId_parentPart (iri : Iri) (index : Nat) :
    LineageGraph.partId (setting.parentPart iri index) = iri.text := node_id ..

@[simp] theorem partId_childPart (iri : Iri) (index : Nat) :
    LineageGraph.partId (setting.childPart iri index) = iri.text := node_id ..

@[simp] theorem partId_siblingPart (sibling : Concept) (index : Nat) :
    LineageGraph.partId (setting.siblingPart sibling index) = sibling.iri.text := node_id ..

end

/-- The parts that are added: the first of every id but that of the focus. -/
def added (setting : Setting) : List LineageGraph.Part :=
  firstBy LineageGraph.partId [setting.focusId] setting.parts

theorem focus_graph (setting : Setting) : setting.graph.focus = setting.focusId :=
  LineageGraph.focus_foldl_add ..

theorem nodes_graph (setting : Setting) :
    setting.graph.nodes = setting.start.nodes ++ setting.added.map Prod.fst :=
  LineageGraph.nodes_foldl_add ..

theorem edges_graph (setting : Setting) :
    setting.graph.edges = firstBy LineageEdge.id [] (setting.added.filterMap Prod.snd) := by
  rw [graph, LineageGraph.edges_foldl_add]
  rfl

theorem nodup_ids_graph (setting : Setting) : (setting.graph.nodes.map LineageNode.id).Nodup := by
  rw [nodes_graph, List.map_append, List.map_map]
  refine List.nodup_cons.mpr ⟨fun member => ?_, nodup_map_firstBy⟩
  exact (mem_map_firstBy.mp member).2 (List.mem_singleton.mpr rfl)

end Lineage.Setting

end CatalogBrowser
