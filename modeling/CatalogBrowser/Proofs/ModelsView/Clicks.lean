import CatalogBrowser.Proofs.Lineage.WellFormed
import CatalogBrowser.Proofs.ModelsView.Run

/-!
Clicking finds what was drawn: an id of a lineage graph leads back to the record that its node
shows, and placeholders and other texts lead nowhere.
-/

namespace CatalogBrowser

def LineageNode.iriText (node : LineageNode) : String :=
  (node.conceptIri.map Iri.text).getD node.id

structure LineageNode.Shows (hierarchy : Neighbourhood) (node : LineageNode) (concept : Concept) :
    Prop where
  standsFor : node.StandsFor hierarchy concept.iri
  iriText : node.iriText = concept.iri.text
  label : node.label = concept.shownLabel
  conceptType : node.conceptType = some concept.conceptType

/-- Every node leads to what it shows, if it is no placeholder, and no other text leads anywhere. -/
structure LineageGraph.Resolves (hierarchy : Neighbourhood) (graph : LineageGraph)
    (lookup : ConceptFinder) : Prop where
  known : ∀ node ∈ graph.nodes, node.placeholder = false →
    ∃ concept, graph.conceptAt? node.id lookup = some concept ∧ node.Shows hierarchy concept
  placeholder : ∀ node ∈ graph.nodes, node.placeholder = true →
    graph.conceptAt? node.id lookup = none
  elsewhere : ∀ id, id ∉ graph.nodes.map LineageNode.id → graph.conceptAt? id lookup = none

/-- A step that asks for the hierarchy of a concept and makes it the selection. -/
def ViewStep.Selected (step : ViewStep) : Prop :=
  step.result = .ok () ∧ ∃ iri, step.calls = [.hierarchy iri]

namespace Lineage.Setting

section

variable {setting : Setting}

theorem node?_graph {node : LineageNode} (member : node ∈ setting.graph.nodes) :
    setting.graph.node? node.id = some node := by
  have found : (setting.graph.node? node.id).isSome := by
    rw [LineageGraph.node?, List.find?_isSome]
    exact ⟨node, member, by simp⟩
  obtain ⟨other, found⟩ := Option.isSome_iff_exists.mp found
  have same : other.id = node.id := by simpa using List.find?_some found
  have present := List.mem_of_find?_eq_some found
  rw [found, List.inj_on_of_nodup_map setting.nodup_ids_graph present member same]

theorem node?_graph_of_notMem {id : String}
    (missing : id ∉ setting.graph.nodes.map LineageNode.id) : setting.graph.node? id = none := by
  rw [LineageGraph.node?, List.find?_eq_none]
  intro node member same
  exact missing (of_decide_eq_true same ▸ List.mem_map_of_mem member)

theorem iri?_node (iri : Iri) (role : LineageRole) (x y : Float) :
    (setting.node iri (role.idStem ++ iri.text) role x y).iri? = some iri := by
  rw [LineageNode.iri?, conceptIri_node, node_id]
  split
  · next plain => rw [plain, Option.none_or, Iri.ofText?_text]
  · rw [Option.some_or]

theorem conceptAt?_graph {iri : Iri} {role : LineageRole} {x y : Float}
    (member : setting.node iri (role.idStem ++ iri.text) role x y ∈ setting.graph.nodes)
    (lookup : ConceptFinder) :
    setting.graph.conceptAt? (role.idStem ++ iri.text) lookup = lookup iri := by
  have found := node?_graph member
  rw [node_id] at found
  rw [LineageGraph.conceptAt?, found, Option.bind_some, iri?_node, Option.bind_some]

theorem node_of_record {iri : Iri} {concept : Concept}
    (record : (setting.hierarchy.find? iri).or (setting.lookup iri) = some concept) (id : String)
    (role : LineageRole) (x y : Float) :
    (setting.node iri id role x y).label = concept.shownLabel ∧
      (setting.node iri id role x y).conceptType = some concept.conceptType ∧
      (setting.node iri id role x y).placeholder = false := by
  simp only [node, record, and_self]

theorem node_of_no_record {iri : Iri}
    (missing : (setting.hierarchy.find? iri).or (setting.lookup iri) = none) (id : String)
    (role : LineageRole) (x y : Float) : (setting.node iri id role x y).placeholder = true := by
  simp only [node, missing]

end

end Lineage.Setting

namespace ModelsView

theorem iri_of_lookup {tree : ConceptTree} {hierarchy : Neighbourhood} {iri : Iri}
    {concept : Concept} (found : lookup tree hierarchy iri = some concept) : concept.iri = iri := by
  rcases Option.or_eq_some_iff.mp found with payload | ⟨_, loaded⟩
  · exact Neighbourhood.iri_of_find? payload
  · exact ConceptTree.iri_of_get? loaded

theorem find?_or_lookup (tree : ConceptTree) (hierarchy : Neighbourhood) (iri : Iri) :
    (hierarchy.find? iri).or (lookup tree hierarchy iri) = lookup tree hierarchy iri := by
  rw [lookup, ConceptFinder.orElse, ← Option.or_assoc, Option.or_self]

theorem graphOf_resolves (hierarchy : Neighbourhood) (tree : ConceptTree) (layout : Geometry) :
    (Lineage.graphOf hierarchy (lookup tree hierarchy) layout).Resolves hierarchy
      (lookup tree hierarchy) := by
  let setting : Lineage.Setting := ⟨hierarchy, lookup tree hierarchy, layout⟩
  change setting.graph.Resolves hierarchy (lookup tree hierarchy)
  have drawn : ∀ iri, (setting.hierarchy.find? iri).or (setting.lookup iri) =
      lookup tree hierarchy iri := find?_or_lookup tree hierarchy
  refine ⟨?_, ?_, ?_⟩
  · intro node member known
    obtain ⟨iri, role, x, y, given, rfl⟩ := Lineage.Setting.node_eq_node member
    rw [Lineage.Setting.node_id, Lineage.Setting.conceptAt?_graph member]
    cases record : lookup tree hierarchy iri with
    | none =>
        rw [Lineage.Setting.node_of_no_record ((drawn iri).trans record)] at known
        cases known
    | some concept =>
        have stands := Lineage.Setting.node_standsFor given x y
        obtain ⟨label, conceptType, _⟩ := Lineage.Setting.node_of_record
          ((drawn iri).trans record) (role.idStem ++ iri.text) role x y
        rw [← iri_of_lookup record] at stands label conceptType ⊢
        refine ⟨concept, rfl, stands, ?_, label, conceptType⟩
        rw [LineageNode.iriText, Lineage.Setting.conceptIri_node, Lineage.Setting.node_id]
        split
        · next plain => exact plain
        · rfl
  · intro node member unknown
    obtain ⟨iri, role, x, y, _, rfl⟩ := Lineage.Setting.node_eq_node member
    rw [Lineage.Setting.node_id, Lineage.Setting.conceptAt?_graph member]
    cases record : lookup tree hierarchy iri with
    | none => rfl
    | some concept =>
        obtain ⟨_, _, known⟩ := Lineage.Setting.node_of_record
          ((drawn iri).trans record) (role.idStem ++ iri.text) role x y
        rw [known] at unknown
        cases unknown
  · intro id missing
    rw [LineageGraph.conceptAt?, Lineage.Setting.node?_graph_of_notMem missing]
    rfl

section

variable {view : ModelsView}

theorem Selects.selection {iri : Iri} {reply : Except Error Neighbourhood} {step : ViewStep}
    (selects : view.Selects iri reply step) (succeeds : step.result = .ok ()) :
    ∃ hierarchy, step.view.selection = some {
      hierarchy
      graph := Lineage.graphOf hierarchy (lookup step.view.tree hierarchy) view.layout } := by
  cases selects with
  | answered hierarchy => exact ⟨hierarchy, rfl⟩
  | recovered error found => exact ⟨_, rfl⟩
  | unknown error missing => cases succeeds

theorem selection_of_selected {event : ViewEvent} (selected : (view.step event).Selected) :
    ∃ hierarchy, (view.step event).view.selection = some {
      hierarchy
      graph := Lineage.graphOf hierarchy (lookup (view.step event).view.tree hierarchy)
        view.layout } := by
  obtain ⟨succeeds, iri, asked⟩ := selected
  cases event with
  | refresh reply => cases reply <;> simp [step, refresh] at asked
  | redisplay options | toggle node | turn change => simp [step] at asked
  | select other reply => exact (view.select_selects other reply).selection succeeds
  | click id reply =>
      simp only [step] at succeeds asked ⊢
      rcases view.click_cases id reply with ⟨_, nothing⟩ | ⟨_, _, selects⟩
      · simp [nothing] at asked
      · exact selects.selection succeeds

theorem toggle_selection (view : ModelsView) (node : DisplayNode) :
    (view.toggle node).1.selection = view.selection := by
  unfold toggle
  split <;> rfl

theorem clicked?_eq {selection : Selection} (chosen : view.selection = some selection)
    (id : String) : view.clicked? id =
      (selection.graph.conceptAt? id (lookup view.tree selection.hierarchy)).map Concept.iri := by
  rw [clicked?, chosen]
  cases found : selection.graph.conceptAt? id (lookup view.tree selection.hierarchy) with
  | none => simp [found]
  | some concept => simp [found]

theorem calls_click {id : String} {iri : Iri} (hit : view.clicked? id = some iri)
    (reply : Iri → Except Error Neighbourhood) :
    (view.step (.click id reply)).calls = [.hierarchy iri] := by
  rw [calls_step, call?_click, hit]
  rfl

theorem click_missed {id : String} (missed : view.clicked? id = none)
    (reply : Iri → Except Error Neighbourhood) : view.step (.click id reply) = { view } := by
  rw [step, click, missed]

end

/-- A node leads to the record that it shows, so a click on it asks for that concept, and any other
click does nothing. -/
theorem clicks_find_what_is_drawn :
    (∀ hierarchy tree layout, (Lineage.graphOf hierarchy (lookup tree hierarchy) layout).Resolves
      hierarchy (lookup tree hierarchy)) ∧
    ∀ (before : ModelsView) (event : ViewEvent) (later : List ViewEvent),
      let step := before.step event
      let view := step.view.after later
      step.Selected → view.selection = step.view.selection → view.tree = step.view.tree →
      ∃ selection, view.selection = some selection ∧
        (∀ node ∈ selection.graph.nodes, node.placeholder = false →
          ∃ iri, node.StandsFor selection.hierarchy iri ∧
            ∀ reply, (view.step (.click node.id reply)).calls = [.hierarchy iri]) ∧
        (∀ node ∈ selection.graph.nodes, node.placeholder = true →
          ∀ reply, view.step (.click node.id reply) = { view }) ∧
        ∀ id, id ∉ selection.graph.nodes.map LineageNode.id →
          ∀ reply, view.step (.click id reply) = { view } := by
  refine ⟨graphOf_resolves, ?_⟩
  intro before event later step view selected sameSelection sameTree
  obtain ⟨hierarchy, made⟩ := selection_of_selected selected
  have chosen := sameSelection.trans made
  have resolves := graphOf_resolves hierarchy view.tree before.layout
  rw [← sameTree] at chosen
  refine ⟨_, chosen, ?_, ?_, ?_⟩
  · intro node member known
    obtain ⟨concept, found, shows⟩ := resolves.known node member known
    refine ⟨concept.iri, shows.standsFor, fun reply => calls_click ?_ reply⟩
    rw [clicked?_eq chosen, found]
    rfl
  · intro node member unknown reply
    refine click_missed ?_ reply
    rw [clicked?_eq chosen, resolves.placeholder node member unknown]
    rfl
  · intro id missing reply
    refine click_missed ?_ reply
    rw [clicked?_eq chosen, resolves.elsewhere id missing]
    rfl

theorem clicks_find_what_is_drawn_above_selection :
    let a : Iri := ⟨"A", by decide⟩
    let b : Iri := ⟨"B", by decide⟩
    let above : Concept := { iri := a, conceptType := .ontologyClass }
    let below : Concept := {
      iri := b
      conceptType := .ontologyClass
      parents := [a, ⟨"M", by decide⟩] }
    let before : ModelsView := { layout := {}, tree := .ofConcepts [above, below] {} }
    let step := before.step (.select b (.ok { concept := below }))
    let view := step.view.after [.toggle (.concept a), .refresh (.error .json)]
    step.Selected ∧ view.selection = step.view.selection ∧ view.tree = step.view.tree ∧
      ∀ reply, (view.step (.click "A" reply)).calls = [.hierarchy a] ∧
        view.step (.click "M" reply) = { view } := by
  intro a b above below before step view
  have selected : step.Selected := ⟨rfl, b, rfl⟩
  have toggled : view = (step.view.toggle (.concept a)).1 := rfl
  have sameSelection : view.selection = step.view.selection := by rw [toggled, toggle_selection]
  have sameTree : view.tree = step.view.tree := by rw [toggled, toggle_tree]
  obtain ⟨selection, chosen, known, unknown, _⟩ := clicks_find_what_is_drawn.2 before _ _ selected
    sameSelection sameTree
  let hierarchy : Neighbourhood := { concept := below }
  let graph := Lineage.graphOf hierarchy (lookup before.tree hierarchy) {}
  have made : view.selection = some { hierarchy, graph } := sameSelection
  obtain rfl := Option.some.inj (chosen.symm.trans made)
  have loaded : ∃ node ∈ graph.nodes, node.id = "A" ∧ node.role = .parent ∧
      node.placeholder = false := by decide
  have missing : ∃ node ∈ graph.nodes, node.id = "M" ∧ node.placeholder = true := by decide
  refine ⟨selected, sameSelection, sameTree, fun reply => ⟨?_, ?_⟩⟩
  · obtain ⟨node, member, id, role, drawn⟩ := loaded
    obtain ⟨iri, stands, asks⟩ := known node member drawn
    have text : "A" = iri.text := by simpa [id, role, LineageRole.idStem] using stands.id
    obtain rfl : a = iri := Iri.text_injective text
    rw [← id]
    exact asks reply
  · obtain ⟨node, member, id, drawn⟩ := missing
    rw [← id]
    exact unknown node member drawn reply

end ModelsView

end CatalogBrowser
