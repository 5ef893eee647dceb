import CatalogBrowser.Proofs.ConceptTree.Unfolding
import CatalogBrowser.Proofs.Iri.LocalName
import CatalogBrowser.Proofs.Lineage.WellFormed

/-!
What is shown of a concept is never blank: its label in the displayed tree and in the lineage graph
has a character to see, whatever its record says and even if there is no record of it.
-/

namespace CatalogBrowser

theorem ConceptTree.isBlankText_label_branchAt? {tree : ConceptTree} {above : List Iri} {iri : Iri}
    {branch : Branch} (drawn : tree.branchAt? above iri = some branch) :
    Text.isBlankText branch.label = false := by
  obtain ⟨concept, _, rfl⟩ := branchAt?_eq_some drawn
  exact concept.isBlankText_shownLabel

theorem ConceptTree.isBlankText_label_of_leads {tree : ConceptTree} {ids : List String}
    {branch : Branch} (leads : Branch.Leads tree.view ids branch)
    (ungrouped : branch.conceptType ≠ .sourceGroup) : Text.isBlankText branch.label = false := by
  rcases branch_of_leads leads with ⟨source, drawn⟩ | ⟨above, iri, drawn⟩
  · obtain rfl := Option.some.inj drawn
    exact absurd rfl ungrouped
  · exact isBlankText_label_branchAt? drawn

namespace Lineage.Setting

theorem isBlankText_label_node {setting : Setting} (iri : Iri) (id : String) (role : LineageRole)
    (x y : Float) : Text.isBlankText (setting.node iri id role x y).label = false := by
  unfold node
  dsimp only
  split
  · next concept _ => exact concept.isBlankText_shownLabel
  · exact iri.isBlankText_localName

theorem isBlankText_label_graph {setting : Setting} {node : LineageNode}
    (member : node ∈ setting.graph.nodes) : Text.isBlankText node.label = false := by
  obtain ⟨iri, role, x, y, _, rfl⟩ := node_eq_node member
  exact isBlankText_label_node ..

end Lineage.Setting

/-- A local name is the last run of a text without separators, so no label of a concept is blank. -/
theorem labels_are_visible :
    (∀ iri : Iri,
      let chars := iri.text.toList
      let name := iri.localName.toList
      name ≠ [] ∧ name <:+: chars ∧ (∀ c ∈ name, Text.isBlank c = false) ∧
      if chars.all Iri.isSeparator then name = chars
      else Iri.ClosingRun chars name ∧ ∀ run, Iri.ClosingRun chars run → run <:+ name) ∧
    (∀ concept : Concept, Text.isBlankText concept.shownLabel = false) ∧
    (∀ (tree : ConceptTree) ids branch, Branch.Leads tree.view ids branch →
      branch.conceptType ≠ .sourceGroup → Text.isBlankText branch.label = false) ∧
    ∀ hierarchy lookup layout, ∀ node ∈ (Lineage.graphOf hierarchy lookup layout).nodes,
      Text.isBlankText node.label = false := by
  refine ⟨fun iri => ⟨iri.localName_ne_nil, ?_, iri.visible_localName, ?_⟩,
    Concept.isBlankText_shownLabel, fun tree ids branch => ConceptTree.isBlankText_label_of_leads,
    fun hierarchy lookup layout node => Lineage.Setting.isBlankText_label_graph⟩
  · rw [Iri.toList_localName]
    exact Iri.isInfix_localChars _
  · rw [Iri.toList_localName]
    split
    · next separators => exact Iri.localChars_of_separators (List.all_eq_true.mp separators)
    · next mixed =>
      rw [List.all_eq_true] at mixed
      rw [Iri.localChars_of_mixed mixed]
      exact ⟨Iri.closingRun_lastRun _, fun run closing => closing.suffix⟩

theorem labels_are_visible_of_blank_records :
    let x : Iri := ⟨"urn:x/", by decide⟩
    let unnamed : SourceId := ⟨""⟩
    let blank : Concept := {
      iri := x
      conceptType := .ontologyClass
      label := some " "
      parents := [⟨"##", by decide⟩]
      source := some unnamed }
    let tree := ConceptTree.ofConcepts [blank] { groupBySource := true }
    let branch : Branch := .node "urn:x/" "x" .ontologyClass []
    let graph := Lineage.graphOf { concept := blank } (fun _ => none) {}
    (Branch.Leads tree.view ["source:", "urn:x/"] branch ∧ branch.conceptType ≠ .sourceGroup ∧
      Text.isBlankText branch.label = false) ∧
    ∃ node ∈ graph.nodes, node.placeholder = true ∧ node.label = "##" ∧
      Text.isBlankText node.label = false := by
  intro x unnamed blank tree branch graph
  obtain ⟨_, _, inTree, inGraph⟩ := labels_are_visible
  have drawn : tree.branchAt? [] x = some branch := by
    have found : tree.get? x = some blank := by decide
    have alone : tree.children x = [] := by decide
    have label : blank.shownLabel = "x" := by decide
    rw [ConceptTree.branchAt?_of_get? found, alone, label]
    rfl
  have member : Branch.node "source:" "" .sourceGroup [branch] ∈ tree.view := by
    have sources : tree.rootSources = [unnamed] := by decide
    have roots : tree.roots.filter (fun root => tree.sourceOf? root = some unnamed) = [x] := by
      decide
    rw [ConceptTree.view_grouped rfl, sources, List.map_singleton, roots,
      List.filterMap_cons_some drawn]
    exact List.mem_cons_self
  have leads : Branch.Leads tree.view ["source:", "urn:x/"] branch :=
    .deeper member (.here List.mem_cons_self)
  have concept : branch.conceptType ≠ .sourceGroup := by decide
  have nodes : graph.nodes.map (fun node => (node.label, node.placeholder)) =
      [("x", false), ("##", true)] := by decide +kernel
  have second : ("##", true) ∈ graph.nodes.map fun node => (node.label, node.placeholder) := by
    simp [nodes]
  obtain ⟨node, listed, same⟩ := List.mem_map.mp second
  obtain ⟨label, unknown⟩ := Prod.mk.inj same
  exact ⟨⟨leads, concept, inTree tree _ branch leads concept⟩, node, listed, unknown, label,
    inGraph _ _ _ node listed⟩

end CatalogBrowser
