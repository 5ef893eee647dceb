import CatalogBrowser.ConceptTree.Ancestors

/-!
The displayed tree as a whole.

A concept may occur in several places.  Where it comes again on its own branch it has no children,
so that a tree with cycles still has an end.
-/

namespace CatalogBrowser

inductive Branch where
  | node (id label : String) (conceptType : ConceptType) (children : List Branch)

namespace Branch

def id : Branch → String
  | .node id _ _ _ => id

def label : Branch → String
  | .node _ label _ _ => label

def conceptType : Branch → ConceptType
  | .node _ _ conceptType _ => conceptType

def children : Branch → List Branch
  | .node _ _ _ children => children

mutual

def toJson : Branch → Json
  | .node id label conceptType children =>
    .object [("id", .string id), ("label", .string label), ("concept_type", conceptType.toJson),
      ("children", .array (listToJson children))]

def listToJson : List Branch → List Json
  | [] => []
  | view :: rest => view.toJson :: listToJson rest

end

end Branch

namespace ConceptTree

mutual

/-- Draws the branch at a concept; `path` holds the concepts higher up and is in the end what it
was. -/
def drawBranch (tree : ConceptTree) (path : List Iri) (iri : Iri) :
    { drawn : Option Branch × List Iri // drawn.2 = path } :=
  match _ : tree.get? iri with
  | none => ⟨(none, path), rfl⟩
  | some concept =>
    if _ : iri ∈ path then
      ⟨(some (.node iri.text concept.shownLabel concept.conceptType []), path), rfl⟩
    else
      let ⟨(below, after), same⟩ := tree.drawBranches (iri :: path) (tree.children iri)
      ⟨(some (.node iri.text concept.shownLabel concept.conceptType below), after.erase iri), by
        simp only at same
        rw [same, List.erase_cons_head]⟩
termination_by ((unmet tree.order path).length, 0)
decreasing_by exact Prod.Lex.left _ _ (unmet_cons_lt (mem_order_of_get? ‹_›) ‹_›)

def drawBranches (tree : ConceptTree) (path : List Iri) (iris : List Iri) :
    { drawn : List Branch × List Iri // drawn.2 = path } :=
  match iris with
  | [] => ⟨([], path), rfl⟩
  | iri :: rest =>
    let ⟨(first, between), kept⟩ := tree.drawBranch path iri
    let ⟨(others, after), same⟩ := tree.drawBranches between rest
    ⟨(first.toList ++ others, after), same.trans kept⟩
termination_by ((unmet tree.order path).length, iris.length + 1)
decreasing_by
  · exact Prod.Lex.right _ (by simp)
  · simp only at kept
    rw [kept]
    exact Prod.Lex.right _ (by simp)

end

def drawNode (tree : ConceptTree) (path : List Iri) : DisplayNode → Option Branch × List Iri
  | .source source =>
    let roots := (tree.nodesBelow (.source source)).filterMap DisplayNode.iri?
    let (below, path) := (tree.drawBranches path roots).val
    (some (.node source.groupId source.name .sourceGroup below), path)
  | .concept iri => (tree.drawBranch path iri).val

def drawNext (tree : ConceptTree) (drawn : List Branch × List Iri) (node : DisplayNode) :
    List Branch × List Iri :=
  let (branch, path) := tree.drawNode drawn.2 node
  (drawn.1 ++ branch.toList, path)

def view (tree : ConceptTree) : List Branch := (tree.firstLayer.foldl tree.drawNext ([], [])).1

end ConceptTree

end CatalogBrowser
