import CatalogBrowser.Access.Permissions
import CatalogBrowser.Concept.Groups
import CatalogBrowser.ConceptTree.Ancestors
import CatalogBrowser.Lineage.Layout
import CatalogBrowser.Notification
import CatalogBrowser.Page

/-!
The view of the semantic models: a concept tree, the nodes that are expanded in it, and the
selected concept with its lineage graph.

The operations that ask the backend take its reply, and what they come to names the calls they
made.  A reply that is an error raises a notification; refreshing then keeps the tree, and
selecting falls back on the loaded tree.
-/

namespace CatalogBrowser

structure Selection where
  hierarchy : Neighbourhood
  graph : LineageGraph

def Selection.toJson (real : Float → Json) (selection : Selection) : Json :=
  .object [("hierarchy", selection.hierarchy.toJson), ("graph", selection.graph.toJson real)]

structure ModelsView where
  layout : Geometry
  tree : ConceptTree
  expanded : NodeSet := []
  selection : Option Selection := none
  page : Option Page := none

inductive ConceptCall where
  | allConcepts
  | hierarchy (iri : Iri)
  deriving DecidableEq

structure ViewStep where
  view : ModelsView
  result : Except Error Unit := .ok ()
  notes : List Notification := []
  calls : List ConceptCall := []

namespace ModelsView

def open? (permissions : Permissions) (options : DisplayOptions) (layout : Geometry) :
    Except Error ModelsView := do
  permissions.demand .semanticModels .readOnly
  return { layout, tree := .ofConcepts [] options }

def isExpanded (view : ModelsView) (node : DisplayNode) : Bool := node ∈ view.expanded

def toggle (view : ModelsView) (node : DisplayNode) : ModelsView × Bool :=
  if node ∈ view.expanded then
    ({ view with expanded := view.expanded.filter fun other => other ≠ node }, false)
  else ({ view with expanded := view.expanded.insert node }, true)

def reveal (view : ModelsView) (iri : Iri) : ModelsView :=
  { view with expanded := view.expanded.insertAll (view.tree.nodesToExpand iri) }

def refresh (view : ModelsView) : Except Error ConceptGroups → ViewStep
  | .ok grouped =>
    { view := { view with tree := .ofConcepts grouped.flatten view.tree.options }
      calls := [.allConcepts] }
  | .error error =>
    { view
      result := .error error
      notes := [.ofError "Failed to load concepts" error]
      calls := [.allConcepts] }

def redisplay (view : ModelsView) (options : DisplayOptions) : ModelsView :=
  let view := { view with tree := view.tree.redisplay options }
  match view.selection with
  | some selection => view.reveal selection.hierarchy.concept.iri
  | none => view

def lookup (tree : ConceptTree) (hierarchy : Neighbourhood) : ConceptFinder :=
  ConceptFinder.orElse hierarchy.find? tree.get?

def focus (view : ModelsView) (iri : Iri) (hierarchy : Neighbourhood) : ModelsView :=
  let graph := Lineage.graphOf hierarchy (lookup view.tree hierarchy) view.layout
  let entity : Subject :=
    { kind := "concept", id := iri.text, label := hierarchy.concept.shownLabel }
  { view.reveal iri with
    page := view.page.map fun page => page.select entity
    selection := some { hierarchy, graph } }

def select (view : ModelsView) (iri : Iri) : Except Error Neighbourhood → ViewStep
  | .ok hierarchy => { view := view.focus iri hierarchy, calls := [.hierarchy iri] }
  | .error error =>
    let notes := [.ofError "Failed to load hierarchy" error]
    match view.tree.neighbourhood? iri with
    | some hierarchy => { view := view.focus iri hierarchy, notes, calls := [.hierarchy iri] }
    | none =>
      { view
        result := .error (.notFound ("concept `" ++ iri.text ++ "`"))
        notes
        calls := [.hierarchy iri] }

/-- The concept that a click on a node of the graph selects; nodes without a record select
nothing. -/
def clicked? (view : ModelsView) (id : String) : Option Iri := do
  let selection ← view.selection
  let concept ← selection.graph.conceptAt? id (lookup view.tree selection.hierarchy)
  some concept.iri

def click (view : ModelsView) (id : String) (reply : Iri → Except Error Neighbourhood) :
    ViewStep :=
  match view.clicked? id with
  | some iri => view.select iri (reply iri)
  | none => { view }

end ModelsView

end CatalogBrowser
