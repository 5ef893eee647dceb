import CatalogBrowser.ConceptTree.Basic

/-!
The nodes that a concept tree displays: concepts, and with grouping by source one group per source
that owns a root.
-/

namespace CatalogBrowser

inductive DisplayNode where
  | source (source : SourceId)
  | concept (iri : Iri)
  deriving DecidableEq

namespace DisplayNode

def text : DisplayNode → String
  | .source group => group.groupId
  | .concept iri => iri.text

def iri? : DisplayNode → Option Iri
  | .source _ => none
  | .concept iri => some iri

/-- Sources come before concepts; among themselves both are ordered by code points. -/
def before : DisplayNode → DisplayNode → Bool
  | .source left, .source right => left.before right
  | .source _, .concept _ => true
  | .concept _, .source _ => false
  | .concept left, .concept right => left.text < right.text

end DisplayNode

abbrev NodeSet := List DisplayNode

namespace NodeSet

def insert (nodes : NodeSet) (node : DisplayNode) : NodeSet :=
  insertOrdered DisplayNode.before node nodes

def insertAll (nodes : NodeSet) (more : List DisplayNode) : NodeSet := more.foldl insert nodes

theorem mem_insert {nodes : NodeSet} {node other : DisplayNode} :
    other ∈ nodes.insert node ↔ other = node ∨ other ∈ nodes := mem_insertOrdered

theorem mem_insertAll {nodes : NodeSet} {more : List DisplayNode} {other : DisplayNode} :
    other ∈ nodes.insertAll more ↔ other ∈ nodes ∨ other ∈ more := by
  induction more generalizing nodes with
  | nil => simp [insertAll]
  | cons node rest ih =>
    rw [insertAll, List.foldl_cons, ← insertAll, ih, mem_insert, List.mem_cons,
      or_comm (a := other = node), or_assoc]

end NodeSet

namespace ConceptTree

def sourceOf? (tree : ConceptTree) (iri : Iri) : Option SourceId :=
  (tree.get? iri).bind Concept.source

def rootSources (tree : ConceptTree) : List SourceId :=
  sortedBy SourceId.before (tree.roots.filterMap tree.sourceOf?)

def firstLayer (tree : ConceptTree) : List DisplayNode :=
  if tree.options.groupBySource then
    tree.rootSources.map .source ++
      (tree.roots.filter fun iri => (tree.sourceOf? iri).isNone).map .concept
  else tree.roots.map .concept

def nodesBelow (tree : ConceptTree) : DisplayNode → List DisplayNode
  | .source source => (tree.roots.filter fun iri => tree.sourceOf? iri = some source).map .concept
  | .concept iri => (tree.children iri).map .concept

end ConceptTree

end CatalogBrowser
