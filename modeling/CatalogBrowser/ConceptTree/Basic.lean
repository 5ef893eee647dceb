import CatalogBrowser.Concept.Hierarchy
import CatalogBrowser.ConceptTree.Links
import CatalogBrowser.ConceptTree.Options

/-!
The concept tree: a list of concepts with the links that can be followed between them.

The first record of every identifier is loaded, in input order, if the options show its type.
Stated parents decide.  Only a concept that states no parent at all is placed under those that
state it as a child.  References to concepts that are not loaded are left out, so a concept whose
parents are all missing is a root.

The parents of a concept and its displayed parents may differ: with grouping by domain a property
is displayed under its domain alone.
-/

namespace CatalogBrowser

structure ConceptTree where
  input : List Concept
  options : DisplayOptions
  concepts : List Concept
  hierarchy : Links
  display : Links
  deriving DecidableEq

namespace ConceptTree

def loadedOf (options : DisplayOptions) (input : List Concept) : List Concept :=
  Concept.firstOfEach (input.filter fun concept => options.shows concept.conceptType)

def holds (loaded : List Concept) (iri : Iri) : Bool :=
  loaded.any fun concept => concept.iri = iri

def statedLinks (loaded : List Concept) : List (Iri × Iri) :=
  loaded.flatMap fun concept =>
    (concept.parents.filter fun parent => parent ≠ concept.iri && holds loaded parent).map
      fun parent => (parent, concept.iri)

/-- Whether a concept can be placed under those that state it as a child. -/
def isAdoptable (loaded : List Concept) (iri : Iri) : Bool :=
  match loaded.find? fun concept => concept.iri = iri with
  | some concept => concept.parents.isEmpty
  | none => false

def filledLinks (loaded : List Concept) : List (Iri × Iri) :=
  loaded.flatMap fun concept =>
    (concept.children.filter fun child => isAdoptable loaded child && child ≠ concept.iri).map
      fun child => (concept.iri, child)

def hierarchyOf (loaded : List Concept) : Links :=
  ((Links.ofOrder (loaded.map Concept.iri)).linkAll (statedLinks loaded)).linkAll
    (filledLinks loaded)

def groupingDomain? (options : DisplayOptions) (loaded : List Concept) (concept : Concept) :
    Option Iri :=
  if options.groupByDomain && concept.isProperty then
    concept.domain.filter fun domain => domain ≠ concept.iri && holds loaded domain
  else none

def displayLinks (options : DisplayOptions) (loaded : List Concept) (hierarchy : Links) :
    List (Iri × Iri) :=
  loaded.flatMap fun concept =>
    match groupingDomain? options loaded concept with
    | some domain => [(domain, concept.iri)]
    | none => (hierarchy.parents.under concept.iri).map fun parent => (parent, concept.iri)

def ofConcepts (input : List Concept) (options : DisplayOptions) : ConceptTree :=
  let loaded := loadedOf options input
  let order := loaded.map Concept.iri
  let hierarchy := hierarchyOf loaded
  let display := (Links.ofOrder order).linkAll (displayLinks options loaded hierarchy)
  { input, options
    concepts := loaded
    hierarchy := hierarchy.sortChildren order
    display := display.sortChildren order }

def empty : ConceptTree := ofConcepts [] {}

def redisplay (tree : ConceptTree) (options : DisplayOptions) : ConceptTree :=
  ofConcepts tree.input options

def order (tree : ConceptTree) : List Iri := tree.concepts.map Concept.iri

def get? (tree : ConceptTree) (iri : Iri) : Option Concept :=
  tree.concepts.find? fun concept => concept.iri = iri

def contains (tree : ConceptTree) (iri : Iri) : Bool := (tree.get? iri).isSome

def size (tree : ConceptTree) : Nat := tree.concepts.length

def parents (tree : ConceptTree) (iri : Iri) : List Iri := tree.display.parents.under iri

def children (tree : ConceptTree) (iri : Iri) : List Iri := tree.display.children.under iri

def roots (tree : ConceptTree) : List Iri :=
  tree.order.filter fun iri => (tree.parents iri).isEmpty

def sources (tree : ConceptTree) : List SourceId :=
  sortedBy SourceId.before (tree.concepts.filterMap Concept.source)

def resolve (tree : ConceptTree) (iris : List Iri) : List Concept := iris.filterMap tree.get?

def statedParents (tree : ConceptTree) (iri : Iri) : List Iri := tree.hierarchy.parents.under iri

def statedChildren (tree : ConceptTree) (iri : Iri) : List Iri :=
  tree.hierarchy.children.under iri

def statedSiblings (tree : ConceptTree) (iri : Iri) : List Iri :=
  distinct (((tree.statedParents iri).flatMap tree.statedChildren).filter fun other => other ≠ iri)

def neighbourhood? (tree : ConceptTree) (iri : Iri) : Option Neighbourhood :=
  (tree.get? iri).map fun concept =>
    { concept
      parents := tree.resolve (tree.statedParents iri)
      children := tree.resolve (tree.statedChildren iri)
      siblings := tree.resolve (tree.statedSiblings iri) }

theorem iri_of_get? {tree : ConceptTree} {iri : Iri} {concept : Concept}
    (found : tree.get? iri = some concept) : concept.iri = iri := by
  simpa using List.find?_some found

theorem mem_order_of_get? {tree : ConceptTree} {iri : Iri} {concept : Concept}
    (found : tree.get? iri = some concept) : iri ∈ tree.order :=
  List.mem_map.mpr ⟨concept, List.mem_of_find?_eq_some found, iri_of_get? found⟩

end ConceptTree

end CatalogBrowser
