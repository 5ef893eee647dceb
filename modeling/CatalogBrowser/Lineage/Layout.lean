import CatalogBrowser.Iri.Datatype
import CatalogBrowser.Lineage.Basic

/-!
Laying out the lineage graph of a hierarchy.

Around a class or concept the parents form a row above, the children a row below, and the siblings
follow to the right.  Around a property, its super-properties and sub-properties stand on the left,
its domain and range on the right.
-/

namespace CatalogBrowser.Lineage

def spread (center : Float) (index count : Nat) (spacing : Float) : Float :=
  center + (Float.ofNat index - Float.ofNat count / 2 + 0.5) * spacing

def neighbours (payload : List Concept) (stated excluded : List Iri) : List Iri :=
  distinct ((payload.map Concept.iri ++ stated).filter fun iri => iri ∉ excluded)

structure Setting where
  hierarchy : Neighbourhood
  lookup : ConceptFinder
  layout : Geometry

namespace Setting

def focal (setting : Setting) : Concept := setting.hierarchy.concept

def focusId (setting : Setting) : String := setting.focal.iri.text

def node (setting : Setting) (iri : Iri) (id : String) (role : LineageRole) (x y : Float) :
    LineageNode :=
  let conceptIri := if id = iri.text then none else some iri
  match (setting.hierarchy.find? iri).or (setting.lookup iri) with
  | some concept =>
    { id, label := concept.shownLabel, role, position := ⟨x, y⟩
      conceptType := some concept.conceptType, conceptIri, placeholder := false }
  | none =>
    { id, label := iri.localName, role, position := ⟨x, y⟩
      conceptType := none, conceptIri, placeholder := true }

def start (setting : Setting) : LineageGraph where
  focus := setting.focusId
  nodes := [{
    id := setting.focusId
    label := setting.focal.shownLabel
    role := .focus
    position := ⟨setting.layout.centerX, setting.layout.centerY⟩
    conceptType := some setting.focal.conceptType
    placeholder := false }]

/-! Around a class or concept -/

def classParents (setting : Setting) : List Iri :=
  neighbours setting.hierarchy.parents setting.focal.parents [setting.focal.iri]

def classChildren (setting : Setting) : List Iri :=
  neighbours setting.hierarchy.children setting.focal.children
    (setting.classParents ++ [setting.focal.iri])

def classSiblings (setting : Setting) : List Concept :=
  setting.hierarchy.siblings.filter fun sibling =>
    sibling.iri ∉ setting.classParents ++ [setting.focal.iri] ++ setting.classChildren

/-- The parent that a sibling is drawn from: the first one that it states, or the first of all. -/
def sharedParent? (setting : Setting) (sibling : Concept) : Option Iri :=
  (setting.classParents.find? fun parent => parent ∈ sibling.parents).or setting.classParents.head?

def parentPart (setting : Setting) (iri : Iri) (index : Nat) : LineageNode × Option LineageEdge :=
  let x := spread setting.layout.centerX index setting.classParents.length
    setting.layout.horizontalSpacing
  (setting.node iri iri.text .parent x (setting.layout.centerY - setting.layout.verticalSpacing),
    some { source := iri.text, target := setting.focusId })

def childPart (setting : Setting) (iri : Iri) (index : Nat) : LineageNode × Option LineageEdge :=
  let x := spread setting.layout.centerX index setting.classChildren.length
    setting.layout.horizontalSpacing
  (setting.node iri iri.text .child x (setting.layout.centerY + setting.layout.verticalSpacing),
    some { source := setting.focusId, target := iri.text })

def siblingPart (setting : Setting) (sibling : Concept) (index : Nat) :
    LineageNode × Option LineageEdge :=
  let x := setting.layout.centerX + setting.layout.siblingOffset +
    Float.ofNat index * setting.layout.horizontalSpacing
  (setting.node sibling.iri sibling.iri.text .sibling x setting.layout.centerY,
    (setting.sharedParent? sibling).map fun parent =>
      { source := parent.text, target := sibling.iri.text, style := .dashed })

def classParts (setting : Setting) : List (LineageNode × Option LineageEdge) :=
  setting.classParents.mapIdx (fun index iri => setting.parentPart iri index) ++
    setting.classChildren.mapIdx (fun index iri => setting.childPart iri index) ++
    setting.classSiblings.mapIdx (fun index sibling => setting.siblingPart sibling index)

/-! Around a property -/

def superProperties (setting : Setting) : List Iri :=
  neighbours setting.hierarchy.parents setting.focal.parents [setting.focal.iri]

def subProperties (setting : Setting) : List Iri :=
  neighbours setting.hierarchy.children setting.focal.children [setting.focal.iri]

def leftColumn (setting : Setting) : Float := setting.layout.centerX - setting.layout.sideOffset

def rightColumn (setting : Setting) : Float := setting.layout.centerX + setting.layout.sideOffset

def upperRow (setting : Setting) : Float := setting.layout.centerY - setting.layout.verticalSpacing

def lowerRow (setting : Setting) : Float := setting.layout.centerY + setting.layout.verticalSpacing

def superPropertyPart (setting : Setting) (iri : Iri) (index : Nat) :
    LineageNode × Option LineageEdge :=
  let id := "parent-prop-" ++ iri.text
  let x := spread setting.leftColumn index setting.superProperties.length
    setting.layout.horizontalSpacing
  (setting.node iri id .parentProperty x setting.upperRow,
    some { source := setting.focusId, target := id, label := some .subPropertyOf })

def subPropertyPart (setting : Setting) (iri : Iri) (index : Nat) :
    LineageNode × Option LineageEdge :=
  let id := "child-prop-" ++ iri.text
  let x := spread setting.leftColumn index setting.subProperties.length
    setting.layout.horizontalSpacing
  (setting.node iri id .childProperty x setting.lowerRow,
    some { source := id, target := setting.focusId, label := some .subPropertyOf })

def domainPart (setting : Setting) (domain : Iri) : LineageNode × Option LineageEdge :=
  let id := "domain-" ++ domain.text
  (setting.node domain id .domain setting.rightColumn setting.upperRow,
    some { source := setting.focusId, target := id, label := some .domain })

def rangePart (setting : Setting) (range : Iri) : LineageNode × Option LineageEdge :=
  let id := "range-" ++ range.text
  let role := if range.isLiteralType then .datatype else .range
  (setting.node range id role setting.rightColumn setting.lowerRow,
    some { source := setting.focusId, target := id, label := some .range })

def propertyParts (setting : Setting) : List (LineageNode × Option LineageEdge) :=
  setting.superProperties.mapIdx (fun index iri => setting.superPropertyPart iri index) ++
    setting.subProperties.mapIdx (fun index iri => setting.subPropertyPart iri index) ++
    (setting.focal.domain.map setting.domainPart).toList ++
    (setting.focal.range.map setting.rangePart).toList

def parts (setting : Setting) : List (LineageNode × Option LineageEdge) :=
  if setting.focal.isProperty then setting.propertyParts else setting.classParts

def graph (setting : Setting) : LineageGraph := setting.parts.foldl LineageGraph.add setting.start

end Setting

def graphOf (hierarchy : Neighbourhood) (lookup : ConceptFinder) (layout : Geometry) :
    LineageGraph :=
  Setting.graph ⟨hierarchy, lookup, layout⟩

end CatalogBrowser.Lineage
