import CatalogBrowser.Concept.Hierarchy

/-!
The lineage graph: a focal concept and its relatives, each at a place of its own.

A node stands for a concept.  Its id is the identifier of the concept, unless one concept may play
several parts; then the id also names the part and the identifier is kept beside it.
-/

namespace CatalogBrowser

structure Geometry where
  centerX : Float := 400
  centerY : Float := 300
  horizontalSpacing : Float := 200
  verticalSpacing : Float := 150
  siblingOffset : Float := 300
  sideOffset : Float := 250

namespace Geometry

def memberNames : List String :=
  ["center_x", "center_y", "horizontal_spacing", "vertical_spacing", "sibling_offset",
    "side_offset"]

def toJson (real : Float → Json) (settings : Geometry) : Json :=
  .object (memberNames.zip ([settings.centerX, settings.centerY, settings.horizontalSpacing,
    settings.verticalSpacing, settings.siblingOffset, settings.sideOffset].map real))

def ofJson? (json : Json) : Option Geometry := do
  let standard : Geometry := {}
  let record ← json.record? memberNames
  let centerX ← Json.withDefault? record "center_x" standard.centerX Json.real?
  let centerY ← Json.withDefault? record "center_y" standard.centerY Json.real?
  let horizontalSpacing ←
    Json.withDefault? record "horizontal_spacing" standard.horizontalSpacing Json.real?
  let verticalSpacing ←
    Json.withDefault? record "vertical_spacing" standard.verticalSpacing Json.real?
  let siblingOffset ← Json.withDefault? record "sibling_offset" standard.siblingOffset Json.real?
  let sideOffset ← Json.withDefault? record "side_offset" standard.sideOffset Json.real?
  some { centerX, centerY, horizontalSpacing, verticalSpacing, siblingOffset, sideOffset }

end Geometry

inductive LineageRole where
  | focus
  | parent
  | child
  | sibling
  | parentProperty
  | childProperty
  | domain
  | range
  | datatype
  deriving Repr, DecidableEq

namespace LineageRole

def name : LineageRole → String
  | .focus => "focus"
  | .parent => "parent"
  | .child => "child"
  | .sibling => "sibling"
  | .parentProperty => "parent_property"
  | .childProperty => "child_property"
  | .domain => "domain"
  | .range => "range"
  | .datatype => "datatype"

def title : LineageRole → String
  | .parentProperty => "parent property"
  | .childProperty => "child property"
  | role => role.name

end LineageRole

structure Position where
  x : Float
  y : Float

structure LineageNode where
  id : String
  label : String
  role : LineageRole
  position : Position
  conceptType : Option ConceptType
  /-- The identifier of the concept, where the id is another text. -/
  conceptIri : Option Iri := none
  placeholder : Bool

def LineageNode.toJson (real : Float → Json) (node : LineageNode) : Json :=
  .ofMembers [("id", some (.string node.id)), ("label", some (.string node.label)),
    ("role", some (.string node.role.name)),
    ("position", some (.array [real node.position.x, real node.position.y])),
    ("concept_type", node.conceptType.map ConceptType.toJson),
    ("original_iri", node.conceptIri.map Iri.toJson),
    ("placeholder", some (.bool node.placeholder))]

def LineageNode.iri? (node : LineageNode) : Option Iri :=
  node.conceptIri.or (Iri.ofText? node.id)

inductive PropertyRelation where
  | domain
  | range
  | subPropertyOf
  deriving Repr, DecidableEq

def PropertyRelation.name : PropertyRelation → String
  | .domain => "domain"
  | .range => "range"
  | .subPropertyOf => "subPropertyOf"

inductive LineStyle where
  | solid
  | dashed
  deriving Repr, DecidableEq

def LineStyle.name : LineStyle → String
  | .solid => "solid"
  | .dashed => "dashed"

structure LineageEdge where
  source : String
  target : String
  label : Option PropertyRelation := none
  style : LineStyle := .solid
  deriving Repr, DecidableEq

def LineageEdge.id (edge : LineageEdge) : String :=
  match edge.label with
  | some relation => edge.source ++ "-" ++ relation.name ++ "->" ++ edge.target
  | none => edge.source ++ "->" ++ edge.target

def LineageEdge.toJson (edge : LineageEdge) : Json :=
  .ofMembers [("id", some (.string edge.id)), ("source", some (.string edge.source)),
    ("target", some (.string edge.target)),
    ("label", edge.label.map fun relation => .string relation.name),
    ("style", some (.string edge.style.name))]

structure LineageGraph where
  focus : String
  nodes : List LineageNode
  edges : List LineageEdge := []

abbrev ConceptFinder := Iri → Option Concept

def ConceptFinder.orElse (first second : ConceptFinder) : ConceptFinder :=
  fun iri => (first iri).or (second iri)

namespace LineageGraph

def toJson (real : Float → Json) (graph : LineageGraph) : Json :=
  .object [("focus", .string graph.focus),
    ("nodes", .array (graph.nodes.map (LineageNode.toJson real))),
    ("edges", .array (graph.edges.map LineageEdge.toJson))]

def node? (graph : LineageGraph) (id : String) : Option LineageNode :=
  graph.nodes.find? fun node => node.id = id

def hasNode (graph : LineageGraph) (id : String) : Bool := graph.nodes.any fun node => node.id = id

def insertEdge (graph : LineageGraph) (edge : LineageEdge) : LineageGraph :=
  if graph.edges.any fun other => other.id = edge.id then graph
  else { graph with edges := graph.edges ++ [edge] }

def add (graph : LineageGraph) (part : LineageNode × Option LineageEdge) : LineageGraph :=
  if graph.hasNode part.1.id then graph
  else
    let grown := { graph with nodes := graph.nodes ++ [part.1] }
    (part.2.map grown.insertEdge).getD grown

/-- The concept behind a node; nothing for unknown ids and for nodes without a record. -/
def conceptAt? (graph : LineageGraph) (id : String) (lookup : ConceptFinder) : Option Concept :=
  ((graph.node? id).bind LineageNode.iri?).bind lookup

end LineageGraph

end CatalogBrowser
