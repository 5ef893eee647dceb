import CatalogBrowser.Lineage.Basic
import CatalogBrowser.Listing.Style
import CatalogBrowser.Number.Binary64

/-!
A lineage graph as text: the nodes with their places, then the edges.
-/

namespace CatalogBrowser.Listing

def roleWidth : Nat := 16

def lineageLabel (colored : Bool) (node : LineageNode) : String :=
  if node.role = .focus then paint colored .bold node.label
  else if node.placeholder then paint colored .dimmed node.label
  else node.label

def lineageNode (colored : Bool) (node : LineageNode) : String :=
  padRight roleWidth node.role.title ++ " " ++ lineageLabel colored node ++ " (" ++
    Number.wholeText node.position.x ++ ", " ++ Number.wholeText node.position.y ++ ")\n"

def arrow : LineStyle → String
  | .solid => "-->"
  | .dashed => "-.->"

def lineageEdge (edge : LineageEdge) : String :=
  edge.source ++ " " ++ arrow edge.style ++ " " ++ edge.target ++
    (match edge.label with
      | some relation => " [" ++ relation.name ++ "]"
      | none => "") ++ "\n"

def lineage (colored : Bool) (graph : LineageGraph) : String :=
  String.join (graph.nodes.map (lineageNode colored)) ++ String.join (graph.edges.map lineageEdge)

end CatalogBrowser.Listing
