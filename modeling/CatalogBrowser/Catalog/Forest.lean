import CatalogBrowser.Catalog.Node

/-!
Finding a node in a forest of catalog nodes, and giving it new children.
-/

namespace CatalogBrowser

namespace CatalogNode

mutual

def find? (id : String) : CatalogNode → Option CatalogNode
  | .node own name nodeType hasChildren children =>
    if own = id then some (.node own name nodeType hasChildren children)
    else findBelow? id children

def findBelow? (id : String) : Option (List CatalogNode) → Option CatalogNode
  | none => none
  | some nodes => findIn? id nodes

def findIn? (id : String) : List CatalogNode → Option CatalogNode
  | [] => none
  | first :: rest =>
    match first.find? id with
    | some found => some found
    | none => findIn? id rest

end

def withChildren (children : List CatalogNode) : CatalogNode → CatalogNode
  | .node id name nodeType _ _ => .node id name nodeType (!children.isEmpty) (some children)

mutual

/-- Gives new children to a node with an id.  `found` says whether one was met before: then a node
with the id is still changed, but nothing is searched any deeper. -/
def graft (id : String) (new : List CatalogNode) (found : Bool) :
    CatalogNode → CatalogNode × Bool
  | .node own name nodeType hasChildren children =>
    if own = id then ((node own name nodeType hasChildren children).withChildren new, true)
    else if found then (.node own name nodeType hasChildren children, true)
    else
      let (below, found) := graftBelow id new children
      (.node own name nodeType hasChildren below, found)

def graftBelow (id : String) (new : List CatalogNode) :
    Option (List CatalogNode) → Option (List CatalogNode) × Bool
  | none => (none, false)
  | some nodes =>
    let (nodes, found) := graftIn id new false nodes
    (some nodes, found)

def graftIn (id : String) (new : List CatalogNode) (found : Bool) :
    List CatalogNode → List CatalogNode × Bool
  | [] => ([], found)
  | first :: rest =>
    let (first, found) := first.graft id new found
    let (rest, found) := graftIn id new found rest
    (first :: rest, found)

end

def putChildren (nodes : List CatalogNode) (id : String) (new : List CatalogNode) :
    List CatalogNode × Bool :=
  graftIn id new false nodes

end CatalogNode

end CatalogBrowser
