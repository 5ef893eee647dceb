import CatalogBrowser.ConceptTree.View
import CatalogBrowser.Listing.Style

/-!
The displayed concept tree as text: one node a line, indented by its depth.
-/

namespace CatalogBrowser.Listing

def treeLabel (colored : Bool) (label : String) : ConceptType → String
  | .sourceGroup => paint colored .bold label
  | .property => paint colored .cyan label
  | .ontologyClass | .concept => label

def treeLine (colored : Bool) (depth : Nat) (view : Branch) : String :=
  indent depth ++ treeLabel colored view.label view.conceptType ++ " " ++
    paint colored .dimmed view.id ++ "\n"

mutual

def treeNode (colored : Bool) (depth : Nat) : Branch → String
  | .node id label conceptType children =>
    treeLine colored depth (.node id label conceptType children) ++
      treeNodes colored (depth + 1) children

def treeNodes (colored : Bool) (depth : Nat) : List Branch → String
  | [] => ""
  | view :: rest => treeNode colored depth view ++ treeNodes colored depth rest

end

def tree (colored : Bool) (views : List Branch) : String := treeNodes colored 0 views

end CatalogBrowser.Listing
