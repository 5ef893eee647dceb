import CatalogBrowser.Catalog.Tree
import CatalogBrowser.Listing.Style

/-!
The visible rows of a catalog tree as text, each with a marker for its state.
-/

namespace CatalogBrowser.Listing

def marker (row : TreeRow) : String :=
  match row.state with
  | .expanded => "▾"
  | .loading => "…"
  | .collapsed => if row.expandable then "▸" else " "

def catalogLine (colored : Bool) (row : TreeRow) : String :=
  indent row.depth ++ marker row ++ " " ++ row.name ++ " " ++ paint colored .dimmed row.id ++ "\n"

def catalog (colored : Bool) (rows : List TreeRow) : String :=
  String.join (rows.map (catalogLine colored))

end CatalogBrowser.Listing
