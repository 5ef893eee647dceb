import CatalogBrowser.Distinct
import CatalogBrowser.Iri.Basic

/-!
Links between concepts, which can be followed up and down.

Both directions are tables of lists.  A link is entered in both, so each is the converse of the
other; a link that is entered again changes nothing.
-/

namespace CatalogBrowser

abbrev LinkTable := List (Iri × List Iri)

namespace LinkTable

def ofOrder (order : List Iri) : LinkTable := order.map fun iri => (iri, [])

def under (table : LinkTable) (iri : Iri) : List Iri := (table.lookup iri).getD []

def push (key item : Iri) : LinkTable → LinkTable
  | [] => [(key, [item])]
  | (other, items) :: rest =>
    if other = key then (other, addNew items item) :: rest
    else (other, items) :: push key item rest

def sort (order : List Iri) (table : LinkTable) : LinkTable :=
  table.map fun (key, items) =>
    (key, sortedBy (fun left right => order.idxOf left < order.idxOf right) items)

end LinkTable

structure Links where
  parents : LinkTable
  children : LinkTable
  deriving DecidableEq

namespace Links

def ofOrder (order : List Iri) : Links := ⟨.ofOrder order, .ofOrder order⟩

def link (links : Links) (parent child : Iri) : Links :=
  ⟨links.parents.push child parent, links.children.push parent child⟩

def linkAll (links : Links) (pairs : List (Iri × Iri)) : Links :=
  pairs.foldl (fun links (parent, child) => links.link parent child) links

def sortChildren (links : Links) (order : List Iri) : Links :=
  { links with children := links.children.sort order }

end Links

end CatalogBrowser
