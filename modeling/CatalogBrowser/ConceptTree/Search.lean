import CatalogBrowser.ConceptTree.Basic
import CatalogBrowser.Text.LowerCase
import CatalogBrowser.Text.Occurrence

/-!
Finding concepts by their label or identifier, without regard to case.
-/

namespace CatalogBrowser.ConceptTree

def mentions (text needle : String) : Bool :=
  Text.occursIn needle.toList (Text.lowerCase text).toList

def search (tree : ConceptTree) (query : String) : List Concept :=
  let needle := Text.lowerCase (Text.trim query)
  if needle.isEmpty then []
  else tree.concepts.filter fun concept =>
    mentions concept.shownLabel needle || mentions concept.iri.text needle

end CatalogBrowser.ConceptTree
