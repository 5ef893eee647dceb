import CatalogBrowser.Concept.Json

/-!
The neighbourhood of a focal concept: its parents, children and siblings.
-/

namespace CatalogBrowser

structure Neighbourhood where
  concept : Concept
  parents : List Concept := []
  children : List Concept := []
  siblings : List Concept := []
  deriving DecidableEq

namespace Neighbourhood

def all (hierarchy : Neighbourhood) : List Concept :=
  hierarchy.concept :: (hierarchy.parents ++ hierarchy.children ++ hierarchy.siblings)

def find? (hierarchy : Neighbourhood) (iri : Iri) : Option Concept :=
  hierarchy.all.find? fun concept => concept.iri = iri

theorem iri_of_find? {hierarchy : Neighbourhood} {iri : Iri} {concept : Concept}
    (found : hierarchy.find? iri = some concept) : concept.iri = iri := by
  simpa using List.find?_some found

def memberNames : List String := ["concept", "parents", "children", "siblings"]

/-- The focal concept must be readable; unreadable neighbours are skipped. -/
def ofJson? (json : Json) : Option Neighbourhood := do
  let record ← json.record? memberNames
  let concept ← Json.required? record "concept" Concept.ofJson?
  let parents ← Json.withDefault? record "parents" [] Concept.readableOnes?
  let children ← Json.withDefault? record "children" [] Concept.readableOnes?
  let siblings ← Json.withDefault? record "siblings" [] Concept.readableOnes?
  some { concept, parents, children, siblings }

def members (hierarchy : Neighbourhood) : List (String × Option Json) :=
  [("concept", some hierarchy.concept.toJson),
    ("parents", some (.array (hierarchy.parents.map Concept.toJson))),
    ("children", some (.array (hierarchy.children.map Concept.toJson))),
    ("siblings", some (.array (hierarchy.siblings.map Concept.toJson)))]

def toJson (hierarchy : Neighbourhood) : Json := .ofMembers hierarchy.members

end Neighbourhood

end CatalogBrowser
