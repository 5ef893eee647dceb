import CatalogBrowser.Concept.Basic
import CatalogBrowser.Json.Basic

/-!
What a concept tree displays and how it groups it.
-/

namespace CatalogBrowser

structure DisplayOptions where
  includeProperties : Bool := true
  groupBySource : Bool := false
  groupByDomain : Bool := false
  deriving Repr, DecidableEq

namespace DisplayOptions

def shows (options : DisplayOptions) : ConceptType → Bool
  | .ontologyClass | .concept => true
  | .property => options.includeProperties
  | .sourceGroup => false

def memberNames : List String := ["include_properties", "group_by_source", "group_by_domain"]

def ofJson? (json : Json) : Option DisplayOptions := do
  let standard : DisplayOptions := {}
  let record ← json.record? memberNames
  let includeProperties ←
    Json.withDefault? record "include_properties" standard.includeProperties Json.bool?
  let groupBySource ← Json.withDefault? record "group_by_source" standard.groupBySource Json.bool?
  let groupByDomain ← Json.withDefault? record "group_by_domain" standard.groupByDomain Json.bool?
  some { includeProperties, groupBySource, groupByDomain }

def toJson (options : DisplayOptions) : Json :=
  .object [("include_properties", .bool options.includeProperties),
    ("group_by_source", .bool options.groupBySource),
    ("group_by_domain", .bool options.groupByDomain)]

end DisplayOptions

end CatalogBrowser
