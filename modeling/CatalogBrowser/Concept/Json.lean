import CatalogBrowser.Concept.Basic
import CatalogBrowser.Json.Basic

/-!
Concepts as JSON values.

The identifier and the type of a concept must be usable.  References to other concepts are read
leniently: `null` and a text that identifies nothing are dropped, but anything that is no text
makes the concept unreadable.  In a list of concepts, unreadable entries are skipped.
-/

namespace CatalogBrowser

def Iri.toJson (iri : Iri) : Json := .string iri.text

def Iri.ofJson? (json : Json) : Option Iri := json.text?.bind Iri.ofText?

def SourceId.toJson (source : SourceId) : Json := .string source.name

def SourceId.ofJson? (json : Json) : Option SourceId := json.text?.map SourceId.mk

def ConceptType.toJson (kind : ConceptType) : Json := .string kind.name

def ConceptType.ofJson? : Json → Option ConceptType := Json.choice? ConceptType.ofName?

def Iri.reference? : Json → Option (Option Iri)
  | .null => some none
  | .string text => some (Iri.ofText? text)
  | _ => none

def Iri.references? : Json → Option (List Iri)
  | .null => some []
  | .array items => (items.mapM Iri.reference?).map (List.filterMap id)
  | _ => none

namespace Concept

def memberNames : List String :=
  ["iri", "label", "concept_type", "parent_concepts", "child_concepts", "source_context",
    "domain", "range", "comment"]

def ofJson? (json : Json) : Option Concept := do
  let record ← json.record? memberNames
  let iri ← Json.required? record "iri" Iri.ofJson?
  let label ← Json.optional? record "label" Json.text?
  let conceptType ← Json.required? record "concept_type" ConceptType.ofJson?
  let parents ← Json.withDefault? record "parent_concepts" [] Iri.references?
  let children ← Json.withDefault? record "child_concepts" [] Iri.references?
  let source ← Json.optional? record "source_context" SourceId.ofJson?
  let domain ← Json.withDefault? record "domain" none Iri.reference?
  let range ← Json.withDefault? record "range" none Iri.reference?
  let comment ← Json.optional? record "comment" Json.text?
  some { iri, label, conceptType, parents, children, source, domain, range, comment }

def members (concept : Concept) : List (String × Option Json) :=
  [("iri", some concept.iri.toJson),
    ("label", concept.label.map .string),
    ("concept_type", some concept.conceptType.toJson),
    ("parent_concepts", some (.array (concept.parents.map Iri.toJson))),
    ("child_concepts", some (.array (concept.children.map Iri.toJson))),
    ("source_context", concept.source.map SourceId.toJson),
    ("domain", concept.domain.map Iri.toJson),
    ("range", concept.range.map Iri.toJson),
    ("comment", concept.comment.map .string)]

def toJson (concept : Concept) : Json := .ofMembers concept.members

def readableOnes? : Json → Option (List Concept)
  | .null => some []
  | .array items => some (items.filterMap ofJson?)
  | _ => none

def everyOne? (json : Json) : Option (List Concept) := json.items?.bind (List.mapM ofJson?)

end Concept

end CatalogBrowser
