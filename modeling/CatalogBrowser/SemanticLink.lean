import CatalogBrowser.Concept.Json
import CatalogBrowser.Error

/-!
Links that tag an entity of the catalog with a concept.
-/

namespace CatalogBrowser

structure SemanticLink where
  id : String
  entityId : String
  entityType : String
  iri : Iri
  label : Option String := none
  deriving DecidableEq

namespace SemanticLink

def memberNames : List String := ["id", "entity_id", "entity_type", "iri", "label"]

def ofJson? (json : Json) : Option SemanticLink := do
  let record ← json.record? memberNames
  let id ← Json.required? record "id" Json.text?
  let entityId ← Json.required? record "entity_id" Json.text?
  let entityType ← Json.required? record "entity_type" Json.text?
  let iri ← Json.required? record "iri" Iri.ofJson?
  let label ← Json.optional? record "label" Json.text?
  some { id, entityId, entityType, iri, label }

def toJson (link : SemanticLink) : Json :=
  .ofMembers [
    ("id", some (.string link.id)),
    ("entity_id", some (.string link.entityId)),
    ("entity_type", some (.string link.entityType)),
    ("iri", some link.iri.toJson),
    ("label", link.label.map .string)]

end SemanticLink

structure LinkDraft where
  entityId : String
  entityType : String
  iri : String
  label : Option String := none
  deriving Repr, DecidableEq

namespace LinkDraft

def memberNames : List String := ["entity_id", "entity_type", "iri", "label"]

def ofJson? (json : Json) : Option LinkDraft := do
  let record ← json.record? memberNames
  let entityId ← Json.required? record "entity_id" Json.text?
  let entityType ← Json.required? record "entity_type" Json.text?
  let iri ← Json.required? record "iri" Json.text?
  let label ← Json.optional? record "label" Json.text?
  some { entityId, entityType, iri, label }

def toJson (link : LinkDraft) : Json :=
  .ofMembers [
    ("entity_id", some (.string link.entityId)),
    ("entity_type", some (.string link.entityType)),
    ("iri", some (.string link.iri)),
    ("label", link.label.map .string)]

def checked (link : LinkDraft) : Except Error Iri :=
  if Text.isBlankText link.entityId then .error (.validation "entity_id" "must not be empty")
  else if Text.isBlankText link.entityType then
    .error (.validation "entity_type" "must not be empty")
  else (Iri.ofText (Text.trim link.iri)).mapError fun cause => .validation "iri" cause.message

end LinkDraft

end CatalogBrowser
