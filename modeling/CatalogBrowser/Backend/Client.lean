import CatalogBrowser.Backend.Call
import CatalogBrowser.Catalog.Tree
import CatalogBrowser.Concept.Groups
import CatalogBrowser.Concept.Hierarchy
import CatalogBrowser.Config
import CatalogBrowser.Job
import CatalogBrowser.SemanticLink

/-!
The resources of the backend.

Names that are put into a path are encoded, so that a name with a slash is still one segment.
-/

namespace CatalogBrowser

structure Client where
  base : Url
  deriving DecidableEq

namespace Client

def ofConfig (config : BackendConfig) : Except Error Client :=
  match Url.ofText config.baseUrl with
  | .error cause => .error (.validation "backend.base_url" cause.message)
  | .ok base =>
    if base.rootless then
      .error (.validation "backend.base_url" ("`" ++ base.text ++ "` cannot be used as a base"))
    else .ok ⟨base⟩

def resource (client : Client) (segments : List String) : Url := client.base.withSegments segments

def get (client : Client) (segments : List String) (decode : Json → Option α) : Call α :=
  .ofJson { method := .get, url := client.resource segments } decode

/-! Semantic models -/

def readGrouped? (json : Json) : Option ConceptGroups := do
  let record ← json.record? ["grouped_concepts"]
  Json.required? record "grouped_concepts" ConceptGroups.ofJson?

def allConcepts (client : Client) : Call ConceptGroups :=
  client.get ["api", "semantic-models", "concepts-grouped"] readGrouped?

def missingConcept (iri : Iri) : Except Error α → Except Error α
  | .error (.response 404 _) => .error (.notFound ("concept `" ++ iri.text ++ "`"))
  | other => other

def hierarchy (client : Client) (iri : Iri) : Call Neighbourhood :=
  let url := (client.resource ["api", "semantic-models", "concepts", "hierarchy"]).withQueryPair
    "iri" iri.text
  let call := Call.ofJson { method := .get, url } Neighbourhood.ofJson?
  { call with read := fun answer => missingConcept iri (call.read answer) }

/-! Semantic links -/

def readLinks? (json : Json) : Option (List SemanticLink) :=
  json.items?.bind (List.mapM SemanticLink.ofJson?)

def entityLinks (client : Client) (entityType entityId : String) : Call (List SemanticLink) :=
  client.get ["api", "semantic-links", "entity", entityType, entityId] readLinks?

def conceptLinks (client : Client) (iri : Iri) : Call (List SemanticLink) :=
  client.get ["api", "semantic-links", "iri", iri.text] readLinks?

def createLink (client : Client) (link : LinkDraft) : Except Error (Call SemanticLink) := do
  let _ ← link.checked
  let url := client.resource ["api", "semantic-links", ""]
  return .ofJson { method := .post, url, body := some link.toJson } SemanticLink.ofJson?

def deleteLink (client : Client) (id : String) : Call Unit :=
  .ofSuccess { method := .delete, url := client.resource ["api", "semantic-links", id] }

/-! Catalogs and jobs -/

def catalogs (client : Client) : Call (List CatalogNode) :=
  client.get ["api", "catalogs"] CatalogNode.everyOne?

def schemas (client : Client) (catalog : String) : Call (List CatalogNode) :=
  client.get ["api", "catalogs", catalog, "schemas"] CatalogNode.everyOne?

def tables (client : Client) (catalog schema : String) : Call (List CatalogNode) :=
  client.get ["api", "catalogs", catalog, "schemas", schema, "tables"] CatalogNode.everyOne?

def list (client : Client) : CatalogCall → Call (List CatalogNode)
  | .catalogs => client.catalogs
  | .schemas catalog => client.schemas catalog
  | .tables catalog schema => client.tables catalog schema

def job (client : Client) (id : String) : Call JobStatus :=
  client.get ["api", "training-jobs", id] JobStatus.ofJson?

end Client

end CatalogBrowser
