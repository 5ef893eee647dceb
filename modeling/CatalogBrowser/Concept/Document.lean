import CatalogBrowser.Concept.Groups
import CatalogBrowser.ConceptTree.Basic
import CatalogBrowser.Error
import CatalogBrowser.Json.Reader

/-!
Concepts from a file, in place of a backend.

The file holds an object of groups, either bare or under `grouped_concepts`.
-/

namespace CatalogBrowser

structure ConceptDocument where
  grouped : ConceptGroups
  tree : ConceptTree

namespace ConceptDocument

def ofGrouped (grouped : ConceptGroups) : ConceptDocument where
  grouped := grouped
  tree := .ofConcepts grouped.flatten {}

def groupsOf (json : Json) : Json := (json.member? "grouped_concepts").getD json

def ofJson? (json : Json) : Option ConceptDocument :=
  (ConceptGroups.ofJson? (groupsOf json)).map ofGrouped

def ofText (text : String) : Except Error ConceptDocument :=
  match (Json.read text).bind fun json => ofJson? json.lastWins with
  | some file => .ok file
  | none => .error (.validation "concepts" "unexpected JSON value")

def hierarchy (file : ConceptDocument) (iri : Iri) : Except Error Neighbourhood :=
  match file.tree.neighbourhood? iri with
  | some hierarchy => .ok hierarchy
  | none => .error (.notFound ("concept `" ++ iri.text ++ "`"))

end ConceptDocument

end CatalogBrowser
