import CatalogBrowser.Distinct
import CatalogBrowser.Iri.Basic

/-!
Concepts: the nodes of the semantic graph as the backend delivers them.

A concept states its parents and children by identifier; nothing says that those are loaded too.
-/

namespace CatalogBrowser

inductive ConceptType where
  | ontologyClass
  | concept
  | property
  /-- A group of roots in the displayed tree, never part of the data. -/
  | sourceGroup
  deriving Repr, DecidableEq

namespace ConceptType

def all : List ConceptType := [.ontologyClass, .concept, .property, .sourceGroup]

def name : ConceptType → String
  | .ontologyClass => "class"
  | .concept => "concept"
  | .property => "property"
  | .sourceGroup => "source_group"

def ofName? (name : String) : Option ConceptType := all.find? fun kind => kind.name = name

theorem ofName?_name (kind : ConceptType) : ofName? kind.name = some kind := by
  cases kind <;> decide

end ConceptType

structure Concept where
  iri : Iri
  label : Option String := none
  conceptType : ConceptType
  parents : List Iri := []
  children : List Iri := []
  source : Option SourceId := none
  domain : Option Iri := none
  range : Option Iri := none
  comment : Option String := none
  deriving DecidableEq

namespace Concept

def addParent (concept : Concept) (parent : Iri) : Concept :=
  { concept with parents := addNew concept.parents parent }

def addChild (concept : Concept) (child : Iri) : Concept :=
  { concept with children := addNew concept.children child }

def isProperty (concept : Concept) : Bool := concept.conceptType = .property

def shownLabel (concept : Concept) : String :=
  match concept.label with
  | some label => if Text.isBlankText label then concept.iri.localName else label
  | none => concept.iri.localName

def addFirst (concepts : List Concept) (concept : Concept) : List Concept :=
  if concepts.any fun earlier => earlier.iri = concept.iri then concepts
  else concepts ++ [concept]

def firstOfEach (concepts : List Concept) : List Concept := concepts.foldl addFirst []

end Concept

end CatalogBrowser
