import CatalogBrowser.Iri.Basic
import CatalogBrowser.Text.Occurrence

/-!
Which identifiers name a literal datatype rather than a concept.

The XML Schema namespace and the known literal types count, and so do their bare names and their
short forms with `xsd:`, `rdf:` and `rdfs:`.
-/

namespace CatalogBrowser.Iri

def schemaNamespace : String := "http://www.w3.org/2001/XMLSchema#"

def schemaTypeNames : List String :=
  ["string", "boolean", "decimal", "integer", "int", "long", "short", "byte", "float", "double",
    "date", "dateTime", "time", "duration", "anyURI"]

def literalTypes : List String :=
  schemaTypeNames.map (schemaNamespace ++ ·) ++
    ["http://www.w3.org/1999/02/22-rdf-syntax-ns#langString",
      "http://www.w3.org/2000/01/rdf-schema#Literal"]

def literalTypeNames : List String := schemaTypeNames ++ ["langString", "Literal"]

/-- The name under which a text is looked up: what follows `rdf:` or `rdfs:`, or the text itself
when it has no separator at all. -/
def datatypeName? (chars : List Char) : Option (List Char) :=
  match chars.dropWhile (· != ':') with
  | ':' :: name =>
    let space := String.ofList (chars.takeWhile (· != ':'))
    if space = "rdf" || space = "rdfs" then some name else none
  | _ => if chars.any fun c => c = '#' || c = '/' then none else some chars

def isLiteralChars (chars : List Char) : Bool :=
  Text.occursIn "XMLSchema#".toList chars || "xsd:".toList.isPrefixOf chars ||
    literalTypes.contains (String.ofList chars) ||
    match datatypeName? chars with
    | some name => literalTypeNames.contains (String.ofList name)
    | none => false

def isLiteralType (iri : Iri) : Bool := isLiteralChars iri.text.toList

end CatalogBrowser.Iri
