import CatalogBrowser.Json.Basic

/-!
Nodes of the remote catalog: catalogs hold schemas, and schemas hold tables and views.

The children of a node are missing until it has been expanded once.  Until then the backend's hint
says whether it has any.
-/

namespace CatalogBrowser

inductive CatalogKind where
  | catalog
  | schema
  | table
  | view
  deriving Repr, DecidableEq

namespace CatalogKind

def all : List CatalogKind := [.catalog, .schema, .table, .view]

def name : CatalogKind → String
  | .catalog => "catalog"
  | .schema => "schema"
  | .table => "table"
  | .view => "view"

def ofName? (name : String) : Option CatalogKind := all.find? fun kind => kind.name = name

def ofJson? : Json → Option CatalogKind := Json.choice? ofName?

def isLeaf : CatalogKind → Bool
  | .table | .view => true
  | .catalog | .schema => false

end CatalogKind

inductive CatalogNode where
  | node (id name : String) (nodeType : CatalogKind) (hasChildren : Bool)
    (children : Option (List CatalogNode))

namespace CatalogNode

def id : CatalogNode → String
  | .node id _ _ _ _ => id

def name : CatalogNode → String
  | .node _ name _ _ _ => name

def nodeType : CatalogNode → CatalogKind
  | .node _ _ nodeType _ _ => nodeType

def hasChildren : CatalogNode → Bool
  | .node _ _ _ hasChildren _ => hasChildren

def children : CatalogNode → Option (List CatalogNode)
  | .node _ _ _ _ children => children

def new (id name : String) (nodeType : CatalogKind) : CatalogNode :=
  .node id name nodeType (!nodeType.isLeaf) none

def withHint (hasChildren : Bool) : CatalogNode → CatalogNode
  | .node id name nodeType _ children => .node id name nodeType hasChildren children

def hasExpander (node : CatalogNode) : Bool :=
  match node.children with
  | some children => !children.isEmpty
  | none => !node.nodeType.isLeaf && node.hasChildren

def members (id name : String) (nodeType : CatalogKind) (hasChildren : Bool)
    (children : Option Json) : List (String × Option Json) :=
  [("id", some (.string id)), ("name", some (.string name)),
    ("type", some (.string nodeType.name)), ("hasChildren", some (.bool hasChildren)),
    ("children", children)]

mutual

def toJson : CatalogNode → Json
  | .node id name nodeType hasChildren children =>
    .ofMembers (members id name nodeType hasChildren (childrenToJson children))

def childrenToJson : Option (List CatalogNode) → Option Json
  | none => none
  | some nodes => some (.array (listToJson nodes))

def listToJson : List CatalogNode → List Json
  | [] => []
  | first :: rest => first.toJson :: listToJson rest

end

def memberNames : List String := ["id", "name", "type", "hasChildren", "children"]

mutual

def ofJson? (json : Json) : Option CatalogNode :=
  match _ : json.record? memberNames with
  | none => none
  | some record =>
    match Json.required? record "id" Json.text?, Json.required? record "name" Json.text?,
      Json.required? record "type" CatalogKind.ofJson?,
      Json.withDefault? record "hasChildren" false Json.bool? with
    | some id, some name, some nodeType, some hasChildren =>
      match _ : record.lookup "children" with
      | none => some (.node id name nodeType hasChildren none)
      | some .null => some (.node id name nodeType hasChildren none)
      | some (.array items) =>
        (listOfJson? items).map fun children =>
          .node id name nodeType hasChildren (some children)
      | some _ => none
    | _, _, _, _ => none
termination_by sizeOf json
decreasing_by
  have inside := Json.sizeOf_lt_of_record? ‹json.record? memberNames = some record›
    (mem_of_lookup ‹record.lookup "children" = some (.array items)›)
  simp only [Json.array.sizeOf_spec] at inside
  omega

def listOfJson? (items : List Json) : Option (List CatalogNode) :=
  match items with
  | [] => some []
  | item :: rest =>
    match ofJson? item, listOfJson? rest with
    | some first, some others => some (first :: others)
    | _, _ => none
termination_by sizeOf items

end

def everyOne? (json : Json) : Option (List CatalogNode) := json.items?.bind listOfJson?

end CatalogNode

end CatalogBrowser
