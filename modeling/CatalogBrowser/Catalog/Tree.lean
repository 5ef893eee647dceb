import CatalogBrowser.Catalog.Forest
import CatalogBrowser.Catalog.Path
import CatalogBrowser.Distinct
import CatalogBrowser.Notification

/-!
A catalog tree whose children are fetched when a node is expanded for the first time.

Expanding is split at the backend call: `startExpand` marks the node as loading and says what to
fetch, `finishExpand` takes the reply.  In between the tree may change.  Every replacement of the
roots starts a new generation, and a reply for an older one no longer touches the tree.
-/

namespace CatalogBrowser

inductive FoldState where
  | collapsed
  | loading
  | expanded
  deriving Repr, DecidableEq

namespace FoldState

def all : List FoldState := [.collapsed, .loading, .expanded]

def name : FoldState → String
  | .collapsed => "collapsed"
  | .loading => "loading"
  | .expanded => "expanded"

def ofName? (name : String) : Option FoldState := all.find? fun state => state.name = name

def toJson (state : FoldState) : Json := .string state.name

end FoldState

inductive Expansion where
  | loaded (count : Nat)
  | cached
  | alreadyExpanded
  | alreadyLoading
  | leaf
  /-- The roots were replaced in the meantime, or the node is gone. -/
  | discarded
  deriving Repr, DecidableEq

def Expansion.toJson : Expansion → Json
  | .loaded count => .object [("loaded", .ofNat count)]
  | .cached => .string "Cached"
  | .alreadyExpanded => .string "AlreadyExpanded"
  | .alreadyLoading => .string "AlreadyLoading"
  | .leaf => .string "Leaf"
  | .discarded => .string "Discarded"

inductive CatalogCall where
  | catalogs
  | schemas (catalog : String)
  | tables (catalog schema : String)
  deriving Repr, DecidableEq

structure TreeRow where
  depth : Nat
  id : String
  name : String
  nodeType : CatalogKind
  state : FoldState
  expandable : Bool
  deriving Repr, DecidableEq

def TreeRow.toJson (row : TreeRow) : Json :=
  .object [("depth", .ofNat row.depth), ("id", .string row.id), ("name", .string row.name),
    ("node_type", .string row.nodeType.name), ("state", row.state.toJson),
    ("expandable", .bool row.expandable)]

structure CatalogTree where
  name : String
  nodes : List CatalogNode := []
  loading : List String := []
  expanded : List String := []
  generation : UInt64 := 0

/-- Marks a node as loading.  The mark is good for one generation of the tree. -/
structure FetchMark where
  id : String
  generation : UInt64
  deriving Repr, DecidableEq

inductive ExpandStart where
  | answered (result : Except Error Expansion)
  | fetching (mark : FetchMark) (call : Except Error (Option CatalogCall))

namespace CatalogTree

def replaceRoots (tree : CatalogTree) (nodes : List CatalogNode) : CatalogTree :=
  { name := tree.name, nodes, generation := tree.generation + 1 }

def find? (tree : CatalogTree) (id : String) : Option CatalogNode :=
  CatalogNode.findIn? id tree.nodes

def state (tree : CatalogTree) (id : String) : FoldState :=
  if id ∈ tree.loading then .loading
  else if id ∈ tree.expanded then .expanded
  else .collapsed

/-- The call for the children of a node; for a table or a view there is nothing to ask. -/
def listingCall (id : String) (nodeType : CatalogKind) : Except Error (Option CatalogCall) := do
  let path ← NodePath.ofText id
  match nodeType, path.schema with
  | .catalog, _ => return some (.schemas path.catalog)
  | .schema, some schema => return some (.tables path.catalog schema)
  | .schema, none => throw (.validation "catalog node id" ("`" ++ id ++ "` has no schema segment"))
  | .table, _ | .view, _ => return none

def startExpand (tree : CatalogTree) (id : String) : CatalogTree × ExpandStart :=
  if id ∈ tree.loading then (tree, .answered (.ok .alreadyLoading))
  else
    match tree.find? id with
    | none => (tree, .answered (.error (.notFound ("catalog node `" ++ id ++ "`"))))
    | some node =>
      if id ∈ tree.expanded then (tree, .answered (.ok .alreadyExpanded))
      else if node.nodeType.isLeaf || (!node.hasChildren && node.children.isNone) then
        (tree, .answered (.ok .leaf))
      else if node.children.isSome then
        ({ tree with expanded := addNew tree.expanded id }, .answered (.ok .cached))
      else
        ({ tree with loading := addNew tree.loading id },
          .fetching ⟨id, tree.generation⟩ (listingCall id node.nodeType))

def clearMark (tree : CatalogTree) (mark : FetchMark) : CatalogTree :=
  if tree.generation = mark.generation then
    { tree with loading := tree.loading.filter fun id => id ≠ mark.id }
  else tree

def takeListing (tree : CatalogTree) (mark : FetchMark) (children : List CatalogNode) :
    CatalogTree × Expansion :=
  if tree.generation = mark.generation then
    let tree := tree.clearMark mark
    match CatalogNode.putChildren tree.nodes mark.id children with
    | (nodes, true) =>
      ({ tree with nodes, expanded := addNew tree.expanded mark.id }, .loaded children.length)
    | (_, false) => (tree, .discarded)
  else (tree, .discarded)

def finishExpand (tree : CatalogTree) (mark : FetchMark) :
    Except Error (List CatalogNode) → CatalogTree × Except Error Expansion × List Notification
  | .ok children =>
    let (tree, outcome) := tree.takeListing mark children
    (tree, .ok outcome, [])
  | .error error =>
    (tree.clearMark mark, .error error,
      [.ofError ("Failed to load children of " ++ mark.id) error])

def finishLoad (tree : CatalogTree) :
    Except Error (List CatalogNode) → CatalogTree × Except Error Nat × List Notification
  | .ok nodes => (tree.replaceRoots nodes, .ok nodes.length, [])
  | .error error => (tree, .error error, [.ofError "Failed to load catalogs" error])

def collapse (tree : CatalogTree) (id : String) : CatalogTree × Bool :=
  if id ∈ tree.expanded then
    ({ tree with expanded := tree.expanded.filter fun other => other ≠ id }, true)
  else (tree, false)

/-! The rows that are visible: the roots and the children of expanded nodes -/

def row (tree : CatalogTree) (depth : Nat) (node : CatalogNode) : TreeRow where
  depth := depth
  id := node.id
  name := node.name
  nodeType := node.nodeType
  state := tree.state node.id
  expandable := node.hasExpander

mutual

def rowsOf (tree : CatalogTree) (depth : Nat) : CatalogNode → List TreeRow
  | .node id name nodeType hasChildren children =>
    tree.row depth (.node id name nodeType hasChildren children) ::
      if tree.state id = .expanded then tree.rowsBelow (depth + 1) children else []

def rowsBelow (tree : CatalogTree) (depth : Nat) : Option (List CatalogNode) → List TreeRow
  | none => []
  | some nodes => tree.rowsIn depth nodes

def rowsIn (tree : CatalogTree) (depth : Nat) : List CatalogNode → List TreeRow
  | [] => []
  | node :: rest => tree.rowsOf depth node ++ tree.rowsIn depth rest

end

def visibleRows (tree : CatalogTree) : List TreeRow := tree.rowsIn 0 tree.nodes

end CatalogTree

end CatalogBrowser
