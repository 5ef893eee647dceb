import CatalogBrowser.Catalog.Session

/-!
What each operation of a lazy tree and of its session can do.
-/

namespace CatalogBrowser

def CatalogOperation.target? : CatalogOperation → Option String
  | .load => none
  | .expand id | .toggle id => some id

namespace CatalogTree

/-- A node that has never been listed and for which a listing can be fetched. -/
structure Listable (tree : CatalogTree) (id : String) (node : CatalogNode) : Prop where
  found : tree.find? id = some node
  unlisted : node.children = none
  inner : node.nodeType.isLeaf = false
  hinted : node.hasChildren = true

theorem Listable.eq_of_find? {tree : CatalogTree} {id : String} {node other : CatalogNode}
    (listable : tree.Listable id node) (found : tree.find? id = some other) : node = other :=
  Option.some.inj (listable.found.symm.trans found)

theorem Listable.of_nodes_eq {tree other : CatalogTree} {id : String} {node : CatalogNode}
    (listable : tree.Listable id node) (nodes : other.nodes = tree.nodes) :
    other.Listable id node where
  found := by
    rw [find?, nodes]
    exact listable.found
  unlisted := listable.unlisted
  inner := listable.inner
  hinted := listable.hinted

inductive Begins (tree : CatalogTree) (id : String) : CatalogTree × ExpandStart → Prop
  | loading : id ∈ tree.loading → Begins tree id (tree, .answered (.ok .alreadyLoading))
  | unknown : id ∉ tree.loading → tree.find? id = none →
      Begins tree id (tree, .answered (.error (.notFound ("catalog node `" ++ id ++ "`"))))
  | expanded {node} : id ∉ tree.loading → tree.find? id = some node → id ∈ tree.expanded →
      Begins tree id (tree, .answered (.ok .alreadyExpanded))
  | leaf {node} : id ∉ tree.loading → tree.find? id = some node → id ∉ tree.expanded →
      node.nodeType.isLeaf = true ∨ node.hasChildren = false ∧ node.children = none →
      Begins tree id (tree, .answered (.ok .leaf))
  | cached {node children} : id ∉ tree.loading → id ∉ tree.expanded →
      tree.find? id = some node → node.nodeType.isLeaf = false → node.children = some children →
      Begins tree id ({ tree with expanded := tree.expanded ++ [id] }, .answered (.ok .cached))
  | fetching {node call} : id ∉ tree.loading → id ∉ tree.expanded → tree.Listable id node →
      listingCall id node.nodeType = .ok (some call) →
      Begins tree id ({ tree with loading := tree.loading ++ [id] },
        .fetching ⟨id, tree.generation⟩ (.ok (some call)))
  | failing {node error} : id ∉ tree.loading → id ∉ tree.expanded → tree.Listable id node →
      listingCall id node.nodeType = .error error →
      Begins tree id ({ tree with loading := tree.loading ++ [id] },
        .fetching ⟨id, tree.generation⟩ (.error error))

theorem listingCall_ne_none (id : String) {kind : CatalogKind} (inner : kind.isLeaf = false) :
    listingCall id kind ≠ .ok none := by
  unfold listingCall
  cases NodePath.ofText id with
  | error error => exact nofun
  | ok path =>
      obtain ⟨catalog, schema, object⟩ := path
      cases kind with
      | catalog => exact nofun
      | schema => cases schema <;> exact nofun
      | table | view => nomatch inner

theorem begins_of_listable {tree : CatalogTree} {id : String} {node : CatalogNode}
    (idle : id ∉ tree.loading) (closed : id ∉ tree.expanded) (listable : tree.Listable id node) :
    Begins tree id ({ tree with loading := tree.loading ++ [id] },
      .fetching ⟨id, tree.generation⟩ (listingCall id node.nodeType)) := by
  cases listing : listingCall id node.nodeType with
  | error error => exact .failing idle closed listable listing
  | ok asked =>
      cases asked with
      | some call => exact .fetching idle closed listable listing
      | none => exact absurd listing (listingCall_ne_none id listable.inner)

theorem startExpand_begins (tree : CatalogTree) (id : String) :
    Begins tree id (tree.startExpand id) := by
  unfold startExpand
  by_cases loading : id ∈ tree.loading
  · simp only [loading, if_true]
    exact .loading loading
  · simp only [loading, if_false]
    cases found : tree.find? id with
    | none => exact .unknown loading found
    | some node =>
        by_cases expanded : id ∈ tree.expanded
        · simp only [expanded, if_true]
          exact .expanded loading found expanded
        · simp only [expanded, if_false, addNew, loading]
          cases inner : node.nodeType.isLeaf with
          | true => exact .leaf loading found expanded (Or.inl inner)
          | false =>
              cases children : node.children with
              | some nodes => simpa using .cached loading expanded found inner children
              | none =>
                  cases hinted : node.hasChildren with
                  | false =>
                      simpa using .leaf loading found expanded (Or.inr ⟨hinted, children⟩)
                  | true =>
                      have listable : tree.Listable id node := ⟨found, children, inner, hinted⟩
                      simpa using begins_of_listable loading expanded listable

theorem clearMark_of_ne {tree : CatalogTree} {mark : FetchMark}
    (stale : tree.generation ≠ mark.generation) : tree.clearMark mark = tree := by
  simp [clearMark, stale]

@[simp] theorem clearMark_nodes (tree : CatalogTree) (mark : FetchMark) :
    (tree.clearMark mark).nodes = tree.nodes := by
  unfold clearMark
  split <;> rfl

@[simp] theorem clearMark_expanded (tree : CatalogTree) (mark : FetchMark) :
    (tree.clearMark mark).expanded = tree.expanded := by
  unfold clearMark
  split <;> rfl

@[simp] theorem clearMark_generation (tree : CatalogTree) (mark : FetchMark) :
    (tree.clearMark mark).generation = tree.generation := by
  unfold clearMark
  split <;> rfl

theorem mem_loading_of_clearMark {tree : CatalogTree} {mark : FetchMark} {id : String}
    (marked : id ∈ (tree.clearMark mark).loading) : id ∈ tree.loading := by
  unfold clearMark at marked
  split at marked
  · exact (List.mem_filter.mp marked).1
  · exact marked

@[simp] theorem collapse_nodes (tree : CatalogTree) (id : String) :
    (tree.collapse id).1.nodes = tree.nodes := by
  unfold collapse
  split <;> rfl

@[simp] theorem collapse_loading (tree : CatalogTree) (id : String) :
    (tree.collapse id).1.loading = tree.loading := by
  unfold collapse
  split <;> rfl

@[simp] theorem collapse_generation (tree : CatalogTree) (id : String) :
    (tree.collapse id).1.generation = tree.generation := by
  unfold collapse
  split <;> rfl

theorem mem_expanded_of_collapse {tree : CatalogTree} {id other : String}
    (shown : other ∈ (tree.collapse id).1.expanded) : other ∈ tree.expanded := by
  unfold collapse at shown
  split at shown
  · exact (List.mem_filter.mp shown).1
  · exact shown

inductive Takes (tree : CatalogTree) (mark : FetchMark) (children : List CatalogNode) :
    CatalogTree × Expansion → Prop
  | loaded {nodes} : tree.generation = mark.generation →
      CatalogNode.putChildren tree.nodes mark.id children = (nodes, true) →
      Takes tree mark children
        ({ tree.clearMark mark with nodes, expanded := addNew tree.expanded mark.id },
          .loaded children.length)
  | discarded : tree.generation = mark.generation →
      (CatalogNode.putChildren tree.nodes mark.id children).2 = false →
      Takes tree mark children (tree.clearMark mark, .discarded)
  | stale : tree.generation ≠ mark.generation →
      Takes tree mark children (tree.clearMark mark, .discarded)

theorem takeListing_takes (tree : CatalogTree) (mark : FetchMark) (children : List CatalogNode) :
    Takes tree mark children (tree.takeListing mark children) := by
  unfold takeListing
  by_cases current : tree.generation = mark.generation
  · simp only [current, if_true, clearMark_nodes, clearMark_expanded]
    cases put : CatalogNode.putChildren tree.nodes mark.id children with
    | mk nodes found =>
        cases found with
        | true => exact .loaded current put
        | false => exact .discarded current (by rw [put])
  · simp only [current, if_false]
    have unchanged : Takes tree mark children (tree.clearMark mark, .discarded) := .stale current
    rwa [clearMark_of_ne current] at unchanged

end CatalogTree

theorem CatalogSession.start_cases (session : CatalogSession) (number : Nat)
    {operation : CatalogOperation} {id : String} (target : operation.target? = some id) :
    id ∈ session.tree.expanded ∧ session.start number operation =
        ((session.collapse id).1, .finished ⟨.ok (.state .collapsed), []⟩) ∨
      ∃ toggling, session.start number operation = session.startExpand number id toggling := by
  cases operation with
  | load => simp [CatalogOperation.target?] at target
  | expand other =>
      obtain rfl : other = id := Option.some.inj target
      exact Or.inr ⟨false, rfl⟩
  | toggle other =>
      obtain rfl : other = id := Option.some.inj target
      by_cases shown : other ∈ session.tree.expanded
      · refine Or.inl ⟨shown, ?_⟩
        simp [start, collapse, CatalogTree.collapse, shown]
      · refine Or.inr ⟨true, ?_⟩
        simp [start, CatalogTree.collapse, shown]

end CatalogBrowser
